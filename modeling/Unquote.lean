import Unquote.Main
import Unquote.Reader
import Unquote.Checked.Scan
import Unquote.Proofs.Body.Cut
import Unquote.Proofs.Grammar.Token
import Unquote.Proofs.Token.Fault
import Unquote.Proofs.Token.Common
import Unquote.Proofs.Token.Concatenation
import Unquote.Proofs.Token.Enclosed
import Unquote.Proofs.Token.Extension
import Unquote.Proofs.Token.Provenance
import Unquote.Proofs.Checked.Run
import Unquote.Proofs.Text.Boundary
import Unquote.Proofs.Body.Surrogate
import Unquote.Proofs.Token.Feature
import Unquote.Proofs.Token.Isolated
import Unquote.Proofs.Token.Cooked
import Unquote.Proofs.Token.Coverage
import Unquote.Proofs.Token.Report
import Unquote.Proofs.Token.Mark
import Unquote.Proofs.Token.Numbered
import Unquote.Proofs.Token.Quotes
import Unquote.Proofs.Outcome.Delivery
import Unquote.Proofs.Text.Numeral
import Unquote.Proofs.Text.Quoted
import Unquote.Proofs.Text.Touched
import Unquote.Proofs.Token.Shown
import Unquote.Proofs.Token.Table
import Unquote.Proofs.Json.Grammar
import Unquote.Proofs.Json.Written
import Unquote.Proofs.Token.Record
import Unquote.Proofs.Text.Adjoint
import Unquote.Proofs.Grammar.Unicode
import Unquote.Proofs.Escape.Legacy
import Unquote.Proofs.Escape.Locality
import Unquote.Proofs.Escape.Session
