import Mathlib.Algebra.Group.Nat.Defs
import Unquote.Json
import Unquote.Proofs.Text.Boundary
import Unquote.Proofs.Text.Numeral

/-! The grammar of JSON texts, told apart from any writing or reading. Each part of it relates a text,
what the beginning of the text stands for, and the rest. The values are those of `Json`, so nothing
stands for a number that is not natural, or for text with half of a pair in it. A text stands for one
value at most. -/

namespace Unquote.Json.Grammar

def IsSpace (char : Char) : Prop := char = ' ' ∨ char = '\t' ∨ char = '\n' ∨ char = '\r'

/-- White space, if any, before the rest. -/
def Blank (text rest : List Char) : Prop :=
  ∃ spaces, (∀ char ∈ spaces, IsSpace char) ∧ text = spaces ++ rest

def Digits (chars : List Char) : Prop := chars ≠ [] ∧ ∀ char ∈ chars, char.isDigit

/-- The digits before the point. A zero does not stand before other digits. -/
inductive Whole : List Char → List Char → List Char → Prop
  | zero (rest : List Char) : Whole ('0' :: rest) ['0'] rest
  | digits {first : Char} {others : List Char} (digits : Digits (first :: others))
    (nonzero : first ≠ '0') (rest : List Char) :
    Whole (first :: others ++ rest) (first :: others) rest

inductive Fraction : List Char → List Char → List Char → Prop
  | absent (rest : List Char) : Fraction rest [] rest
  | digits {after : List Char} (digits : Digits after) (rest : List Char) :
    Fraction ('.' :: after ++ rest) after rest

def number (digits : List Char) : Nat := Nat.ofDigitChars 10 digits 0

inductive Exponent : List Char → Int → List Char → Prop
  | absent (rest : List Char) : Exponent rest 0 rest
  | digits {mark : Char} {sign power : List Char} (isMark : mark = 'e' ∨ mark = 'E')
    (isSign : sign ∈ [[], ['+'], ['-']]) (digits : Digits power) (rest : List Char) :
    Exponent (mark :: (sign ++ (power ++ rest)))
      (if sign = ['-'] then -number power else number power) rest

/-- A number that is a natural one, in whatever way it is written. -/
inductive Number : List Char → Nat → List Char → Prop
  | written {sign text next more rest whole after : List Char} {exponent : Int} {value : Nat}
    (isSign : sign ∈ [[], ['-']]) (isWhole : Whole text whole next)
    (isFraction : Fraction next after more) (isExponent : Exponent more exponent rest)
    (scaled : number (whole ++ after) * 10 ^ exponent.toNat =
      value * 10 ^ (after.length + (-exponent).toNat))
    (natural : sign = ['-'] → value = 0) : Number (sign ++ text) value rest

def escapes : List (Char × CodeUnit) :=
  [('\"', 0x22), ('\\', 0x5C), ('/', 0x2F), ('b', 0x08), ('f', 0x0C), ('n', 0x0A), ('r', 0x0D),
    ('t', 0x09)]

def hexValue? (char : Char) : Option Nat :=
  if '0' ≤ char ∧ char ≤ '9' then some (char.toNat - 0x30)
  else if 'A' ≤ char ∧ char ≤ 'F' then some (char.toNat - 0x37)
  else if 'a' ≤ char ∧ char ≤ 'f' then some (char.toNat - 0x57)
  else none

/-- The inside of a string and its closing quote, with the units of UTF-16 that it spells. -/
inductive Inside : List Char → List CodeUnit → List Char → Prop
  | close (rest : List Char) : Inside ('\"' :: rest) [] rest
  | bare {char : Char} {text rest : List Char} {units : List CodeUnit}
    (notControl : 0x20 ≤ char.toNat) (notQuote : char ≠ '\"') (notBackslash : char ≠ '\\')
    (more : Inside text units rest) :
    Inside (char :: text) (Utf16.encodeCodePoint char.toNat ++ units) rest
  | escape {letter : Char} {unit : CodeUnit} {text rest : List Char} {units : List CodeUnit}
    (named : escapes.lookup letter = some unit) (more : Inside text units rest) :
    Inside ('\\' :: letter :: text) (unit :: units) rest
  | unit {first second third fourth : Char} {text rest : List Char} {units : List CodeUnit}
    {a b c d : Nat} (isFirst : hexValue? first = some a) (isSecond : hexValue? second = some b)
    (isThird : hexValue? third = some c) (isFourth : hexValue? fourth = some d)
    (more : Inside text units rest) :
    Inside ('\\' :: 'u' :: first :: second :: third :: fourth :: text)
      (.ofNat (((a * 16 + b) * 16 + c) * 16 + d) :: units) rest

mutual

/-- A value, and what comes after it. -/
inductive Value : List Char → Json → List Char → Prop
  | null (rest : List Char) : Value ('n' :: 'u' :: 'l' :: 'l' :: rest) .null rest
  | boolTrue (rest : List Char) : Value ('t' :: 'r' :: 'u' :: 'e' :: rest) (.bool true) rest
  | boolFalse (rest : List Char) :
    Value ('f' :: 'a' :: 'l' :: 's' :: 'e' :: rest) (.bool false) rest
  | number {text rest : List Char} {value : Nat} (isNumber : Number text value rest) :
    Value text (.number value) rest
  | string {text rest : List Char} {value : String}
    (inside : Inside text (Utf16.encode value) rest) : Value ('\"' :: text) (.string value) rest
  | emptyArray {text rest : List Char} (blank : Blank text (']' :: rest)) :
    Value ('[' :: text) (.array []) rest
  | array {text start next rest : List Char} {item : Json} {items : List Json}
    (blank : Blank text start) (first : Value start item next) (others : Items next items rest) :
    Value ('[' :: text) (.array (item :: items)) rest
  | emptyObject {text rest : List Char} (blank : Blank text ('\x7d' :: rest)) :
    Value ('\x7b' :: text) (.object []) rest
  | object {text start next rest : List Char} {key : String} {value : Json}
    {members : List (String × Json)} (blank : Blank text start)
    (first : Member start key value next) (others : Members next members rest) :
    Value ('\x7b' :: text) (.object ((key, value) :: members)) rest

inductive Items : List Char → List Json → List Char → Prop
  | close {text rest : List Char} (blank : Blank text (']' :: rest)) : Items text [] rest
  | more {text after start next rest : List Char} {item : Json} {items : List Json}
    (blank : Blank text (',' :: after)) (spaced : Blank after start) (first : Value start item next)
    (others : Items next items rest) : Items text (item :: items) rest

inductive Member : List Char → String → Json → List Char → Prop
  | named {text after next start rest : List Char} {key : String} {value : Json}
    (inside : Inside text (Utf16.encode key) after) (blank : Blank after (':' :: next))
    (spaced : Blank next start) (isValue : Value start value rest) :
    Member ('\"' :: text) key value rest

inductive Members : List Char → List (String × Json) → List Char → Prop
  | close {text rest : List Char} (blank : Blank text ('\x7d' :: rest)) : Members text [] rest
  | more {text after start next rest : List Char} {key : String} {value : Json}
    {members : List (String × Json)} (blank : Blank text (',' :: after))
    (spaced : Blank after start) (first : Member start key value next)
    (others : Members next members rest) : Members text ((key, value) :: members) rest

end

def Document (text : List Char) (value : Json) : Prop :=
  ∃ start rest, Blank text start ∧ Value start value rest ∧ Blank rest []

/-! A text stands for one value, since what comes next tells by its first character what it is. -/

/-- Nothing that could go on with a number. -/
def Stops (rest : List Char) : Prop :=
  ∀ char ∈ rest.head?, ¬char.isDigit ∧ char ≠ '.' ∧ char ≠ 'e' ∧ char ≠ 'E'

theorem Digits.head {digits : List Char} (isDigits : Digits digits) (rest : List Char) :
    ∃ first others, digits ++ rest = first :: others ∧ first.isDigit := by
  obtain ⟨nonempty, all⟩ := isDigits
  cases digits with
  | nil => exact absurd rfl nonempty
  | cons first others => exact ⟨first, others ++ rest, rfl, all first List.mem_cons_self⟩

theorem sign_append_inj {sign other tail remains : List Char} (isSign : sign ∈ [[], ['+'], ['-']])
    (isOther : other ∈ [[], ['+'], ['-']])
    (digit : ∃ first others, tail = first :: others ∧ first.isDigit)
    (numeral : ∃ first others, remains = first :: others ∧ first.isDigit)
    (same : sign ++ tail = other ++ remains) : sign = other ∧ tail = remains := by
  have bare {sign : List Char} (isSign : sign ∈ [[], ['+'], ['-']]) :
      ∀ char ∈ sign, ¬char.isDigit := by
    have all : sign.all (! ·.isDigit) := by
      revert sign
      decide
    simpa using all
  have digits {tail : List Char}
      (digit : ∃ first others, tail = first :: others ∧ first.isDigit) :
      ∀ char ∈ tail.head?, ¬¬char.isDigit := by
    obtain ⟨first, others, rfl, digit⟩ := digit
    exact fun char same other => other (Option.some.inj same ▸ digit)
  exact Text.append_inj_of_run (bare isSign) (bare isOther) (digits digit) (digits numeral) same

theorem Exponent.head {text rest : List Char} {exponent : Int}
    (isExponent : Exponent text exponent rest) (stop : Stops rest) :
    ∀ char ∈ text.head?, ¬char.isDigit ∧ char ≠ '.' := by
  cases isExponent with
  | absent => exact fun char first => ⟨(stop char first).1, (stop char first).2.1⟩
  | digits isMark =>
    intro char first
    obtain rfl := Option.some.inj first
    rcases isMark with rfl | rfl <;> decide

theorem Exponent.unique {text other rest more : List Char} {exponent power : Int}
    (first : Exponent text exponent rest) (second : Exponent other power more) (stop : Stops rest)
    (halt : Stops more) (same : text = other) : exponent = power ∧ rest = more := by
  have clash {mark : Char} (isMark : mark = 'e' ∨ mark = 'E') {after : List Char} :
      ¬Stops (mark :: after) := by
    intro stop
    obtain ⟨-, -, notSmall, notCapital⟩ := stop mark rfl
    exact isMark.elim notSmall notCapital
  cases first with
  | absent =>
    cases second with
    | absent => exact ⟨rfl, same⟩
    | digits isMark => exact absurd (same ▸ stop) (clash isMark)
  | digits isMark isSign digits =>
    cases second with
    | absent => exact absurd (same ▸ halt) (clash isMark)
    | digits isMark' isSign' digits' =>
      obtain ⟨rfl, tails⟩ := sign_append_inj isSign isSign' (digits.head _) (digits'.head _)
        (List.cons.inj same).2
      obtain ⟨rfl, after⟩ := Text.append_inj_of_run digits.2 digits'.2
        (fun char first => (stop char first).1) (fun char first => (halt char first).1) tails
      exact ⟨rfl, after⟩

theorem Fraction.head {text rest after : List Char} (isFraction : Fraction text after rest)
    (stop : ∀ char ∈ rest.head?, ¬char.isDigit) : ∀ char ∈ text.head?, ¬char.isDigit := by
  cases isFraction with
  | absent => exact stop
  | digits =>
    intro char first
    obtain rfl := Option.some.inj first
    decide

theorem Fraction.unique {text other rest more after others : List Char}
    (first : Fraction text after rest) (second : Fraction other others more)
    (stop : ∀ char ∈ rest.head?, ¬char.isDigit ∧ char ≠ '.')
    (halt : ∀ char ∈ more.head?, ¬char.isDigit ∧ char ≠ '.') (same : text = other) :
    after = others ∧ rest = more := by
  cases first with
  | absent =>
    cases second with
    | absent => exact ⟨rfl, same⟩
    | digits => exact absurd rfl (stop '.' (same ▸ rfl)).2
  | digits digits =>
    cases second with
    | absent => exact absurd rfl (halt '.' (same ▸ rfl)).2
    | digits digits' =>
      exact Text.append_inj_of_run digits.2 digits'.2 (fun char first => (stop char first).1)
        (fun char first => (halt char first).1) (List.cons.inj same).2

theorem Whole.head {text rest whole : List Char} (isWhole : Whole text whole rest) :
    ∃ first others, text = first :: others ∧ first.isDigit := by
  cases isWhole with
  | zero rest => exact ⟨'0', rest, rfl, by decide⟩
  | digits digits => exact digits.head _

theorem Whole.unique {text other rest more whole others : List Char}
    (first : Whole text whole rest) (second : Whole other others more)
    (stop : ∀ char ∈ rest.head?, ¬char.isDigit) (halt : ∀ char ∈ more.head?, ¬char.isDigit)
    (same : text = other) : whole = others ∧ rest = more := by
  cases first with
  | zero =>
    cases second with
    | zero => exact ⟨rfl, (List.cons.inj same).2⟩
    | digits digits nonzero => exact absurd (List.cons.inj same).1.symm nonzero
  | digits digits nonzero =>
    cases second with
    | zero => exact absurd (List.cons.inj same).1 nonzero
    | digits digits' nonzero' => exact Text.append_inj_of_run digits.2 digits'.2 stop halt same

/-- A number ends where nothing that could go on with it stands. Its parts end one by one, and each
is known from there on. -/
theorem Number.unique {text other rest more : List Char} {value result : Nat}
    (first : Number text value rest) (second : Number other result more) (stop : Stops rest)
    (halt : Stops more) (same : text = other) : value = result ∧ rest = more := by
  have isSign {sign : List Char} (minus : sign ∈ [[], ['-']]) : sign ∈ [[], ['+'], ['-']] :=
    List.mem_cons.2 ((List.mem_cons.1 minus).imp_right (List.mem_cons_of_mem _))
  cases first with
  | written minus isWhole isFraction isExponent scaled =>
    cases second with
    | written minus' isWhole' isFraction' isExponent' scaled' =>
      have point := isExponent.head stop
      have point' := isExponent'.head halt
      have after := isFraction.head fun char first => (point char first).1
      have after' := isFraction'.head fun char first => (point' char first).1
      obtain ⟨-, rfl⟩ :=
        sign_append_inj (isSign minus) (isSign minus') isWhole.head isWhole'.head same
      obtain ⟨rfl, rfl⟩ := isWhole.unique isWhole' after after' rfl
      obtain ⟨rfl, rfl⟩ := isFraction.unique isFraction' point point' rfl
      obtain ⟨rfl, rfl⟩ := isExponent.unique isExponent' stop halt rfl
      exact ⟨Nat.eq_of_mul_eq_mul_right (Nat.pow_pos (by decide)) (scaled.symm.trans scaled'), rfl⟩

theorem Inside.unique {text rest more : List Char} {units others : List CodeUnit}
    (first : Inside text units rest) (second : Inside text others more) :
    units = others ∧ rest = more := by
  have unnamed {unit : CodeUnit} : escapes.lookup 'u' ≠ some unit := nofun
  induction first generalizing others with
  | close rest =>
    cases second with
    | close => exact ⟨rfl, rfl⟩
    | bare _ notQuote => exact absurd rfl notQuote
  | bare notControl notQuote notBackslash more ih =>
    cases second with
    | close => exact absurd rfl notQuote
    | bare notControl' notQuote' notBackslash' more' =>
      obtain ⟨rfl, after⟩ := ih more'
      exact ⟨rfl, after⟩
    | escape | unit => exact absurd rfl notBackslash
  | escape named more ih =>
    cases second with
    | bare _ _ notBackslash => exact absurd rfl notBackslash
    | escape named' more' =>
      obtain ⟨rfl, after⟩ := ih more'
      obtain rfl := Option.some.inj (named.symm.trans named')
      exact ⟨rfl, after⟩
    | unit => exact absurd named unnamed
  | unit isFirst isSecond isThird isFourth more ih =>
    cases second with
    | bare _ _ notBackslash => exact absurd rfl notBackslash
    | escape named' => exact absurd named' unnamed
    | unit isFirst' isSecond' isThird' isFourth' more' =>
      obtain ⟨rfl, after⟩ := ih more'
      obtain rfl := Option.some.inj (isFirst.symm.trans isFirst')
      obtain rfl := Option.some.inj (isSecond.symm.trans isSecond')
      obtain rfl := Option.some.inj (isThird.symm.trans isThird')
      obtain rfl := Option.some.inj (isFourth.symm.trans isFourth')
      exact ⟨rfl, after⟩

def Solid (rest : List Char) : Prop := ∀ char ∈ rest.head?, ¬IsSpace char

theorem solid_cons {char : Char} (solid : ¬IsSpace char) (rest : List Char) :
    Solid (char :: rest) :=
  fun _ first => Option.some.inj first ▸ solid

theorem Blank.refl (rest : List Char) : Blank rest rest :=
  ⟨[], List.forall_mem_nil _, rfl⟩

theorem Blank.unique {text rest more : List Char} (first : Blank text rest)
    (second : Blank text more) (solid : Solid rest) (firm : Solid more) : rest = more := by
  obtain ⟨spaces, all, rfl⟩ := first
  obtain ⟨others, each, same⟩ := second
  exact (Text.append_inj_of_run all each solid firm same).2

theorem Blank.stops {text rest : List Char} (blank : Blank text rest) (stop : Stops rest) :
    Stops text := by
  obtain ⟨spaces, all, rfl⟩ := blank
  cases spaces with
  | nil => exact stop
  | cons space spaces =>
    intro char first
    obtain rfl := Option.some.inj first
    rcases all _ List.mem_cons_self with rfl | rfl | rfl | rfl <;> decide

def Leads (char : Char) : Prop := char ∈ ['n', 't', 'f', '\"', '[', '\x7b', '-'] ∨ char.isDigit

instance (char : Char) : Decidable (Leads char) := inferInstanceAs (Decidable (_ ∨ _))

theorem Number.lead {text rest : List Char} {value : Nat} (isNumber : Number text value rest) :
    ∃ first others, text = first :: others ∧ (first = '-' ∨ first.isDigit) := by
  cases isNumber with
  | written isSign isWhole =>
    rcases List.mem_cons.1 isSign with rfl | isSign
    · obtain ⟨first, others, rfl, digit⟩ := isWhole.head
      exact ⟨first, others, rfl, Or.inr digit⟩
    · obtain rfl := List.mem_singleton.1 isSign
      exact ⟨'-', _, rfl, Or.inl rfl⟩

theorem Value.lead {text rest : List Char} {value : Json} (isValue : Value text value rest) :
    ∃ first others, text = first :: others ∧ Leads first := by
  cases isValue with
  | number isNumber =>
    obtain ⟨first, others, same, lead⟩ := isNumber.lead
    refine ⟨first, others, same, lead.imp_left fun minus => ?_⟩
    rw [minus]
    decide
  | _ => exact ⟨_, _, rfl, by decide⟩

theorem not_number {char : Char} (notMinus : char ≠ '-') (notDigit : ¬char.isDigit)
    {text rest : List Char} {value : Nat} : ¬Number (char :: text) value rest := by
  intro isNumber
  obtain ⟨first, others, same, lead⟩ := isNumber.lead
  obtain ⟨rfl, -⟩ := List.cons.inj same
  exact lead.elim notMinus notDigit

theorem Value.solid {text rest : List Char} {value : Json} (isValue : Value text value rest) :
    Solid text := by
  obtain ⟨first, others, rfl, lead⟩ := isValue.lead
  refine solid_cons (fun space => ?_) others
  rcases space with rfl | rfl | rfl | rfl <;> exact absurd lead (by decide)

theorem Member.solid {text rest : List Char} {key : String} {value : Json}
    (isMember : Member text key value rest) : Solid text := by
  cases isMember with
  | named => exact solid_cons (by unfold IsSpace; decide) _

def IsMark (char : Char) : Prop := char = ',' ∨ char = ':' ∨ char = ']' ∨ char = '\x7d'

instance (char : Char) : Decidable (IsMark char) := inferInstanceAs (Decidable (_ ∨ _))

theorem IsMark.not_space {char : Char} (isMark : IsMark char) : ¬IsSpace char := by
  unfold IsSpace
  rcases isMark with rfl | rfl | rfl | rfl <;> decide

theorem IsMark.stops {char : Char} (isMark : IsMark char) (rest : List Char) :
    Stops (char :: rest) := by
  have mark : ¬char.isDigit ∧ char ≠ '.' ∧ char ≠ 'e' ∧ char ≠ 'E' := by
    rcases isMark with rfl | rfl | rfl | rfl <;> decide
  exact fun first same => Option.some.inj same ▸ mark

theorem Blank.mark_unique {text rest more : List Char} {mark other : Char}
    (first : Blank text (mark :: rest)) (second : Blank text (other :: more))
    (isMark : IsMark mark) (isOther : IsMark other) : mark = other ∧ rest = more :=
  List.cons.inj (first.unique second (solid_cons isMark.not_space rest)
    (solid_cons isOther.not_space more))

theorem Value.not_close {text start next rest : List Char} {item : Json} (blank : Blank text start)
    (isItem : Value start item next) : ¬Blank text (']' :: rest) := by
  intro empty
  have close : IsMark ']' := by decide
  obtain rfl := blank.unique empty isItem.solid (solid_cons close.not_space rest)
  obtain ⟨first, others, same, lead⟩ := isItem.lead
  obtain ⟨rfl, -⟩ := List.cons.inj same
  exact absurd lead (by decide)

theorem Member.not_close {text start next rest : List Char} {key : String} {value : Json}
    (blank : Blank text start) (isMember : Member start key value next) :
    ¬Blank text ('\x7d' :: rest) := by
  intro empty
  have close : IsMark '\x7d' := by decide
  obtain rfl := blank.unique empty isMember.solid (solid_cons close.not_space rest)
  contradiction

theorem Items.stops {text rest : List Char} {items : List Json} (areItems : Items text items rest) :
    Stops text := by
  cases areItems with
  | close blank => exact blank.stops (IsMark.stops (by decide) _)
  | more blank => exact blank.stops (IsMark.stops (by decide) _)

theorem Members.stops {text rest : List Char} {members : List (String × Json)}
    (areMembers : Members text members rest) : Stops text := by
  cases areMembers with
  | close blank => exact blank.stops (IsMark.stops (by decide) _)
  | more blank => exact blank.stops (IsMark.stops (by decide) _)

/-! The induction is on the text as the grammar takes it apart. The first character of a value
tells a number from the rest, and the next one after white space an empty array from another. -/

mutual

theorem Value.unique {text rest more : List Char} {value other : Json}
    (first : Value text value rest) (second : Value text other more) (stop : Stops rest) (halt : Stops more) :
    value = other ∧ rest = more := by
  match first with
  | .null _ | .boolTrue _ | .boolFalse _ =>
    cases second with
    | number isNumber => exact absurd isNumber (not_number (by decide) (by decide))
    | _ => exact ⟨rfl, rfl⟩
  | .number isNumber =>
    cases second with
    | number isNumber' =>
      obtain ⟨rfl, rfl⟩ := isNumber.unique isNumber' stop halt rfl
      exact ⟨rfl, rfl⟩
    | _ => exact absurd isNumber (not_number (by decide) (by decide))
  | .string inside =>
    cases second with
    | string inside' =>
      obtain ⟨same, rfl⟩ := inside.unique inside'
      exact ⟨congrArg Json.string (Utf16.encode_inj same), rfl⟩
    | number isNumber => exact absurd isNumber (not_number (by decide) (by decide))
  | .emptyArray blank =>
    cases second with
    | emptyArray blank' => exact ⟨rfl, (blank.mark_unique blank' (by decide) (by decide)).2⟩
    | array blank' isItem' => exact absurd blank (isItem'.not_close blank')
    | number isNumber => exact absurd isNumber (not_number (by decide) (by decide))
  | .array blank isItem others =>
    cases second with
    | emptyArray blank' => exact absurd blank' (isItem.not_close blank)
    | array blank' isItem' others' =>
      rw [blank'.unique blank isItem'.solid isItem.solid] at isItem'
      obtain ⟨rfl, ends⟩ := isItem.unique isItem' others.stops others'.stops
      rw [← ends] at others'
      obtain ⟨rfl, rfl⟩ := others.unique others'
      exact ⟨rfl, rfl⟩
    | number isNumber => exact absurd isNumber (not_number (by decide) (by decide))
  | .emptyObject blank =>
    cases second with
    | emptyObject blank' => exact ⟨rfl, (blank.mark_unique blank' (by decide) (by decide)).2⟩
    | object blank' isMember' => exact absurd blank (isMember'.not_close blank')
    | number isNumber => exact absurd isNumber (not_number (by decide) (by decide))
  | .object blank isMember others =>
    cases second with
    | emptyObject blank' => exact absurd blank' (isMember.not_close blank)
    | object blank' isMember' others' =>
      rw [blank'.unique blank isMember'.solid isMember.solid] at isMember'
      obtain ⟨rfl, rfl, ends⟩ := isMember.unique isMember' others.stops others'.stops
      rw [← ends] at others'
      obtain ⟨rfl, rfl⟩ := others.unique others'
      exact ⟨rfl, rfl⟩
    | number isNumber => exact absurd isNumber (not_number (by decide) (by decide))
termination_by structural first

theorem Items.unique {text rest more : List Char} {items others : List Json}
    (first : Items text items rest) (second : Items text others more) :
    items = others ∧ rest = more := by
  match first with
  | .close blank =>
    cases second with
    | close blank' => exact ⟨rfl, (blank.mark_unique blank' (by decide) (by decide)).2⟩
    | more blank' => exact nomatch (blank.mark_unique blank' (by decide) (by decide)).1
  | .more blank spaced isItem tail =>
    cases second with
    | close blank' => exact nomatch (blank.mark_unique blank' (by decide) (by decide)).1
    | more blank' spaced' isItem' tail' =>
      rw [← (blank.mark_unique blank' (by decide) (by decide)).2] at spaced'
      rw [spaced'.unique spaced isItem'.solid isItem.solid] at isItem'
      obtain ⟨rfl, ends⟩ := isItem.unique isItem' tail.stops tail'.stops
      rw [← ends] at tail'
      obtain ⟨rfl, rfl⟩ := tail.unique tail'
      exact ⟨rfl, rfl⟩
termination_by structural first

theorem Member.unique {text rest more : List Char} {key name : String} {value other : Json}
    (first : Member text key value rest) (second : Member text name other more) (stop : Stops rest)
    (halt : Stops more) : key = name ∧ value = other ∧ rest = more := by
  match first with
  | .named inside blank spaced isValue =>
    cases second with
    | named inside' blank' spaced' isValue' =>
      obtain ⟨keys, ends⟩ := inside.unique inside'
      rw [← ends] at blank'
      rw [← (blank.mark_unique blank' (by decide) (by decide)).2] at spaced'
      rw [spaced'.unique spaced isValue'.solid isValue.solid] at isValue'
      obtain ⟨rfl, rfl⟩ := isValue.unique isValue' stop halt
      exact ⟨Utf16.encode_inj keys, rfl, rfl⟩
termination_by structural first

theorem Members.unique {text rest more : List Char} {members others : List (String × Json)}
    (first : Members text members rest) (second : Members text others more) :
    members = others ∧ rest = more := by
  match first with
  | .close blank =>
    cases second with
    | close blank' => exact ⟨rfl, (blank.mark_unique blank' (by decide) (by decide)).2⟩
    | more blank' => exact nomatch (blank.mark_unique blank' (by decide) (by decide)).1
  | .more blank spaced isMember tail =>
    cases second with
    | close blank' => exact nomatch (blank.mark_unique blank' (by decide) (by decide)).1
    | more blank' spaced' isMember' tail' =>
      rw [← (blank.mark_unique blank' (by decide) (by decide)).2] at spaced'
      rw [spaced'.unique spaced isMember'.solid isMember.solid] at isMember'
      obtain ⟨rfl, rfl, ends⟩ := isMember.unique isMember' tail.stops tail'.stops
      rw [← ends] at tail'
      obtain ⟨rfl, rfl⟩ := tail.unique tail'
      exact ⟨rfl, rfl⟩
termination_by structural first

end

/-- A text has one value, if it has any. -/
theorem Document.unique {text : List Char} {value other : Json} (first : Document text value)
    (second : Document text other) : value = other := by
  obtain ⟨start, rest, blank, isValue, ending⟩ := first
  obtain ⟨start', rest', blank', isValue', ending'⟩ := second
  have halts : Stops [] := nofun
  obtain rfl := blank.unique blank' isValue.solid isValue'.solid
  exact (isValue.unique isValue' (ending.stops halts) (ending'.stops halts)).1

end Unquote.Json.Grammar
