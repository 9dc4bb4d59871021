import Unquote.Escape.Attempt

/-! Which escape units begin with. Reading goes as far as it can, so an escape stands at the front
of units only where the next unit would not have made another escape of it. One unit of what
follows is all that counts. -/

namespace Unquote

namespace HexDigit

private theorem map_unit_filterMap {units : List CodeUnit}
    (digits : ∀ unit ∈ units, unit.hexValue?.isSome) :
    (units.filterMap ofUnit?).map (·.unit) = units := by
  induction units with
  | nil => rfl
  | cons unit rest ih =>
    have first : ofUnit? unit = some ⟨unit, digits unit (by simp)⟩ := by
      simp [ofUnit?, digits unit]
    rw [List.filterMap_cons_some first, List.map_cons,
      ih fun other member => digits other (List.mem_cons_of_mem _ member)]

private theorem filterMap_map_unit (digits : List HexDigit) :
    (digits.map (·.unit)).filterMap ofUnit? = digits := by
  induction digits with
  | nil => rfl
  | cons digit rest ih => rw [List.map_cons, List.filterMap_cons_some (ofUnit?_unit digit), ih]

theorem unit_ne_openBrace (digit : HexDigit) : digit.unit ≠ .openBrace := by
  intro brace
  have isHex := digit.isHex
  rw [brace] at isHex
  exact absurd isHex (by decide)

theorem exists_run (units : List CodeUnit) :
    ∃ rest, units = (run units).map (·.unit) ++ rest ∧
      rest.head?.any (·.hexValue?.isSome) = false := by
  refine ⟨units.dropWhile (·.hexValue?.isSome), ?_, ?_⟩
  · unfold run
    rw [map_unit_filterMap fun unit member => List.all_eq_true.1 List.all_takeWhile unit member,
      List.takeWhile_append_dropWhile]
  · have stopped := List.head?_dropWhile_not (·.hexValue?.isSome) units
    cases found : (units.dropWhile (·.hexValue?.isSome)).head? with
    | none => rfl
    | some unit => simpa [found] using stopped

theorem run_append {rest : List CodeUnit} (stop : rest.head?.any (·.hexValue?.isSome) = false)
    (digits : List HexDigit) : run (digits.map (·.unit) ++ rest) = digits := by
  have none_after : rest.takeWhile (·.hexValue?.isSome) = [] := by
    cases rest with
    | nil => rfl
    | cons unit tail => exact List.takeWhile_cons_of_neg (by simpa using stop)
  unfold run
  rw [List.takeWhile_append_of_pos (by simp [HexDigit.isHex]), none_after, List.append_nil,
    filterMap_map_unit]

end HexDigit

namespace OctalDigit

theorem unit_of_ofUnit? {unit : CodeUnit} {digit : OctalDigit}
    (found : ofUnit? unit = some digit) : digit.unit = unit := by
  unfold ofUnit? at found
  split at found
  next bounds =>
    cases found
    apply UInt16.toNat_inj.1
    simp only [OctalDigit.unit, UInt16.toNat_ofNat']
    omega
  next => contradiction

theorem unit_isOctalDigit (digit : OctalDigit) : digit.unit.isOctalDigit := by
  rw [← isSome_ofUnit?, ofUnit?_unit]
  rfl

theorem unit_isDigit (digit : OctalDigit) : digit.unit.isDigit := by
  decide +revert

theorem val_of_unit {digit : OctalDigit} (zero : digit.unit = 0x30) : digit.val = 0 := by
  decide +revert

theorem run_cons_of_digit (room : Nat) (digit : OctalDigit) (rest : List CodeUnit) :
    run (room + 1) (digit.unit :: rest) = digit :: run room rest := by
  unfold run
  rw [List.take_succ_cons, List.takeWhile_cons_of_pos (unit_isOctalDigit digit),
    List.filterMap_cons_some (ofUnit?_unit digit)]

theorem run_of_stop {units : List CodeUnit} (stop : units.head?.any (·.isOctalDigit) = false)
    (room : Nat) : run room units = [] := by
  unfold run
  cases room with
  | zero => rfl
  | succ room =>
    cases units with
    | nil => rfl
    | cons unit rest =>
      rw [List.take_succ_cons, List.takeWhile_cons_of_neg (by simpa using stop), List.filterMap_nil]

theorem exists_run (room : Nat) (units : List CodeUnit) :
    ∃ rest, units = (run room units).map unit ++ rest ∧
      ((run room units).length = room ∨ rest.head?.any (·.isOctalDigit) = false) := by
  induction room generalizing units with
  | zero => exact ⟨units, rfl, Or.inl rfl⟩
  | succ room ih =>
    by_cases stop : units.head?.any (·.isOctalDigit) = false
    · rw [run_of_stop stop]
      exact ⟨units, rfl, Or.inr stop⟩
    · cases units with
      | nil => simp at stop
      | cons first rest =>
        have octal : (ofUnit? first).isSome := by simpa [isSome_ofUnit?] using stop
        obtain ⟨digit, found⟩ := Option.isSome_iff_exists.1 octal
        obtain ⟨after, split, ends⟩ := ih rest
        rw [← unit_of_ofUnit? found, run_cons_of_digit]
        refine ⟨after, ?_, ?_⟩
        · rw [List.map_cons, List.cons_append, ← split]
        · simpa using ends

theorem run_append {room : Nat} {digits : List OctalDigit} {rest : List CodeUnit}
    (fits : digits.length ≤ room)
    (ends : digits.length = room ∨ rest.head?.any (·.isOctalDigit) = false) :
    run room (digits.map unit ++ rest) = digits := by
  induction digits generalizing room with
  | nil =>
    rcases ends with full | stop
    · cases full
      rfl
    · exact run_of_stop stop room
  | cons digit more ih =>
    cases room with
    | zero => simp at fits
    | succ room =>
      rw [List.map_cons, List.cons_append, run_cons_of_digit,
        ih (by simpa using fits) (by simpa using ends)]

theorem number_lt {first : OctalDigit} {more : List OctalDigit}
    (fits : more.length ≤ first.room) : number (first :: more) < 0x100 := by
  unfold room at fits
  match more, fits with
  | [], _ =>
    simp only [number, List.foldl_cons, List.foldl_nil]
    omega
  | [second], _ =>
    simp only [number, List.foldl_cons, List.foldl_nil]
    omega
  | [second, third], fits =>
    split at fits
    next low =>
      simp only [number, List.foldl_cons, List.foldl_nil]
      omega
    next high =>
      simp only [List.length_cons, List.length_nil] at fits
      omega
  | _ :: _ :: _ :: _, fits =>
    simp only [List.length_cons] at fits
    split at fits
    next low => omega
    next high => omega

end OctalDigit

def Lead.Announced (unit : CodeUnit) : Lead → Prop
  | control named => unit = named.letter
  | hex => unit = 0x78
  | unicode => unit = 0x75
  | lineBreak first => first ≠ .crlf ∧ first.units = [unit]
  | octal digit => unit = digit.unit
  | eight => unit = 0x38
  | nine => unit = 0x39
  | plain => True

theorem Lead.announced_ofUnit (unit : CodeUnit) : (ofUnit unit).Announced unit := by
  unfold ofUnit
  split
  case h_15 =>
    split
    next digit found => exact (OctalDigit.unit_of_ofUnit? found).symm
    next => trivial
  case h_9 | h_10 | h_11 | h_12 => exact ⟨LineBreak.noConfusion, rfl⟩
  all_goals rfl

namespace Escape

/-- Whether an escape stays what it is when `next` is the unit after it. -/
def Fits (next : Option CodeUnit) : Escape → Prop
  | lineContinuation .carriageReturn => next ≠ some .lineFeed
  | nul => next.any (·.isDigit) = false
  | octal first more _ =>
    (more.length = first.room ∨ next.any (·.isOctalDigit) = false) ∧
      (first.val = 0 → more = [] → next.any (·.isDigit))
  | _ => True

theorem readHex?_eq_some {units : List CodeUnit} {escape : Escape}
    (found : readHex? units = some escape) :
    ∃ high low rest, units = high.unit :: low.unit :: rest ∧ escape = .hex high low := by
  unfold readHex? at found
  split at found
  next first second rest =>
    obtain ⟨high, highFound, found⟩ := Option.bind_eq_some_iff.1 found
    obtain ⟨low, lowFound, found⟩ := Option.bind_eq_some_iff.1 found
    cases found
    rw [← HexDigit.unit_of_ofUnit? highFound, ← HexDigit.unit_of_ofUnit? lowFound]
    exact ⟨high, low, rest, rfl, rfl⟩
  next => contradiction

theorem readHex?_append (high low : HexDigit) (rest : List CodeUnit) :
    readHex? (high.unit :: low.unit :: rest) = some (.hex high low) := by
  simp only [readHex?, HexDigit.ofUnit?_unit]
  rfl

theorem readFour?_eq_some {units : List CodeUnit} {escape : Escape}
    (found : readFour? units = some escape) :
    ∃ first second third fourth rest,
      units = first.unit :: second.unit :: third.unit :: fourth.unit :: rest ∧
        escape = .unicode first second third fourth := by
  unfold readFour? at found
  split at found
  next one two three four rest =>
    obtain ⟨first, firstFound, found⟩ := Option.bind_eq_some_iff.1 found
    obtain ⟨second, secondFound, found⟩ := Option.bind_eq_some_iff.1 found
    obtain ⟨third, thirdFound, found⟩ := Option.bind_eq_some_iff.1 found
    obtain ⟨fourth, fourthFound, found⟩ := Option.bind_eq_some_iff.1 found
    cases found
    rw [← HexDigit.unit_of_ofUnit? firstFound, ← HexDigit.unit_of_ofUnit? secondFound,
      ← HexDigit.unit_of_ofUnit? thirdFound, ← HexDigit.unit_of_ofUnit? fourthFound]
    exact ⟨first, second, third, fourth, rest, rfl, rfl⟩
  next => contradiction

theorem readFour?_append (first second third fourth : HexDigit) (rest : List CodeUnit) :
    readFour? (first.unit :: second.unit :: third.unit :: fourth.unit :: rest) =
      some (.unicode first second third fourth) := by
  simp only [readFour?, HexDigit.ofUnit?_unit]
  rfl

theorem readBraced?_eq_some {units : List CodeUnit} {escape : Escape}
    (found : readBraced? units = some escape) :
    ∃ digits nonempty inRange rest,
      units = digits.map (·.unit) ++ .closeBrace :: rest ∧
        escape = .codePoint digits nonempty inRange := by
  obtain ⟨after, split, -⟩ := HexDigit.exists_run units
  have remaining : units.drop (HexDigit.run units).length = after := by
    calc
      _ = ((HexDigit.run units).map (·.unit) ++ after).drop (HexDigit.run units).length :=
        congrArg (List.drop _) split
      _ = after := List.drop_left' (List.length_map _)
  simp only [readBraced?, remaining] at found
  split at found
  next => contradiction
  next nonempty =>
    split at found
    next => contradiction
    next closed =>
      split at found
      next small =>
        cases found
        obtain ⟨rest, rfl⟩ := List.head?_eq_some_iff.1 (Decidable.not_not.1 closed)
        exact ⟨HexDigit.run units, nonempty, _, rest, split, rfl⟩
      next => contradiction

theorem readBraced?_append (digits : List HexDigit) (nonempty : digits ≠ [])
    (inRange : HexDigit.number digits ≤ maxCodePoint) (rest : List CodeUnit) :
    readBraced? (digits.map (·.unit) ++ .closeBrace :: rest) =
      some (.codePoint digits nonempty inRange) := by
  have run : HexDigit.run (digits.map (·.unit) ++ .closeBrace :: rest) = digits :=
    HexDigit.run_append rfl digits
  have small : HexDigit.numberUpTo (maxCodePoint + 1) digits ≤ maxCodePoint := by
    rw [HexDigit.numberUpTo_eq]
    omega
  have closed : ((digits.map (·.unit) ++ CodeUnit.closeBrace :: rest).drop
      digits.length).head? = some .closeBrace := by
    rw [List.drop_left' (List.length_map _)]
    rfl
  simp only [readBraced?, run, nonempty, closed, small, ne_eq, not_true_eq_false, ↓reduceDIte,
    ↓reduceIte]

theorem readUnicode?_eq_some {units : List CodeUnit} {escape : Escape}
    (found : readUnicode? units = some escape) :
    ∃ rest, 0x75 :: units = escape.body ++ rest ∧ escape.Fits rest.head? := by
  unfold readUnicode? at found
  split at found
  next => contradiction
  next first after =>
    split at found
    next brace =>
      obtain ⟨digits, nonempty, inRange, rest, rfl, rfl⟩ := readBraced?_eq_some found
      exact ⟨rest, by simp [body, brace], trivial⟩
    next =>
      obtain ⟨one, two, three, four, rest, same, rfl⟩ := readFour?_eq_some found
      exact ⟨rest, by rw [same]; rfl, trivial⟩

/-- An open brace is no digit, so a run of four digits is never taken for a braced escape. -/
theorem readUnicode?_append (first second third fourth : HexDigit) (rest : List CodeUnit) :
    readUnicode? (first.unit :: second.unit :: third.unit :: fourth.unit :: rest) =
      some (.unicode first second third fourth) := by
  rw [readUnicode?, if_neg first.unit_ne_openBrace, readFour?_append]

theorem readOctal_fits (first : OctalDigit) (units : List CodeUnit) :
    ∃ rest, first.unit :: units = (readOctal first units).body ++ rest ∧
      (readOctal first units).Fits rest.head? := by
  unfold readOctal
  split
  next lone => exact ⟨units, by rw [lone.1]; rfl, by simpa [Fits] using lone.2⟩
  next grouped =>
    obtain ⟨rest, split, ends⟩ := OctalDigit.exists_run first.room units
    refine ⟨rest, congrArg (first.unit :: ·) split, ends, ?_⟩
    intro zero alone
    rw [alone, List.map_nil, List.nil_append] at split
    rw [← split]
    exact Decidable.byContradiction fun other => grouped ⟨Fin.ext zero, other⟩

theorem readOctal_append {first : OctalDigit} {more : List OctalDigit}
    {fits : more.length ≤ first.room} {rest : List CodeUnit}
    (stays : (octal first more fits).Fits rest.head?) :
    readOctal first (more.map OctalDigit.unit ++ rest) = .octal first more fits := by
  have grouped : ¬(first = 0 ∧ ¬(more.map OctalDigit.unit ++ rest).head?.any (·.isDigit)) := by
    intro alone
    obtain ⟨zero, lone⟩ := alone
    cases more with
    | nil => exact lone (stays.2 (congrArg Fin.val zero) rfl)
    | cons digit others => exact lone (OctalDigit.unit_isDigit digit)
  have run : OctalDigit.run first.room (more.map OctalDigit.unit ++ rest) = more :=
    OctalDigit.run_append fits stays.1
  simp only [readOctal, if_neg grouped, run]

theorem readOctal_zero {rest : List CodeUnit} (lone : rest.head?.any (·.isDigit) = false) :
    readOctal 0 rest = .nul := by
  simp [readOctal, lone]

theorem lineBreak_extend_fits {first : LineBreak} (single : first ≠ .crlf)
    (units : List CodeUnit) :
    ∃ rest, first.units ++ units = (first.extend units).units ++ rest ∧
      (lineContinuation (first.extend units)).Fits rest.head? := by
  unfold LineBreak.extend
  split
  next joined =>
    obtain ⟨rest, rfl⟩ := List.head?_eq_some_iff.1 joined.2
    exact ⟨rest, by rw [joined.1]; rfl, trivial⟩
  next apart =>
    refine ⟨units, rfl, ?_⟩
    cases first with
    | carriageReturn => exact fun next => apart ⟨rfl, next⟩
    | _ => trivial

theorem read?_sound {units : List CodeUnit} {escape : Escape}
    (found : read? units = some escape) :
    ∃ rest, units = escape.body ++ rest ∧ escape.Fits rest.head? := by
  unfold read? at found
  split at found
  next => contradiction
  next unit after =>
    have announced := Lead.announced_ofUnit unit
    split at found
    next named lead =>
      rw [lead] at announced
      cases found
      exact ⟨after, congrArg (· :: after) announced, trivial⟩
    next lead =>
      rw [lead] at announced
      obtain ⟨high, low, rest, rfl, rfl⟩ := readHex?_eq_some found
      exact ⟨rest, congrArg (· :: _) announced, trivial⟩
    next lead =>
      rw [lead] at announced
      cases announced
      exact readUnicode?_eq_some found
    next first lead =>
      rw [lead] at announced
      cases found
      obtain ⟨rest, split, fits⟩ := lineBreak_extend_fits announced.1 after
      rw [announced.2] at split
      exact ⟨rest, split, fits⟩
    next first lead =>
      rw [lead] at announced
      cases found
      cases announced
      exact readOctal_fits first after
    next lead =>
      rw [lead] at announced
      cases found
      exact ⟨after, congrArg (· :: after) announced, trivial⟩
    next lead =>
      rw [lead] at announced
      cases found
      exact ⟨after, congrArg (· :: after) announced, trivial⟩
    next lead =>
      cases found
      exact ⟨after, rfl, trivial⟩

theorem read?_octal (digit : OctalDigit) (rest : List CodeUnit) :
    read? (digit.unit :: rest) = some (readOctal digit rest) := by
  have lead := Lead.ofUnit_octal digit
  rw [read?]
  split <;> simp_all

theorem read?_plain {unit : CodeUnit} (plain : Lead.ofUnit unit = .plain)
    (rest : List CodeUnit) : read? (unit :: rest) = some (.identity unit plain) := by
  rw [read?]
  split <;> simp_all

theorem read?_complete {escape : Escape} {rest : List CodeUnit} (fits : escape.Fits rest.head?) :
    read? (escape.body ++ rest) = some escape := by
  cases escape with
  | control named => cases named <;> rfl
  | hex high low => exact readHex?_append high low rest
  | unicode first second third fourth => exact readUnicode?_append first second third fourth rest
  | codePoint digits nonempty inRange =>
    simp only [body, List.append_assoc, List.cons_append, List.nil_append]
    exact readBraced?_append digits nonempty inRange rest
  | lineContinuation lineBreak =>
    cases lineBreak with
    | carriageReturn =>
      have apart : ¬(LineBreak.carriageReturn = .carriageReturn ∧ rest.head? = some .lineFeed) :=
        fun joined => fits joined.2
      exact congrArg (some <| lineContinuation ·) (if_neg apart)
    | _ => rfl
  | nul => exact congrArg some (readOctal_zero fits)
  | octal first more small =>
    simp only [body, List.cons_append]
    rw [read?_octal, readOctal_append fits]
  | eight => rfl
  | nine => rfl
  | identity unit plain => exact read?_plain plain rest

/-- An escape is read where its own units stand and nothing after them would change it. -/
theorem read?_eq_some_iff {units : List CodeUnit} {escape : Escape} :
    read? units = some escape ↔
      ∃ rest, units = escape.body ++ rest ∧ escape.Fits rest.head? := by
  apply Iff.intro
  · exact read?_sound
  · intro found
    obtain ⟨rest, rfl, fits⟩ := found
    exact read?_complete fits

end Escape

end Unquote
