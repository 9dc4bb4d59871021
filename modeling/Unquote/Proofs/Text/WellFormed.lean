import Unquote.Utf16

/-! Well-formed UTF-16: units in which every surrogate is half of a pair. Characters are encoded as
such units, and decoding loses nothing of them. A machine that keeps whether a high half waits for
its low half tells them from other units, and it can be followed from one part of a text to the
next. -/

namespace Unquote

namespace CodeUnit

theorem isHighSurrogate_iff {unit : CodeUnit} :
    unit.isHighSurrogate ↔ 0xD800 ≤ unit.toNat ∧ unit.toNat ≤ 0xDBFF := by
  simp [isHighSurrogate, UInt16.le_iff_toNat_le]

theorem isLowSurrogate_iff {unit : CodeUnit} :
    unit.isLowSurrogate ↔ 0xDC00 ≤ unit.toNat ∧ unit.toNat ≤ 0xDFFF := by
  simp [isLowSurrogate, UInt16.le_iff_toNat_le]

theorem isSurrogate_eq_false_iff {unit : CodeUnit} :
    unit.isSurrogate = false ↔ unit.toNat < 0xD800 ∨ 0xDFFF < unit.toNat := by
  simp only [isSurrogate, UInt16.le_iff_toNat_le, UInt16.reduceToNat, decide_eq_false_iff_not]
  omega

theorem not_surrogate_iff {unit : CodeUnit} :
    unit.isSurrogate = false ↔ unit.isHighSurrogate = false ∧ unit.isLowSurrogate = false := by
  rw [isSurrogate_eq, Bool.or_eq_false_iff]

theorem isLowSurrogate_of_isHighSurrogate {unit : CodeUnit} (high : unit.isHighSurrogate) :
    unit.isLowSurrogate = false := by
  rw [isHighSurrogate_iff] at high
  rw [Bool.eq_false_iff, Ne, isLowSurrogate_iff]
  omega

theorem isHighSurrogate_of_isLowSurrogate {unit : CodeUnit} (low : unit.isLowSurrogate) :
    unit.isHighSurrogate = false := by
  rw [isLowSurrogate_iff] at low
  rw [Bool.eq_false_iff, Ne, isHighSurrogate_iff]
  omega

end CodeUnit

namespace Utf16

section

variable {codePoint : Nat} {high low : CodeUnit}

theorem highHalf_isHighSurrogate (below : codePoint ≤ 0x10FFFF) :
    (highHalf codePoint).isHighSurrogate := by
  rw [CodeUnit.isHighSurrogate_iff, highHalf_toNat below]
  omega

theorem lowHalf_isLowSurrogate (codePoint : Nat) : (lowHalf codePoint).isLowSurrogate := by
  rw [CodeUnit.isLowSurrogate_iff, lowHalf_toNat]
  omega

theorem joinHalves_bounds (first : high.isHighSurrogate) (second : low.isLowSurrogate) :
    0x10000 ≤ joinHalves high low ∧ joinHalves high low ≤ 0x10FFFF := by
  rw [CodeUnit.isHighSurrogate_iff] at first
  rw [CodeUnit.isLowSurrogate_iff] at second
  unfold joinHalves
  omega

theorem highHalf_joinHalves (first : high.isHighSurrogate) (second : low.isLowSurrogate) :
    highHalf (joinHalves high low) = high := by
  have bounds := joinHalves_bounds first second
  rw [CodeUnit.isHighSurrogate_iff] at first
  rw [CodeUnit.isLowSurrogate_iff] at second
  apply UInt16.toNat_inj.1
  rw [highHalf_toNat bounds.2]
  unfold joinHalves
  omega

theorem lowHalf_joinHalves (second : low.isLowSurrogate) :
    lowHalf (joinHalves high low) = low := by
  rw [CodeUnit.isLowSurrogate_iff] at second
  apply UInt16.toNat_inj.1
  rw [lowHalf_toNat]
  unfold joinHalves
  omega

theorem toNat_ofNat (valid : codePoint.isValidChar) : (Char.ofNat codePoint).toNat = codePoint := by
  rw [Char.ofNat, dif_pos valid]
  rfl

theorem toNat_le (char : Char) : char.toNat ≤ 0x10FFFF := by
  have valid := char.valid
  simp only [UInt32.isValidChar, Nat.isValidChar, Char.toNat_val] at valid
  omega

end

theorem encodeCodePoint_cases (char : Char) :
    (∃ unit : CodeUnit, unit.isSurrogate = false ∧ unit.toNat = char.toNat ∧
      encodeCodePoint char.toNat = [unit]) ∨
    0xFFFF < char.toNat ∧
      encodeCodePoint char.toNat = [highHalf char.toNat, lowHalf char.toNat] := by
  have valid := char.valid
  simp only [UInt32.isValidChar, Nat.isValidChar, Char.toNat_val] at valid
  by_cases small : char.toNat ≤ 0xFFFF
  · have same : (UInt16.ofNat char.toNat).toNat = char.toNat := by
      rw [UInt16.toNat_ofNat']
      omega
    refine Or.inl ⟨.ofNat char.toNat, ?_, same, if_pos small⟩
    rw [CodeUnit.isSurrogate_eq_false_iff, same]
    omega
  · exact Or.inr ⟨by omega, if_neg small⟩

@[simp] theorem encodeChars_nil : encodeChars [] = [] := rfl

@[simp] theorem encodeChars_cons (char : Char) (rest : List Char) :
    encodeChars (char :: rest) = encodeCodePoint char.toNat ++ encodeChars rest := rfl

@[simp] theorem encodeChars_append (first second : List Char) :
    encodeChars (first ++ second) = encodeChars first ++ encodeChars second :=
  List.flatMap_append

@[simp] theorem encode_ofList (chars : List Char) : encode (.ofList chars) = encodeChars chars :=
  congrArg encodeChars String.toList_ofList

def Plain (units : List CodeUnit) : Prop := ∀ unit ∈ units, unit.isSurrogate = false

instance (units : List CodeUnit) : Decidable (Plain units) := List.decidableBAll _ units

@[simp] theorem plain_nil : Plain [] := List.forall_mem_nil _

@[simp] theorem plain_cons {unit : CodeUnit} {rest : List CodeUnit} :
    Plain (unit :: rest) ↔ unit.isSurrogate = false ∧ Plain rest :=
  List.forall_mem_cons

@[simp] theorem plain_append {first second : List CodeUnit} :
    Plain (first ++ second) ↔ Plain first ∧ Plain second :=
  List.forall_mem_append

theorem plain_map {α : Type} {unit : α → CodeUnit} (plain : ∀ item, (unit item).isSurrogate = false)
    (items : List α) : Plain (items.map unit) :=
  List.forall_mem_map.2 fun item _ => plain item

/-- Units in which every surrogate is half of a pair. -/
inductive WellFormed : List CodeUnit → Prop
  | nil : WellFormed []
  | single {unit : CodeUnit} {rest : List CodeUnit} (alone : unit.isSurrogate = false)
    (more : WellFormed rest) : WellFormed (unit :: rest)
  | pair {high low : CodeUnit} {rest : List CodeUnit} (first : high.isHighSurrogate)
    (second : low.isLowSurrogate) (more : WellFormed rest) : WellFormed (high :: low :: rest)

theorem wellFormed_encodeChars (chars : List Char) : WellFormed (encodeChars chars) := by
  induction chars with
  | nil => exact .nil
  | cons char rest ih =>
    rw [encodeChars_cons]
    rcases encodeCodePoint_cases char with ⟨unit, alone, -, same⟩ | ⟨-, same⟩
    · rw [same]
      exact .single alone ih
    · rw [same]
      exact .pair (highHalf_isHighSurrogate (toNat_le char)) (lowHalf_isLowSurrogate _) ih

/-! Decoding takes a character at a time. -/

theorem decodeOnto_eq : ∀ (units : List CodeUnit) (done : List Char),
    decodeOnto done units = decodeOnto [] units ++ done
  | [], _ => rfl
  | [_], _ => rfl
  | unit :: next :: rest, done => by
    simp only [decodeOnto]
    split
    · rw [decodeOnto_eq rest, decodeOnto_eq rest [_], List.append_assoc]
      rfl
    · rw [decodeOnto_eq (next :: rest), decodeOnto_eq (next :: rest) [_], List.append_assoc]
      rfl

theorem decodeChars_pair {high low : CodeUnit} (first : high.isHighSurrogate)
    (second : low.isLowSurrogate) (rest : List CodeUnit) :
    decodeChars (high :: low :: rest) =
      Char.ofNat (joinHalves high low) :: decodeChars rest := by
  rw [decodeChars, decodeOnto, if_pos ⟨first, second⟩, decodeOnto_eq, List.reverse_append]
  rfl

theorem decodeChars_lone {unit : CodeUnit} {rest : List CodeUnit}
    (apart : ¬(unit.isHighSurrogate ∧ rest.head?.any (·.isLowSurrogate))) :
    decodeChars (unit :: rest) = loneChar unit :: decodeChars rest := by
  cases rest with
  | nil => rfl
  | cons next more =>
    have unpaired : ¬(unit.isHighSurrogate ∧ next.isLowSurrogate) := apart
    rw [decodeChars, decodeOnto, if_neg unpaired, decodeOnto_eq, List.reverse_append]
    rfl

/-- Text may be decoded in parts, as long as the second does not begin with a low half. -/
theorem decodeChars_append {right : List CodeUnit}
    (apart : right.head?.any (·.isLowSurrogate) = false) :
    ∀ left : List CodeUnit, decodeChars (left ++ right) = decodeChars left ++ decodeChars right
  | [] => rfl
  | [unit] => by
    have alone : ¬(unit.isHighSurrogate ∧ right.head?.any (·.isLowSurrogate)) := by
      rw [apart]
      exact fun both => Bool.noConfusion both.2
    exact decodeChars_lone alone
  | unit :: next :: rest => by
    by_cases paired : unit.isHighSurrogate ∧ next.isLowSurrogate
    · rw [List.cons_append, List.cons_append, decodeChars_pair paired.1 paired.2,
        decodeChars_pair paired.1 paired.2, decodeChars_append apart rest, List.cons_append]
    · rw [List.cons_append, decodeChars_lone paired, decodeChars_lone paired,
        decodeChars_append apart (next :: rest), List.cons_append]

theorem encode_loneChar {unit : CodeUnit} (alone : unit.isSurrogate = false) :
    encodeCodePoint (loneChar unit).toNat = [unit] := by
  have outside := CodeUnit.isSurrogate_eq_false_iff.1 alone
  have small := unit.toNat_lt
  have shown : loneChar unit = .ofNat unit.toNat := by
    simp [loneChar, CodeUnit.char?, alone]
  have same : (Char.ofNat unit.toNat).toNat = unit.toNat :=
    toNat_ofNat (by unfold Nat.isValidChar; omega)
  rw [shown, same, encodeCodePoint, if_pos (by omega), UInt16.ofNat_toNat]

theorem encode_joinHalves {high low : CodeUnit} (first : high.isHighSurrogate)
    (second : low.isLowSurrogate) :
    encodeCodePoint (Char.ofNat (joinHalves high low)).toNat = [high, low] := by
  have bounds := joinHalves_bounds first second
  rw [toNat_ofNat (by unfold Nat.isValidChar; omega), encodeCodePoint, if_neg (by omega),
    highHalf_joinHalves first second, lowHalf_joinHalves second]

theorem encodeChars_decodeChars {units : List CodeUnit} (formed : WellFormed units) :
    encodeChars (decodeChars units) = units := by
  induction formed with
  | nil => rfl
  | single alone more ih =>
    have notHigh := (CodeUnit.not_surrogate_iff.1 alone).1
    rw [decodeChars_lone (by simp [notHigh]), encodeChars_cons, encode_loneChar alone, ih]
    rfl
  | pair first second more ih =>
    rw [decodeChars_pair first second, encodeChars_cons, encode_joinHalves first second, ih]
    rfl

theorem encode_decodeLossy {units : List CodeUnit} (formed : WellFormed units) :
    encode (decodeLossy units) = units := by
  rw [decodeLossy, encode_ofList, encodeChars_decodeChars formed]

theorem decodeLossy_halves {char : Char} (wide : 0xFFFF < char.toNat) (front back : List CodeUnit) :
    decodeLossy (front ++ highHalf char.toNat :: lowHalf char.toNat :: back) =
      decodeLossy front ++ String.singleton char ++ decodeLossy back := by
  have below := toNat_le char
  have first := highHalf_isHighSurrogate below
  have apart : (highHalf char.toNat :: lowHalf char.toNat :: back).head?.any
      (·.isLowSurrogate) = false := by
    rw [List.head?_cons, Option.any_some]
    exact CodeUnit.isLowSurrogate_of_isHighSurrogate first
  rw [decodeLossy, decodeChars_append apart, decodeChars_pair first (lowHalf_isLowSurrogate _),
    joinHalves_halves wide below, Char.ofNat_toNat, String.ofList_append, ← List.singleton_append,
    String.ofList_append, ← String.singleton_eq_ofList, ← String.append_assoc]
  rfl

theorem count_encodeChars (chars : List Char) :
    (encodeChars chars).count 0xFFFD = chars.count replacement := by
  induction chars with
  | nil => rfl
  | cons char rest ih =>
    rw [encodeChars_cons, List.count_append, ih, List.count_cons, Nat.add_comm]
    congr 1
    rcases encodeCodePoint_cases char with ⟨unit, -, value, same⟩ | ⟨wide, same⟩
    · have agree : unit = 0xFFFD ↔ char = replacement := by
        rw [← UInt16.toNat_inj, value, ← Char.toNat_inj]
        rfl
      rw [same, List.count_singleton]
      simp only [beq_iff_eq, agree]
    · have high : highHalf char.toNat ≠ 0xFFFD := by
        intro replaced
        have first := highHalf_isHighSurrogate (toNat_le char)
        rw [replaced] at first
        exact absurd first (by decide)
      have low : lowHalf char.toNat ≠ 0xFFFD := by
        intro replaced
        have second := lowHalf_isLowSurrogate char.toNat
        rw [replaced] at second
        exact absurd second (by decide)
      have other : char ≠ replacement := by
        rintro rfl
        exact absurd wide (by decide)
      rw [same]
      simp [high, low, other]

/-- Where a reader of units stands: between two characters, or after the first half of one. -/
inductive Place where
  | between
  | inside
deriving DecidableEq

namespace Place

def step : Place → CodeUnit → Option Place
  | between, unit =>
    if unit.isLowSurrogate then none
    else if unit.isHighSurrogate then some inside
    else some between
  | inside, unit => if unit.isLowSurrogate then some between else none

def run (place : Place) (units : List CodeUnit) : Option Place := units.foldlM step place

def Continues (units : List CodeUnit) : Place → Prop
  | between => WellFormed units
  | inside => ∃ low rest, units = low :: rest ∧ low.isLowSurrogate ∧ WellFormed rest

theorem run_cons (place : Place) (unit : CodeUnit) (rest : List CodeUnit) :
    run place (unit :: rest) = (step place unit).bind (run · rest) :=
  List.foldlM_cons

theorem run_append (place : Place) (left right : List CodeUnit) :
    run place (left ++ right) = (run place left).bind (run · right) :=
  List.foldlM_append

theorem step_between {unit : CodeUnit} (alone : unit.isSurrogate = false) :
    step between unit = some between := by
  obtain ⟨notHigh, notLow⟩ := CodeUnit.not_surrogate_iff.1 alone
  simp [step, notHigh, notLow]

theorem step_high {unit : CodeUnit} (high : unit.isHighSurrogate) :
    step between unit = some inside := by
  simp [step, high, CodeUnit.isLowSurrogate_of_isHighSurrogate high]

theorem step_low {unit : CodeUnit} (low : unit.isLowSurrogate) :
    step inside unit = some between :=
  if_pos low

theorem run_single {unit : CodeUnit} (alone : unit.isSurrogate = false) :
    run between [unit] = some between := by
  rw [run_cons, step_between alone]
  rfl

theorem run_pair {high low : CodeUnit} (first : high.isHighSurrogate)
    (second : low.isLowSurrogate) : run between [high, low] = some between := by
  rw [run_cons, step_high first, Option.bind_some, run_cons, step_low second]
  rfl

theorem wellFormed_cons_iff {unit : CodeUnit} {rest : List CodeUnit} :
    WellFormed (unit :: rest) ↔ ∃ next, step between unit = some next ∧ Continues rest next := by
  apply Iff.intro
  · intro formed
    cases formed with
    | single alone more => exact ⟨between, step_between alone, more⟩
    | pair first second more => exact ⟨inside, step_high first, _, _, rfl, second, more⟩
  · intro found
    obtain ⟨next, moved, continues⟩ := found
    simp only [step] at moved
    split at moved
    next => contradiction
    next notLow =>
      split at moved
      next high =>
        cases moved
        obtain ⟨low, more, rfl, second, formed⟩ := continues
        exact .pair high second formed
      next notHigh =>
        cases moved
        have alone := CodeUnit.not_surrogate_iff.2
          ⟨Bool.eq_false_iff.2 notHigh, Bool.eq_false_iff.2 notLow⟩
        exact .single alone continues

theorem continues_cons_iff {place : Place} {unit : CodeUnit} {rest : List CodeUnit} :
    Continues (unit :: rest) place ↔ ∃ next, step place unit = some next ∧ Continues rest next := by
  cases place with
  | between => exact wellFormed_cons_iff
  | inside =>
    apply Iff.intro
    · intro continues
      obtain ⟨low, more, same, second, formed⟩ := continues
      cases same
      exact ⟨between, step_low second, formed⟩
    · intro found
      obtain ⟨next, moved, continues⟩ := found
      simp only [step] at moved
      split at moved
      next second =>
        cases moved
        exact ⟨unit, rest, rfl, second, continues⟩
      next => contradiction

theorem run_eq_between_iff {place : Place} {units : List CodeUnit} :
    run place units = some between ↔ Continues units place := by
  induction units generalizing place with
  | nil =>
    cases place with
    | between => exact ⟨fun _ => WellFormed.nil, fun _ => rfl⟩
    | inside =>
      apply Iff.intro
      · exact fun ran => Place.noConfusion (Option.some.inj ran)
      · rintro ⟨low, rest, same, -⟩
        contradiction
  | cons unit rest ih =>
    rw [continues_cons_iff, run_cons, Option.bind_eq_some_iff]
    simp only [ih]

end Place

/-- The machine ends between characters just where the units are well-formed. -/
theorem wellFormed_iff_run {units : List CodeUnit} :
    WellFormed units ↔ Place.run .between units = some .between :=
  (@Place.run_eq_between_iff .between units).symm

theorem Place.run_plain_iff {units : List CodeUnit} {place after : Place}
    (plain : Plain units) (nonempty : units ≠ []) :
    run place units = some after ↔ place = between ∧ after = between := by
  have stays : run between units = some between := by
    clear nonempty
    induction units with
    | nil => rfl
    | cons unit rest ih =>
      obtain ⟨alone, others⟩ := plain_cons.1 plain
      rw [run_cons, step_between alone]
      exact ih others
  apply Iff.intro
  · intro ran
    cases place with
    | between =>
      rw [stays] at ran
      exact ⟨rfl, (Option.some.inj ran).symm⟩
    | inside =>
      obtain ⟨unit, rest, rfl⟩ := List.exists_cons_of_ne_nil nonempty
      have notLow := (CodeUnit.not_surrogate_iff.1 (plain unit List.mem_cons_self)).2
      rw [run_cons, step, notLow] at ran
      contradiction
  · intro settled
    obtain ⟨rfl, rfl⟩ := settled
    exact stays

end Utf16

end Unquote
