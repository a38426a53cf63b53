import CovNet.Slave.Frames
import Mathlib.Data.Nat.Digits.Defs

/-!
# The grammar of a frame length

A frame starts with sixteen hexadecimal digits. `from_fixed_hex` leaves their reading to `stoull` and checks
only that all of the string was read, and `stoull` takes more than digits: blanks, a sign and a prefix in
front of them. `fromFixedHex_eq_iff` is the language that is accepted, with the values handed to `numeric`;
`frame_length_iff` compares it with sixteen digits.
-/

namespace CovNet.Slave
open Text

/-- A hexadecimal digit, in either case. -/
def isHexDigit (c : Char) : Bool :=
  c.isDigit || ('A' ≤ c && c ≤ 'F') || ('a' ≤ c && c ≤ 'f')

/-- The number some digits spell, the highest digit first. -/
def baseSixteen (s : Bytes) : Nat := Nat.ofDigits 16 (s.reverse.map fun c => (digitValue c).getD 0)

/-- What `stoull` passes over in front of the digits. -/
structure Lead where
  blanks : Bytes
  negative : Bool
  sign : Bytes
  base : Bytes
  blank : ∀ c ∈ blanks, isSpace c = true
  signed : sign = ['-'] ∧ negative = true ∨ (sign = [] ∨ sign = ['+']) ∧ negative = false
  based : base = [] ∨ base = ['0', 'x'] ∨ base = ['0', 'X']

namespace Lead

/-- The lead as it is written. -/
def text (l : Lead) : Bytes := l.blanks ++ l.sign ++ l.base

/-- What `stoull` makes of the number behind it: a negative number wraps. -/
def wrap (l : Lead) (v : Nat) : Nat := if l.negative then (2 ^ 64 - v) % 2 ^ 64 else v

/-- No lead at all. -/
def empty : Lead where
  blanks := []
  negative := false
  sign := []
  base := []
  blank := nofun
  signed := .inr ⟨.inl rfl, rfl⟩
  based := .inl rfl

end Lead

/-! ## Digits -/

section Digits
variable {c : Char} {s : Bytes} {d v : Nat}

lemma isHexDigit_eq (c : Char) : isHexDigit c = (digitValue c).isSome := by
  unfold isHexDigit digitValue
  split
  · rename_i digit
    simp only [digit, Bool.true_or, Option.isSome_some]
  · rename_i digit
    split
    · rename_i upper
      simp only [upper, decide_true, Bool.and_self, Bool.or_true, Bool.true_or, Option.isSome_some]
    · rename_i upper
      split
      · rename_i lower
        simp only [lower, decide_true, Bool.and_self, Bool.or_true, Option.isSome_some]
      · rename_i lower
        rw [← Bool.decide_and, ← Bool.decide_and, decide_eq_false upper, decide_eq_false lower]
        simp only [digit, Bool.or_self, Option.isSome_none]

/-- The 22 digits. -/
lemma isHexDigit_mem (h : isHexDigit c = true) : c ∈ bytes "0123456789ABCDEFabcdef" := by
  have small : c.toNat < 103 := by
    simp only [isHexDigit, Bool.or_eq_true, Bool.and_eq_true, decide_eq_true_eq, Char.isDigit] at h
    rcases h with (digit | upper) | lower
    · exact Nat.lt_of_le_of_lt (UInt32.le_iff_toNat_le.mp digit.2) (by decide)
    · exact Nat.lt_of_le_of_lt (UInt32.le_iff_toNat_le.mp upper.2) (by decide)
    · exact Nat.lt_of_le_of_lt (UInt32.le_iff_toNat_le.mp lower.2) (by decide)
  have all : ∀ n : Fin 103, isHexDigit (Char.ofNat n) = true →
      Char.ofNat n ∈ bytes "0123456789ABCDEFabcdef" := by decide
  have this := all ⟨c.toNat, small⟩
  rw [Char.ofNat_toNat] at this
  exact this h

/-- What holds of the 22 digits holds of every digit. -/
lemma isHexDigit_rule {p : Char → Prop} [DecidablePred p]
    (all : ((bytes "0123456789ABCDEFabcdef").all fun c => decide (p c)) = true) (h : isHexDigit c = true) : p c :=
  forall_of_all all c (isHexDigit_mem h)

/-- A digit is no blank, no sign and no part of a prefix. -/
lemma isHexDigit_plain (h : isHexDigit c = true) :
    isSpace c = false ∧ c ≠ '-' ∧ c ≠ '+' ∧ c ≠ 'x' ∧ c ≠ 'X' :=
  isHexDigit_rule (p := fun c => isSpace c = false ∧ c ≠ '-' ∧ c ≠ '+' ∧ c ≠ 'x' ∧ c ≠ 'X') (by decide) h

/-- A digit is written back in upper case. -/
lemma hexDigit_digitValue (h : isHexDigit c = true) :
    ∃ d < 16, digitValue c = some d ∧ hexDigit d = c.toUpper := by
  obtain ⟨d, value⟩ := Option.isSome_iff_exists.mp ((isHexDigit_eq c).symm.trans h)
  have this := isHexDigit_rule
    (p := fun c => (digitValue c).getD 16 < 16 ∧ hexDigit ((digitValue c).getD 16) = c.toUpper) (by decide) h
  rw [value] at this
  exact ⟨d, this.1, value, this.2⟩

lemma baseSixteen_concat (s : Bytes) (value : digitValue c = some d) :
    baseSixteen (s ++ [c]) = 16 * baseSixteen s + d := by
  rw [baseSixteen, List.reverse_append, List.reverse_singleton, List.singleton_append, List.map_cons, value,
    Option.getD_some, Nat.ofDigits_cons, ← baseSixteen, Nat.add_comm]

lemma hexValue_concat (s : Bytes) (c : Char) :
    hexValue (s ++ [c]) = (hexValue s).bind fun v => (digitValue c).map (16 * v + ·) := by
  rw [hexValue, List.foldlM_append, ← hexValue]
  cases hexValue s with
  | none => rfl
  | some v =>
    cases h : digitValue c with
    | none => simp [h]
    | some d => simp [h]

/-- A string has a value if and only if it is made of digits, and the value is the number it spells. -/
lemma hexValue_eq_iff : hexValue s = some v ↔ (∀ c ∈ s, isHexDigit c = true) ∧ v = baseSixteen s := by
  induction s using List.reverseRecOn generalizing v with
  | nil =>
    simp only [hexValue, List.foldlM_nil, Option.pure_def, Option.some.injEq, List.not_mem_nil,
      false_imp_iff, implies_true, true_and]
    exact eq_comm
  | append_singleton s c ih =>
    rw [hexValue_concat]
    constructor
    · intro h
      obtain ⟨u, front, last⟩ := Option.bind_eq_some_iff.mp h
      obtain ⟨d, value, rfl⟩ := Option.map_eq_some_iff.mp last
      obtain ⟨digits, rfl⟩ := ih.mp front
      refine ⟨fun x hx => ?_, (baseSixteen_concat s value).symm⟩
      rcases List.mem_append.mp hx with inside | final
      · exact digits x inside
      · rw [List.mem_singleton.mp final, isHexDigit_eq, value]
        rfl
    · rintro ⟨digits, rfl⟩
      obtain ⟨d, -, value, -⟩ := hexDigit_digitValue (digits c (by simp))
      rw [ih.mpr ⟨fun x hx => digits x (List.mem_append_left _ hx), rfl⟩, value,
        baseSixteen_concat s value]
      rfl

/-- The digits of the number a string spells are the string in upper case. -/
lemma fixedHex_baseSixteen (h : ∀ c ∈ s, isHexDigit c = true) :
    fixedHex s.length (baseSixteen s) = s.map Char.toUpper ∧ baseSixteen s < 16 ^ s.length := by
  induction s using List.reverseRecOn with
  | nil => exact ⟨rfl, by decide⟩
  | append_singleton s c ih =>
    obtain ⟨digits, small⟩ := ih fun x hx => h x (List.mem_append_left _ hx)
    obtain ⟨d, lt, value, upper⟩ := hexDigit_digitValue (h c (by simp))
    rw [baseSixteen_concat s value, List.length_append, List.length_singleton]
    constructor
    · have front : (16 * baseSixteen s + d) / 16 = baseSixteen s := by omega
      have last : (16 * baseSixteen s + d) % 16 = d := by omega
      rw [fixedHex, front, last, digits, upper, List.map_append, List.map_singleton]
    · rw [Nat.pow_succ]
      omega

end Digits

/-! ## Leads -/

section Leads
variable {s t digits : Bytes} {v : Nat}

/-- What stands behind the blanks is a sign and the rest. -/
lemma takeSign_spec (s : Bytes) :
    ∃ sign, s = sign ++ (takeSign s).2 ∧
      (sign = ['-'] ∧ (takeSign s).1 = true ∨ (sign = [] ∨ sign = ['+']) ∧ (takeSign s).1 = false) := by
  unfold takeSign
  split
  · exact ⟨['-'], rfl, .inl ⟨rfl, rfl⟩⟩
  · exact ⟨['+'], rfl, .inr ⟨.inr rfl, rfl⟩⟩
  · exact ⟨[], rfl, .inr ⟨.inl rfl, rfl⟩⟩

/-- What stands behind the sign is a prefix and the rest. -/
lemma dropBase_spec (s : Bytes) :
    ∃ base, s = base ++ dropBase s ∧ (base = [] ∨ base = ['0', 'x'] ∨ base = ['0', 'X']) := by
  unfold dropBase
  split
  · split
    · rename_i h
      rcases h.1 with rfl | rfl
      · exact ⟨['0', 'x'], rfl, .inr (.inl rfl)⟩
      · exact ⟨['0', 'X'], rfl, .inr (.inr rfl)⟩
    · exact ⟨[], rfl, .inl rfl⟩
  · exact ⟨[], rfl, .inl rfl⟩

/-- Digits have no prefix to pass over. -/
lemma dropBase_digits (h : ∀ c ∈ digits, isHexDigit c = true) : dropBase digits = digits := by
  unfold dropBase
  split
  · rename_i x c s
    refine if_neg ?_
    obtain ⟨-, -, -, lower, upper⟩ := isHexDigit_plain (h x (by simp))
    rintro ⟨rfl | rfl, -⟩
    · exact lower rfl
    · exact upper rfl
  · rfl

/-- The prefix in front of some digits is passed over. -/
lemma dropBase_append (base : t = [] ∨ t = ['0', 'x'] ∨ t = ['0', 'X']) (ne : digits ≠ [])
    (h : ∀ c ∈ digits, isHexDigit c = true) : dropBase (t ++ digits) = digits := by
  obtain ⟨c, s, rfl⟩ := List.exists_cons_of_ne_nil ne
  have digit : (digitValue c).isSome = true := (isHexDigit_eq c).symm.trans (h c (by simp))
  rcases base with rfl | rfl | rfl
  · exact dropBase_digits h
  · exact if_pos ⟨.inl rfl, digit⟩
  · exact if_pos ⟨.inr rfl, digit⟩

/-- A string that starts with no sign is not changed. -/
lemma takeSign_plain (h : ∀ c ∈ s.head?, c ≠ '-' ∧ c ≠ '+') : takeSign s = (false, s) := by
  unfold takeSign
  split
  · exact absurd rfl (h '-' rfl).1
  · exact absurd rfl (h '+' rfl).2
  · rfl

/-- The language `from_fixed_hex` accepts, with the values. -/
lemma fromFixedHex_eq_iff (len : s.length = framingHexSize) :
    fromFixedHex s = some v ↔ ∃ lead : Lead, ∃ digits, digits ≠ [] ∧ (∀ c ∈ digits, isHexDigit c = true) ∧
      s = lead.text ++ digits ∧ v = lead.wrap (baseSixteen digits) := by
  unfold fromFixedHex
  rw [if_neg (not_not.mpr len)]
  constructor
  · intro h
    obtain ⟨sign, cutSign, signed⟩ := takeSign_spec (s.dropWhile isSpace)
    generalize takeSign (s.dropWhile isSpace) = r at h cutSign signed
    obtain ⟨negative, t⟩ := r
    obtain ⟨base, cutBase, based⟩ := dropBase_spec t
    simp only at h cutSign signed
    split at h
    · cases h
    · rename_i ne
      obtain ⟨u, value, rfl⟩ := Option.map_eq_some_iff.mp h
      obtain ⟨digits, rfl⟩ := hexValue_eq_iff.mp value
      let lead : Lead := ⟨s.takeWhile isSpace, negative, sign, base, fun c hc => List.mem_takeWhile_imp hc,
        signed, based⟩
      refine ⟨lead, dropBase t, fun e => ne (List.isEmpty_iff.mpr e), digits, ?_, rfl⟩
      calc s = s.takeWhile isSpace ++ s.dropWhile isSpace := List.takeWhile_append_dropWhile.symm
        _ = s.takeWhile isSpace ++ (sign ++ (base ++ dropBase t)) := by rw [cutSign, ← cutBase]
        _ = lead.text ++ dropBase t := by simp only [lead, Lead.text, List.append_assoc]
  · rintro ⟨lead, digits, ne, hex, rfl, rfl⟩
    have base := dropBase_append lead.based ne hex
    have value := hexValue_eq_iff.mpr ⟨hex, rfl⟩
    -- what stands behind the sign starts with a digit
    have first : ∀ c ∈ (lead.base ++ digits).head?, isSpace c = false ∧ c ≠ '-' ∧ c ≠ '+' := by
      rcases lead.based with e | e | e
      · rw [e, List.nil_append]
        intro c hc
        obtain ⟨space, minus, plus, -, -⟩ := isHexDigit_plain (hex c (List.mem_of_mem_head? hc))
        exact ⟨space, minus, plus⟩
      · rw [e]
        rintro c ⟨⟩
        decide
      · rw [e]
        rintro c ⟨⟩
        decide
    have solid : (lead.sign ++ (lead.base ++ digits)).dropWhile isSpace =
        lead.sign ++ (lead.base ++ digits) := by
      rcases lead.signed with ⟨e, -⟩ | ⟨e | e, -⟩
      · rw [e]
        rfl
      · rw [e, List.nil_append]
        generalize lead.base ++ digits = t at first
        cases t with
        | nil => rfl
        | cons c t => exact List.dropWhile_cons_of_neg (by simp [(first c rfl).1])
      · rw [e]
        rfl
    have skip : (lead.text ++ digits).dropWhile isSpace = lead.sign ++ (lead.base ++ digits) := by
      rw [Lead.text, List.append_assoc, List.append_assoc, List.dropWhile_append_of_pos lead.blank, solid]
    have sign : takeSign (lead.sign ++ (lead.base ++ digits)) = (lead.negative, lead.base ++ digits) := by
      rcases lead.signed with ⟨e, n⟩ | ⟨e | e, n⟩
      · rw [e, n]
        rfl
      · rw [e, n]
        exact takeSign_plain fun c hc => (first c hc).2
      · rw [e, n]
        rfl
    rw [skip, sign]
    simp only [base, value, Option.map_some]
    rw [if_neg (by simp [ne])]
    rfl

/-- A lead is no digits. -/
lemma Lead.text_eq_nil (l : Lead) (h : ∀ c ∈ l.text, isHexDigit c = true) : l.text = [] := by
  have blanks : l.blanks = [] := by
    refine List.eq_nil_iff_forall_not_mem.mpr fun c hc => ?_
    have space := (isHexDigit_plain (h c (by simp [text, hc]))).1
    rw [l.blank c hc] at space
    cases space
  have sign : l.sign = [] := by
    rcases l.signed with ⟨e, -⟩ | ⟨e | e, -⟩
    · exact absurd (h '-' (by simp [text, e])) (by decide)
    · exact e
    · exact absurd (h '+' (by simp [text, e])) (by decide)
  have base : l.base = [] := by
    rcases l.based with e | e | e
    · exact e
    · exact absurd (h 'x' (by simp [text, e])) (by decide)
    · exact absurd (h 'X' (by simp [text, e])) (by decide)
  rw [text, blanks, sign, base]
  rfl

end Leads

/-! ## Sixteen digits -/

/-- What the length of a frame should be: a string is accepted if and only if it is made of digits, the
value is the number it spells, and a value the encoder takes is encoded to the string in upper case. -/
def FrameLength (s : Bytes) : Prop :=
  ((∃ v, fromFixedHex s = some v) ↔ ∀ c ∈ s, isHexDigit c = true) ∧
  ∀ v, fromFixedHex s = some v →
    v = baseSixteen s ∧ (v < 2 ^ 63 → toFixedHex v = some (s.map Char.toUpper))

/-- A string of digits only behind blanks, a sign or a prefix. -/
def Lenient (s : Bytes) : Prop :=
  ∃ lead : Lead, lead.text ≠ [] ∧ ∃ digits, digits ≠ [] ∧ (∀ c ∈ digits, isHexDigit c = true) ∧
    s = lead.text ++ digits

/-- A string of sixteen bytes is read as a frame length should be if and only if there is no lead in front
of its digits. -/
theorem frame_length_iff (s : Bytes) (len : s.length = framingHexSize) : FrameLength s ↔ ¬ Lenient s := by
  constructor
  · rintro ⟨accepted, -⟩ ⟨lead, some_lead, digits, ne, hex, e⟩
    have all := accepted.mp ⟨_, (fromFixedHex_eq_iff len).mpr ⟨lead, digits, ne, hex, e, rfl⟩⟩
    exact some_lead (lead.text_eq_nil fun c hc => all c (by simp [e, hc]))
  · intro plain
    have whole : ∀ v, fromFixedHex s = some v → (∀ c ∈ s, isHexDigit c = true) ∧ v = baseSixteen s := by
      intro v h
      obtain ⟨lead, digits, ne, hex, rfl, rfl⟩ := (fromFixedHex_eq_iff len).mp h
      have none : lead.text = [] := by
        by_contra some_lead
        exact plain ⟨lead, some_lead, digits, ne, hex, rfl⟩
      have sign : lead.negative = false := by
        rcases lead.signed with ⟨e, -⟩ | ⟨-, n⟩
        · rw [Lead.text, e] at none
          simp at none
        · exact n
      rw [none, List.nil_append, Lead.wrap, sign]
      exact ⟨hex, rfl⟩
    refine ⟨⟨?_, ?_⟩, ?_⟩
    · rintro ⟨v, h⟩
      exact (whole v h).1
    · intro hex
      have ne : s ≠ [] := by
        rintro rfl
        cases len
      exact ⟨_, (fromFixedHex_eq_iff len).mpr ⟨.empty, s, ne, hex, rfl, rfl⟩⟩
    · intro v h
      obtain ⟨hex, rfl⟩ := whole v h
      obtain ⟨digits, small⟩ := fixedHex_baseSixteen hex
      rw [len] at digits small
      refine ⟨rfl, fun _ => ?_⟩
      have fits : ¬ (2 : Int) ^ 64 ≤ (baseSixteen s : Int) := by
        unfold framingHexSize at small
        omega
      rw [toFixedHex, if_neg (by omega), if_neg fits, Int.toNat_natCast, digits]

theorem frame_length_mixed : FrameLength (bytes "000000000000aBcD") :=
  (frame_length_iff (bytes "000000000000aBcD") rfl).mpr fun ⟨lead, some_lead, digits, _, _, e⟩ =>
    some_lead (lead.text_eq_nil fun c hc => by
      have all : ∀ c ∈ bytes "000000000000aBcD", isHexDigit c = true := forall_of_all (by decide)
      exact all c (by rw [e]; exact List.mem_append_left _ hc))

/-- Blanks, a sign and a prefix are accepted, and a negative length is a large one. -/
theorem frame_length_lenient :
    fromFixedHex (bytes "               1") = some 1 ∧ fromFixedHex (bytes "+00000000000000f") = some 15 ∧
      fromFixedHex (bytes "0x000000000000ff") = some 255 ∧
      fromFixedHex (bytes "-000000000000001") = some 18446744073709551615 ∧
      ¬ FrameLength (bytes "               1") := by
  refine ⟨by decide, by decide, by decide, by decide, fun h => ?_⟩
  exact absurd (h.1.mp ⟨1, by decide⟩ ' ' (by decide)) (by decide)

end CovNet.Slave
