import Mathlib.Logic.Function.Iterate
import CovNet.Client.Response

/-!
# Percent-decoding

`url_decode` (`netutils.ecs`): a loop over an index, which looks two bytes ahead at a `%`. `urlDecode` is what the
loop has collected after as many turns as there are bytes. By then it has ended (`urlDecodeTurn_ended`), and what
it has collected follows the text (`urlDecode_eq`): `decode` reads one byte or one escape, and goes on behind it.
-/

namespace CovNet.Query
open Lib Text Client

/-- The digit at a position. -/
def hexAt (s : Bytes) (i : Nat) : Option Nat := s[i]?.bind hexCharToInt

/-- One turn of the loop of `url_decode`: the position and what is put out. -/
def urlDecodeTurn (s : Bytes) (st : Nat × Bytes) : Nat × Bytes :=
  let (i, out) := st
  match s[i]? with
  | none => (i, out)
  | some ch =>
    if ch = '+' then (i + 1, out ++ [' '])
    else if ch = '%' ∧ i + 2 < s.length then
      match hexAt s (i + 1), hexAt s (i + 2) with
      | some h1, some h2 => (i + 3, out ++ [Char.ofNat (h1 * 16 + h2)])
      | _, _ => (i + 1, out ++ [ch])
    else (i + 1, out ++ [ch])

/-- `url_decode`. -/
def urlDecode (s : Bytes) : Bytes := ((urlDecodeTurn s)^[s.length] (0, [])).2

/-! ## The loop follows the text -/

/-- The byte written by the two digits a text starts with. -/
def escape : Bytes → Option Char
  | h1 :: h2 :: _ =>
    match hexCharToInt h1, hexCharToInt h2 with
    | some a, some b => some (Char.ofNat (a * 16 + b))
    | _, _ => none
  | _ => none

/-- What the first byte of a text stands for, and how many bytes behind it belong to it. -/
def symbol (c : Char) (s : Bytes) : Char × Nat :=
  if c = '+' then (' ', 0)
  else if c = '%' then
    match escape s with
    | some b => (b, 2)
    | none => (c, 0)
  else (c, 0)

/-- The text, symbol by symbol. -/
def decode : Bytes → Bytes
  | [] => []
  | c :: s => (symbol c s).1 :: decode (s.drop (symbol c s).2)
termination_by s => s.length
decreasing_by
  rw [List.length_drop, List.length_cons]
  omega

@[simp] lemma decode_nil : decode [] = [] := by rw [decode]

/-- Two digits are two bytes. -/
lemma escape_some {s : Bytes} {b : Char} (h : escape s = some b) :
    ∃ h1 h2 t a d, s = h1 :: h2 :: t ∧ hexCharToInt h1 = some a ∧ hexCharToInt h2 = some d ∧
      b = Char.ofNat (a * 16 + d) := by
  unfold escape at h
  split at h
  · split at h
    · rename_i h1 h2 t _ _ a d ha hd
      cases h
      exact ⟨h1, h2, t, a, d, rfl, ha, hd, rfl⟩
    · cases h
  · cases h

/-- The symbol does not reach behind the text. -/
lemma symbol_le (c : Char) (s : Bytes) : (symbol c s).2 ≤ s.length := by
  unfold symbol
  split
  · exact Nat.zero_le _
  · split
    · split
      · rename_i e
        obtain ⟨h1, h2, t, -, -, rfl, -⟩ := escape_some e
        simp
      · exact Nat.zero_le _
    · exact Nat.zero_le _

/-- The two digits at a position. -/
lemma escape_drop (s : Bytes) (i : Nat) :
    escape (s.drop (i + 1)) =
      if i + 2 < s.length then
        (hexAt s (i + 1)).bind fun a => (hexAt s (i + 2)).map fun b => Char.ofNat (a * 16 + b)
      else none := by
  have first : s[i + 1]? = (s.drop (i + 1))[0]? := by rw [List.getElem?_drop]
  have second : s[i + 2]? = (s.drop (i + 1))[1]? := by rw [List.getElem?_drop]
  have size : s.length = i + 1 + (s.drop (i + 1)).length ∨ s.drop (i + 1) = [] := by
    by_cases le : i + 1 ≤ s.length
    · left
      rw [List.length_drop]
      omega
    · exact .inr (List.drop_eq_nil_of_le (by omega))
  rw [hexAt, hexAt, first, second]
  generalize s.drop (i + 1) = rest at size
  rcases rest with _ | ⟨h1, _ | ⟨h2, t⟩⟩
  · simp [escape]
  · cases e : hexCharToInt h1 <;> simp [escape, e]
  · rcases size with size | size
    · have room : i + 2 < s.length := by
        simp only [List.length_cons] at size
        omega
      rw [if_pos room]
      simp only [escape, List.getElem?_cons_zero, List.getElem?_cons_succ, Option.bind_some]
      cases hexCharToInt h1 <;> cases hexCharToInt h2 <;> rfl
    · cases size

/-- A turn takes one symbol. -/
lemma urlDecodeTurn_of_lt {s : Bytes} {i : Nat} (lt : i < s.length) (out : Bytes) :
    urlDecodeTurn s (i, out) =
      (i + 1 + (symbol s[i] (s.drop (i + 1))).2, out ++ [(symbol s[i] (s.drop (i + 1))).1]) := by
  simp only [urlDecodeTurn, List.getElem?_eq_getElem lt, symbol, escape_drop]
  by_cases plus : s[i] = '+'
  · simp [plus]
  · rw [if_neg plus, if_neg plus]
    by_cases percent : s[i] = '%'
    · by_cases room : i + 2 < s.length
      · simp only [percent, room, and_self, if_true]
        cases hexAt s (i + 1) <;> cases hexAt s (i + 2) <;> rfl
      · simp [percent, room]
    · simp [percent]

/-- Behind the text a turn does nothing. -/
lemma urlDecodeTurn_of_le {s : Bytes} {i : Nat} (le : s.length ≤ i) (out : Bytes) :
    urlDecodeTurn s (i, out) = (i, out) := by
  simp [urlDecodeTurn, List.getElem?_eq_none le]

/-- As many turns as there are bytes left put out the rest of the text. -/
lemma iterate_urlDecodeTurn (s : Bytes) {n i : Nat} (le : i ≤ s.length) (enough : s.length - i ≤ n) (out : Bytes) :
    (urlDecodeTurn s)^[n] (i, out) = (s.length, out ++ decode (s.drop i)) := by
  induction n generalizing i out with
  | zero =>
    have e : i = s.length := by omega
    subst e
    simp
  | succ n ih =>
    rw [Function.iterate_succ_apply]
    by_cases lt : i < s.length
    · have reach := symbol_le s[i] (s.drop (i + 1))
      rw [List.length_drop] at reach
      rw [urlDecodeTurn_of_lt lt, ih (by omega) (by omega), List.drop_eq_getElem_cons lt, decode, List.drop_drop]
      simp
    · have e : i = s.length := by omega
      subst e
      rw [urlDecodeTurn_of_le (Nat.le_refl _), ih (Nat.le_refl _) (by omega)]

/-- The loop has ended. -/
lemma urlDecodeTurn_ended (s : Bytes) : ((urlDecodeTurn s)^[s.length] (0, [])).1 = s.length := by
  rw [iterate_urlDecodeTurn s (Nat.zero_le _) (Nat.sub_le _ _)]

/-- What it has collected. -/
lemma urlDecode_eq (s : Bytes) : urlDecode s = decode s := by
  rw [urlDecode, iterate_urlDecodeTurn s (Nat.zero_le _) (Nat.sub_le _ _), List.drop_zero, List.nil_append]

@[simp] lemma urlDecode_nil : urlDecode [] = [] := rfl

/-! ## Encodings -/

/-- A text that does not start with two digits. -/
def NoEscape (s : Bytes) : Prop :=
  ∀ h1 h2 t, s = h1 :: h2 :: t → hexCharToInt h1 = none ∨ hexCharToInt h2 = none

lemma escape_eq_none {s : Bytes} : escape s = none ↔ NoEscape s := by
  constructor
  · rintro h h1 h2 t rfl
    cases e1 : hexCharToInt h1 with
    | none => exact .inl rfl
    | some a =>
      cases e2 : hexCharToInt h2 with
      | none => exact .inr rfl
      | some b => simp [escape, e1, e2] at h
  · intro no
    cases e : escape s with
    | none => rfl
    | some b =>
      obtain ⟨h1, h2, t, a, d, rfl, e1, e2, -⟩ := escape_some e
      rcases no h1 h2 t rfl with n1 | n2
      · rw [n1] at e1
        cases e1
      · rw [n2] at e2
        cases e2

/-- `t` writes `s`: each byte as itself, as `%` and two digits of either case, or, a space, as `+`. -/
inductive Encodes : Bytes → Bytes → Prop where
  | nil :
    Encodes [] []
  | literal {c s t} :
    c ≠ '%' →
    c ≠ '+' →
    Encodes s t →
    Encodes (c :: s) (c :: t)
  | escape {c s t h1 h2 a b} :
    hexCharToInt h1 = some a →
    hexCharToInt h2 = some b →
    c = Char.ofNat (a * 16 + b) →
    Encodes s t →
    Encodes (c :: s) ('%' :: h1 :: h2 :: t)
  | plus {s t} :
    Encodes s t →
    Encodes (' ' :: s) ('+' :: t)

lemma urlDecode_literal {c : Char} (percent : c ≠ '%') (plus : c ≠ '+') (t : Bytes) :
    urlDecode (c :: t) = c :: urlDecode t := by
  rw [urlDecode_eq, decode, urlDecode_eq]
  simp [symbol, percent, plus]

lemma urlDecode_plus (t : Bytes) : urlDecode ('+' :: t) = ' ' :: urlDecode t := by
  rw [urlDecode_eq, decode, urlDecode_eq]
  simp [symbol]

lemma urlDecode_escape {h1 h2 : Char} {a b : Nat} (e1 : hexCharToInt h1 = some a) (e2 : hexCharToInt h2 = some b)
    (t : Bytes) : urlDecode ('%' :: h1 :: h2 :: t) = Char.ofNat (a * 16 + b) :: urlDecode t := by
  rw [urlDecode_eq, decode, urlDecode_eq]
  simp [symbol, escape, e1, e2]

lemma urlDecode_percent {t : Bytes} (no : NoEscape t) : urlDecode ('%' :: t) = '%' :: urlDecode t := by
  rw [urlDecode_eq, decode, urlDecode_eq]
  simp [symbol, escape_eq_none.mpr no]

/-- Every encoding is decoded. -/
lemma Encodes.urlDecode {s t : Bytes} (h : Encodes s t) : urlDecode t = s := by
  induction h with
  | nil => rfl
  | literal percent plus _ ih => rw [urlDecode_literal percent plus, ih]
  | escape e1 e2 e _ ih => rw [urlDecode_escape e1 e2, ih, e]
  | plus _ ih => rw [urlDecode_plus, ih]

/-! ## Texts one after the other -/

section Append
variable {c : Char} (hc : hexCharToInt c = none)
include hc

/-- What the digits behind a byte are does not depend on what comes from the next byte on that is none. -/
lemma escape_append (s u : Bytes) : escape (s ++ c :: u) = escape s := by
  rcases s with _ | ⟨h1, _ | ⟨h2, t⟩⟩
  · cases u <;> simp [escape, hc]
  · simp [escape, hc]
  · rfl

lemma symbol_append (d : Char) (s u : Bytes) : symbol d (s ++ c :: u) = symbol d s := by
  rw [symbol, escape_append hc, symbol]

/-- No symbol takes a byte behind it that is no digit. -/
lemma decode_append (s u : Bytes) : decode (s ++ c :: u) = decode s ++ decode (c :: u) := by
  -- induction on the length: a symbol may take two bytes of the rest
  induction e : s.length using Nat.strong_induction_on generalizing s with
  | _ n ih =>
    cases s with
    | nil => simp
    | cons d s =>
      have reach := symbol_le d s
      have step := ih (s.drop (symbol d s).2).length
        (by rw [← e, List.length_drop, List.length_cons]; omega) _ rfl
      rw [List.cons_append, decode, symbol_append hc, List.drop_append_of_le_length reach, step]
      conv_rhs => rw [decode]
      rfl

lemma urlDecode_append (s u : Bytes) : urlDecode (s ++ c :: u) = urlDecode s ++ urlDecode (c :: u) := by
  rw [urlDecode_eq, urlDecode_eq, urlDecode_eq, decode_append hc]

end Append

/-- Decoding undoes every encoding. On every text it comes to an end, and a `%` without two digits behind it stays
what it is. -/
theorem urlDecode_inverts :
    (∀ s t, Encodes s t → urlDecode t = s) ∧
    (∀ s, ((urlDecodeTurn s)^[s.length] (0, [])).1 = s.length) ∧
    ∀ s t, NoEscape t → urlDecode (s ++ '%' :: t) = urlDecode s ++ '%' :: urlDecode t := by
  refine ⟨fun s t h => h.urlDecode, urlDecodeTurn_ended, fun s t no => ?_⟩
  rw [urlDecode_append (by decide), urlDecode_percent no]

/-- Escapes of both cases and a space written as `+`; a `%` at the end. -/
theorem urlDecode_inverts_page :
    urlDecode (bytes "%2f+%3F") = bytes "/ ?" ∧ urlDecode (bytes "5%" ++ '%' :: bytes "4") = bytes "5%%4" := by
  constructor
  · exact urlDecode_inverts.1 (bytes "/ ?") (bytes "%2f+%3F") (.escape rfl rfl rfl (.plus (.escape rfl rfl rfl .nil)))
  · have short : NoEscape (bytes "4") := by
      intro h1 h2 t e
      cases e
    rw [urlDecode_inverts.2.2 (bytes "5%") (bytes "4") short]
    decide

end CovNet.Query
