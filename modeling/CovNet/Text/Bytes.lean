import CovNet.Lib.Search
import CovNet.Lib.Lexical
import Mathlib.Data.List.DropRight

/-!
# Byte strings

Script strings are byte strings. A byte is written as the `Char` of its value and a string as a list
of them, so that text constants can be spelled out. This file has the string methods the scripts
use, with the behaviour of the CovScript runtime: `trim` strips the six characters of `isspace`,
`tolower` works on ASCII letters, `split` drops empty pieces.
-/

namespace CovNet
open Lib

/-- A byte string. -/
abbrev Bytes := List Char

instance : LawfulBEq Bytes := List.instLawfulBEq

namespace Text

/-- The bytes of a text constant. -/
def bytes (s : String) : Bytes := s.toList

/-- A line break as the protocols have it. -/
def crlf : Bytes := ['\r', '\n']

/-- `isspace` in the C locale. -/
def isSpace (c : Char) : Bool :=
  c == ' ' || c == '\t' || c == '\n' || c == '\x0b' || c == '\x0c' || c == '\r'

/-- `string.trim`. -/
def trim (s : Bytes) : Bytes := ((s.dropWhile isSpace).reverse.dropWhile isSpace).reverse

/-- `string.tolower`. -/
def tolower (s : Bytes) : Bytes := s.map Char.toLower

/-- `string.split` at one character. -/
def split (c : Char) (s : Bytes) : List Bytes := pieces (· == c) s

/-- The lines of a text, without their breaks. -/
def lines : Bytes → List Bytes
  | [] => [[]]
  | c :: s =>
    match lines s with
    | [] => [[c]]
    | l :: ls => if c = '\r' ∧ l.head? = some '\n' then [] :: l.tail :: ls else (c :: l) :: ls

/-- No line break. -/
def NoBreak (s : Bytes) : Prop := '\r' ∉ s ∧ '\n' ∉ s

instance (s : Bytes) : Decidable (NoBreak s) := inferInstanceAs (Decidable (_ ∧ _))

@[simp] lemma split_nil (c : Char) : split c [] = [] := pieces_nil

lemma split_eq_nil {c : Char} {s : Bytes} : split c s = [] ↔ ∀ d ∈ s, d = c := by
  simp [split, pieces_eq_nil]

lemma NoBreak.append {s t : Bytes} (hs : NoBreak s) (ht : NoBreak t) : NoBreak (s ++ t) := by
  simp [NoBreak, hs.1, hs.2, ht.1, ht.2]

/-- Spaces are below the letters. -/
lemma isSpace_of_le {c : Char} (h : 65 ≤ c.toNat) : isSpace c = false := by
  have ne : ∀ d : Char, d.toNat < 65 → c ≠ d := by
    rintro d lt rfl
    omega
  simp [isSpace, ne ' ' (by decide), ne '\t' (by decide), ne '\n' (by decide),
    ne '\x0b' (by decide), ne '\x0c' (by decide), ne '\r' (by decide)]

/-- No digit is a space. -/
lemma isSpace_of_isDigit {c : Char} (h : c.isDigit = true) : isSpace c = false := by
  have ne : ∀ d : Char, d.isDigit = false → c ≠ d := by
    rintro d hd rfl
    rw [h] at hd
    cases hd
  simp [isSpace, ne ' ' rfl, ne '\t' rfl, ne '\n' rfl, ne '\x0b' rfl, ne '\x0c' rfl, ne '\r' rfl]

/-- Lower-casing changes 26 letters. -/
lemma toLower_eq_or (c : Char) : c.toLower = c ∨ ∃ k : Fin 26, c = Char.ofNat (65 + k.val) := by
  by_cases upper : 65 ≤ c.toNat ∧ c.toNat ≤ 90
  · refine .inr ⟨⟨c.toNat - 65, by omega⟩, ?_⟩
    rw [Nat.add_sub_cancel' upper.1, Char.ofNat_toNat]
  · left
    unfold Char.toLower
    refine dif_neg fun range => upper ?_
    exact ⟨UInt32.le_iff_toNat_le.mp range.1, UInt32.le_iff_toNat_le.mp range.2⟩

/-- What holds of a character that stays and of the letters that change holds of all characters. -/
lemma toLower_rule {p : Char → Char → Prop} (same : ∀ c, p c c)
    (letters : ∀ k : Fin 26, p (Char.ofNat (65 + k.val)) (Char.ofNat (65 + k.val)).toLower) (c : Char) :
    p c c.toLower := by
  rcases toLower_eq_or c with e | ⟨k, rfl⟩
  · rw [e]
    exact same c
  · exact letters k

/-- Lower-casing neither makes nor removes a space. -/
@[simp] lemma isSpace_toLower (c : Char) : isSpace c.toLower = isSpace c :=
  toLower_rule (p := fun c d => isSpace d = isSpace c) (fun _ => rfl) (by decide) c

/-- A character that lower-cases to a space is that space. -/
lemma toLower_eq_of_isSpace {c : Char} (h : isSpace c.toLower = true) : c.toLower = c :=
  toLower_rule (p := fun c d => isSpace d = true → d = c) (fun _ _ => rfl) (by decide) c h

/-- Only a colon is lower-cased to one. -/
lemma toLower_eq_colon {c : Char} (h : c.toLower = ':') : c = ':' :=
  toLower_rule (p := fun c d => d = ':' → c = ':') (fun _ => id) (by decide) c h

lemma toLower_toLower (c : Char) : c.toLower.toLower = c.toLower := by
  rcases toLower_eq_or c with e | ⟨k, rfl⟩
  · rw [e, e]
  · revert k
    decide

lemma tolower_tolower (s : Bytes) : tolower (tolower s) = tolower s := by
  rw [tolower, tolower, List.map_map]
  exact List.map_congr_left fun c _ => toLower_toLower c

lemma colon_notMem_tolower {s : Bytes} (h : ':' ∉ s) : ':' ∉ tolower s := by
  intro mem
  obtain ⟨c, hc, e⟩ := List.mem_map.mp mem
  rw [toLower_eq_colon e] at hc
  exact h hc

lemma NoBreak.tolower {s : Bytes} (h : NoBreak s) : NoBreak (tolower s) := by
  have mem : ∀ d, isSpace d = true → d ∉ s → d ∉ Text.tolower s := by
    intro d sp no hd
    obtain ⟨c, hc, e⟩ := List.mem_map.mp hd
    rw [toLower_eq_of_isSpace (e ▸ sp)] at e
    exact no (e ▸ hc)
  exact ⟨mem _ rfl h.1, mem _ rfl h.2⟩

/-- Trimming and lower-casing do not disturb each other. -/
lemma tolower_trim (s : Bytes) : tolower (trim s) = trim (tolower s) := by
  have drop : ∀ s : Bytes, (s.map Char.toLower).dropWhile isSpace =
      (s.dropWhile isSpace).map Char.toLower := by
    intro s
    rw [List.dropWhile_map]
    congr 1
    exact congrArg (fun p => s.dropWhile p) (funext fun c => isSpace_toLower c)
  simp only [tolower, trim, drop, ← List.map_reverse]

/-- A run ends at the first character that is not of its kind. -/
lemma span_stop {p : Char → Bool} {x : Bytes} {c : Char} (hx : ∀ d ∈ x, p d = true) (hc : p c = false)
    (y : Bytes) : (x ++ c :: y).takeWhile p = x ∧ (x ++ c :: y).dropWhile p = c :: y := by
  constructor
  · rw [List.takeWhile_append_of_pos hx, List.takeWhile_cons_of_neg (by simp [hc]), List.append_nil]
  · rw [List.dropWhile_append_of_pos hx, List.dropWhile_cons_of_neg (by simp [hc])]

/-- A run ends where what follows does not start with its kind. -/
lemma span_append {p : Char → Bool} {x y : Bytes} (hx : ∀ d ∈ x, p d = true) (hy : ∀ c ∈ y.head?, p c = false) :
    (x ++ y).takeWhile p = x ∧ (x ++ y).dropWhile p = y := by
  cases y with
  | nil =>
    rw [List.append_nil]
    exact ⟨List.takeWhile_eq_self_iff.mpr hx, List.dropWhile_eq_nil_iff.mpr hx⟩
  | cons c y => exact span_stop hx (hy c rfl) y

/-- A text in which something is left from a character on has that character. -/
lemma mem_of_dropWhile_ne {d c : Char} {s rest : Bytes} (h : s.dropWhile (· != d) = c :: rest) : d ∈ s := by
  by_contra no
  have nil : s.dropWhile (· != d) = [] := by
    rw [List.dropWhile_eq_nil_iff]
    intro e he
    have ne : e ≠ d := fun same => no (same ▸ he)
    simpa using ne
  rw [nil] at h
  cases h

/-- What a computation sees of all bytes of a text. -/
lemma forall_of_all {p : Char → Prop} [DecidablePred p] {s : Bytes} (h : (s.all fun c => decide (p c)) = true) :
    ∀ c ∈ s, p c := by
  simpa using h

/-- A text without spaces, as a computation sees it. -/
lemma solid_of_all {s : Bytes} (h : (s.all fun c => !isSpace c) = true) : ∀ c ∈ s, isSpace c = false := by
  simpa using h

/-- A text without spaces is not trimmed. -/
lemma trim_eq_self {s : Bytes} (h : ∀ c ∈ s, isSpace c = false) : trim s = s := by
  have front : ∀ t : Bytes, (∀ c ∈ t, isSpace c = false) → t.dropWhile isSpace = t := by
    intro t ht
    cases t with
    | nil => rfl
    | cons c t => exact List.dropWhile_cons_of_neg (by simp [ht c List.mem_cons_self])
  rw [trim, front s h, front s.reverse fun c mem => h c (List.mem_reverse.mp mem), List.reverse_reverse]

/-- Spaces at the end are dropped up to the last character that is none. -/
lemma rdropWhile_append_cons {p : Char → Bool} {c : Char} (h : p c = false) (a b : Bytes) :
    (a ++ c :: b).rdropWhile p = a ++ c :: b.rdropWhile p := by
  induction b using List.reverseRecOn with
  | nil => exact List.rdropWhile_concat_neg p a c (by simp [h])
  | append_singleton b x ih =>
    have e : a ++ c :: (b ++ [x]) = (a ++ c :: b) ++ [x] := by simp
    rw [e, List.rdropWhile_concat, List.rdropWhile_concat]
    split
    · exact ih
    · exact e.symm

/-- A text that does not start with a space is trimmed at its end only. -/
lemma trim_cons {c : Char} (h : isSpace c = false) (s : Bytes) :
    trim (c :: s) = (c :: s).rdropWhile isSpace := by
  unfold trim
  rw [List.dropWhile_cons_of_neg (by simp [h])]
  rfl

/-- Spaces behind a text without spaces are trimmed. -/
lemma trim_spaces {s sp : Bytes} (solid : ∀ c ∈ s, isSpace c = false) (blank : ∀ c ∈ sp, isSpace c = true) :
    trim (s ++ sp) = s := by
  cases s with
  | nil =>
    rw [List.nil_append, trim, List.dropWhile_eq_nil_iff.mpr blank]
    rfl
  | cons c s =>
    have back : (c :: s).reverse.dropWhile isSpace = (c :: s).reverse := by
      rw [List.dropWhile_eq_self_iff]
      intro pos
      rw [solid _ (List.mem_reverse.mp (List.getElem_mem pos))]
      decide
    rw [List.cons_append, trim_cons (solid c List.mem_cons_self), ← List.cons_append, List.rdropWhile,
      List.reverse_append, List.dropWhile_append_of_pos fun d mem => blank d (List.mem_reverse.mp mem), back,
      List.reverse_reverse]

lemma lines_ne_nil (s : Bytes) : lines s ≠ [] := by
  cases s with
  | nil => simp [lines]
  | cons c s =>
    unfold lines
    split
    · simp
    · split <;> simp

/-- The first line ends at the first line break. -/
lemma lines_cut {s raw rest : Bytes} (h : cut crlf s = some (raw, rest)) :
    ∃ l, raw = l ++ crlf ∧ lines s = l :: lines rest := by
  -- induction on the text; a break either starts here or is one of the rest
  induction s generalizing raw rest with
  | nil => cases h
  | cons c s ih =>
    by_cases pre : crlf <+: c :: s
    · obtain ⟨t, e⟩ := pre
      obtain ⟨rfl, rfl⟩ : c = '\r' ∧ s = '\n' :: t := by
        simpa [crlf, eq_comm] using e
      have hz : find crlf ('\r' :: '\n' :: t) = some 0 := find_eq_zero.mpr ⟨t, rfl⟩
      simp only [cut, hz, Option.map_some, Option.some.injEq, Prod.mk.injEq] at h
      obtain ⟨rfl, rfl⟩ := h
      refine ⟨[], rfl, ?_⟩
      obtain ⟨l, ls, hl⟩ := List.exists_cons_of_ne_nil (lines_ne_nil t)
      simp [lines, hl, crlf]
    · obtain ⟨i, hi, e⟩ := Option.map_eq_some_iff.mp h
      simp only [find, List.isPrefixOf_iff_prefix, pre, if_false] at hi
      obtain ⟨j, hj, rfl⟩ := Option.map_eq_some_iff.mp hi
      have hs : cut crlf s = some (s.take (j + crlf.length), s.drop (j + crlf.length)) := by
        simp [cut, hj]
      obtain ⟨l, hraw, hl⟩ := ih hs
      have e1 : j + 1 + crlf.length = j + crlf.length + 1 := by omega
      simp only [e1, List.take_succ_cons, List.drop_succ_cons, Prod.mk.injEq] at e
      obtain ⟨rfl, rfl⟩ := e
      refine ⟨c :: l, by rw [hraw]; rfl, ?_⟩
      have no : ¬ (c = '\r' ∧ l.head? = some '\n') := by
        rintro ⟨rfl, head⟩
        apply pre
        obtain ⟨l', rfl⟩ : ∃ l', l = '\n' :: l' := by
          cases l with
          | nil => simp at head
          | cons d l' => exact ⟨l', by simpa using head⟩
        have all := (cut_spec hs).1
        rw [hraw] at all
        rw [all]
        exact ⟨l' ++ crlf ++ s.drop (j + crlf.length), by simp [crlf]⟩
      rw [lines, hl]
      simp only [if_neg no]

end Text

end CovNet
