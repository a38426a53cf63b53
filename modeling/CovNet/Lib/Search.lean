import Mathlib.Data.List.Infix

/-!
# Searching and replacing a pattern in a list

`find` is the position of the first occurrence of a pattern, `cut` splits a list right after it, and
`replaceAll` replaces the occurrences from left to right, none overlapping the one before.

Two facts carry the arguments about streams that arrive in pieces: an occurrence that is found stays
the first one however the list goes on (`find_append`, `cut_append`), and the part cut off ends in
the pattern and contains it nowhere else (`cut_spec`).
-/

namespace CovNet.Lib

section Find
variable {α : Type*} [DecidableEq α] {pat s t x y : List α} {i : Nat}

/-- The position of the first occurrence of a pattern. -/
def find (pat : List α) : List α → Option Nat
  | [] => if pat.isEmpty then some 0 else none
  | a :: s => if pat.isPrefixOf (a :: s) then some 0 else (find pat s).map (· + 1)

/-- The list up to the end of the first occurrence of the pattern, and the rest. -/
def cut (pat s : List α) : Option (List α × List α) :=
  (find pat s).map fun i => (s.take (i + pat.length), s.drop (i + pat.length))

/-- A position found is the first one at which the pattern stands. -/
lemma find_spec (h : find pat s = some i) :
    pat <+: s.drop i ∧ ∀ j < i, ¬ pat <+: s.drop j := by
  induction s generalizing i with
  | nil =>
    simp only [find, List.isEmpty_iff] at h
    split at h
    · rename_i e
      cases h
      simp [e]
    · cases h
  | cons a s ih =>
    simp only [find, List.isPrefixOf_iff_prefix] at h
    split at h
    · rename_i pre
      cases h
      exact ⟨pre, nofun⟩
    · rename_i no
      obtain ⟨j, hj, rfl⟩ := Option.map_eq_some_iff.mp h
      obtain ⟨pre, first⟩ := ih hj
      refine ⟨pre, ?_⟩
      rintro (_ | m) lt
      · exact no
      · exact first m (by omega)

/-- The first position at which the pattern stands is found. -/
lemma find_of_first (pre : pat <+: s.drop i) (le : i ≤ s.length)
    (first : ∀ j < i, ¬ pat <+: s.drop j) : find pat s = some i := by
  induction s generalizing i with
  | nil =>
    obtain rfl : i = 0 := by simpa using le
    have e : pat = [] := by simpa using pre
    simp [find, e]
  | cons a s ih =>
    simp only [find, List.isPrefixOf_iff_prefix]
    rcases i with _ | i
    · rw [if_pos (by simpa using pre)]
    · have no : ¬ pat <+: a :: s := first 0 (by omega)
      rw [if_neg no, ih pre (by simpa using le)]
      · rfl
      · intro j lt
        exact first (j + 1) (by omega)

/-- The occurrence found lies within the list. -/
lemma find_le (h : find pat s = some i) : i + pat.length ≤ s.length := by
  induction s generalizing i with
  | nil =>
    simp only [find, List.isEmpty_iff] at h
    split at h
    · rename_i e
      cases h
      simp [e]
    · cases h
  | cons a s ih =>
    simp only [find, List.isPrefixOf_iff_prefix] at h
    split at h
    · rename_i pre
      cases h
      simpa using pre.length_le
    · obtain ⟨j, hj, rfl⟩ := Option.map_eq_some_iff.mp h
      have le := ih hj
      simp only [List.length_cons]
      omega

/-- The pattern is found at the start exactly when it is a prefix. -/
lemma find_eq_zero : find pat s = some 0 ↔ pat <+: s :=
  ⟨fun h => (find_spec h).1, fun h => find_of_first h (Nat.zero_le _) nofun⟩

/-- Nothing is found exactly where the pattern does not occur. -/
lemma find_eq_none : find pat s = none ↔ ¬ pat <:+: s := by
  induction s with
  | nil => simp [find]
  | cons a s ih =>
    simp only [find, List.isPrefixOf_iff_prefix, List.infix_cons_iff, not_or]
    split
    · simp_all
    · simp_all

lemma find_isSome : (find pat s).isSome ↔ pat <:+: s := by
  rw [Option.isSome_iff_ne_none, ne_eq, find_eq_none, not_not]

/-- An element is found where it is first. -/
lemma find_first {c : α} {a b : List α} (no : c ∉ a) : find [c] (a ++ c :: b) = some a.length := by
  refine find_of_first ?_ (by simp) fun j lt pre => ?_
  · rw [List.drop_left]
    exact ⟨b, rfl⟩
  · rw [List.drop_append_of_le_length lt.le, List.drop_eq_getElem_cons lt, List.cons_append] at pre
    have e : c = a[j] := (List.cons_prefix_cons.mp pre).1
    exact no (e ▸ List.getElem_mem lt)

/-- An element that is not there is not found. -/
lemma find_of_notMem {c : α} (no : c ∉ s) : find [c] s = none := by
  rw [find_eq_none, List.singleton_infix_iff]
  exact no

/-- An occurrence found stays the first one however the list goes on. -/
lemma find_append (h : find pat s = some i) : find pat (s ++ t) = some i := by
  have le := find_le h
  obtain ⟨pre, first⟩ := find_spec h
  apply find_of_first
  · rw [List.drop_append_of_le_length (by omega)]
    exact pre.trans (List.prefix_append _ _)
  · rw [List.length_append]
    omega
  · intro j lt
    rw [List.drop_append_of_le_length (by omega)]
    intro h'
    apply first j lt
    apply List.prefix_of_prefix_length_le h' (List.prefix_append _ _)
    rw [List.length_drop]
    omega

lemma cut_eq_none : cut pat s = none ↔ ¬ pat <:+: s := by
  simp [cut, find_eq_none]

/-- What is cut off is the list up to the end of the pattern's first occurrence. -/
lemma cut_spec (h : cut pat s = some (x, y)) : s = x ++ y ∧ pat <:+ x := by
  obtain ⟨i, hi, e⟩ := Option.map_eq_some_iff.mp h
  cases e
  refine ⟨(List.take_append_drop _ _).symm, ?_⟩
  obtain ⟨pre, -⟩ := find_spec hi
  have e : s.take (i + pat.length) = s.take i ++ pat := by
    rw [List.take_add, List.prefix_iff_eq_take.mp pre, List.length_take, List.length_drop]
    have le := find_le hi
    rw [min_eq_left (by omega)]
  exact ⟨s.take i, e.symm⟩

lemma cut_length_lt (h : cut pat s = some (x, y)) (ne : pat ≠ []) : y.length < s.length := by
  obtain ⟨e, suf⟩ := cut_spec h
  have le := suf.length_le
  have pos := List.length_pos_iff.mpr ne
  rw [e, List.length_append]
  omega

/-- The part cut off is cut off in front of anything else. -/
lemma cut_append (h : cut pat s = some (x, y)) : cut pat (s ++ t) = some (x, y ++ t) := by
  obtain ⟨i, hi, e⟩ := Option.map_eq_some_iff.mp h
  cases e
  have le := find_le hi
  simp [cut, find_append hi, List.take_append_of_le_length le, List.drop_append_of_le_length le]

/-- Only the last place of the part cut off has the pattern. -/
lemma cut_self (h : cut pat s = some (x, y)) : cut pat x = some (x, []) := by
  obtain ⟨i, hi, e⟩ := Option.map_eq_some_iff.mp h
  cases e
  have le := find_le hi
  obtain ⟨pre, first⟩ := find_spec hi
  have hx : find pat (s.take (i + pat.length)) = some i := by
    apply find_of_first
    · rw [List.drop_take]
      simpa using List.prefix_iff_eq_take.mp pre ▸ List.prefix_rfl
    · simp
      omega
    · intro j lt h'
      apply first j lt
      rw [List.drop_take] at h'
      exact h'.trans (List.take_prefix _ _)
  simp only [cut, hx, Option.map_some, List.take_take, min_self, Option.some.injEq, Prod.mk.injEq,
    true_and, List.drop_eq_nil_iff, List.length_take]
  omega

end Find

section Separator
variable {α : Type*} {pat s t : List α} {c : α}

/-- A pattern does not reach over an element it does not have. -/
lemma prefix_append_cons (h : c ∉ pat) : pat <+: s ++ c :: t ↔ pat <+: s := by
  refine ⟨fun pre => ?_, fun pre => pre.trans (List.prefix_append _ _)⟩
  by_cases le : pat.length ≤ s.length
  · exact List.prefix_of_prefix_length_le pre (List.prefix_append _ _) le
  · exfalso
    apply h
    have pre' : s ++ [c] <+: pat := by
      apply List.prefix_of_prefix_length_le _ pre
      · simp only [List.length_append, List.length_singleton]
        omega
      · exact ⟨t, by simp⟩
    exact pre'.subset (by simp)

/-- An occurrence starts where its first element is. -/
lemma infix_append_of_notMem (h : c ∉ s) : c :: pat <:+: s ++ t ↔ c :: pat <:+: t := by
  induction s with
  | nil => rfl
  | cons a s ih =>
    simp only [List.mem_cons, not_or] at h
    have no : ¬ c :: pat <+: a :: (s ++ t) := by
      intro pre
      exact h.1 (List.cons_prefix_cons.mp pre).1
    rw [List.cons_append, List.infix_cons_iff, ih h.2]
    simp [no]

end Separator

section Replace
variable {α : Type*} [DecidableEq α] {pat rep s t : List α} {c : α}

/-- Replace, with the next `skip` elements already part of a replaced occurrence. -/
def replaceFrom (pat rep : List α) : Nat → List α → List α
  | _, [] => []
  | skip + 1, _ :: s => replaceFrom pat rep skip s
  | 0, a :: s =>
    if pat.isPrefixOf (a :: s) then rep ++ replaceFrom pat rep (pat.length - 1) s
    else a :: replaceFrom pat rep 0 s

/-- Replace every occurrence of the pattern, from left to right. -/
def replaceAll (pat rep s : List α) : List α := replaceFrom pat rep 0 s

/-- Where the pattern does not start, an element is kept. -/
lemma replaceAll_cons {a : α} (no : ¬ pat <+: a :: s) :
    replaceAll pat rep (a :: s) = a :: replaceAll pat rep s := by
  simp only [replaceAll, replaceFrom, List.isPrefixOf_iff_prefix, no, if_false]

/-- Nothing is replaced where the pattern does not occur. -/
lemma replaceAll_of_not_occ (no : ¬ pat <:+: s) : replaceAll pat rep s = s := by
  induction s with
  | nil => rfl
  | cons a s ih =>
    rw [List.infix_cons_iff, not_or] at no
    rw [replaceAll_cons no.1, ih no.2]

lemma replaceFrom_length_le (le : rep.length ≤ pat.length) (k : Nat) :
    (replaceFrom pat rep k s).length ≤ s.length - k := by
  induction s generalizing k with
  | nil => simp [replaceFrom]
  | cons a s ih =>
    rcases k with _ | k
    · simp only [replaceFrom, List.isPrefixOf_iff_prefix]
      split
      · rename_i pre
        have hp := pre.length_le
        have hk := ih (pat.length - 1)
        simp only [List.length_append, List.length_cons] at hp ⊢
        omega
      · have hk := ih 0
        simp only [List.length_cons]
        omega
    · have hk := ih k
      simp only [replaceFrom, List.length_cons]
      omega

/-- A shorter replacement makes a list shorter in which the pattern occurs. -/
lemma replaceAll_length_lt {rep : List α} (lt : rep.length < pat.length) (occ : pat <:+: s) :
    (replaceAll pat rep s).length < s.length := by
  unfold replaceAll
  induction s with
  | nil =>
    have e : pat = [] := by simpa using occ
    simp [e] at lt
  | cons a s ih =>
    simp only [replaceFrom, List.isPrefixOf_iff_prefix]
    split
    · rename_i pre
      have hp := pre.length_le
      have hk := replaceFrom_length_le (s := s) lt.le (pat.length - 1)
      simp only [List.length_append, List.length_cons] at hp ⊢
      omega
    · rename_i no
      rcases List.infix_cons_iff.mp occ with pre | occ'
      · exact absurd pre no
      · have hk := ih occ'
        simp only [List.length_cons]
        omega

/-- What a replaced list has comes from the list or from the replacement. -/
lemma mem_replaceAll {x : α} (h : x ∈ replaceAll pat rep s) : x ∈ s ∨ x ∈ rep := by
  suffices go : ∀ k, x ∈ replaceFrom pat rep k s → x ∈ s ∨ x ∈ rep from go 0 h
  clear h
  induction s with
  | nil => simp [replaceFrom]
  | cons a s ih =>
    rintro (_ | k) h
    · simp only [replaceFrom] at h
      split at h
      · rcases List.mem_append.mp h with h | h
        · exact .inr h
        · exact (ih _ h).imp_left (List.mem_cons_of_mem a)
      · rcases List.mem_cons.mp h with rfl | h
        · exact .inl (by simp)
        · exact (ih _ h).imp_left (List.mem_cons_of_mem a)
    · exact (ih k h).imp_left (List.mem_cons_of_mem a)

lemma replaceAll_ne_nil (hr : rep ≠ []) (hs : s ≠ []) : replaceAll pat rep s ≠ [] := by
  obtain ⟨a, s, rfl⟩ := List.exists_cons_of_ne_nil hs
  simp only [replaceAll, replaceFrom]
  split <;> simp [hr]

/-- A list that starts with the pattern starts with the replacement afterwards. -/
lemma replaceAll_of_start (rep : List α) (pre : pat <+: s) (ne : s ≠ []) : rep <+: replaceAll pat rep s := by
  obtain ⟨a, s, rfl⟩ := List.exists_cons_of_ne_nil ne
  simp only [replaceAll, replaceFrom, List.isPrefixOf_iff_prefix, pre, if_true]
  exact List.prefix_append _ _

/-- Replacing starts where the first element of the pattern is. -/
lemma replaceAll_append_of_notMem (h : c ∉ s) :
    replaceAll (c :: pat) rep (s ++ t) = s ++ replaceAll (c :: pat) rep t := by
  induction s with
  | nil => rfl
  | cons a s ih =>
    simp only [List.mem_cons, not_or] at h
    have no : ¬ c :: pat <+: a :: (s ++ t) := by
      intro pre
      exact h.1 (List.cons_prefix_cons.mp pre).1
    rw [List.cons_append, replaceAll_cons no, ih h.2, List.cons_append]

/-- Replacing works on both sides of such an element. -/
lemma replaceAll_append_cons (rep s t : List α) (h : c ∉ pat) (ne : pat ≠ []) :
    replaceAll pat rep (s ++ c :: t) = replaceAll pat rep s ++ c :: replaceAll pat rep t := by
  suffices go : ∀ k, k ≤ s.length → replaceFrom pat rep k (s ++ c :: t)
      = replaceFrom pat rep k s ++ c :: replaceAll pat rep t from go 0 (Nat.zero_le _)
  induction s with
  | nil =>
    intro k le
    obtain rfl : k = 0 := by simpa using le
    have no : ¬ pat <+: c :: t := by
      intro pre
      exact ne (by simpa using (prefix_append_cons (s := []) h).mp pre)
    simp [replaceFrom, no, replaceAll]
  | cons a s ih =>
    intro k le
    rcases k with _ | k
    · have iff : pat <+: a :: (s ++ c :: t) ↔ pat <+: a :: s :=
        prefix_append_cons (s := a :: s) h
      simp only [List.cons_append, replaceFrom, List.isPrefixOf_iff_prefix, iff]
      split
      · rename_i pre
        have hp := pre.length_le
        rw [ih _ (by simp only [List.length_cons] at hp; omega), List.append_assoc]
      · rw [ih 0 (Nat.zero_le _), List.cons_append]
    · exact ih k (by simpa using le)

end Replace

end CovNet.Lib
