import Mathlib.Data.List.AList
import Mathlib.Data.List.Induction
import Mathlib.Tactic.Lemma

/-!
# Grouping by keys

A table gathers the values of a list of pairs under their keys. `valuesOf` is what belongs under a key. A fold that
represents the values under a key in some way, and touches no other key, gathers all of them (`lookup_foldl`). The
pairs are known from what is gathered, up to their order (`perm_of_valuesOf`).

The tables are association lists without duplicate keys, `HashMap`: the entries in some order of iteration.
-/

namespace CovNet.Lib

/-- A table, with its entries in the order in which it is iterated. -/
abbrev HashMap (κ ν : Type*) := AList fun _ : κ => ν

section Lookup
variable {κ ν : Type*} [BEq κ] [LawfulBEq κ] {key : κ} {val : ν} {l : List (κ × ν)}

/-- Nothing is found under a key that does not occur, and only there. -/
lemma lookup_eq_none : l.lookup key = none ↔ key ∉ l.map Prod.fst := by
  rw [List.lookup_eq_none_iff]
  constructor
  · intro none mem
    obtain ⟨entry, hentry, rfl⟩ := List.mem_map.mp mem
    simpa using none entry hentry
  · intro no entry mem
    have ne : key ≠ entry.1 := fun same => no (same ▸ List.mem_map_of_mem mem)
    simpa using ne

lemma mem_of_lookup (h : l.lookup key = some val) : (key, val) ∈ l := by
  obtain ⟨front, back, rfl, -⟩ := List.lookup_eq_some_iff.mp h
  exact List.mem_append_right front List.mem_cons_self

/-- Something is found under a key that occurs. -/
lemma exists_lookup (mem : key ∈ l.map Prod.fst) : ∃ val, l.lookup key = some val := by
  rw [← Option.ne_none_iff_exists', Ne, lookup_eq_none, not_not]
  exact mem

end Lookup

section Grouping
variable {κ ν ρ : Type*} [DecidableEq κ]

/-- The values under a key, in order. -/
def valuesOf (key : κ) (pairs : List (κ × ν)) : List ν := (pairs.filter fun p => p.1 = key).map Prod.snd

@[simp] lemma valuesOf_nil (key : κ) : valuesOf key ([] : List (κ × ν)) = [] := rfl

@[simp] lemma valuesOf_append (key : κ) (ps qs : List (κ × ν)) :
    valuesOf key (ps ++ qs) = valuesOf key ps ++ valuesOf key qs := by
  simp [valuesOf]

lemma valuesOf_singleton_self (p : κ × ν) : valuesOf p.1 [p] = [p.2] := by
  simp [valuesOf]

lemma valuesOf_singleton_ne {key : κ} {p : κ × ν} (ne : key ≠ p.1) : valuesOf key [p] = [] := by
  simp [valuesOf, Ne.symm ne]

/-- There are values under the keys of the pairs, and under no others. -/
lemma valuesOf_eq_nil {key : κ} {ps : List (κ × ν)} : valuesOf key ps = [] ↔ key ∉ ps.map Prod.fst := by
  simp only [valuesOf, List.map_eq_nil_iff, List.filter_eq_nil_iff, List.mem_map, decide_eq_true_eq]
  constructor
  · rintro no ⟨p, mem, rfl⟩
    exact no p mem rfl
  · rintro no p mem rfl
    exact no ⟨p, mem, rfl⟩

/-- A fold that adds one value to what is under its key, and leaves the other keys alone, gathers the values. -/
lemma lookup_foldl {rep : List ν → Option ρ} {add : HashMap κ ρ → κ × ν → HashMap κ ρ}
    (own : ∀ m p vs, m.lookup p.1 = rep vs → (add m p).lookup p.1 = rep (vs ++ [p.2]))
    (other : ∀ m p k, k ≠ p.1 → (add m p).lookup k = m.lookup k) {m : HashMap κ ρ}
    (empty : ∀ k, m.lookup k = rep []) (ps : List (κ × ν)) (k : κ) :
    (ps.foldl add m).lookup k = rep (valuesOf k ps) := by
  induction ps using List.reverseRecOn with
  | nil => exact empty k
  | append_singleton ps p ih =>
    rw [List.foldl_append, List.foldl_cons, List.foldl_nil, valuesOf_append]
    by_cases e : k = p.1
    · subst e
      rw [valuesOf_singleton_self]
      exact own _ p _ ih
    · rw [valuesOf_singleton_ne e, List.append_nil, other _ p k e]
      exact ih

variable [DecidableEq ν]

/-- How often a pair occurs can be seen under its key. -/
lemma count_valuesOf (p : κ × ν) (ps : List (κ × ν)) : (valuesOf p.1 ps).count p.2 = ps.count p := by
  induction ps with
  | nil => rfl
  | cons q ps ih =>
    have front : (valuesOf p.1 [q]).count p.2 = [q].count p := by
      by_cases e : p.1 = q.1
      · rw [e, valuesOf_singleton_self, List.count_singleton, List.count_singleton]
        simp [Prod.ext_iff, e]
      · rw [valuesOf_singleton_ne e, List.count_nil, eq_comm, List.count_eq_zero, List.mem_singleton]
        rintro rfl
        exact e rfl
    rw [← List.singleton_append, valuesOf_append, List.count_append, List.count_append, front, ih]

/-- Lists of pairs with the same values under every key are the same up to order. -/
lemma perm_of_valuesOf {ps qs : List (κ × ν)} (h : ∀ k, valuesOf k ps = valuesOf k qs) : ps.Perm qs := by
  rw [List.perm_iff_count]
  intro p
  rw [← count_valuesOf, ← count_valuesOf, h]

end Grouping

end CovNet.Lib
