import Mathlib.Tactic.Lemma
import Mathlib.Data.Finset.Card
import Mathlib.Logic.Function.Basic

/-!
# Unique owners and counted holders

Several parties `ι`, each at a place `pc t`, contend for a resource that is held at the places
satisfying `O`. `Owned O b pc` says that at most one party holds it and that the flag `b` tells
whether one does. The three rules say how a move of one party changes this: it takes a free
resource, gives its own back, or leaves its holding as it is.

`Counted O n pc` is the same for a resource of which there are units: `n` is the number of the parties
that hold one.
-/

namespace CovNet.Lib

variable {ι P : Type*} {O : P → Prop} {b : Bool} {pc : ι → P}

/-- At most one party holds the resource, and the flag tells whether one does. -/
structure Owned (O : P → Prop) (b : Bool) (pc : ι → P) : Prop where
  flag : b = true ↔ ∃ t, O (pc t)
  uniq : ∀ {t u}, O (pc t) → O (pc u) → t = u

/-- A holder sets the flag. -/
lemma Owned.of_holder {t : ι} (ow : Owned O b pc) (h : O (pc t)) : b = true :=
  ow.flag.mpr ⟨t, h⟩

/-- Nobody holds a resource whose flag is down. -/
lemma Owned.free {t : ι} (ow : Owned O false pc) : ¬ O (pc t) := by
  intro h
  exact absurd (ow.of_holder h) (by simp)

/-- Nobody holds the resource at the start. -/
lemma Owned.init (h : ∀ t, ¬ O (pc t)) : Owned O false pc where
  flag := by simp [h]
  uniq ht := absurd ht (h _)

section Move
variable [DecidableEq ι] {t : ι} {p : P}

/-- A move that does not change whether the moving party holds the resource. -/
lemma Owned.keep (ow : Owned O b pc) (h : O p ↔ O (pc t)) :
    Owned O b (Function.update pc t p) := by
  have same : ∀ u, O (Function.update pc t p u) ↔ O (pc u) := by
    intro u
    by_cases e : u = t
    · subst e
      simpa using h
    · rw [Function.update_of_ne e]
  refine ⟨?_, ?_⟩
  · rw [ow.flag]
    exact exists_congr fun u => (same u).symm
  · intro u v hu hv
    exact ow.uniq ((same u).mp hu) ((same v).mp hv)

/-- A move that takes the free resource. -/
lemma Owned.acquire (ow : Owned O false pc) (h : O p) :
    Owned O true (Function.update pc t p) := by
  have only : ∀ u, O (Function.update pc t p u) → u = t := by
    intro u hu
    by_contra ne
    rw [Function.update_of_ne ne] at hu
    exact ow.free hu
  refine ⟨?_, ?_⟩
  · simp only [true_iff]
    exact ⟨t, by simpa using h⟩
  · intro u v hu hv
    rw [only u hu, only v hv]

/-- A move by which the holder gives the resource back. -/
lemma Owned.release (ow : Owned O b pc) (ht : O (pc t)) (h : ¬ O p) :
    Owned O false (Function.update pc t p) := by
  apply Owned.init
  intro u hu
  by_cases e : u = t
  · subst e
    rw [Function.update_self] at hu
    exact h hu
  · rw [Function.update_of_ne e] at hu
    exact e (ow.uniq hu ht)

end Move

/-- The number of the parties that hold a unit. -/
def Counted (O : P → Prop) (n : Nat) (pc : ι → P) : Prop :=
  ∃ holders : Finset ι, (∀ t, t ∈ holders ↔ O (pc t)) ∧ holders.card = n

section Count
variable {n : Nat} {t : ι} {p : P}

lemma Counted.init (h : ∀ t, ¬ O (pc t)) : Counted O 0 pc :=
  ⟨∅, fun t => by simp [h t], rfl⟩

lemma Counted.pos (c : Counted O n pc) (h : O (pc t)) : 0 < n := by
  obtain ⟨holders, mem, rfl⟩ := c
  exact Finset.card_pos.mpr ⟨t, (mem t).mpr h⟩

/-- Nobody holds a unit when the number is 0. -/
lemma Counted.free (c : Counted O 0 pc) : ¬ O (pc t) := fun h => (c.pos h).ne' rfl

/-- It is 0 when nobody does. -/
lemma Counted.eq_zero (c : Counted O n pc) (h : ∀ t, ¬ O (pc t)) : n = 0 := by
  obtain ⟨holders, mem, rfl⟩ := c
  exact Finset.card_eq_zero.mpr (Finset.eq_empty_of_forall_notMem fun t ht => h t ((mem t).mp ht))

variable [DecidableEq ι]

lemma Counted.keep (c : Counted O n pc) (h : O p ↔ O (pc t)) :
    Counted O n (Function.update pc t p) := by
  obtain ⟨holders, mem, card⟩ := c
  refine ⟨holders, fun u => ?_, card⟩
  rw [mem]
  by_cases e : u = t
  · subst e
    rw [Function.update_self]
    exact h.symm
  · rw [Function.update_of_ne e]

lemma Counted.acquire (c : Counted O n pc) (ht : ¬ O (pc t)) (h : O p) :
    Counted O (n + 1) (Function.update pc t p) := by
  obtain ⟨holders, mem, rfl⟩ := c
  refine ⟨insert t holders, fun u => ?_, Finset.card_insert_of_notMem (mt (mem t).mp ht)⟩
  by_cases e : u = t
  · subst e
    simpa using h
  · rw [Function.update_of_ne e, Finset.mem_insert, or_iff_right e, mem]

lemma Counted.release (c : Counted O n pc) (ht : O (pc t)) (h : ¬ O p) :
    Counted O (n - 1) (Function.update pc t p) := by
  obtain ⟨holders, mem, rfl⟩ := c
  refine ⟨holders.erase t, fun u => ?_, Finset.card_erase_of_mem ((mem t).mpr ht)⟩
  by_cases e : u = t
  · subst e
    simpa using h
  · rw [Function.update_of_ne e, Finset.mem_erase, and_iff_right e, mem]

end Count

end CovNet.Lib
