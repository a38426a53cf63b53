import Mathlib.Tactic.Lemma
import Mathlib.Data.List.Basic
import Mathlib.Algebra.GroupWithZero.Nat

/-!
# Sorting by neighbours

Passes over a list swap neighbours that stand in the wrong order, until a pass changes nothing. A pass that
changes something makes the list lighter, where an element weighs its size times the number of elements before
it. So the passes end (`bubbleSort_spec`), with the same elements, the largest first.
-/

namespace CovNet.Lib
variable {α : Type*} {size : α → Nat} {l : List α}

/-- One pass, and whether it has changed anything. -/
def bubble (size : α → Nat) : List α → List α × Bool
  | a :: b :: l =>
    if size a < size b then (b :: (bubble size (a :: l)).1, true)
    else (a :: (bubble size (b :: l)).1, (bubble size (b :: l)).2)
  | l => (l, false)

/-- These many passes at most: none where they are not enough. -/
def bubbleSort (size : α → Nat) : Nat → List α → Option (List α)
  | 0, _ => none
  | passes + 1, l => if (bubble size l).2 then bubbleSort size passes (bubble size l).1 else some (bubble size l).1

/-- The sizes of the elements. -/
def sizeSum (size : α → Nat) (l : List α) : Nat := (l.map size).sum

/-- The size of each element, as often as there are elements before it. -/
def sizeWeight (size : α → Nat) : List α → Nat
  | [] => 0
  | _ :: l => sizeSum size l + sizeWeight size l

lemma bubble_perm (l : List α) : (bubble size l).1.Perm l := by
  fun_induction bubble size l with
  | case1 a b l lt ih => exact (ih.cons b).trans (.swap a b l)
  | case2 a b l ge ih => exact ih.cons a
  | case3 l => exact .refl l

lemma sizeSum_bubble (l : List α) : sizeSum size (bubble size l).1 = sizeSum size l :=
  ((bubble_perm l).map size).sum_nat

/-- A pass that changes something takes a smaller element behind a larger one. -/
lemma sizeWeight_bubble (l : List α) :
    sizeWeight size (bubble size l).1 ≤ sizeWeight size l ∧
      ((bubble size l).2 = true → sizeWeight size (bubble size l).1 < sizeWeight size l) := by
  fun_induction bubble size l with
  | case1 a b l lt ih =>
    have lighter : sizeWeight size (b :: (bubble size (a :: l)).1) < sizeWeight size (a :: b :: l) := by
      -- behind the front there is now the smaller element instead of the larger one
      have sizes : sizeSum size (a :: l) < sizeSum size (b :: l) := by
        simp only [sizeSum, List.map_cons, List.sum_cons]
        omega
      calc sizeWeight size (b :: (bubble size (a :: l)).1)
          = sizeSum size (a :: l) + sizeWeight size (bubble size (a :: l)).1 := by
            rw [← sizeSum_bubble (a :: l)]
            rfl
        _ ≤ sizeSum size (a :: l) + sizeWeight size (a :: l) := Nat.add_le_add_left ih.1 _
        _ < sizeSum size (b :: l) + sizeWeight size (b :: l) := Nat.add_lt_add_right sizes _
    exact ⟨Nat.le_of_lt lighter, fun _ => lighter⟩
  | case2 a b l ge ih =>
    have new : sizeWeight size (a :: (bubble size (b :: l)).1) =
        sizeSum size (b :: l) + sizeWeight size (bubble size (b :: l)).1 := by
      rw [← sizeSum_bubble (b :: l)]
      rfl
    have old : sizeWeight size (a :: b :: l) = sizeSum size (b :: l) + sizeWeight size (b :: l) := rfl
    rw [new, old]
    exact ⟨Nat.add_le_add_left ih.1 _, fun changed => Nat.add_lt_add_left (ih.2 changed) _⟩
  | case3 l => exact ⟨Nat.le_refl _, nofun⟩

/-- A pass that changes nothing has found the largest elements first. -/
lemma bubble_stable (same : (bubble size l).2 = false) :
    (bubble size l).1 = l ∧ l.Pairwise fun a b => size b ≤ size a := by
  fun_induction bubble size l with
  | case1 a b l lt ih => cases same
  | case2 a b l ge ih =>
    obtain ⟨e, sorted⟩ := ih same
    refine ⟨by rw [e], List.pairwise_cons.mpr ⟨fun c mem => ?_, sorted⟩⟩
    have le : size b ≤ size a := Nat.le_of_not_lt ge
    rcases List.mem_cons.mp mem with rfl | mem
    · exact le
    · exact Nat.le_trans (List.rel_of_pairwise_cons sorted mem) le
  | case3 l short =>
    refine ⟨rfl, ?_⟩
    match l, short with
    | [], _ => exact .nil
    | [a], _ => exact List.pairwise_singleton _ a
    | a :: b :: l, short => exact (short a b l rfl).elim

/-- The passes end, with the same elements, the largest first. -/
theorem bubbleSort_spec {passes : Nat} (enough : sizeWeight size l < passes) :
    ∃ sorted, bubbleSort size passes l = some sorted ∧ sorted.Perm l ∧
      sorted.Pairwise fun a b => size b ≤ size a := by
  induction passes generalizing l with
  | zero => cases enough
  | succ passes ih =>
    rw [bubbleSort]
    split
    · rename_i changed
      have lighter := (sizeWeight_bubble l).2 changed
      obtain ⟨sorted, e, perm, order⟩ := ih (l := (bubble size l).1) (by omega)
      exact ⟨sorted, e, perm.trans (bubble_perm l), order⟩
    · rename_i same
      obtain ⟨e, order⟩ := bubble_stable (Bool.eq_false_iff.mpr same)
      rw [e]
      exact ⟨l, rfl, .refl l, order⟩

end CovNet.Lib
