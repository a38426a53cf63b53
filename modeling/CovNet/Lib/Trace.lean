import Mathlib.Data.List.Infix
import Mathlib.Tactic.Lemma

/-!
# Histories

A program that acts on its surroundings leaves a history of events. A rule `allowed` says of every event what must
have happened before it; a history is `Justified` when every event in it is allowed behind those before it. A history
only grows, so a function is judged by the events it adds, one at a time (`Justified.snoc`).
-/

namespace CovNet.Lib

/-- Every event is allowed behind those before it. -/
def Justified {α : Type*} (allowed : List α → α → Prop) (history : List α) : Prop :=
  ∀ front event back, history = front ++ event :: back → allowed front event

section Trace
variable {α : Type*} {allowed : List α → α → Prop} {history added : List α} {event : α}

lemma Justified.nil : Justified allowed [] := by
  intro front event back e
  exact absurd e.symm (List.append_ne_nil_of_right_ne_nil front (List.cons_ne_nil event back))

/-- One more event. -/
lemma Justified.snoc (h : Justified allowed history) (next : allowed history event) :
    Justified allowed (history ++ [event]) := by
  intro front event' back e
  rcases List.eq_nil_or_concat back with rfl | ⟨back, last, rfl⟩
  · obtain ⟨rfl, rfl⟩ := List.append_singleton_inj.mp e
    exact next
  · have split : history ++ [event] = (front ++ event' :: back) ++ [last] := by
      rw [e, List.concat_eq_append, List.append_assoc, List.cons_append]
    exact h front event' back (List.append_singleton_inj.mp split).1

end Trace

end CovNet.Lib
