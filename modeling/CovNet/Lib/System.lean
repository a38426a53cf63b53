import Mathlib.Tactic.Lemma
import Mathlib.Logic.Function.Iterate

/-!
# Labelled transition systems

A system is a set of initial states and an executable step function on labelled actions. This file
has the three notions every safety argument below is made of: reachability, the invariant rule
(`System.Reachable.invariant`), and the restriction of a system to the steps that meet a condition
(`System.restrict`), whose reachable states are those of the runs that meet it at every step.
`System.observe` adds a history to the states, and `System.Reachable.simulate` carries the runs of a system over
to a more abstract one. `System.run` replays a list of actions, so that a
concrete trace can be evaluated. For a function that is iterated the rule is `exists_iterate_of_lt`, for a fold
that can fail `foldlM_invariant`.
-/

namespace CovNet.Lib

/-- A transition system whose steps are computed from a state and an action. -/
structure System (σ α : Type*) where
  init : σ → Prop
  next : σ → α → Option σ

namespace System
variable {σ α : Type*} {S : System σ α}

/-- The states reached by finitely many steps from an initial one. -/
inductive Reachable (S : System σ α) : σ → Prop where
  | init {s} :
    S.init s →
    Reachable S s
  | step {s a s'} :
    Reachable S s →
    S.next s a = some s' →
    Reachable S s'

/-- What holds initially and is kept by every step holds of every reachable state. -/
theorem Reachable.invariant {I : σ → Prop} {s : σ} (h0 : ∀ s, S.init s → I s)
    (hs : ∀ s a s', I s → S.next s a = some s' → I s') (r : S.Reachable s) : I s := by
  induction r with
  | init h => exact h0 _ h
  | step _ st ih => exact hs _ _ _ ih st

/-- A view that takes initial states to initial states and steps to steps, under an invariant, takes what is
reached to what is reached. -/
theorem Reachable.simulate {τ β : Type*} {T : System τ β} {I : σ → Prop} {s : σ} (view : σ → τ)
    (h0 : ∀ s, S.init s → I s ∧ T.init (view s))
    (hs : ∀ s a s', I s → T.Reachable (view s) → S.next s a = some s' →
      I s' ∧ ∃ b, T.next (view s) b = some (view s')) (r : S.Reachable s) :
    I s ∧ T.Reachable (view s) := by
  induction r with
  | init h =>
    obtain ⟨inv, start⟩ := h0 _ h
    exact ⟨inv, .init start⟩
  | step _ st ih =>
    obtain ⟨inv, run⟩ := ih
    obtain ⟨inv', b, move⟩ := hs _ _ _ inv run st
    exact ⟨inv', .step run move⟩

/-- The system cut down to the steps that meet the condition `C`. -/
def restrict (S : System σ α) (C : σ → α → Prop) [∀ s a, Decidable (C s a)] : System σ α where
  init := S.init
  next s a := if C s a then S.next s a else none

section Restrict
variable {C : σ → α → Prop} [∀ s a, Decidable (C s a)]

lemma restrict_next {s a s'} :
    (S.restrict C).next s a = some s' ↔ C s a ∧ S.next s a = some s' := by
  simp [restrict]

/-- A run that meets the condition is a run. -/
theorem Reachable.of_restrict {s : σ} (r : (S.restrict C).Reachable s) : S.Reachable s := by
  induction r with
  | init h => exact .init h
  | step _ st ih => exact .step ih (restrict_next.mp st).2

end Restrict

/-- The system with an observer, who takes a note of every step. -/
def observe {γ : Type*} (S : System σ α) (start : γ) (note : γ → σ → α → σ → γ) : System (σ × γ) α where
  init s := S.init s.1 ∧ s.2 = start
  next s a := (S.next s.1 a).map fun s' => (s', note s.2 s.1 a s')

section Observe
variable {γ : Type*} {start : γ} {note : γ → σ → α → σ → γ}

lemma observe_next {s s' : σ × γ} {a : α} :
    (S.observe start note).next s a = some s' ↔
      S.next s.1 a = some s'.1 ∧ s'.2 = note s.2 s.1 a s'.1 := by
  obtain ⟨s', g'⟩ := s'
  simp only [observe, Option.map_eq_some_iff, Prod.mk.injEq]
  constructor
  · rintro ⟨_, st, rfl, rfl⟩
    exact ⟨st, rfl⟩
  · rintro ⟨st, rfl⟩
    exact ⟨s', st, rfl, rfl⟩

/-- The observer does not interfere. -/
theorem Reachable.of_observe {s : σ × γ} (r : (S.observe start note).Reachable s) : S.Reachable s.1 := by
  induction r with
  | init h => exact .init h.1
  | step _ st ih => exact .step ih (observe_next.mp st).1

end Observe

/-- Replay a list of actions. -/
def run (S : System σ α) : σ → List α → Option σ
  | s, [] => some s
  | s, a :: as => (S.next s a).bind (run S · as)

/-- A step, and the rest of the list. -/
lemma run_cons {s s' : σ} {a : α} (st : S.next s a = some s') (as : List α) : S.run s (a :: as) = S.run s' as := by
  rw [run, st, Option.bind_some]

/-- A replayed trace ends in a reachable state. -/
theorem Reachable.run {s s' : σ} (r : S.Reachable s) (as : List α) (h : S.run s as = some s') :
    S.Reachable s' := by
  induction as generalizing s with
  | nil =>
    cases h
    exact r
  | cons a as ih =>
    obtain ⟨s1, st, rest⟩ := Option.bind_eq_some_iff.mp h
    exact ih (.step r st) rest

/-- A property found at the end of a trace is one of a reachable state. -/
theorem Reachable.exists_of_run {s : σ} (r : S.Reachable s) (as : List α) (p : σ → Bool)
    (h : (S.run s as).any p = true) : ∃ s', S.Reachable s' ∧ p s' = true := by
  obtain ⟨s', e, holds⟩ := (Option.any_eq_true _ _).mp h
  exact ⟨s', r.run as e, holds⟩

end System

/-- Turns that use up a budget come to an end within it. -/
theorem exists_iterate_of_lt {σ : Type*} {turn : σ → σ} {ended : σ → Prop} (budget : σ → Nat)
    (less : ∀ s, ¬ ended s → budget (turn s) < budget s) {b : Nat} {s : σ} (le : budget s ≤ b) :
    ∃ n ≤ b, ended (turn^[n] s) := by
  induction b generalizing s with
  | zero =>
    refine ⟨0, Nat.le_refl _, Classical.byContradiction fun running => ?_⟩
    have lt := less s running
    omega
  | succ b ih =>
    by_cases done : ended s
    · exact ⟨0, Nat.zero_le _, done⟩
    · have lt := less s done
      obtain ⟨n, le', ends⟩ := ih (s := turn s) (by omega)
      exact ⟨n + 1, by omega, ends⟩

/-- What every step of a fold keeps, the fold keeps. -/
theorem foldlM_invariant {σ α : Type*} {f : σ → α → Option σ} {I : σ → Prop} {as : List α} {s s' : σ}
    (step : ∀ s a s', I s → f s a = some s' → I s') (h : as.foldlM f s = some s') (h0 : I s) : I s' := by
  induction as generalizing s with
  | nil =>
    cases h
    exact h0
  | cons a as ih =>
    obtain ⟨s1, st, rest⟩ := Option.bind_eq_some_iff.mp h
    exact ih rest (step s a s1 h0 st)

end CovNet.Lib
