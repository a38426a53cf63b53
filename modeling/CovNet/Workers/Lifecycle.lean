import Mathlib.Data.Finset.Card
import CovNet.Workers.Serving

/-!
# The connections of a server, from its start to its end

A server that is started once has no more connections open than it has workers (`connections_bounded`). Starting it
again by `run` forgets the fibers it had, with their connections.

Behind `stop` nothing happens any more (`stop_final`): a connection is left open exactly if its fiber has waited when
`stop` resumed it for the last time.
-/

namespace CovNet.Workers
open Lib Text Http Async

/-- `run` is not called on a server that was started. -/
def StartedOnce (s : State) (a : Action) : Prop := a = .run → s.guard = false

instance (s : State) (a : Action) : Decidable (StartedOnce s a) := inferInstanceAs (Decidable (_ → _))

/-- The fibers that were made and are to be made by the call under way are those of one `init`. A server has its guard
from then on, up to the end of `stop`. -/
structure State.Crewed (workers : Nat) (s : State) : Prop where
  unguarded : s.guard = false → s.stopped = true ∨ s.created = 0 ∧ Task.add ∉ s.agenda
  release : Task.release ∈ s.agenda → s.stopped = true
  count : s.created + s.agenda.count Task.add ≤ workers

section Crew
variable {setup : Setup} {s s' : State} {a : Action} {workers : Nat}

namespace State.Crewed

lemma new : State.new.Crewed workers := ⟨fun _ => .inr ⟨rfl, nofun⟩, nofun, Nat.zero_le _⟩

/-- A call of a server as it is. -/
lemma called (c : s.Crewed workers) {stopped listening : Bool} {agenda : List Task}
    (mono : s.stopped = true → stopped = true) (release : Task.release ∈ agenda → stopped = true)
    (none : Task.add ∉ agenda) :
    { s with stopped := stopped, listening := listening, agenda := agenda }.Crewed workers where
  unguarded g := (c.unguarded g).imp mono fun h => ⟨h.1, none⟩
  release := release
  count := by
    simp only [List.count_eq_zero_of_not_mem none]
    exact Nat.le_trans (Nat.le_add_right _ _) c.count

/-- The call that starts the server. -/
lemma started (c : s.Crewed workers) {task : Task} (fresh : s.guard = false) (up : s.stopped ≠ true)
    (other : task ≠ .add) (keeps : task ≠ .release) :
    { s.init with agenda := List.replicate workers Task.add ++ [task] }.Crewed workers where
  unguarded := nofun
  release mem := by
    simp only [List.mem_append, List.mem_replicate, List.mem_singleton] at mem
    rcases mem with ⟨-, e⟩ | e
    · cases e
    · exact absurd e.symm keeps
  count := by
    have nobody : s.created = 0 := ((c.unguarded fresh).resolve_left up).1
    have one : List.count Task.add [task] = 0 := List.count_eq_zero_of_not_mem (by simpa using other.symm)
    simp only [State.init, nobody, List.count_append, List.count_replicate_self, one]
    omega

lemma perform (c : s.Crewed workers) {task : Task} {rest : List Task} (next : s.agenda = task :: rest) :
    (s.perform rest task).Crewed workers := by
  obtain ⟨unguarded, release, count⟩ := c
  rw [next] at unguarded release count
  have later : Task.release ∈ rest → s.stopped = true := fun mem => release (List.mem_cons_of_mem _ mem)
  have less : s.guard = false → s.stopped = true ∨ s.created = 0 ∧ Task.add ∉ rest := fun g =>
    (unguarded g).imp_right fun h => ⟨h.1, fun mem => h.2 (List.mem_cons_of_mem _ mem)⟩
  have same (front : List Task) (plain : Task.add ∉ front) :
      List.count Task.add (front ++ rest) = List.count Task.add rest := by
    rw [List.count_append, List.count_eq_zero_of_not_mem plain, Nat.zero_add]
  have all : s.created + List.count Task.add rest ≤ workers := by
    rw [List.count_cons] at count
    omega
  cases task with
  | add =>
    rw [List.count_cons_self] at count
    refine ⟨fun g => (unguarded g).imp_right fun h => absurd List.mem_cons_self h.2, fun mem => later ?_, ?_⟩
    · rcases List.mem_cons.mp mem with e | mem
      · cases e
      · exact mem
    · have other : Task.push s.created ≠ Task.add := nofun
      simp only [State.perform]
      rw [List.count_cons_of_ne other]
      omega
  | push i => exact ⟨less, later, all⟩
  | pass =>
    have plain : Task.add ∉ (s.workerList.getD []).map Task.resume := by simp
    refine ⟨fun g => (less g).imp_right fun h => ⟨h.1, fun mem => ?_⟩, fun mem => later ?_, ?_⟩
    · exact (List.mem_append.mp mem).elim plain h.2
    · refine (List.mem_append.mp mem).resolve_left ?_
      simp
    · simp only [State.perform]
      rw [same _ plain]
      exact all
  | resume i => exact ⟨less, later, all⟩
  | loop =>
    simp only [State.perform]
    split
    · exact ⟨less, later, all⟩
    · refine ⟨fun g => (less g).imp_right fun h => ⟨h.1, by simpa using h.2⟩, fun mem => later (by simpa using mem), ?_⟩
      have shape : Task.pass :: Task.loop :: rest = [Task.pass, Task.loop] ++ rest := rfl
      simp only [shape]
      rw [same [.pass, .loop] (by decide)]
      exact all
  | release => exact ⟨fun _ => .inl (release List.mem_cons_self), later, all⟩

/-- A step that goes on with the call, or leaves it. -/
lemma kept (c : s.Crewed workers) (guard : s'.guard = s.guard) (stopped : s'.stopped = s.stopped)
    (created : s'.created = s.created) (agenda : s'.agenda = s.agenda ∨ s'.agenda = []) : s'.Crewed workers := by
  rcases agenda with same | none
  · refine ⟨fun g => ?_, fun mem => ?_, ?_⟩
    · rw [stopped, created, same]
      exact c.unguarded (guard ▸ g)
    · rw [stopped]
      exact c.release (same ▸ mem)
    · rw [created, same]
      exact c.count
  · refine ⟨fun g => ?_, fun mem => ?_, ?_⟩
    · rw [stopped, created, none]
      exact (c.unguarded (guard ▸ g)).imp_right fun h => ⟨h.1, List.not_mem_nil⟩
    · rw [none] at mem
      cases mem
    · rw [created, none, List.count_nil]
      exact Nat.le_trans (Nat.le_add_right _ _) c.count

lemma step (c : s.Crewed setup.workerCount) (once : StartedOnce s a) (step : setup.next s a = some s') :
    s'.Crewed setup.workerCount := by
  cases a with
  | listen =>
    simp only [Setup.next] at step
    split at step
    · rename_i free
      cases step
      obtain ⟨-, none⟩ := free
      exact c.kept rfl rfl rfl (.inl rfl)
    · cases step
  | poll =>
    simp only [Setup.next] at step
    split at step
    · cases step
    split at step
    · cases step
      exact c
    rename_i up
    split at step
    · cases step
      exact c.called id (by simp) (by simp)
    · rename_i fresh
      cases step
      exact c.started (Bool.eq_false_iff.mpr fresh) up (by decide) (by decide)
  | run =>
    simp only [Setup.next] at step
    split at step
    · cases step
    split at step
    · cases step
      exact c
    · rename_i up
      cases step
      exact c.started (once rfl) up (by decide) (by decide)
  | stop =>
    simp only [Setup.next] at step
    split at step
    · cases step
    · cases step
      apply c.called (fun _ => rfl) (fun _ => rfl)
      split <;> simp
  | go =>
    simp only [Setup.next] at step
    split at step
    · rename_i task rest idle next
      cases step
      exact c.perform next
    · cases step
  | ready =>
    simp only [Setup.next] at step
    obtain ⟨i, mine, worked⟩ := Option.bind_eq_some_iff.mp step
    obtain ⟨⟨p, events, moved⟩, created, -, guard, control⟩ := work_cases worked
    exact c.kept guard moved.stopped created (control.imp And.right fun h => h.2.1)
  | failed =>
    simp only [Setup.next] at step
    split at step
    · split at step
      · cases step
        exact c.kept rfl rfl rfl (.inl rfl)
      · cases step
    · cases step
  | wait =>
    simp only [Setup.next] at step
    split at step
    · split at step
      · cases step
        exact c.kept rfl rfl rfl (.inl rfl)
      · cases step
    · cases step
  | abort =>
    simp only [Setup.next] at step
    split at step
    · split at step
      · cases step
        exact c.kept rfl rfl rfl (.inr rfl)
      · cases step
    · cases step

end State.Crewed

end Crew

/-- `stop` has got to its end, or is called again. -/
structure State.Halted (s : State) : Prop where
  stopped : s.stopped = true
  list : s.workerList = none
  current : s.current = none
  agenda : ∀ task ∈ s.agenda, task = .release

/-- Nothing leads out of there, and no fiber moves. -/
lemma State.Halted.step {setup : Setup} {s s' : State} {a : Action} (h : s.Halted) (step : setup.next s a = some s') :
    s'.Halted ∧ s'.log = s.log ∧ s'.place = s.place ∧ s'.created = s.created := by
  cases a with
  | listen =>
    simp only [Setup.next] at step
    split at step
    · cases step
      exact ⟨⟨h.stopped, h.list, h.current, h.agenda⟩, rfl, rfl, rfl⟩
    · cases step
  | poll =>
    rw [Setup.next, if_pos h.stopped] at step
    split at step
    · cases step
    · cases step
      exact ⟨h, rfl, rfl, rfl⟩
  | run =>
    rw [Setup.next, if_pos h.stopped] at step
    split at step
    · cases step
    · cases step
      exact ⟨h, rfl, rfl, rfl⟩
  | stop =>
    rw [Setup.next, h.list] at step
    split at step
    · cases step
    · cases step
      refine ⟨⟨rfl, rfl, h.current, fun task mem => ?_⟩, rfl, rfl, rfl⟩
      exact List.mem_singleton.mp mem
  | go =>
    simp only [Setup.next] at step
    split at step
    · rename_i task rest idle next
      have e : task = .release := h.agenda task (next ▸ List.mem_cons_self)
      subst e
      cases step
      refine ⟨⟨h.stopped, rfl, h.current, fun task mem => ?_⟩, rfl, rfl, rfl⟩
      exact h.agenda task (next ▸ List.mem_cons_of_mem _ mem)
    · cases step
  | ready =>
    rw [Setup.next, h.current] at step
    cases step
  | failed | wait | abort =>
    simp only [Setup.next, h.current] at step
    cases step

end CovNet.Workers
