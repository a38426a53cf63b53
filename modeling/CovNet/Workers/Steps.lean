import CovNet.Lib.Owner
import CovNet.Workers.Model

/-!
# What a step of the workers can do

A step moves one fiber, with at most one event for its connection, or it leaves the fibers where they are
(`next_cases`). `Work` says what the moves are.
-/

namespace CovNet.Workers
open Lib Text Http Async

/-- A fiber goes from a place to another, and this happens to its connection. -/
inductive Work (setup : Setup) (s : State) : Place → Place → List Event → Prop where
  | leave :
    s.stopped = true →
    Work setup s .start .returned []
  | listen :
    Work setup s .start .accepting []
  | deaf :
    Work setup s .start (.raised none) []
  | retry :
    Work setup s .accepting .start []
  | accept :
    Work setup s .accepting (.turn s.accepted 0 (setup.peers s.accepted).sock .new) [.accepted s.accepted]
  | stopped {k count sock st} :
    s.stopped = true →
    Work setup s (.turn k count sock st) (.closing k) []
  | read {k count sock st} :
    Work setup s (.turn k count sock st) (.reading k count sock st) []
  | fail {k count sock st stop} :
    readHttpHeader (setup.service k none).asInteger (setup.service k none).maxBodySize
      ((setup.service k none).late count) sock st = .error stop →
    Work setup s (.reading k count sock st) (.closing k) [.failed k stop]
  | throw {k count sock st request sock' st'} :
    readHttpHeader (setup.service k none).asInteger (setup.service k none).maxBodySize
      ((setup.service k none).late count) sock st = .ok (request, sock', st') →
    (setup.service k none).answer count request = none →
    Work setup s (.reading k count sock st) (.raised (some k)) []
  | answer {k count sock st answer sock' st'} :
    Turn (setup.service k none) count sock st answer sock' st' →
    Work setup s (.reading k count sock st) (.writing k answer sock' st') []
  | keep {k answer sock st} :
    answer.fate = .kept →
    Work setup s (.writing k answer sock st) (.turn k (answer.count + 1) sock st) [.answered k answer]
  | drop {k answer sock st} :
    answer.fate ≠ .kept →
    Work setup s (.writing k answer sock st) (.closing k) [.answered k answer]
  | close {k} :
    Work setup s (.closing k) .start [.closed k]

/-- A step that leaves the fibers where they are. -/
structure Quiet (s s' : State) : Prop where
  place : s'.place = s.place
  log : s'.log = s.log
  accepted : s'.accepted = s.accepted
  stopped : s.stopped = true → s'.stopped = true

/-- A step that moves a fiber. -/
structure Moved (setup : Setup) (s s' : State) (i : Nat) (p : Place) (events : List Event) : Prop where
  work : Work setup s (s.place i) p events
  place : s'.place = Function.update s.place i p
  log : s'.log = s.log ++ events
  accepted : s'.accepted = s.accepted + (events.map Event.arrivals).sum
  stopped : s'.stopped = s.stopped

section Steps
variable {setup : Setup} {s s' : State} {i : Nat} {a : Action}

lemma Quiet.refl : Quiet s s := ⟨rfl, rfl, rfl, id⟩

/-- What a fiber does when it goes on. -/
lemma work_cases (worked : setup.work s i = some s') :
    (∃ p events, Moved setup s s' i p events) ∧ s'.created = s.created ∧ s'.workerList = s.workerList ∧
      s'.guard = s.guard ∧
      (s'.current = s.current ∧ s'.agenda = s.agenda ∨
        s'.current = none ∧ s'.agenda = [] ∧ (s'.place i).ended = true) := by
  rw [Setup.work] at worked
  cases here : s.place i with
  | start =>
    simp only [here] at worked
    split at worked
    · rename_i stopped
      cases worked
      exact ⟨⟨_, _, here ▸ .leave stopped, rfl, (List.append_nil _).symm, rfl, rfl⟩, rfl, rfl, rfl,
        .inl ⟨rfl, rfl⟩⟩
    · split at worked
      · cases worked
        exact ⟨⟨_, _, here ▸ .listen, rfl, (List.append_nil _).symm, rfl, rfl⟩, rfl, rfl, rfl,
          .inl ⟨rfl, rfl⟩⟩
      · cases worked
        refine ⟨⟨_, _, here ▸ .deaf, rfl, (List.append_nil _).symm, rfl, rfl⟩, rfl, rfl, rfl,
          .inr ⟨rfl, rfl, ?_⟩⟩
        simp [State.throw, State.goto, Place.ended]
  | accepting =>
    simp only [here] at worked
    cases worked
    exact ⟨⟨_, _, here ▸ .accept, rfl, rfl, rfl, rfl⟩, rfl, rfl, rfl, .inl ⟨rfl, rfl⟩⟩
  | turn k count sock st =>
    simp only [here] at worked
    cases worked
    refine ⟨⟨_, [], ?_, rfl, (List.append_nil _).symm, rfl, rfl⟩, rfl, rfl, rfl, .inl ⟨rfl, rfl⟩⟩
    rw [here]
    split
    · rename_i stopped
      exact .stopped stopped
    · exact .read
  | reading k count sock st =>
    simp only [here] at worked
    split at worked
    · rename_i stop failed
      cases worked
      exact ⟨⟨_, _, here ▸ .fail failed, rfl, rfl, rfl, rfl⟩, rfl, rfl, rfl, .inl ⟨rfl, rfl⟩⟩
    · rename_i request sock' st' read
      split at worked
      · rename_i raises
        cases worked
        refine ⟨⟨_, _, here ▸ .throw read raises, rfl, (List.append_nil _).symm, rfl, rfl⟩, rfl, rfl, rfl,
          .inr ⟨rfl, rfl, ?_⟩⟩
        simp [State.throw, State.goto, Place.ended]
      · rename_i answer made
        cases worked
        have request := (answer_request made).2
        subst request
        exact ⟨⟨_, _, here ▸ .answer ⟨rfl, read, made⟩, rfl, (List.append_nil _).symm, rfl, rfl⟩,
          rfl, rfl, rfl, .inl ⟨rfl, rfl⟩⟩
  | writing k answer sock st =>
    simp only [here] at worked
    cases worked
    refine ⟨⟨_, [.answered k answer], ?_, rfl, rfl, rfl, rfl⟩, rfl, rfl, rfl, .inl ⟨rfl, rfl⟩⟩
    rw [here]
    split
    · rename_i kept
      exact .keep kept
    · rename_i last
      exact .drop last
  | closing k =>
    simp only [here] at worked
    cases worked
    exact ⟨⟨_, _, here ▸ .close, rfl, rfl, rfl, rfl⟩, rfl, rfl, rfl, .inl ⟨rfl, rfl⟩⟩
  | returned =>
    simp only [here] at worked
    cases worked
  | raised k =>
    simp only [here] at worked
    cases worked

/-- The fibers that are named anywhere were made, and those that were made and do not have the control wait or are at
their end. -/
structure State.Tracked (s : State) : Prop where
  current : ∀ i, s.current = some i → i < s.created
  resume : ∀ i, .resume i ∈ s.agenda → i < s.created
  push : ∀ i, .push i ∈ s.agenda → i < s.created
  list : ∀ l, s.workerList = some l → ∀ i ∈ l, i < s.created
  fresh : ∀ i, s.created ≤ i → s.place i = .start
  paused : ∀ i, i < s.created → s.current ≠ some i → (s.place i).waits = true ∨ (s.place i).ended = true

namespace State.Tracked

lemma new : State.new.Tracked where
  current := nofun
  resume := nofun
  push := nofun
  list := nofun
  fresh _ _ := rfl
  paused i lt := absurd lt (Nat.not_lt_zero i)

/-- A new call. -/
lemma called (t : s.Tracked) {stopped listening guard : Bool} {list : Option (List Nat)}
    {agenda : List Task} (names : list = s.workerList ∨ list = some [])
    (plain : ∀ task ∈ agenda, task = .add ∨ task = .pass ∨ task = .loop ∨ task = .release) :
    { s with stopped := stopped, listening := listening, guard := guard, workerList := list,
             agenda := agenda }.Tracked where
  current i e := t.current i e
  resume i mem := by rcases plain _ mem with e | e | e | e <;> cases e
  push i mem := by rcases plain _ mem with e | e | e | e <;> cases e
  list l e i mem := by
    rcases names with same | none
    · exact t.list l (same ▸ e) i mem
    · cases none.symm.trans e
      cases mem
  fresh := t.fresh
  paused := t.paused

/-- A task. -/
lemma perform (t : s.Tracked) {task : Task} {rest : List Task} (idle : s.current = none)
    (next : s.agenda = task :: rest) : (s.perform rest task).Tracked := by
  have resume : ∀ i, .resume i ∈ rest → i < s.created := fun i mem => t.resume i (next ▸ List.mem_cons_of_mem _ mem)
  have push : ∀ i, .push i ∈ rest → i < s.created := fun i mem => t.push i (next ▸ List.mem_cons_of_mem _ mem)
  have all : ∀ i, i < s.created → (s.place i).waits = true ∨ (s.place i).ended = true := fun i lt =>
    t.paused i lt (by rw [idle]; nofun)
  cases task with
  | add =>
    refine ⟨fun i e => ?_, fun i mem => ?_, fun i mem => ?_, fun l e i mem => ?_, fun i le => ?_, fun i lt other => ?_⟩
    · cases e
      exact Nat.lt_succ_self _
    · rcases List.mem_cons.mp mem with e | mem
      · cases e
      · exact Nat.lt_succ_of_lt (resume i mem)
    · rcases List.mem_cons.mp mem with e | mem
      · cases e
        exact Nat.lt_succ_self _
      · exact Nat.lt_succ_of_lt (push i mem)
    · exact Nat.lt_succ_of_lt (t.list l e i mem)
    · have ne : i ≠ s.created := by rintro rfl; exact absurd le (Nat.not_succ_le_self _)
      simp only [State.perform, Function.update_of_ne ne]
      exact t.fresh i (Nat.le_of_succ_le le)
    · have ne : i ≠ s.created := by rintro rfl; exact other rfl
      simp only [State.perform, Function.update_of_ne ne]
      exact all i (Nat.lt_of_le_of_ne (Nat.le_of_lt_succ lt) ne)
  | push j =>
    refine ⟨fun i e => t.current i e, resume, push, fun l e i mem => ?_, t.fresh, fun i lt _ => all i lt⟩
    obtain ⟨before, old, rfl⟩ := Option.map_eq_some_iff.mp e
    rcases List.mem_append.mp mem with mem | mem
    · exact t.list before old i mem
    · rw [List.mem_singleton] at mem
      subst mem
      exact t.push _ (next ▸ List.mem_cons_self)
  | pass =>
    refine ⟨fun i e => t.current i e, fun i mem => ?_, fun i mem => ?_, t.list, t.fresh, fun i lt _ => all i lt⟩
    · rcases List.mem_append.mp mem with mem | mem
      · obtain ⟨j, mem, e⟩ := List.mem_map.mp mem
        cases e
        cases some : s.workerList with
        | none =>
          rw [some] at mem
          cases mem
        | some l =>
          rw [some] at mem
          exact t.list l some _ mem
      · exact resume i mem
    · rcases List.mem_append.mp mem with mem | mem
      · obtain ⟨j, mem, e⟩ := List.mem_map.mp mem
        cases e
      · exact push i mem
  | resume j =>
    refine ⟨fun i e => ?_, resume, push, t.list, t.fresh, fun i lt _ => all i lt⟩
    cases e
    exact t.resume _ (next ▸ List.mem_cons_self)
  | loop =>
    refine ⟨fun i e => t.current i e, fun i mem => ?_, fun i mem => ?_, t.list, t.fresh, fun i lt _ => all i lt⟩
    · simp only [State.perform] at mem
      split at mem
      · exact resume i mem
      · apply resume i
        simpa using mem
    · simp only [State.perform] at mem
      split at mem
      · exact push i mem
      · apply push i
        simpa using mem
  | release =>
    exact ⟨fun i e => t.current i e, resume, push, nofun, t.fresh, fun i lt _ => all i lt⟩

/-- A fiber that goes on. -/
lemma moved (t : s.Tracked) {p : Place} (mine : s.current = some i)
    (place : s'.place = Function.update s.place i p) (created : s'.created = s.created)
    (list : s'.workerList = s.workerList)
    (control : s'.current = s.current ∧ s'.agenda = s.agenda ∨
      s'.current = none ∧ s'.agenda = [] ∧ (s'.place i).ended = true) : s'.Tracked := by
  have others : ∀ j, j ≠ i → s'.place j = s.place j := fun j ne => by rw [place, Function.update_of_ne ne]
  refine ⟨fun j e => ?_, fun j mem => ?_, fun j mem => ?_, fun l e j mem => ?_, fun j le => ?_, fun j lt other => ?_⟩
  · rw [created]
    rcases control with ⟨same, -⟩ | ⟨none, -⟩
    · exact t.current j (same ▸ e)
    · cases none.symm.trans e
  · rw [created]
    rcases control with ⟨-, same⟩ | ⟨-, none, -⟩
    · exact t.resume j (same ▸ mem)
    · cases none ▸ mem
  · rw [created]
    rcases control with ⟨-, same⟩ | ⟨-, none, -⟩
    · exact t.push j (same ▸ mem)
    · cases none ▸ mem
  · rw [created]
    exact t.list l (list ▸ e) j mem
  · rw [created] at le
    have ne : j ≠ i := (Nat.lt_of_lt_of_le (t.current i mine) le).ne'
    rw [others j ne]
    exact t.fresh j le
  · rw [created] at lt
    cases decEq j i with
    | isTrue e =>
      subst e
      rcases control with ⟨same, -⟩ | ⟨-, -, ended⟩
      · exact absurd (same.trans mine) other
      · exact .inr ended
    | isFalse ne =>
      rw [others j ne]
      apply t.paused j lt
      rw [mine]
      rintro ⟨⟩
      exact ne rfl

/-- The fiber gives the control back. -/
lemma yielded (t : s.Tracked) {agenda : List Task} (rest : agenda = s.agenda ∨ agenda = []) (mine : s.current = some i)
    (stays : (s.place i).waits = true ∨ (s.place i).ended = true) :
    { s with current := none, agenda := agenda }.Tracked where
  current := nofun
  resume j mem := by
    rcases rest with same | none
    · exact t.resume j (same ▸ mem)
    · cases none ▸ mem
  push j mem := by
    rcases rest with same | none
    · exact t.push j (same ▸ mem)
    · cases none ▸ mem
  list := t.list
  fresh := t.fresh
  paused j lt _ := by
    cases decEq j i with
    | isTrue e =>
      subst e
      exact stays
    | isFalse ne =>
      apply t.paused j lt
      rw [mine]
      rintro ⟨⟩
      exact ne rfl

end State.Tracked

/-- Every step is a quiet one or moves the fiber that has the control. -/
lemma next_cases (t : s.Tracked) (step : setup.next s a = some s') :
    s'.Tracked ∧ (Quiet s s' ∨ ∃ i p events, s.current = some i ∧ Moved setup s s' i p events) := by
  cases a with
  | listen =>
    simp only [Setup.next] at step
    split at step
    · cases step
      exact ⟨⟨t.current, t.resume, t.push, t.list, t.fresh, t.paused⟩, .inl ⟨rfl, rfl, rfl, id⟩⟩
    · cases step
  | poll =>
    simp only [Setup.next] at step
    split at step
    · cases step
    split at step
    · cases step
      exact ⟨t, .inl .refl⟩
    split at step
    · cases step
      refine ⟨t.called (.inl rfl) ?_, .inl ⟨rfl, rfl, rfl, id⟩⟩
      simp
    · cases step
      refine ⟨t.called (.inr rfl) ?_, .inl ⟨rfl, rfl, rfl, id⟩⟩
      simp only [List.mem_append, List.mem_replicate, List.mem_singleton]
      rintro task (⟨-, rfl⟩ | rfl)
      · exact .inl rfl
      · exact .inr (.inl rfl)
  | run =>
    simp only [Setup.next] at step
    split at step
    · cases step
    split at step
    · cases step
      exact ⟨t, .inl .refl⟩
    · cases step
      refine ⟨t.called (.inr rfl) ?_, .inl ⟨rfl, rfl, rfl, id⟩⟩
      simp only [List.mem_append, List.mem_replicate, List.mem_singleton]
      rintro task (⟨-, rfl⟩ | rfl)
      · exact .inl rfl
      · exact .inr (.inr (.inl rfl))
  | stop =>
    simp only [Setup.next] at step
    split at step
    · cases step
    cases step
    refine ⟨t.called (.inl rfl) ?_, .inl ⟨rfl, rfl, rfl, fun _ => rfl⟩⟩
    split <;> simp
  | go =>
    simp only [Setup.next] at step
    split at step
    · rename_i task rest idle next
      cases step
      refine ⟨t.perform idle next, .inl ?_⟩
      cases task with
      | add =>
        refine ⟨?_, rfl, rfl, id⟩
        rw [State.perform, ← t.fresh s.created (Nat.le_refl _), Function.update_eq_self]
      | push | pass | resume | loop | release => exact ⟨rfl, rfl, rfl, id⟩
    · cases step
  | ready =>
    simp only [Setup.next] at step
    obtain ⟨i, mine, worked⟩ := Option.bind_eq_some_iff.mp step
    obtain ⟨⟨p, events, moved⟩, created, list, -, control⟩ := work_cases worked
    exact ⟨t.moved mine moved.place created list control, .inr ⟨i, p, events, mine, moved⟩⟩
  | failed =>
    simp only [Setup.next] at step
    split at step
    · rename_i i mine
      split at step
      · rename_i here
        cases step
        exact ⟨t.moved mine rfl rfl rfl (.inl ⟨rfl, rfl⟩),
          .inr ⟨i, _, [], mine, here ▸ .retry, rfl, (List.append_nil _).symm, rfl, rfl⟩⟩
      · cases step
    · cases step
  | wait =>
    simp only [Setup.next] at step
    split at step
    · rename_i i mine
      split at step
      · rename_i stays
        cases step
        rw [Bool.or_eq_true] at stays
        exact ⟨t.yielded (.inl rfl) mine stays, .inl ⟨rfl, rfl, rfl, id⟩⟩
      · cases step
    · cases step
  | abort =>
    simp only [Setup.next] at step
    split at step
    · rename_i i mine
      split at step
      · rename_i stays
        cases step
        exact ⟨t.yielded (.inr rfl) mine (.inr stays), .inl ⟨rfl, rfl, rfl, id⟩⟩
      · cases step
    · cases step

end Steps

end CovNet.Workers
