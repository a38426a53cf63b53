import CovNet.Socket.Exclusion
import CovNet.Socket.Operations

/-!
# Calls and the admission protocol

`Move` says once what a step of a call can do, with the guards it has passed. Seen from one socket
a step of a call is an access of the admission protocol, or none (`Host.threads_apply`), so below
every reachable state of the calls there is a reachable state of `admission` for each socket
(`Under`): the flags and the counter are exactly what the calls still hold. `Code.Placed` relates
the stage of a call to its place in the admission functions.
-/

namespace CovNet.Socket
open CovNet.Lib CovNet.Text

variable {ι κ : Type*}

/-! ## What a step can do -/

/-- Before the reservation, and not in the admission functions. -/
def Stage.before : Stage → Bool
  | .checking | .tlsCheck | .polling => true
  | _ => false

/-- What a check can lead to. -/
def Stage.early : Stage → Bool
  | .tlsCheck | .polling | .entering _ => true
  | _ => false

/-- What a step of a call can do, with the guards it has passed. -/
inductive Move (code : Code) (me : ι) (a : Atomics) (tls : Tls ι) (st : StateType) (c : Call ι) :
    Effect ι → Prop where
  | pass {s} :
    c.stage.before = true → s.early = true →
    (c.stage = .checking → code.again = true → st.init = true → st.hasDone = true) →
    Move code me a tls st c ⟨{ c with stage := s }, a, none, id⟩
  | giveUp {o} :
    c.stage.before = true →
    (code.tls = .enable → o = .threw ∨ o = code.refusal) →
    Move code me a tls st c ⟨{ c with stage := .finished o }, a, none, id⟩
  | enter {retry a' p} :
    c.stage = .entering retry →
    Thread.next code.kind a c.pc (code.reservation.access c.pc) = some (a', p) →
    Move code me a tls st c
      ⟨{ c with stage := code.entered retry p, pc := p, tlsAt := tls }, a', none, id⟩
  | drain {a' p} :
    c.stage = .reserved → c.pc = .draining →
    Thread.next code.kind a .draining .pollJobs = some (a', p) →
    Move code me a tls st c ⟨{ c with pc := p }, a', none, id⟩
  | fail :
    c.stage = .reserved → c.pc = .draining ∨ code.tls = .enable →
    Move code me a tls st c ⟨{ c with stage := .leaving code.failure }, a, none, id⟩
  | plain :
    c.stage = .reserved → code.tls = .none →
    Move code me a tls st c
      ⟨{ c with stage := .working, previous := st }, a, none,
        if code.again then StateType.beginRead else id⟩
  | enable :
    c.stage = .reserved → code.tls = .enable → tls.stream = none →
    Move code me a tls st c ⟨{ c with stage := .working }, a, some (.on me), id⟩
  | clear :
    c.stage = .reserved → code.tls = .clear →
    Move code me a tls st c ⟨{ c with stage := .working }, a, some .off, id⟩
  | initiate :
    c.stage = .working → code.async = true →
    Move code me a tls st c ⟨{ c with stage := .pending }, a, none, id⟩
  | done :
    c.stage = .working → code.async = false →
    Move code me a tls st c ⟨{ c with stage := .leaving .returned }, a, none, id⟩
  | undo :
    c.stage = .working →
    Move code me a tls st c
      ⟨{ c with stage := .leaving code.failure }, a,
        if code.tls = .enable then some .off else none, id⟩
  | complete {ec bytes buffer} :
    c.stage = .pending →
    Move code me a tls st c
      ⟨{ c with stage := .leaving (.completed ec) }, a,
        if code.tls = .enable ∧ ec.isSome then some .off else none, code.handle ec bytes buffer⟩
  | leave {o a' p} :
    c.stage = .leaving o →
    Thread.next code.kind a c.pc (code.reservation.access c.pc) = some (a', p) →
    Move code me a tls st c
      ⟨{ c with stage := if p = .idle then code.afterLeaving o else .leaving o, pc := p }, a',
        none, id⟩
  | restore :
    c.stage = .restoring →
    Move code me a tls st c
      ⟨{ c with stage := .finished .threw }, a, none, StateType.restore c.previous⟩
  | store {ec} :
    c.stage = .storing ec →
    Move code me a tls st c
      ⟨{ c with stage := .finished (.completed ec) }, a, none, fun st => { st with hasDone := true }⟩

section Step
variable {code : Code} {me : ι} {a : Atomics} {tls : Tls ι} {st : StateType} {c : Call ι}
  {e : Effect ι}

lemma Code.afterChecks_early : code.afterChecks.early = true := by
  unfold Code.afterChecks
  split
  · rfl
  · split <;> rfl

/-- The check of a call. -/
lemma Move.of_check {ok : Bool} (at_ : c.stage = .checking) :
    Move code me a tls st c ⟨{ c with stage := code.check st ok }, a, none, id⟩ := by
  have before : c.stage.before = true := by rw [at_]; rfl
  unfold Code.check
  split
  · exact .giveUp before fun _ => .inl rfl
  · rename_i go
    split
    · exact .giveUp before fun _ => .inr rfl
    · refine .pass before Code.afterChecks_early ?_
      intro _ again init
      by_contra busy
      exact go ⟨again, init, busy⟩

/-- The work before the blocking call. -/
lemma Move.of_prepare {ok : Bool} (at_ : c.stage = .reserved)
    (h : code.prepare me a tls st c ok = some e) : Move code me a tls st c e := by
  unfold Code.prepare at h
  split at h
  · rename_i drains
    split at h
    · obtain ⟨⟨a', p⟩, nx, rfl⟩ := Option.map_eq_some_iff.mp h
      rw [drains] at nx
      exact .drain at_ drains nx
    · cases h
      exact .fail at_ (.inl drains)
  · split at h
    · rename_i none
      cases h
      exact .plain at_ none
    · rename_i enable
      split at h
      · cases h
        exact .fail at_ (.inr enable)
      · rename_i fresh
        cases h
        refine .enable at_ enable ?_
        simpa using fun some => fresh (.inl some)
    · rename_i clear
      cases h
      exact .clear at_ clear

/-- The blocking call or the initiating function. -/
lemma Move.of_work {ok : Bool} (at_ : c.stage = .working) :
    Move code me a tls st c (code.work a c ok) := by
  unfold Code.work
  cases ok with
  | false => exact .undo at_
  | true =>
    cases async : code.async with
    | true => exact .initiate at_ async
    | false => exact .done at_ async

/-- Every step of a call is one of the listed ones. -/
lemma Code.step_move {choice : Choice} (h : code.step me a tls st c choice = some e) :
    Move code me a tls st c e := by
  cases choice with
  | start => cases h
  | complete ec bytes buffer =>
    simp only [Code.step] at h
    split at h
    · cases h
      exact .complete ‹_›
    · cases h
  | go ok =>
    simp only [Code.step, Code.go] at h
    split at h
    · cases h
      exact .of_check ‹_›
    · rename_i at_
      have before : c.stage.before = true := by rw [at_]; rfl
      cases h
      split
      · exact .giveUp before fun _ => .inl rfl
      · exact .pass before rfl fun check => by simp [at_] at check
    · rename_i at_
      have before : c.stage.before = true := by rw [at_]; rfl
      have notCheck : c.stage ≠ .checking := by simp [at_]
      cases h
      split
      · exact .pass before rfl fun check => absurd check notCheck
      · split
        · exact .pass before rfl fun check => absurd check notCheck
        · split
          · exact .giveUp before fun _ => .inr rfl
          · exact .pass before rfl fun check => absurd check notCheck
    · obtain ⟨⟨a', p⟩, nx, rfl⟩ := Option.map_eq_some_iff.mp h
      exact .enter ‹_› nx
    · exact .of_prepare ‹_› h
    · cases h
      exact .of_work ‹_›
    · obtain ⟨⟨a', p⟩, nx, rfl⟩ := Option.map_eq_some_iff.mp h
      exact .leave ‹_› nx
    · cases h
      exact .restore ‹_›
    · cases h
      exact .store ‹_›
    · cases h

/-- A step makes one access to the atomics or none. -/
lemma Move.access (mv : Move code me a tls st c e) :
    (e.atomics = a ∧ e.call.pc = c.pc) ∨
      ∃ i, Thread.next code.kind a c.pc i = some (e.atomics, e.call.pc) := by
  cases mv with
  | enter _ nx => exact .inr ⟨_, nx⟩
  | drain _ drains nx => exact .inr ⟨_, by rw [drains]; exact nx⟩
  | leave _ nx => exact .inr ⟨_, nx⟩
  | _ => exact .inl ⟨rfl, rfl⟩

/-! ## Where a call stands in the admission functions -/

/-- The places at which a reservation is held or given back. -/
def Reservation.leaves : Reservation → Pc → Bool
  | .io d, p => p = .ioAdmitted d ∨ p = .ioFinish d
  | .exclusive, p => p = .exHeld ∨ p = .exFinish
  | .draining, p => p = .draining ∨ p = .drained

/-- The places on the way into a reservation. -/
def Reservation.enters : Reservation → Pc → Bool
  | .io d, p =>
    p = .idle ∨ p = .ioLoad d ∨ p = .ioAdd d ∨ p = .ioRecheck d ∨ p = .ioUndo d ∨ p = .ioRefused d
  | .exclusive, p => p = .idle ∨ p = .exReserve ∨ p = .exRefused
  | .draining, p => p = .idle

/-- What the stage of a call says about its place. -/
def Code.Placed (code : Code) (c : Call ι) : Prop :=
  match c.stage with
  | .entering _ => code.reservation.enters c.pc = true
  | .reserved | .working | .pending => code.reservation.holds c.pc = true
  | .leaving _ => code.reservation.leaves c.pc = true
  | _ => c.pc = .idle

lemma Reservation.leaves_of_holds {r : Reservation} {p : Pc} (h : r.holds p = true) :
    r.leaves p = true := by
  cases r <;> simp_all [Reservation.holds, Reservation.leaves]

/-- The way out of a reservation ends outside. -/
lemma Reservation.leaves_next {k : Kind} {a a' : Atomics} {r : Reservation} {p p' : Pc}
    (h : r.leaves p = true) (nx : Thread.next k a p (r.access p) = some (a', p')) :
    p' = .idle ∨ r.leaves p' = true := by
  cases r with
  | io d =>
    simp only [Reservation.leaves, decide_eq_true_eq] at h
    rcases h with rfl | rfl <;> cases nx <;> simp [Reservation.leaves]
  | exclusive =>
    simp only [Reservation.leaves, decide_eq_true_eq] at h
    rcases h with rfl | rfl <;> cases nx <;> simp [Reservation.leaves]
  | draining =>
    simp only [Reservation.leaves, decide_eq_true_eq] at h
    rcases h with rfl | rfl <;> cases nx <;> exact .inl rfl

/-- The way into a reservation goes on until it is held or refused. -/
lemma Reservation.enters_next {k : Kind} {a a' : Atomics} {r : Reservation} {p p' : Pc}
    (h : r.enters p = true) (nx : Thread.next k a p (r.access p) = some (a', p')) :
    r.holds p' = true ∨ r.enters p' = true := by
  cases r with
  | io d =>
    simp only [Reservation.enters, decide_eq_true_eq] at h
    rcases h with rfl | rfl | rfl | rfl | rfl | rfl <;>
      simp only [Reservation.access, Thread.next] at nx <;>
      (try split at nx) <;> cases nx <;> simp [Reservation.enters, Reservation.holds]
  | exclusive =>
    simp only [Reservation.enters, decide_eq_true_eq] at h
    rcases h with rfl | rfl | rfl <;> simp only [Reservation.access, Thread.next] at nx <;>
      (try split at nx) <;> cases nx <;> simp [Reservation.enters, Reservation.holds]
  | draining =>
    simp only [Reservation.enters, decide_eq_true_eq] at h
    subst h
    simp only [Reservation.access, Thread.next] at nx
    split at nx
    · cases nx
    · split at nx <;> cases nx <;> simp [Reservation.enters, Reservation.holds]

lemma Reservation.enters_idle (r : Reservation) : r.enters .idle = true := by
  cases r <;> rfl

/-- An access of a call on its way in or out finds the socket as it expects it. -/
lemma Reservation.access_next {k : Kind} (a : Atomics) {r : Reservation} {p : Pc}
    (tcp : r = .draining → k = .tcp) (h : r.enters p = true ∨ r.leaves p = true) :
    ∃ x, Thread.next k a p (r.access p) = some x := by
  rw [← Option.isSome_iff_exists]
  cases r with
  | io d =>
    simp only [Reservation.enters, Reservation.leaves, decide_eq_true_eq] at h
    rcases h with (rfl | rfl | rfl | rfl | rfl | rfl) | rfl | rfl <;>
      simp only [Reservation.access, Thread.next] <;> (try split) <;> rfl
  | exclusive =>
    simp only [Reservation.enters, Reservation.leaves, decide_eq_true_eq] at h
    rcases h with (rfl | rfl | rfl) | rfl | rfl <;>
      simp only [Reservation.access, Thread.next] <;> (try split) <;> rfl
  | draining =>
    rw [tcp rfl]
    simp only [Reservation.enters, Reservation.leaves, decide_eq_true_eq] at h
    rcases h with rfl | rfl | rfl
    · simp only [Reservation.access, Thread.next, reduceCtorEq, if_false]
      split <;> rfl
    · rfl
    · rfl

/-- A draining section is held before and after it has seen the last job. -/
lemma Reservation.holds_poll {k : Kind} {a a' : Atomics} {r : Reservation} {p : Pc}
    (h : r.holds .draining = true) (nx : Thread.next k a .draining .pollJobs = some (a', p)) :
    r.holds p = true := by
  cases r with
  | io d => simp [Reservation.holds] at h
  | exclusive => simp [Reservation.holds] at h
  | draining =>
    simp only [Thread.next] at nx
    split at nx <;> cases nx <;> rfl

/-- Nobody is admitted by a check. -/
lemma Code.placed_idle {s : Stage} {c : Call ι} (idle : c.pc = .idle)
    (out : s.early = true ∨ s = .restoring ∨ (∃ ec, s = .storing ec) ∨ ∃ o, s = .finished o) :
    code.Placed { c with stage := s } := by
  unfold Code.Placed
  cases s <;> simp_all [Stage.early, Reservation.enters_idle]

lemma Code.afterLeaving_cases (code : Code) (o : Outcome) :
    (∃ ec, code.afterLeaving o = .storing ec ∧ o = .completed ec) ∨
      (code.afterLeaving o = .restoring ∧ o = .threw ∧ code.again = true) ∨
      (code.afterLeaving o = .finished o ∧ (o = .threw → code.again = false) ∧
        ∀ ec, o ≠ .completed ec) := by
  cases o with
  | completed ec => exact .inl ⟨ec, rfl, rfl⟩
  | returned => exact .inr (.inr ⟨rfl, by simp, by simp⟩)
  | threw =>
    cases again : code.again with
    | true => exact .inr (.inl ⟨by simp [Code.afterLeaving, again], rfl, rfl⟩)
    | false => exact .inr (.inr ⟨by simp [Code.afterLeaving, again], fun _ => rfl, by simp⟩)

/-- Each step leaves the call where its stage says. -/
lemma Move.placed (mv : Move code me a tls st c e) (h : code.Placed c) : code.Placed e.call := by
  cases mv with
  | @pass s before early _ =>
    refine Code.placed_idle ?_ (.inl early)
    unfold Code.Placed at h
    cases at_ : c.stage <;> simp_all [Stage.before]
  | @giveUp o before _ =>
    refine Code.placed_idle ?_ (.inr (.inr (.inr ⟨o, rfl⟩)))
    unfold Code.Placed at h
    cases at_ : c.stage <;> simp_all [Stage.before]
  | @enter retry a' p at_ nx =>
    by_cases idle : p = .idle
    · subst idle
      cases retry <;> rfl
    · by_cases held : code.reservation.holds p = true
      · simp only [Code.entered, idle, held, if_true, if_false]
        exact held
      · simp only [Code.Placed, at_] at h
        simp only [Code.entered, idle, held, if_false]
        exact (Reservation.enters_next h nx).resolve_left held
  | drain at_ drains nx =>
    simp only [Code.Placed, at_, drains] at h ⊢
    exact Reservation.holds_poll h nx
  | fail at_ _ =>
    simp only [Code.Placed, at_] at h
    exact Reservation.leaves_of_holds h
  | plain at_ _ =>
    simp only [Code.Placed, at_] at h
    exact h
  | enable at_ _ _ =>
    simp only [Code.Placed, at_] at h
    exact h
  | clear at_ _ =>
    simp only [Code.Placed, at_] at h
    exact h
  | initiate at_ _ =>
    simp only [Code.Placed, at_] at h
    exact h
  | done at_ _ =>
    simp only [Code.Placed, at_] at h
    exact Reservation.leaves_of_holds h
  | undo at_ =>
    simp only [Code.Placed, at_] at h
    exact Reservation.leaves_of_holds h
  | complete at_ =>
    simp only [Code.Placed, at_] at h
    exact Reservation.leaves_of_holds h
  | @leave o a' p at_ nx =>
    simp only [Code.Placed, at_] at h
    by_cases idle : p = .idle
    · subst idle
      simp only [if_true]
      apply Code.placed_idle (c := { c with pc := .idle }) rfl
      rcases code.afterLeaving_cases o with ⟨ec, e, -⟩ | ⟨e, -⟩ | ⟨e, -⟩
      · exact .inr (.inr (.inl ⟨_, e⟩))
      · exact .inr (.inl e)
      · exact .inr (.inr (.inr ⟨_, e⟩))
    · simp only [idle, if_false]
      exact (Reservation.leaves_next h nx).resolve_left idle
  | restore at_ =>
    simp only [Code.Placed, at_] at h
    exact h
  | store at_ =>
    simp only [Code.Placed, at_] at h
    exact h

end Step

/-! ## One socket of a host -/

section Host
variable [DecidableEq ι] [DecidableEq κ] {job : ι → Job κ} {kind : κ → Kind} {h h' : Host ι κ}
  {t : ι} {choice : Choice}

/-- The calls on a socket as threads in the admission functions. -/
def Host.threads (job : ι → Job κ) (h : Host ι κ) (k : κ) : World ι where
  atomics := (h.sockets k).atomics
  pc t := if (job t).sock = k then (h.calls t).pc else .idle

/-- The guard of a start, with the value of the state. -/
inductive Starts (job : ι → Job κ) (h : Host ι κ) (t : ι) : StateType → Prop where
  | sync :
    (job t).code.async = false →
    Starts job h t .new
  | fresh :
    (job t).code.async = true → (job t).code.again = false → h.states (job t).state = none →
    Starts job h t { StateType.new with init := true, isRead := (job t).code.isRead }
  | again {value} :
    (job t).code.async = true → (job t).code.again = true →
    h.states (job t).state = some ⟨value, false⟩ →
    Starts job h t value

/-- A step of the system is the start of a call or a step of its code. -/
lemma operations_next (st : (operations job kind).next h (t, choice) = some h') :
    (job t).code.kind = kind (job t).sock ∧
      ((h.calls t).stage = .unstarted ∧ (∃ value, Starts job h t value ∧ h' = h.enter job t value) ∨
        ∃ e, (job t).code.step t (h.sockets (job t).sock).atomics (h.sockets (job t).sock).tls
          (h.value job t) (h.calls t) choice = some e ∧ h' = h.apply job t e) := by
  simp only [operations] at st
  split at st
  case isFalse => cases st
  rename_i same
  refine ⟨same, ?_⟩
  split at st
  · unfold Host.start at st
    simp only at st
    split at st
    · cases st
    rename_i first
    refine .inl ⟨by simpa using first, ?_⟩
    split at st
    · rename_i async
      split at st
      · rename_i absent
        split at st
        · cases st
        · rename_i makes
          cases st
          exact ⟨_, .fresh async (by simpa using makes) absent, rfl⟩
      · rename_i cell present
        split at st
        · rename_i ready
          cases st
          obtain ⟨value, inUse⟩ := cell
          obtain ⟨again, unused⟩ := ready
          cases inUse with
          | true => exact absurd rfl unused
          | false => exact ⟨_, .again async again present, rfl⟩
        · cases st
    · rename_i sync
      cases st
      exact ⟨_, .sync (by simpa using sync), rfl⟩
  · obtain ⟨e, step, rfl⟩ := Option.map_eq_some_iff.mp st
    exact .inr ⟨e, step, rfl⟩

/-- The step of its code is one of its moves. -/
lemma operations_step (st : (operations job kind).next h (t, choice) = some h') :
    (job t).code.kind = kind (job t).sock ∧
      ((h.calls t).stage = .unstarted ∧ (∃ value, Starts job h t value ∧ h' = h.enter job t value) ∨
        ∃ e, Move (job t).code t (h.sockets (job t).sock).atomics (h.sockets (job t).sock).tls
          (h.value job t) (h.calls t) e ∧ h' = h.apply job t e) := by
  obtain ⟨same, start | ⟨e, step, applied⟩⟩ := operations_next st
  · exact ⟨same, .inl start⟩
  · exact ⟨same, .inr ⟨e, Code.step_move step, applied⟩⟩

/-- The calls of a socket are where they were when a call starts. -/
lemma Host.threads_enter (idle : (h.calls t).pc = .idle) (value : StateType) (k : κ) :
    (h.enter job t value).threads job k = h.threads job k := by
  have pc : ∀ u, ((h.enter job t value).calls u).pc = (h.calls u).pc := by
    intro u
    by_cases e : u = t
    · subst e
      simp [Host.enter, idle]
    · simp [Host.enter, Function.update_of_ne e]
  simp only [Host.threads, pc]
  rfl

/-- A move of a call is an access of the admission protocol on its socket, or none, and nothing on
any other socket. -/
lemma Host.threads_apply {e : Effect ι} (same : (job t).code.kind = kind (job t).sock)
    (mv : Move (job t).code t (h.sockets (job t).sock).atomics (h.sockets (job t).sock).tls
      (h.value job t) (h.calls t) e) (k : κ) :
    (h.apply job t e).threads job k = h.threads job k ∨
      ∃ i, (admission (kind k) ι).next (h.threads job k) (t, i) =
        some ((h.apply job t e).threads job k) := by
  have others : ∀ u, u ≠ t → ((h.apply job t e).calls u).pc = (h.calls u).pc := by
    intro u ne
    simp [Host.apply, ne]
  have own : ((h.apply job t e).calls t).pc = e.call.pc := by simp [Host.apply]
  by_cases ek : (job t).sock = k
  · subst ek
    have atomics : ((h.apply job t e).sockets (job t).sock).atomics = e.atomics := by
      simp [Host.apply]
    have pcs : ((h.apply job t e).threads job (job t).sock).pc =
        Function.update (h.threads job (job t).sock).pc t e.call.pc := by
      funext u
      by_cases eu : u = t
      · subst eu
        simp [Host.threads, own]
      · simp [Host.threads, Function.update_of_ne eu, others u eu]
    have whole : (h.apply job t e).threads job (job t).sock =
        ⟨e.atomics, Function.update (h.threads job (job t).sock).pc t e.call.pc⟩ := by
      rw [← pcs, ← atomics]
      rfl
    have at_ : (h.threads job (job t).sock).pc t = (h.calls t).pc := by simp [Host.threads]
    rcases mv.access with ⟨ea, ep⟩ | ⟨i, nx⟩
    · refine .inl ?_
      rw [whole, ea, ep, ← at_, Function.update_eq_self]
      rfl
    · refine .inr ⟨i, admission_next.mpr ⟨_, _, ?_, whole⟩⟩
      rw [at_, ← same]
      exact nx
  · refine .inl ?_
    have pcs : ((h.apply job t e).threads job k).pc = (h.threads job k).pc := by
      funext u
      by_cases eu : u = t
      · subst eu
        simp [Host.threads, ek]
      · simp [Host.threads, others u eu]
    have atomics : ((h.apply job t e).threads job k).atomics = (h.threads job k).atomics := by
      simp [Host.threads, Host.apply, Function.update_of_ne (Ne.symm ek)]
    cases hw : (h.apply job t e).threads job k
    cases hw' : h.threads job k
    simp_all

/-- Operations that use TLS reserve the socket for themselves. -/
lemma Operation.tls_alone (o : Operation) (h : o.code.tls ≠ .none) :
    o.code.reservation = .exclusive ∨ o.code.reservation = .draining := by
  cases o <;> first | exact .inl rfl | exact .inr rfl | exact absurd rfl h

/-- The call `t` where the move leaves it. -/
lemma Host.apply_self (e : Effect ι) : (h.apply job t e).calls t = e.call := by
  simp [Host.apply]

/-- What holds of the admission protocol under the calls. -/
structure Under (job : ι → Job κ) (kind : κ → Kind) (h : Host ι κ) : Prop where
  /-- each socket is in a state that the protocol reaches -/
  admitted : ∀ k, (admission (kind k) ι).Reachable (h.threads job k)
  /-- each call is where its stage says -/
  placed : ∀ t, (job t).code.Placed (h.calls t)

lemma Under.init (h0 : (operations job kind).init h) : Under job kind h := by
  obtain ⟨sockets, calls, -⟩ := h0
  refine ⟨?_, ?_⟩
  · intro k
    apply System.Reachable.init
    have pcs : (h.threads job k).pc = fun _ => Pc.idle := by
      funext u
      simp [Host.threads, calls]
    cases hw : h.threads job k
    simp_all [Host.threads, admission]
  · intro t
    rw [calls]
    rfl

lemma Under.step (un : Under job kind h) (st : (operations job kind).next h (t, choice) = some h') :
    Under job kind h' := by
  obtain ⟨same, ⟨first, value, -, rfl⟩ | ⟨e, mv, rfl⟩⟩ := operations_step st
  · have idle : (h.calls t).pc = .idle := by
      have pl := un.placed t
      simp only [Code.Placed, first] at pl
      exact pl
    refine ⟨?_, ?_⟩
    · intro k
      rw [Host.threads_enter idle]
      exact un.admitted k
    · intro u
      -- only the call that moves changes its place
      by_cases eu : u = t
      · subst eu
        simp [Host.enter, Code.Placed]
      · simp only [Host.enter, Function.update_of_ne eu]
        exact un.placed u
  · refine ⟨?_, ?_⟩
    · intro k
      rcases Host.threads_apply same mv k with still | ⟨i, nx⟩
      · rw [still]
        exact un.admitted k
      · exact .step (un.admitted k) nx
    · intro u
      by_cases eu : u = t
      · subst eu
        rw [Host.apply_self]
        exact mv.placed (un.placed u)
      · simp only [Host.apply, if_neg eu]
        exact un.placed u

lemma Under.reachable (r : (operations job kind).Reachable h) : Under job kind h :=
  r.invariant (fun _ => Under.init) fun _ _ _ un st => un.step st

omit [DecidableEq ι] [DecidableEq κ] in
/-- Nothing is reserved on a socket on which nobody is inside. -/
lemma Inv.released {s : World ι} (inv : Inv s) (idle : ∀ t, s.pc t = .idle) : s.atomics = {} := by
  have flag : ∀ r, s.atomics.flag r = false := by
    intro r
    by_contra set
    obtain ⟨t, own⟩ := (inv.owned r).flag.mp (by simpa using set)
    rw [idle t] at own
    rcases r with d | _ <;> simp [Pc.owns] at own
  have zero : s.atomics.asyncJobs = 0 := by
    refine inv.jobs_eq_zero fun r t yes => ?_
    rw [idle t] at yes
    rcases r with d | _ <;> simp [Pc.counts] at yes
  have ex : s.atomics.exclusiveOperation = false := flag .exclusive
  have rd : s.atomics.readOperation = false := flag (.io .read)
  have wr : s.atomics.writeOperation = false := flag (.io .write)
  cases ha : s.atomics
  simp_all

/-- A call that uses TLS owns `exclusive_operation` while it holds its reservation. -/
lemma Under.owns_exclusive (un : Under job kind h) (tls : (job t).code.tls ≠ .none)
    (held : (h.calls t).stage = .reserved ∨ (h.calls t).stage = .working ∨
      (h.calls t).stage = .pending ∨ ∃ o, (h.calls t).stage = .leaving o) :
    ((h.threads job (job t).sock).pc t).owns .exclusive := by
  have pl := un.placed t
  have leaves : (job t).code.reservation.leaves (h.calls t).pc = true := by
    unfold Code.Placed at pl
    rcases held with e | e | e | ⟨o, e⟩ <;> rw [e] at pl
    · exact Reservation.leaves_of_holds pl
    · exact Reservation.leaves_of_holds pl
    · exact Reservation.leaves_of_holds pl
    · exact pl
  simp only [Host.threads, if_true]
  rcases Operation.tls_alone _ tls with e | e <;>
    simp only [e, Reservation.leaves, decide_eq_true_eq] at leaves <;>
    rcases leaves with e | e <;> simp [e, Pc.owns]

/-- Two calls that use TLS do not hold reservations of one socket. -/
lemma Under.alone {u : ι} (un : Under job kind h) (same : (job u).sock = (job t).sock)
    (tls : (job t).code.tls ≠ .none) (tls' : (job u).code.tls ≠ .none)
    (held : (h.calls t).stage = .reserved ∨ (h.calls t).stage = .working ∨
      (h.calls t).stage = .pending ∨ ∃ o, (h.calls t).stage = .leaving o)
    (held' : (h.calls u).stage = .reserved ∨ (h.calls u).stage = .working ∨
      (h.calls u).stage = .pending ∨ ∃ o, (h.calls u).stage = .leaving o) : u = t := by
  have own := un.owns_exclusive tls held
  have own' := un.owns_exclusive tls' held'
  rw [same] at own'
  exact (Reachable.inv (un.admitted (job t).sock)).owned .exclusive |>.uniq own' own

/-- No call is stuck: one that has started and not ended can make a step, with or without the
others. -/
theorem operations_progress (r : (operations job kind).Reachable h)
    (same : (job t).code.kind = kind (job t).sock) (started : (h.calls t).stage ≠ .unstarted)
    (running : ∀ o, (h.calls t).stage ≠ .finished o) :
    ∃ choice h', (operations job kind).next h (t, choice) = some h' := by
  have pl := (Under.reachable r).placed t
  have tcp : (job t).code.reservation = .draining → (job t).code.kind = .tcp := by
    unfold Job.code
    cases (job t).operation <;> intro e <;> first | rfl | cases e
  -- every stage has a choice that goes on
  have step : ∀ choice e, choice ≠ .start → (job t).code.step t (h.sockets (job t).sock).atomics
      (h.sockets (job t).sock).tls (h.value job t) (h.calls t) choice = some e →
      ∃ choice h', (operations job kind).next h (t, choice) = some h' := by
    intro choice e ne st
    refine ⟨choice, h.apply job t e, ?_⟩
    cases choice with
    | start => exact absurd rfl ne
    | _ => simp [operations, same, st]
  cases at_ : (h.calls t).stage with
  | unstarted => exact absurd at_ started
  | finished o => exact absurd at_ (running o)
  | pending => exact step (.complete none 0 []) _ (by simp) (by simp only [Code.step, at_, if_true]; rfl)
  | entering retry =>
    simp only [Code.Placed, at_] at pl
    obtain ⟨x, nx⟩ := Reservation.access_next (h.sockets (job t).sock).atomics tcp (.inl pl)
    exact step (.go true) _ (by simp) (by simp only [Code.step, Code.go, at_, nx, Option.map_some]; rfl)
  | leaving o =>
    simp only [Code.Placed, at_] at pl
    obtain ⟨x, nx⟩ := Reservation.access_next (h.sockets (job t).sock).atomics tcp (.inr pl)
    exact step (.go true) _ (by simp) (by simp only [Code.step, Code.go, at_, nx, Option.map_some]; rfl)
  | reserved =>
    obtain ⟨e, made⟩ : ∃ e, (job t).code.prepare t (h.sockets (job t).sock).atomics
        (h.sockets (job t).sock).tls (h.value job t) (h.calls t) false = some e := by
      unfold Code.prepare
      split
      · exact ⟨_, rfl⟩
      · split
        · exact ⟨_, rfl⟩
        · exact ⟨_, if_pos (.inr (by simp))⟩
        · exact ⟨_, rfl⟩
    exact step (.go false) e (by simp) (by simp only [Code.step, Code.go, at_, made])
  | _ => exact step (.go true) _ (by simp) (by simp only [Code.step, Code.go, at_]; rfl)

end Host

end CovNet.Socket
