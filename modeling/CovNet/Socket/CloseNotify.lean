import CovNet.Lib.System

/-!
# The end of a TLS connection

Behind the jobs of a socket, `safe_shutdown` (`network.cpp`) ends the TLS connection with `async_shutdown`, waits for
its handler, drops the TLS state and closes the socket. A timer closes the socket when the peer does not answer, so
that the operation is over before its TLS state is dropped. The two handlers run on one strand, on any thread, while
the caller polls.

`shutdown_safe` is about every order in which this can happen: the TLS state is dropped with no operation on it, the
timer closes the socket of a caller that still waits and no other, and what `safe_shutdown` returns is what has
happened. `shutdown_returns` says that the wait ends.
-/

namespace CovNet.Socket.CloseNotify
open CovNet.Lib

/-- An error code, as far as it makes a difference. -/
inductive Code where
  | none
  | eof
  | notConnected
  | other
  deriving DecidableEq, Repr

/-- Where the caller is. -/
inductive Pc where
  /-- behind the drain -/
  | start
  /-- in front of `async_shutdown` -/
  | call
  /-- in front of `async_wait` -/
  | arm
  /-- in the handler of an exception, with `shutdown_started` -/
  | caught (started : Bool)
  /-- in it, behind the cancel of the timer -/
  | abort (started : Bool)
  | poll
  /-- behind the loop -/
  | judge
  | reset
  | shut
  | close
  | returned
  deriving DecidableEq, Repr

/-- Where `async_shutdown` and its handler are. -/
inductive Op where
  | idle
  | pending
  /-- the handler waits for the strand -/
  | queued (ec : Code)
  | entered (ec : Code)
  /-- the error code is stored -/
  | stored
  /-- the timer is cancelled -/
  | cancelled
  | ended
  deriving DecidableEq, Repr

/-- Where the timer and its handler are. -/
inductive Timer where
  | idle
  | waiting
  /-- the handler waits for the strand, with an error code or without -/
  | queued (aborted : Bool)
  | entered (aborted : Bool)
  /-- `timed_out` is set -/
  | marked
  | ended
  deriving DecidableEq, Repr

/-- A `safe_shutdown`: the caller, the two operations, what they share, the socket and the result. -/
structure State where
  pc : Pc
  op : Op
  timer : Timer
  ec : Code
  done : Bool
  timedOut : Bool
  isOpen : Bool
  isSsl : Bool
  success : Bool
  deriving DecidableEq, Repr

/-- What a call of the caller comes to. -/
inductive Choice where
  | returns (ec : Code)
  | throws
  deriving DecidableEq, Repr

inductive Action where
  | caller (choice : Choice)
  /-- the operation is completed -/
  | complete (ec : Code)
  /-- the next step of its handler -/
  | handler
  /-- the timer expires -/
  | expire
  /-- the next step of its handler -/
  | timerHandler
  deriving DecidableEq, Repr

/-- The operation has a handler that has not run to its end. -/
def Op.outstanding : Op → Bool
  | idle => false
  | ended => false
  | _ => true

/-- The handler has the strand. -/
def Op.running : Op → Bool
  | entered _ => true
  | stored => true
  | cancelled => true
  | _ => false

def Timer.running : Timer → Bool
  | entered _ => true
  | marked => true
  | _ => false

/-- The handler of the timer finds an error code. -/
def Timer.aborted : Timer → Bool
  | queued aborted => aborted
  | entered aborted => aborted
  | _ => false

/-- `timer->cancel()`: a wait ends with an error code, a handler that was queued does not. -/
def Timer.cancel : Timer → Timer
  | waiting => queued true
  | t => t

namespace State

/-- An open socket behind the drain of its jobs. -/
def start (isSsl : Bool) : State where
  pc := .start
  op := .idle
  timer := .idle
  ec := .none
  done := false
  timedOut := false
  isOpen := true
  isSsl := isSsl
  success := true

def strandFree (s : State) : Bool := !s.op.running && !s.timer.running

/-- A step of the caller. -/
def caller (s : State) (choice : Choice) : Option State :=
  match s.pc, choice with
  | .start, _ => some { s with pc := if s.isSsl then .call else .shut }
  | .call, .returns _ => some { s with op := .pending, pc := .arm }
  | .call, .throws => some { s with pc := .caught false }
  | .arm, .returns _ => some { s with timer := .waiting, pc := .poll }
  | .arm, .throws => some { s with pc := .caught true }
  | .caught started, _ => some { s with success := false, timer := s.timer.cancel, pc := .abort started }
  -- the raw socket is closed, and the handler is waited for all the same
  | .abort true, _ => some { s with isOpen := false, pc := .poll }
  | .abort false, _ => some { s with done := true, pc := .poll }
  | .poll, _ => some (if s.done then { s with pc := .judge } else s)
  | .judge, _ => some
      { s with
        success := s.success && !(s.timedOut || (s.ec ≠ .none && s.ec ≠ .eof))
        pc := .reset }
  | .reset, _ => some { s with isSsl := false, pc := .shut }
  | .shut, .returns ec => some
      { s with success := s.success && !(s.isOpen && ec ≠ .none && ec ≠ .notConnected), pc := .close }
  | .close, .returns ec => some
      { s with success := s.success && !(s.isOpen && ec ≠ .none), isOpen := false, pc := .returned }
  | _, _ => none

/-- A step of the handler of `async_shutdown`. -/
def handler (s : State) : Option State :=
  match s.op with
  | .queued ec => if s.strandFree then some { s with op := .entered ec } else none
  | .entered ec => some { s with ec := ec, op := .stored }
  | .stored => some { s with timer := s.timer.cancel, op := .cancelled }
  | .cancelled => some { s with done := true, op := .ended }
  | _ => none

/-- A step of the handler of the timer. -/
def timerHandler (s : State) : Option State :=
  match s.timer with
  | .queued aborted => if s.strandFree then some { s with timer := .entered aborted } else none
  | .entered aborted =>
    some (if aborted || s.done then { s with timer := .ended } else { s with timedOut := true, timer := .marked })
  | .marked => some { s with isOpen := false, timer := .ended }
  | _ => none

/-- One step. -/
def next (s : State) : Action → Option State
  | .caller choice => s.caller choice
  | .complete ec => if s.op = .pending then some { s with op := .queued ec } else none
  | .handler => s.handler
  | .expire => if s.timer = .waiting then some { s with timer := .queued false } else none
  | .timerHandler => s.timerHandler

end State

/-- `safe_shutdown` behind the drain, of a socket with TLS or without. -/
def safeShutdown (isSsl : Bool) : System State Action := ⟨(· = .start isSsl), State.next⟩

/-! ## What every step keeps -/

/-- What holds of the two operations, wherever the caller is: `done` is up exactly when nothing is outstanding any
more, the strand is with one handler at a time, and the timer is past its check only if the other handler has not
begun. -/
structure Shared (s : State) : Prop where
  done : s.done = true → s.op.outstanding = false
  ended : s.op = .ended → s.done = true
  strand : s.op.running = true → s.timer.running = false
  marked : s.timer = .marked → s.op.outstanding = true
  begun : s.op = .idle → s.timer = .idle
  timedOut : s.timedOut = true → s.timer = .marked ∨ s.timer = .ended
  alarm : s.op = .pending → s.timer.aborted = false ∧ (s.timer = .ended → s.isOpen = false)

/-- The verdict on the TLS connection stands. -/
def Judged (isSsl : Bool) (s : State) : Prop :=
  (isSsl = true → s.done = true) ∧ (isSsl = false → s.op = .idle) ∧
    (s.success = true → s.timedOut = false ∧ (isSsl = true → s.op = .ended ∧ (s.ec = .none ∨ s.ec = .eof)))

/-- What holds where the caller is. -/
def At (isSsl : Bool) (s : State) : Prop :=
  match s.pc with
  | .start => s.op = .idle ∧ s.done = false ∧ s.isSsl = isSsl ∧ s.timedOut = false
  | .call => s.op = .idle ∧ s.done = false ∧ isSsl = true ∧ s.isSsl = true
  | .arm => s.op ≠ .idle ∧ s.timer = .idle ∧ isSsl = true ∧ s.isSsl = true
  | .caught started => (s.op = .idle ↔ started = false) ∧ s.timer = .idle ∧ isSsl = true ∧ s.isSsl = true
  | .abort started =>
    (s.op = .idle ↔ started = false) ∧ s.timer = .idle ∧ isSsl = true ∧ s.isSsl = true ∧ s.success = false
  | .poll =>
    (s.op = .idle → s.done = true ∧ s.success = false) ∧ (s.timer = .idle → s.op = .idle ∨ s.isOpen = false) ∧
      isSsl = true ∧ s.isSsl = true
  | .judge => (s.op = .idle → s.success = false) ∧ s.done = true ∧ isSsl = true ∧ s.isSsl = true
  | .reset => Judged isSsl s ∧ isSsl = true
  | .shut => Judged isSsl s
  | .close => Judged isSsl s
  | .returned => Judged isSsl s ∧ s.isOpen = false

/-- A step of one of the handlers. Behind `done` it changes nothing but the timer. -/
structure Aside (s s' : State) : Prop where
  pc : s'.pc = s.pc
  isSsl : s'.isSsl = s.isSsl
  success : s'.success = s.success
  idle : s'.op = .idle ↔ s.op = .idle
  timer : s'.timer = .idle ↔ s.timer = .idle
  early : s.op = .idle → s'.done = s.done
  done : s.done = true → s'.done = true ∧ s'.op = s.op ∧ s'.ec = s.ec
  timedOut : s.done = true ∨ s.op = .idle → s'.timedOut = s.timedOut
  isOpen : s.isOpen = false → s'.isOpen = false

section Steps
variable {isSsl : Bool} {s s' : State} {choice : Choice} {ec : Code} {a : Action}

lemma Op.outstanding_eq_false {op : Op} : op.outstanding = false ↔ op = .idle ∨ op = .ended := by
  cases op <;> simp [Op.outstanding]

/-- What is outstanding was begun. -/
lemma Op.begun {op : Op} (out : op.outstanding = true) : op ≠ .idle := by
  rintro rfl
  cases out

lemma Timer.cancel_eq_marked {t : Timer} : t.cancel = .marked ↔ t = .marked := by
  cases t <;> simp [Timer.cancel]

lemma Timer.cancel_eq_ended {t : Timer} : t.cancel = .ended ↔ t = .ended := by
  cases t <;> simp [Timer.cancel]

lemma Timer.cancel_eq_idle {t : Timer} : t.cancel = .idle ↔ t = .idle := by
  cases t <;> simp [Timer.cancel]

lemma Timer.cancel_running (t : Timer) : t.cancel.running = t.running := by
  cases t <;> rfl

namespace Shared

/-- Nothing is done while something is outstanding. -/
lemma undone (sh : Shared s) (out : s.op.outstanding = true) : s.done = false := by
  cases done : s.done with
  | false => rfl
  | true => exact absurd (sh.done done) (by rw [out]; decide)

/-- What was begun is outstanding until it is done. -/
lemma outstanding (sh : Shared s) (begun : s.op ≠ .idle) (undone : s.done ≠ true) : s.op.outstanding = true := by
  cases out : s.op.outstanding with
  | true => rfl
  | false =>
    rcases Op.outstanding_eq_false.mp out with idle | ended
    · exact absurd idle begun
    · exact absurd (sh.ended ended) undone

/-- While the handler of the timer has the strand, the other one has not. -/
lemma still (sh : Shared s) (run : s.timer.running = true) : s.op.running = false := by
  cases other : s.op.running with
  | false => rfl
  | true => cases run.symm.trans (sh.strand other)

/-- The operation is completed, or its handler goes on. -/
lemma op_step (sh : Shared s) {op : Op} {ec : Code} {timer : Timer} (was : s.op.outstanding = true)
    (out : op.outstanding = true) (moved : op ≠ .pending) (cancelled : timer = s.timer ∨ timer = s.timer.cancel)
    (strand : op.running = true → s.timer.running = false) :
    Shared { s with op := op, ec := ec, timer := timer } ∧ Aside s { s with op := op, ec := ec, timer := timer } := by
  have undone := sh.undone was
  have idle : s.op ≠ .idle := Op.begun was
  have other : op ≠ .idle := Op.begun out
  have running : timer.running = s.timer.running := by
    rcases cancelled with rfl | rfl
    · rfl
    · exact s.timer.cancel_running
  have marked : timer = .marked → s.timer = .marked := by
    rcases cancelled with rfl | rfl
    · exact id
    · exact Timer.cancel_eq_marked.mp
  refine ⟨⟨fun done => ?_, fun ended => ?_, fun run => ?_, fun _ => out, fun e => absurd e other, fun late => ?_,
    fun e => absurd e moved⟩, ⟨rfl, rfl, rfl, iff_of_false other idle, ?_, fun _ => rfl, fun done => ?_, fun _ => rfl,
    id⟩⟩
  · rw [undone] at done
    cases done
  · have ended : op = .ended := ended
    rw [ended] at out
    cases out
  · exact running.trans (strand run)
  · have before := sh.timedOut late
    rcases cancelled with rfl | rfl
    · exact before
    · exact before.imp Timer.cancel_eq_marked.mpr Timer.cancel_eq_ended.mpr
  · rcases cancelled with rfl | rfl
    · exact Iff.rfl
    · exact Timer.cancel_eq_idle
  · rw [undone] at done
    cases done

/-- The handler of `async_shutdown` comes to its end. -/
lemma op_ended (sh : Shared s) (here : s.op = .cancelled) :
    Shared { s with done := true, op := .ended } ∧ Aside s { s with done := true, op := .ended } := by
  have was : s.op.outstanding = true := by
    rw [here]
    rfl
  have undone := sh.undone was
  have still : s.timer.running = false := sh.strand (by rw [here]; rfl)
  have idle : s.op ≠ .idle := by rw [here]; nofun
  refine ⟨⟨fun _ => rfl, fun _ => rfl, nofun, fun marked => ?_, nofun, sh.timedOut, nofun⟩,
    ⟨rfl, rfl, rfl, iff_of_false nofun idle, Iff.rfl, fun e => absurd e idle, fun done => ?_, fun _ => rfl, id⟩⟩
  · have marked : s.timer = .marked := marked
    rw [marked] at still
    cases still
  · rw [undone] at done
    cases done

/-- The timer moves, without a verdict. -/
lemma timer_step (sh : Shared s) {timer : Timer} (was : s.timer ≠ .idle) (before : s.timer ≠ .ended)
    (unmarked : s.timer ≠ .marked) (next : timer ≠ .marked ∧ timer ≠ .idle)
    (strand : timer.running = true → s.op.running = false)
    (alarm : s.op = .pending → timer.aborted = false ∧ (timer = .ended → s.isOpen = false)) :
    Shared { s with timer := timer } ∧ Aside s { s with timer := timer } := by
  refine ⟨⟨sh.done, sh.ended, fun run => ?_, fun marked => absurd marked next.1, fun idle => absurd (sh.begun idle) was,
    fun late => ?_, alarm⟩, ⟨rfl, rfl, rfl, Iff.rfl, iff_of_false next.2 was, fun _ => rfl,
    fun done => ⟨done, rfl, rfl⟩, fun _ => rfl, id⟩⟩
  · cases running : timer.running with
    | false => rfl
    | true =>
      rw [strand running] at run
      cases run
  · exact absurd (sh.timedOut late) (not_or.mpr ⟨unmarked, before⟩)

/-- The timer is at its end, or past its check. -/
lemma timer_end (sh : Shared s) {timer : Timer} {timedOut isOpen : Bool} (was : s.timer ≠ .idle)
    (last : timer = .marked ∧ s.done = false ∧ s.op.running = false ∨ timer = .ended)
    (late : timedOut = s.timedOut ∨ s.done = false) (shut : isOpen = s.isOpen ∨ isOpen = false)
    (alarm : s.op = .pending → timer = .ended → isOpen = false) :
    Shared { s with timer := timer, timedOut := timedOut, isOpen := isOpen } ∧
      Aside s { s with timer := timer, timedOut := timedOut, isOpen := isOpen } := by
  have begun : s.op ≠ .idle := fun idle => was (sh.begun idle)
  refine ⟨⟨sh.done, sh.ended, fun run => ?_, fun marked => ?_, fun idle => absurd idle begun, fun _ => ?_,
    fun e => ⟨?_, alarm e⟩⟩, ⟨rfl, rfl, rfl, Iff.rfl, iff_of_false ?_ was, fun _ => rfl, fun done => ⟨done, rfl, rfl⟩,
    fun fixed => ?_, fun closed => ?_⟩⟩
  · rcases last with ⟨rfl, -, still⟩ | rfl
    · rw [still] at run
      cases run
    · rfl
  · rcases last with ⟨-, undone, -⟩ | rfl
    · exact sh.outstanding begun (Bool.eq_false_iff.mp undone)
    · cases marked
  · exact last.imp And.left id
  · rcases last with ⟨rfl, -⟩ | rfl <;> rfl
  · rcases last with ⟨rfl, -⟩ | rfl <;> nofun
  · rcases late with same | undone
    · exact same
    · rcases fixed with done | idle
      · rw [undone] at done
        cases done
      · exact absurd idle begun
  · rcases shut with rfl | rfl
    · exact closed
    · rfl

end Shared

/-- Every step is one of the caller, or one of the handlers. -/
lemma next_aside (sh : Shared s) (step : s.next a = some s') :
    (∃ choice, s.caller choice = some s') ∨ Shared s' ∧ Aside s s' := by
  cases a with
  | caller choice => exact .inl ⟨choice, step⟩
  | complete ec =>
    right
    simp only [State.next] at step
    split at step
    · rename_i here
      cases step
      exact sh.op_step (by rw [here]; rfl) rfl nofun (.inl rfl) nofun
    · cases step
  | handler =>
    right
    simp only [State.next, State.handler] at step
    split at step
    · rename_i ec here
      split at step
      · rename_i free
        cases step
        simp only [State.strandFree, Bool.and_eq_true, Bool.not_eq_true'] at free
        exact sh.op_step (by rw [here]; rfl) rfl nofun (.inl rfl) fun _ => free.2
      · cases step
    · rename_i ec here
      cases step
      exact sh.op_step (by rw [here]; rfl) rfl nofun (.inl rfl) fun _ => sh.strand (by rw [here]; rfl)
    · rename_i here
      cases step
      exact sh.op_step (by rw [here]; rfl) rfl nofun (.inr rfl) fun _ => sh.strand (by rw [here]; rfl)
    · rename_i here
      cases step
      exact sh.op_ended here
    · cases step
  | expire =>
    right
    simp only [State.next] at step
    split at step
    · rename_i here
      cases step
      exact sh.timer_step (by rw [here]; nofun) (by rw [here]; nofun) (by rw [here]; nofun) ⟨nofun, nofun⟩ nofun
        fun _ => ⟨rfl, nofun⟩
    · cases step
  | timerHandler =>
    right
    simp only [State.next, State.timerHandler] at step
    split at step
    · rename_i aborted here
      split at step
      · rename_i free
        cases step
        simp only [State.strandFree, Bool.and_eq_true, Bool.not_eq_true'] at free
        refine sh.timer_step (by rw [here]; nofun) (by rw [here]; nofun) (by rw [here]; nofun) ⟨nofun, nofun⟩
          (fun _ => free.1) fun waits => ⟨?_, nofun⟩
        have alarm := (sh.alarm waits).1
        rw [here] at alarm
        exact alarm
      · cases step
    · rename_i aborted here
      cases step
      split
      · rename_i early
        refine sh.timer_end (by rw [here]; nofun) (.inr rfl) (.inl rfl) (.inl rfl) fun waits => ?_
        have alarm := (sh.alarm waits).1
        rw [here] at alarm
        have alarm : aborted = false := alarm
        rw [alarm, sh.undone (by rw [waits]; rfl)] at early
        cases early
      · rename_i late
        rw [Bool.or_eq_true, not_or, Bool.not_eq_true, Bool.not_eq_true] at late
        have still : s.op.running = false := sh.still (by rw [here]; rfl)
        exact sh.timer_end (by rw [here]; nofun) (.inl ⟨rfl, late.2, still⟩) (.inr late.2) (.inl rfl) nofun
    · rename_i here
      cases step
      exact sh.timer_end (by rw [here]; nofun) (.inr rfl) (.inl rfl) (.inr rfl) fun _ _ => rfl
    · cases step

/-- The verdict stands whatever the handlers do. -/
lemma Judged.aside (j : Judged isSsl s) (aside : Aside s s') : Judged isSsl s' := by
  obtain ⟨done, plain, verdict⟩ := j
  refine ⟨fun tls => (aside.done (done tls)).1, fun no => aside.idle.mpr (plain no), fun ok => ?_⟩
  obtain ⟨punctual, clean⟩ := verdict (aside.success ▸ ok)
  have fixed : s.done = true ∨ s.op = .idle := by
    cases isSsl with
    | true => exact .inl (done rfl)
    | false => exact .inr (plain rfl)
  refine ⟨(aside.timedOut fixed).trans punctual, fun tls => ?_⟩
  obtain ⟨-, op, ec⟩ := aside.done (done tls)
  rw [op, ec]
  exact clean tls

lemma At.aside (here : At isSsl s) (aside : Aside s s') : At isSsl s' := by
  rw [At] at here ⊢
  rw [aside.pc]
  cases pc : s.pc with
  | start =>
    rw [pc] at here
    exact ⟨aside.idle.mpr here.1, (aside.early here.1).trans here.2.1, aside.isSsl.trans here.2.2.1,
      (aside.timedOut (.inr here.1)).trans here.2.2.2⟩
  | call =>
    rw [pc] at here
    exact ⟨aside.idle.mpr here.1, (aside.early here.1).trans here.2.1, here.2.2.1, aside.isSsl.trans here.2.2.2⟩
  | arm =>
    rw [pc] at here
    exact ⟨mt aside.idle.mp here.1, aside.timer.mpr here.2.1, here.2.2.1, aside.isSsl.trans here.2.2.2⟩
  | caught started =>
    rw [pc] at here
    exact ⟨aside.idle.trans here.1, aside.timer.mpr here.2.1, here.2.2.1, aside.isSsl.trans here.2.2.2⟩
  | abort started =>
    rw [pc] at here
    exact ⟨aside.idle.trans here.1, aside.timer.mpr here.2.1, here.2.2.1, aside.isSsl.trans here.2.2.2.1,
      aside.success.trans here.2.2.2.2⟩
  | poll =>
    rw [pc] at here
    refine ⟨fun idle => ?_, fun unarmed => ?_, here.2.2.1, aside.isSsl.trans here.2.2.2⟩
    · obtain ⟨done, failed⟩ := here.1 (aside.idle.mp idle)
      exact ⟨(aside.done done).1, aside.success.trans failed⟩
    · exact (here.2.1 (aside.timer.mp unarmed)).imp aside.idle.mpr aside.isOpen
  | judge =>
    rw [pc] at here
    exact ⟨fun idle => aside.success.trans (here.1 (aside.idle.mp idle)), (aside.done here.2.1).1, here.2.2.1,
      aside.isSsl.trans here.2.2.2⟩
  | reset =>
    rw [pc] at here
    exact ⟨here.1.aside aside, here.2⟩
  | shut =>
    rw [pc] at here
    exact Judged.aside here aside
  | close =>
    rw [pc] at here
    exact Judged.aside here aside
  | returned =>
    rw [pc] at here
    exact ⟨here.1.aside aside, aside.isOpen here.2⟩

/-- A step of the caller that leaves the two operations alone. -/
lemma Shared.same (sh : Shared s) {pc : Pc} {isOpen isSsl success : Bool}
    (shut : isOpen = s.isOpen ∨ isOpen = false) :
    Shared { s with pc := pc, isOpen := isOpen, isSsl := isSsl, success := success } := by
  refine ⟨sh.done, sh.ended, sh.strand, sh.marked, sh.begun, sh.timedOut, fun waits => ?_⟩
  refine ⟨(sh.alarm waits).1, fun ended => ?_⟩
  rcases shut with rfl | rfl
  · exact (sh.alarm waits).2 ended
  · rfl

/-- The caller goes on. -/
lemma caller_step (sh : Shared s) (here : At isSsl s) (step : s.caller choice = some s') :
    Shared s' ∧ At isSsl s' := by
  rw [At] at here
  unfold State.caller at step
  cases pc : s.pc with
  | start =>
    simp only [pc] at here step
    obtain ⟨idle, undone, kind, punctual⟩ := here
    cases step
    refine ⟨sh.same (.inl rfl), ?_⟩
    cases tls : s.isSsl with
    | true => exact ⟨idle, undone, kind.symm.trans tls, rfl⟩
    | false =>
      have plain : isSsl = false := kind.symm.trans tls
      refine ⟨fun yes => ?_, fun _ => idle, fun _ => ⟨punctual, fun yes => ?_⟩⟩
      · rw [plain] at yes
        cases yes
      · rw [plain] at yes
        cases yes
  | call =>
    simp only [pc] at here step
    obtain ⟨idle, undone, tls⟩ := here
    cases choice with
    | returns ec =>
      cases step
      have timer : s.timer = .idle := sh.begun idle
      refine ⟨⟨fun done => ?_, nofun, nofun, fun _ => rfl, nofun, sh.timedOut, fun _ => ⟨?_, fun ended => ?_⟩⟩, nofun,
        timer, tls⟩
      · cases undone.symm.trans done
      · rw [timer]
        rfl
      · cases timer.symm.trans ended
    | throws =>
      cases step
      exact ⟨sh.same (.inl rfl), iff_of_true idle rfl, sh.begun idle, tls⟩
  | arm =>
    simp only [pc] at here step
    obtain ⟨begun, timer, tls⟩ := here
    cases choice with
    | returns ec =>
      cases step
      refine ⟨⟨sh.done, sh.ended, fun _ => rfl, nofun, fun idle => absurd idle begun, fun late => ?_,
        fun _ => ⟨rfl, nofun⟩⟩, fun idle => absurd idle begun, nofun, tls⟩
      rcases sh.timedOut late with e | e <;> cases timer.symm.trans e
    | throws =>
      cases step
      exact ⟨sh.same (.inl rfl), iff_of_false begun nofun, timer, tls⟩
  | caught started =>
    simp only [pc] at here step
    obtain ⟨idle, timer, tls, ssl⟩ := here
    have cancel : s.timer.cancel = s.timer := by
      rw [timer]
      rfl
    rw [cancel] at step
    cases step
    exact ⟨sh.same (.inl rfl), idle, timer, tls, ssl, rfl⟩
  | abort started =>
    simp only [pc] at here step
    obtain ⟨idle, timer, tls, ssl, failed⟩ := here
    cases started with
    | true =>
      cases step
      exact ⟨sh.same (.inr rfl), fun none => absurd (idle.mp none) nofun, fun _ => .inr rfl, tls, ssl⟩
    | false =>
      cases step
      have none : s.op = .idle := idle.mpr rfl
      have quiet : s.op.outstanding = false := by
        rw [none]
        rfl
      exact ⟨⟨fun _ => quiet, fun _ => rfl, sh.strand, sh.marked, sh.begun, sh.timedOut, sh.alarm⟩,
        fun _ => ⟨rfl, failed⟩, fun _ => .inl none, tls, ssl⟩
  | poll =>
    simp only [pc] at here step
    obtain ⟨waits, unarmed, tls, ssl⟩ := here
    split at step
    · rename_i done
      cases step
      exact ⟨sh.same (.inl rfl), fun idle => (waits idle).2, done, tls, ssl⟩
    · cases step
      refine ⟨sh, ?_⟩
      rw [At, pc]
      exact ⟨waits, unarmed, tls, ssl⟩
  | judge =>
    simp only [pc] at here step
    obtain ⟨none, done, tls, ssl⟩ := here
    cases step
    refine ⟨sh.same (.inl rfl), ⟨fun _ => done, fun no => ?_, fun ok => ?_⟩, tls⟩
    · rw [tls] at no
      cases no
    · simp only [Bool.and_eq_true, Bool.not_eq_true', Bool.or_eq_false_iff, Bool.and_eq_false_iff,
        decide_eq_false_iff_not, not_not] at ok
      obtain ⟨success, punctual, clean⟩ := ok
      refine ⟨punctual, fun _ => ⟨?_, clean⟩⟩
      refine (Op.outstanding_eq_false.mp (sh.done done)).resolve_left fun idle => ?_
      rw [none idle] at success
      cases success
  | reset =>
    simp only [pc] at here step
    cases step
    exact ⟨sh.same (.inl rfl), here.1⟩
  | shut =>
    simp only [pc] at here step
    cases choice with
    | returns ec =>
      cases step
      obtain ⟨done, plain, verdict⟩ := here
      refine ⟨sh.same (.inl rfl), done, plain, fun ok => verdict ?_⟩
      exact (Bool.and_eq_true_iff.mp ok).1
    | throws => cases step
  | close =>
    simp only [pc] at here step
    cases choice with
    | returns ec =>
      cases step
      obtain ⟨done, plain, verdict⟩ := here
      refine ⟨sh.same (.inr rfl), ⟨done, plain, fun ok => verdict ?_⟩, rfl⟩
      exact (Bool.and_eq_true_iff.mp ok).1
    | throws => cases step
  | returned =>
    simp only [pc] at step
    cases step

/-- What holds of every state reached. -/
def Inv (isSsl : Bool) (s : State) : Prop := Shared s ∧ At isSsl s

lemma start_inv (isSsl : Bool) : Inv isSsl (.start isSsl) :=
  ⟨⟨nofun, nofun, nofun, nofun, fun _ => rfl, nofun, nofun⟩, rfl, rfl, rfl, rfl⟩

lemma Inv.next (inv : Inv isSsl s) (step : s.next a = some s') : Inv isSsl s' := by
  obtain ⟨sh, here⟩ := inv
  rcases next_aside sh step with ⟨choice, mine⟩ | ⟨sh', aside⟩
  · exact caller_step sh here mine
  · exact ⟨sh', here.aside aside⟩

lemma reachable_inv (run : (safeShutdown isSsl).Reachable s) : Inv isSsl s := by
  refine run.invariant (fun s start => ?_) fun s a s' inv step => inv.next step
  have start : s = .start isSsl := start
  rw [start]
  exact start_inv isSsl

/-- Behind the verdict nothing is outstanding. -/
lemma Judged.quiet (j : Judged isSsl s) (sh : Shared s) : s.op.outstanding = false := by
  cases isSsl with
  | true => exact sh.done (j.1 rfl)
  | false => exact Op.outstanding_eq_false.mpr (.inl (j.2.1 rfl))

/-- While something is outstanding, the TLS state is there, and the timer is armed only if the caller waits. -/
lemma At.outstanding (here : At isSsl s) (sh : Shared s) (out : s.op.outstanding = true) :
    s.isSsl = true ∧ (s.timer = .idle ∨ s.pc = .poll) := by
  have begun : s.op ≠ .idle := Op.begun out
  have undone := sh.undone out
  have behind : ¬ Judged isSsl s := fun j => by
    rw [j.quiet sh] at out
    cases out
  rw [At] at here
  cases pc : s.pc with
  | start =>
    rw [pc] at here
    exact absurd here.1 begun
  | call =>
    rw [pc] at here
    exact absurd here.1 begun
  | arm =>
    rw [pc] at here
    exact ⟨here.2.2.2, .inl here.2.1⟩
  | caught started =>
    rw [pc] at here
    exact ⟨here.2.2.2, .inl here.2.1⟩
  | abort started =>
    rw [pc] at here
    exact ⟨here.2.2.2.1, .inl here.2.1⟩
  | poll =>
    rw [pc] at here
    exact ⟨here.2.2.2, .inr rfl⟩
  | judge =>
    rw [pc] at here
    cases undone.symm.trans here.2.1
  | reset =>
    rw [pc] at here
    exact absurd here.1 behind
  | shut =>
    rw [pc] at here
    exact absurd here behind
  | close =>
    rw [pc] at here
    exact absurd here behind
  | returned =>
    rw [pc] at here
    exact absurd here.1 behind

end Steps

/-- Whatever the peer, the timer and the strand do, and whichever call of the caller fails: the TLS state is dropped
with no operation on it. The timer closes the socket of a caller that still waits, for an operation that is still
outstanding. When `safe_shutdown` returns, the socket is closed, and it returns `true` for a TLS connection only if the
operation ended in time, by itself, without an error or with the end of the stream. -/
theorem shutdown_safe (isSsl : Bool) (s : State) (run : (safeShutdown isSsl).Reachable s) :
    (isSsl = true → s.isSsl = false → s.op.outstanding = false) ∧
      (s.timer = .marked → s.pc = .poll ∧ s.op.outstanding = true) ∧
      (s.pc = .returned → s.isOpen = false ∧ (isSsl = true → s.success = true →
        s.timedOut = false ∧ s.op = .ended ∧ (s.ec = .none ∨ s.ec = .eof))) := by
  obtain ⟨sh, here⟩ := reachable_inv run
  refine ⟨fun _ dropped => ?_, fun late => ?_, fun returned => ?_⟩
  · cases out : s.op.outstanding with
    | false => rfl
    | true => cases dropped.symm.trans (here.outstanding sh out).1
  · have out := sh.marked late
    rcases (here.outstanding sh out).2 with idle | waits
    · cases late.symm.trans idle
    · exact ⟨waits, out⟩
  · rw [At, returned] at here
    obtain ⟨⟨-, -, verdict⟩, closed⟩ := here
    refine ⟨closed, fun tls ok => ?_⟩
    obtain ⟨punctual, clean⟩ := verdict ok
    exact ⟨punctual, clean tls⟩

/-! ## The wait ends -/

def Pc.rank : Pc → Nat
  | start => 10
  | call => 9
  | arm => 8
  | caught _ => 7
  | abort _ => 6
  | poll => 5
  | judge => 4
  | reset => 3
  | shut => 2
  | close => 1
  | returned => 0

def Op.rank : Op → Nat
  | idle => 6
  | pending => 5
  | queued _ => 4
  | entered _ => 3
  | stored => 2
  | cancelled => 1
  | ended => 0

def Timer.rank : Timer → Nat
  | idle => 5
  | waiting => 4
  | queued _ => 3
  | entered _ => 2
  | marked => 1
  | ended => 0

/-- The steps that are left, at most. -/
def State.rank (s : State) : Nat := s.pc.rank + s.op.rank + s.timer.rank

/-- A step that does not depend on the peer: an operation on a closed socket ends anyway. -/
def Action.Due (s : State) : Action → Prop
  | .complete _ => s.isOpen = false
  | _ => True

/-- The system with a count of its steps, without the polls that find nothing. -/
def counted (isSsl : Bool) : System (State × Nat) Action :=
  (safeShutdown isSsl).observe 0 fun n s _ s' => if s' = s then n else n + 1

section Rank
variable {isSsl : Bool} {s s' : State} {choice : Choice} {a : Action}

lemma Timer.cancel_rank (t : Timer) : t.cancel.rank ≤ t.rank := by
  cases t with
  | waiting => exact Nat.le_succ 3
  | _ => exact Nat.le_refl _

/-- The caller goes on. -/
lemma rank_caller (pc : s'.pc.rank < s.pc.rank) (op : s'.op.rank ≤ s.op.rank) (timer : s'.timer.rank ≤ s.timer.rank) :
    s'.rank < s.rank :=
  Nat.add_lt_add_of_lt_of_le (Nat.add_lt_add_of_lt_of_le pc op) timer

/-- The handler of `async_shutdown` goes on. -/
lemma rank_handler (pc : s'.pc = s.pc) (op : s'.op.rank < s.op.rank) (timer : s'.timer.rank ≤ s.timer.rank) :
    s'.rank < s.rank :=
  Nat.add_lt_add_of_lt_of_le (Nat.add_lt_add_of_le_of_lt (Nat.le_of_eq (congrArg Pc.rank pc)) op) timer

/-- The timer goes on. -/
lemma rank_timer (pc : s'.pc = s.pc) (op : s'.op = s.op) (timer : s'.timer.rank < s.timer.rank) :
    s'.rank < s.rank := by
  rw [State.rank, State.rank, pc, op]
  exact Nat.add_lt_add_left timer _

/-- The caller goes on by itself. -/
lemma rank_alone {p q : Pc} {done isOpen isSsl success : Bool} (here : s.pc = p) (less : q.rank < p.rank) :
    State.rank { s with pc := q, done := done, isOpen := isOpen, isSsl := isSsl, success := success } < s.rank := by
  subst here
  exact rank_caller less (Nat.le_refl _) (Nat.le_refl _)

lemma caller_rank (here : At isSsl s) (step : s.caller choice = some s') :
    s' = s ∨ s'.rank < s.rank := by
  rw [At] at here
  unfold State.caller at step
  cases pc : s.pc with
  | start =>
    simp only [pc] at step
    cases step
    refine .inr (rank_alone pc ?_)
    split <;> decide
  | call =>
    simp only [pc] at here step
    cases choice with
    | returns ec =>
      cases step
      have near : Pc.arm.rank < s.pc.rank := by
        rw [pc]
        decide
      have op : Op.pending.rank ≤ s.op.rank := by
        rw [here.1]
        decide
      exact .inr (rank_caller near op (Nat.le_refl _))
    | throws =>
      cases step
      exact .inr (rank_alone pc (by decide))
  | arm =>
    simp only [pc] at here step
    cases choice with
    | returns ec =>
      cases step
      have near : Pc.poll.rank < s.pc.rank := by
        rw [pc]
        decide
      have timer : Timer.waiting.rank ≤ s.timer.rank := by
        rw [here.2.1]
        decide
      exact .inr (rank_caller near (Nat.le_refl _) timer)
    | throws =>
      cases step
      exact .inr (rank_alone pc (by decide))
  | caught started =>
    simp only [pc] at step
    cases step
    have near : (Pc.abort started).rank < s.pc.rank := by
      rw [pc]
      exact Nat.lt_succ_self 6
    exact .inr (rank_caller near (Nat.le_refl _) s.timer.cancel_rank)
  | abort started =>
    simp only [pc] at step
    cases started with
    | true =>
      cases step
      exact .inr (rank_alone pc (by decide))
    | false =>
      cases step
      exact .inr (rank_alone pc (by decide))
  | poll =>
    simp only [pc] at step
    split at step
    · cases step
      exact .inr (rank_alone pc (by decide))
    · cases step
      exact .inl rfl
  | judge =>
    simp only [pc] at step
    cases step
    exact .inr (rank_alone pc (by decide))
  | reset =>
    simp only [pc] at step
    cases step
    exact .inr (rank_alone pc (by decide))
  | shut =>
    simp only [pc] at step
    cases choice with
    | returns ec =>
      cases step
      exact .inr (rank_alone pc (by decide))
    | throws => cases step
  | close =>
    simp only [pc] at step
    cases choice with
    | returns ec =>
      cases step
      exact .inr (rank_alone pc (by decide))
    | throws => cases step
  | returned =>
    simp only [pc] at step
    cases step

/-- A step that changes anything brings the end nearer. -/
lemma next_rank (here : At isSsl s) (step : s.next a = some s') : s' = s ∨ s'.rank < s.rank := by
  cases a with
  | caller choice => exact caller_rank here step
  | complete ec =>
    simp only [State.next] at step
    split at step
    · rename_i pending
      cases step
      exact .inr (rank_handler rfl (by rw [pending]; exact Nat.lt_succ_self 4) (Nat.le_refl _))
    · cases step
  | handler =>
    simp only [State.next, State.handler] at step
    split at step
    · rename_i ec queued
      split at step
      · cases step
        exact .inr (rank_handler rfl (by rw [queued]; exact Nat.lt_succ_self 3) (Nat.le_refl _))
      · cases step
    · rename_i ec entered
      cases step
      exact .inr (rank_handler rfl (by rw [entered]; exact Nat.lt_succ_self 2) (Nat.le_refl _))
    · rename_i stored
      cases step
      exact .inr (rank_handler rfl (by rw [stored]; exact Nat.lt_succ_self 1) s.timer.cancel_rank)
    · rename_i cancelled
      cases step
      exact .inr (rank_handler rfl (by rw [cancelled]; exact Nat.lt_succ_self 0) (Nat.le_refl _))
    · cases step
  | expire =>
    simp only [State.next] at step
    split at step
    · rename_i waiting
      cases step
      exact .inr (rank_timer rfl rfl (by rw [waiting]; exact Nat.lt_succ_self 3))
    · cases step
  | timerHandler =>
    simp only [State.next, State.timerHandler] at step
    split at step
    · rename_i aborted queued
      split at step
      · cases step
        exact .inr (rank_timer rfl rfl (by rw [queued]; exact Nat.lt_succ_self 2))
      · cases step
    · rename_i aborted entered
      cases step
      split
      · exact .inr (rank_timer rfl rfl (by rw [entered]; exact Nat.succ_pos 1))
      · exact .inr (rank_timer rfl rfl (by rw [entered]; exact Nat.lt_succ_self 1))
    · rename_i marked
      cases step
      exact .inr (rank_timer rfl rfl (by rw [marked]; exact Nat.lt_succ_self 0))
    · cases step

/-- The handler of the timer goes on, unless the other one has the strand. -/
lemma timer_due (started : s.timer ≠ .idle ∧ s.timer ≠ .waiting ∧ s.timer ≠ .ended)
    (free : s.op.running = false) : ∃ s', s.next .timerHandler = some s' ∧ s' ≠ s := by
  cases timer : s.timer with
  | idle => exact absurd timer started.1
  | waiting => exact absurd timer started.2.1
  | queued aborted =>
    have strand : s.strandFree = true := by
      rw [State.strandFree, free, timer]
      rfl
    refine ⟨{ s with timer := .entered aborted }, ?_, ne_of_apply_ne State.timer (by rw [timer]; nofun)⟩
    rw [State.next, State.timerHandler, timer]
    exact if_pos strand
  | entered aborted =>
    refine ⟨_, by rw [State.next, State.timerHandler, timer], ne_of_apply_ne State.timer ?_⟩
    split
    · rw [timer]
      nofun
    · rw [timer]
      nofun
  | marked =>
    refine ⟨_, by rw [State.next, State.timerHandler, timer], ne_of_apply_ne State.timer (by rw [timer]; nofun)⟩
  | ended => exact absurd timer started.2.2

/-- The handler of `async_shutdown` goes on, unless the other one has the strand. -/
lemma handler_due (out : s.op.outstanding = true) (started : s.op ≠ .pending)
    (free : s.timer.running = false) : ∃ s', s.next .handler = some s' ∧ s' ≠ s := by
  cases op : s.op with
  | idle =>
    rw [op] at out
    cases out
  | pending => exact absurd op started
  | queued ec =>
    have strand : s.strandFree = true := by
      rw [State.strandFree, free, op]
      rfl
    refine ⟨{ s with op := .entered ec }, ?_, ne_of_apply_ne State.op (by rw [op]; nofun)⟩
    rw [State.next, State.handler, op]
    exact if_pos strand
  | entered ec => exact ⟨_, by rw [State.next, State.handler, op], ne_of_apply_ne State.op (by rw [op]; nofun)⟩
  | stored => exact ⟨_, by rw [State.next, State.handler, op], ne_of_apply_ne State.op (by rw [op]; nofun)⟩
  | cancelled => exact ⟨_, by rw [State.next, State.handler, op], ne_of_apply_ne State.op (by rw [op]; nofun)⟩
  | ended =>
    rw [op] at out
    cases out

/-- An outstanding operation goes on without the peer, once the timer runs or the socket is closed. -/
lemma outstanding_due (sh : Shared s) (out : s.op.outstanding = true) (armed : s.timer = .idle → s.isOpen = false) :
    ∃ a s', Action.Due s a ∧ s.next a = some s' ∧ s' ≠ s := by
  by_cases pending : s.op = .pending
  · have free : s.op.running = false := by
      rw [pending]
      rfl
    cases closed : s.isOpen with
    | false =>
      exact ⟨.complete .other, { s with op := .queued .other }, closed, if_pos pending,
        ne_of_apply_ne State.op (by rw [pending]; nofun)⟩
    | true =>
      by_cases waiting : s.timer = .waiting
      · exact ⟨.expire, { s with timer := .queued false }, trivial, if_pos waiting,
          ne_of_apply_ne State.timer (by rw [waiting]; nofun)⟩
      · have idle : s.timer ≠ .idle := fun idle => by cases closed.symm.trans (armed idle)
        have ended : s.timer ≠ .ended := fun ended => by cases closed.symm.trans ((sh.alarm pending).2 ended)
        obtain ⟨s', step, moved⟩ := timer_due ⟨idle, waiting, ended⟩ free
        exact ⟨.timerHandler, s', trivial, step, moved⟩
  · cases run : s.timer.running with
    | false =>
      obtain ⟨s', step, moved⟩ := handler_due out pending run
      exact ⟨.handler, s', trivial, step, moved⟩
    | true =>
      have free : s.op.running = false := sh.still run
      have started : s.timer ≠ .idle ∧ s.timer ≠ .waiting ∧ s.timer ≠ .ended := by
        refine ⟨fun e => ?_, fun e => ?_, fun e => ?_⟩ <;>
        · rw [e] at run
          cases run
      obtain ⟨s', step, moved⟩ := timer_due started free
      exact ⟨.timerHandler, s', trivial, step, moved⟩

/-- A caller that does not wait goes on. -/
lemma caller_due (pc : s.pc ≠ .returned) (ready : s.pc = .poll → s.done = true) :
    ∃ s', s.caller (.returns .none) = some s' ∧ s' ≠ s := by
  unfold State.caller
  cases here : s.pc with
  | start =>
    refine ⟨_, rfl, ne_of_apply_ne State.pc ?_⟩
    rw [here]
    dsimp only
    split <;> nofun
  | poll => exact ⟨{ s with pc := .judge }, congrArg some (if_pos (ready here)),
      ne_of_apply_ne State.pc (by rw [here]; nofun)⟩
  | abort started =>
    cases started with
    | true => exact ⟨_, rfl, ne_of_apply_ne State.pc (by rw [here]; nofun)⟩
    | false => exact ⟨_, rfl, ne_of_apply_ne State.pc (by rw [here]; nofun)⟩
  | returned => exact absurd here pc
  | _ => exact ⟨_, rfl, ne_of_apply_ne State.pc (by rw [here]; nofun)⟩

/-- A caller that has not returned goes on without the peer. -/
lemma At.due (here : At isSsl s) (sh : Shared s) (running : s.pc ≠ .returned) :
    ∃ a s', Action.Due s a ∧ s.next a = some s' ∧ s' ≠ s := by
  by_cases ready : s.pc = .poll → s.done = true
  · obtain ⟨s', step, moved⟩ := caller_due running ready
    exact ⟨.caller (.returns .none), s', trivial, step, moved⟩
  · obtain ⟨poll, waits⟩ := Classical.not_imp.mp ready
    rw [At, poll] at here
    obtain ⟨begun, unarmed, -⟩ := here
    have idle : s.op ≠ .idle := fun idle => waits (begun idle).1
    have out : s.op.outstanding = true := sh.outstanding idle waits
    exact outstanding_due sh out fun timer => (unarmed timer).resolve_left idle

end Rank

/-- `safe_shutdown` comes to its end, also with a peer that is silent: of all the steps that change anything there are
at most 21, and up to the return there is always one that is not the peer's. -/
theorem shutdown_returns (isSsl : Bool) (s : State × Nat) (run : (counted isSsl).Reachable s) :
    s.2 ≤ 21 ∧ (s.1.pc ≠ .returned → ∃ a s', Action.Due s.1 a ∧ s.1.next a = some s' ∧ s' ≠ s.1) := by
  have budget : Inv isSsl s.1 ∧ s.2 + s.1.rank ≤ 21 := by
    refine System.Reachable.invariant (I := fun s : State × Nat => Inv isSsl s.1 ∧ s.2 + s.1.rank ≤ 21)
      (fun s start => ?_) (fun s a s' inv step => ?_) run
    · obtain ⟨start, none⟩ := start
      have start : s.1 = .start isSsl := start
      rw [start, none]
      exact ⟨start_inv isSsl, Nat.le_refl 21⟩
    · obtain ⟨step, count⟩ := System.observe_next.mp step
      refine ⟨inv.1.next step, ?_⟩
      rw [count]
      split
      · rename_i still
        rw [still]
        exact inv.2
      · rename_i moved
        have nearer := (next_rank inv.1.2 step).resolve_left moved
        omega
  exact ⟨Nat.le_trans (Nat.le_add_right _ _) budget.2, budget.1.2.due budget.1.1⟩

/-! ## A silent peer -/

/-- The peer does not answer: the timer closes the socket, the operation ends with an error, and the wait is over. -/
def silent : List Action :=
  [.caller (.returns .none), .caller (.returns .none), .caller (.returns .none), .expire, .timerHandler, .timerHandler,
    .timerHandler, .complete .other, .handler, .handler, .handler, .handler, .caller (.returns .none),
    .caller (.returns .none), .caller (.returns .none), .caller (.returns .none), .caller (.returns .none)]

/-- `safe_shutdown` says that it has failed, of a socket that is closed. -/
theorem shutdown_safe_silent :
    ∃ s, (safeShutdown true).Reachable s ∧ s.pc = .returned ∧ s.success = false ∧ s.isOpen = false := by
  have start : (safeShutdown true).Reachable (.start true) := .init rfl
  obtain ⟨s, run, ended⟩ := start.exists_of_run silent (fun s => s.pc = .returned && !s.success) (by decide)
  simp only [Bool.and_eq_true, decide_eq_true_eq, Bool.not_eq_true'] at ended
  exact ⟨s, run, ended.1, ended.2, ((shutdown_safe true s run).2.2 ended.1).1⟩

/-- It has taken seventeen steps. -/
theorem shutdown_returns_silent : ∃ s, (counted true).Reachable s ∧ s.1.pc = .returned ∧ s.2 = 17 ∧ s.2 ≤ 21 := by
  have start : (counted true).Reachable (.start true, 0) := .init ⟨rfl, rfl⟩
  obtain ⟨s, run, ended⟩ := start.exists_of_run silent (fun s => s.1.pc = .returned && s.2 == 17) (by decide)
  simp only [Bool.and_eq_true, decide_eq_true_eq, beq_iff_eq] at ended
  exact ⟨s, run, ended.1, ended.2, (shutdown_returns true s run).1⟩

end CovNet.Socket.CloseNotify
