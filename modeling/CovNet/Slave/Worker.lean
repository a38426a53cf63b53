import CovNet.Lib.System

/-!
# The connections of a slave

`slave_worker` (`netutils.ecs`) connects to the master, greets it and reads its messages until a wait fails;
then it drops the socket and connects again. Nothing shuts the old socket down: it is closed when nobody
refers to it any more, and the handler of a read that is still pending does (`network.cpp`).

`slave` is one worker with its connections, the completion handlers and the clock. What the master sends is
left open: an operation that has completed may turn out as any `Received`. A fiber is switched where it
waits, and the head of each loop is taken as one more switch. `abandoned` and `completed` are the history of
a connection: whether the message loop has been left with a read of it pending, and whether that read has
completed since.

So an old connection stays open exactly as long as a read is pending on it with which the message loop has
been left: the deadline of the wait had passed, or no time was left once the read had been started. All
other exits find nothing pending (`old_connections_closed_iff`).
-/

namespace CovNet.Slave
open Lib

/-- The setting of `http_server` the worker reads. -/
structure SlaveConfig where
  slaveKeepAliveTimeout : Nat := 5000

/-- What the worker waits for, on its socket. -/
inductive Operation where
  | connect
  /-- `receive_content` of the handshake, the header or the rest of the frame -/
  | greeting
  | answer
  /-- `receive_content_s`: the header of a frame, from when, and for how long -/
  | frameHeader (start timeout : Nat)
  | frameBody (deadline : Nat)
  | confirm
  | postData (deadline : Nat)
  deriving DecidableEq, Repr

/-- Where `slave_worker` is. -/
inductive WorkerPc where
  | head
  /-- the result is there once the handler has run -/
  | waiting (op : Operation) (result : Option Bool)
  /-- at the head of the message loop -/
  | loop
  | handling
  /-- the message loop is left -/
  | delaying (deadline : Nat)
  | raised
  | ended
  deriving DecidableEq, Repr

/-- A socket of the worker. -/
structure SlaveConn where
  isOpen : Bool := false
  /-- the worker refers to it -/
  held : Bool := false
  /-- the handler of an operation does -/
  pending : Bool := false
  abandoned : Bool := false
  completed : Bool := false
  deriving DecidableEq, Repr

/-- What an operation that has succeeded has brought, or what a handler has returned. -/
inductive Received where
  /-- the header of a frame of an acceptable size -/
  | more
  /-- a greeting or a header that is not accepted -/
  | refused
  /-- a greeting that is accepted, with the rank -/
  | greeting (rank : Nat)
  | healthQuery
  | session (hasBody : Bool)
  /-- text that is no session -/
  | malformed
  /-- the result of `call_http_handler` -/
  | handled (ok : Bool)
  deriving DecidableEq, Repr

inductive WorkerAction where
  | tick
  | stop
  | worker (r : Received)
  /-- the handler of the operation that is pending on a socket -/
  | done (c : Nat) (ok : Bool)
  deriving DecidableEq, Repr

/-- The worker. `sock` counts its connects, and is the number of its last socket. -/
structure SlaveWorker where
  now : Nat := 0
  stopped : Bool := false
  rank : Nat := 0
  lastRequestTime : Nat := 0
  sock : Nat := 0
  conns : Nat → SlaveConn := fun _ => {}
  pc : WorkerPc := .head

namespace SlaveConn

/-- An operation is started. -/
def start (conn : SlaveConn) : SlaveConn := { conn with pending := true }

/-- The variable of the worker is gone: without an operation nobody refers to the socket. -/
def drop (conn : SlaveConn) : SlaveConn :=
  { conn with held := false, isOpen := conn.isOpen && conn.pending }

/-- `safe_shutdown`, with no operation pending. -/
def shutdown (conn : SlaveConn) : SlaveConn := { conn with isOpen := false }

/-- A handler has run, and with it goes its reference. -/
def finish (conn : SlaveConn) : SlaveConn :=
  { conn with
    pending := false
    isOpen := conn.isOpen && conn.held
    completed := conn.abandoned }

/-- The message loop is left with an operation pending. -/
def abandon (conn : SlaveConn) : SlaveConn := { conn with abandoned := true }

end SlaveConn

namespace SlaveWorker

/-- The worker moves, with what it did to its socket. -/
def go (s : SlaveWorker) (conn : SlaveConn) (pc : WorkerPc) : SlaveWorker :=
  { s with conns := Function.update s.conns s.sock conn, pc }

def conn (s : SlaveWorker) : SlaveConn := s.conns s.sock

/-- An operation is started and waited for. -/
def await (s : SlaveWorker) (op : Operation) : SlaveWorker := s.go s.conn.start (.waiting op none)

/-- The loop is left. -/
def leave (s : SlaveWorker) : SlaveWorker := s.go s.conn (.delaying (s.now + 100))

/-- The loop is left, and what was waited for is still pending. -/
def giveUp (s : SlaveWorker) : SlaveWorker := s.go s.conn.abandon (.delaying (s.now + 100))

/-- A wait until a deadline, which has not been over in time. -/
def expire (s : SlaveWorker) (deadline : Nat) : Option SlaveWorker :=
  if deadline ≤ s.now then some s.giveUp else none

/-- A turn of the loop is over, and the time of the last request is taken. -/
def again (s : SlaveWorker) : SlaveWorker := { s.go s.conn .loop with lastRequestTime := s.now }

/-- When the master has been silent for too long. -/
def deadline (cfg : SlaveConfig) (s : SlaveWorker) : Nat := s.lastRequestTime + cfg.slaveKeepAliveTimeout

/-- What the worker does with what it has waited for. -/
def resume (cfg : SlaveConfig) (s : SlaveWorker) : Operation → Received → Option SlaveWorker
  | .connect, _ => some (s.await .greeting)
  | .greeting, .more => some (s.await .greeting)
  | .greeting, .refused => some (s.go s.conn.shutdown.drop .head)
  | .greeting, .greeting rank => some { s.await .answer with rank }
  | .answer, _ => some s.again
  | .frameHeader _ _, .refused => some s.leave
  | .frameHeader start timeout, .more =>
    -- the read of the rest is started before the time is looked at
    let s := s.await (.frameBody (start + timeout))
    if timeout - (s.now - start) = 0 then some s.giveUp else some s
  | .frameBody _, .healthQuery => some (s.await .confirm)
  | .frameBody _, .session hasBody =>
    if hasBody then
      if s.deadline cfg ≤ s.now then some s.leave else some (s.await (.postData (s.deadline cfg)))
    else some (s.go s.conn .handling)
  | .frameBody _, .malformed => some (s.go s.conn.drop .raised)
  | .confirm, _ => some s.again
  | .postData _, _ => some (s.go s.conn .handling)
  | _, _ => none

/-- What it does when that has failed. -/
def fail (s : SlaveWorker) : Operation → SlaveWorker
  | .connect => s.leave
  | .greeting => s.go s.conn.shutdown.drop .head
  | .answer => s.again
  | .confirm => s.again
  | .frameHeader _ _ | .frameBody _ | .postData _ => s.leave

/-- `slave_worker`, from one switch to the next. -/
def workerStep (cfg : SlaveConfig) (s : SlaveWorker) (r : Received) : Option SlaveWorker :=
  match s.pc with
  | .head =>
    if s.stopped then some { s with pc := .ended }
    else
      some { s with
        sock := s.sock + 1
        conns := Function.update s.conns (s.sock + 1) { isOpen := true, held := true, pending := true }
        pc := .waiting .connect none }
  | .waiting op (some true) => s.resume cfg op r
  | .waiting op (some false) => some (s.fail op)
  | .waiting (.frameHeader start timeout) none => s.expire (start + timeout)
  | .waiting (.frameBody deadline) none => s.expire deadline
  | .waiting (.postData deadline) none => s.expire deadline
  | .waiting _ none => none
  | .loop =>
    if s.stopped then some s.leave
    else if s.deadline cfg ≤ s.now then some s.leave
    else some (s.await (.frameHeader s.now (s.deadline cfg - s.now)))
  | .handling =>
    match r with
    | .handled true => some s.again
    | .handled false => some (s.go s.conn .loop)
    | _ => none
  | .delaying deadline => if deadline ≤ s.now then some (s.go s.conn.drop .head) else none
  | .raised => none
  | .ended => none

/-- The handler of the operation that is pending on a socket. -/
def done (s : SlaveWorker) (c : Nat) (ok : Bool) : Option SlaveWorker :=
  if (s.conns c).pending then
    let s' := { s with conns := Function.update s.conns c (s.conns c).finish }
    match s.pc with
    | .waiting op none => if c = s.sock then some { s' with pc := .waiting op (some ok) } else some s'
    | _ => some s'
  else none

def next (cfg : SlaveConfig) (s : SlaveWorker) : WorkerAction → Option SlaveWorker
  | .tick => some { s with now := s.now + 1 }
  | .stop => some { s with stopped := true }
  | .worker r => s.workerStep cfg r
  | .done c ok => s.done c ok

end SlaveWorker

/-- A slave worker in operation. -/
def slave (cfg : SlaveConfig) : System SlaveWorker WorkerAction where
  init s := s = {}
  next := SlaveWorker.next cfg

/-! ## Who refers to a connection -/

/-- A connection the worker has dropped is open while its operation is pending, and that can only be a read
it did not wait for. -/
structure Old (conn : SlaveConn) : Prop where
  held : conn.held = false
  isOpen : conn.isOpen = conn.pending
  pending : conn.pending = (conn.abandoned && !conn.completed)

/-- A connection the worker has, on which it waits, or has given up a read, or nothing is pending. -/
structure Current (conn : SlaveConn) (busy left : Bool) : Prop where
  held : conn.held = true
  isOpen : conn.isOpen = true
  pending : conn.pending = busy
  abandoned : conn.abandoned = left
  completed : conn.completed = (left && !busy)

/-- What the place of the worker says about its socket. -/
def Holds : WorkerPc → SlaveConn → Prop
  | .head, conn | .raised, conn | .ended, conn => Old conn
  | .waiting _ none, conn => Current conn true false
  | .waiting _ (some _), conn | .loop, conn | .handling, conn => Current conn false false
  | .delaying _, conn => ∃ busy left, (busy = true → left = true) ∧ Current conn busy left

/-- What holds of the connections in every state. -/
structure Referred (s : SlaveWorker) : Prop where
  old : ∀ c < s.sock, Old (s.conns c)
  current : Holds s.pc s.conn
  new : ∀ c, s.sock < c → s.conns c = {}

namespace Current
variable {conn : SlaveConn} {busy left : Bool}

lemma start (h : Current conn false false) : Current conn.start true false :=
  ⟨h.held, h.isOpen, rfl, h.abandoned, h.completed⟩

lemma idle (h : Current conn false left) (pending : conn.pending = true) : False :=
  Bool.noConfusion (h.pending.symm.trans pending)

lemma abandon (h : Current conn true false) : Current conn.abandon true true :=
  ⟨h.held, h.isOpen, h.pending, rfl, h.completed⟩

lemma finish (h : Current conn true left) : Current conn.finish false left := by
  refine ⟨h.held, ?_, rfl, h.abandoned, ?_⟩
  · simp [SlaveConn.finish, h.isOpen, h.held]
  · simp [SlaveConn.finish, h.abandoned]

lemma drop (h : Current conn busy left) (only : busy = true → left = true) : Old conn.drop := by
  refine ⟨rfl, by simp [SlaveConn.drop, h.isOpen], ?_⟩
  simp only [SlaveConn.drop, h.pending, h.abandoned, h.completed]
  cases busy with
  | true => simp [only rfl]
  | false => simp

lemma shutdown (h : Current conn false false) : Old conn.shutdown.drop := by
  refine ⟨rfl, ?_, ?_⟩
  · simp [SlaveConn.shutdown, SlaveConn.drop, h.pending]
  · simp [SlaveConn.shutdown, SlaveConn.drop, h.pending, h.abandoned]

end Current

lemma Old.finish {conn : SlaveConn} (h : Old conn) : Old conn.finish :=
  ⟨h.held, by simp [SlaveConn.finish, h.held], by simp [SlaveConn.finish]⟩

section Steps
variable {cfg : SlaveConfig} {s s' : SlaveWorker} {c : Nat} {ok : Bool} {r : Received}
  {op : Operation} {pc : WorkerPc} {conn : SlaveConn}

/-- What a switch of the worker can do: end, connect, or do something with its socket and move on. -/
inductive WorkerMove (s : SlaveWorker) : SlaveWorker → Prop where
  | ended :
    Holds .ended s.conn →
    WorkerMove s { s with pc := .ended }
  | connect :
    s.pc = .head →
    s.stopped = false →
    Old s.conn →
    WorkerMove s
      { s with
        sock := s.sock + 1
        conns := Function.update s.conns (s.sock + 1) { isOpen := true, held := true, pending := true }
        pc := .waiting .connect none }
  | move {conn pc rank lastRequestTime} :
    Holds pc conn →
    WorkerMove s { s.go conn pc with rank, lastRequestTime }

namespace WorkerMove

lemma go (holds : Holds pc conn) : WorkerMove s (s.go conn pc) := .move holds

lemma await (free : Current s.conn false false) : WorkerMove s (s.await op) := .move free.start

/-- The loop is left with nothing pending. -/
lemma leave (free : Current s.conn false false) : WorkerMove s s.leave :=
  .move ⟨false, false, nofun, free⟩

/-- The loop is left, and a read goes on. -/
lemma giveUp (busy : Current s.conn true false) : WorkerMove s s.giveUp :=
  .move ⟨true, true, fun _ => rfl, busy.abandon⟩

lemma again (free : Current s.conn false false) : WorkerMove s s.again := .move free

lemma expire {deadline : Nat} (busy : Current s.conn true false)
    (step : s.expire deadline = some s') : WorkerMove s s' := by
  obtain ⟨-, ⟨⟩⟩ := Option.ite_none_right_eq_some.mp step
  exact giveUp busy

end WorkerMove

/-- The read of the rest of a frame is started, and given up at once. -/
lemma await_giveUp : (s.await op).giveUp = s.go s.conn.start.abandon (.delaying (s.now + 100)) := by
  have conn_eq : (s.await op).conn = s.conn.start := Function.update_self ..
  unfold SlaveWorker.giveUp
  rw [conn_eq]
  simp [SlaveWorker.await, SlaveWorker.go]

lemma fail_move (free : Current s.conn false false) : WorkerMove s (s.fail op) := by
  cases op with
  | connect => exact .leave free
  | greeting => exact .go free.shutdown
  | answer => exact .again free
  | confirm => exact .again free
  | frameHeader => exact .leave free
  | frameBody => exact .leave free
  | postData => exact .leave free

lemma resume_move (free : Current s.conn false false) (step : s.resume cfg op r = some s') :
    WorkerMove s s' := by
  cases op with
  | connect =>
    cases step
    exact .await free
  | greeting =>
    cases r <;> simp only [SlaveWorker.resume, reduceCtorEq] at step
    case more =>
      cases step
      exact .await free
    case refused =>
      cases step
      exact .go free.shutdown
    case greeting rank =>
      cases step
      exact .move free.start
  | answer =>
    cases step
    exact .again free
  | frameHeader start timeout =>
    cases r <;> simp only [SlaveWorker.resume, reduceCtorEq] at step
    case more =>
      split at step
      · cases step
        rw [await_giveUp]
        exact .go ⟨true, true, fun _ => rfl, free.start.abandon⟩
      · cases step
        exact .await free
    case refused =>
      cases step
      exact .leave free
  | frameBody deadline =>
    cases r <;> simp only [SlaveWorker.resume, reduceCtorEq] at step
    case healthQuery =>
      cases step
      exact .await free
    case session hasBody =>
      split at step
      · split at step
        · cases step
          exact .leave free
        · cases step
          exact .await free
      · cases step
        exact .go free
    case malformed =>
      cases step
      exact .go (free.drop nofun)
  | confirm =>
    cases step
    exact .again free
  | postData =>
    cases step
    exact .go free

lemma workerStep_move (current : Holds s.pc s.conn) (step : s.workerStep cfg r = some s') :
    WorkerMove s s' := by
  unfold SlaveWorker.workerStep at step
  split at step <;> rename_i at_pc <;> rw [at_pc] at current
  · split at step
    · cases step
      exact .ended current
    · rename_i run
      cases step
      exact .connect at_pc (Bool.eq_false_iff.mpr run) current
  · exact resume_move current step
  · cases step
    exact fail_move current
  · exact .expire current step
  · exact .expire current step
  · exact .expire current step
  · cases step
  · split at step
    · cases step
      exact .leave current
    · split at step
      · cases step
        exact .leave current
      · cases step
        exact .await current
  · split at step
    · cases step
      exact .again current
    · cases step
      exact .go current
    · cases step
  · obtain ⟨-, ⟨⟩⟩ := Option.ite_none_right_eq_some.mp step
    -- after the delay the worker lets go of its socket, with or without a read on it
    obtain ⟨busy, left, only, dropped⟩ := current
    exact .go (dropped.drop only)
  · cases step
  · cases step

/-- The worker does something with its socket. -/
lemma Referred.go (h : Referred s) (holds : Holds pc conn) : Referred (s.go conn pc) := by
  refine ⟨fun c before => ?_, ?_, fun c after => ?_⟩
  · simp only [SlaveWorker.go] at before ⊢
    rw [Function.update_of_ne (Nat.ne_of_lt before)]
    exact h.old c before
  · simp only [SlaveWorker.go, SlaveWorker.conn, Function.update_self]
    exact holds
  · simp only [SlaveWorker.go] at after ⊢
    rw [Function.update_of_ne (Nat.ne_of_gt after)]
    exact h.new c after

/-- What a switch of the worker keeps. -/
lemma Referred.worker (h : Referred s) (step : s.workerStep cfg r = some s') : Referred s' := by
  cases workerStep_move h.current step with
  | ended holds => exact ⟨h.old, holds, h.new⟩
  | connect _ _ dropped =>
    refine ⟨fun c before => ?_, ?_, fun c after => ?_⟩
    · dsimp only at before ⊢
      rw [Function.update_of_ne (Nat.ne_of_lt before)]
      rcases Nat.lt_succ_iff_lt_or_eq.mp before with earlier | rfl
      · exact h.old c earlier
      · exact dropped
    · simp only [SlaveWorker.conn, Function.update_self]
      exact ⟨rfl, rfl, rfl, rfl, rfl⟩
    · dsimp only at after ⊢
      rw [Function.update_of_ne (Nat.ne_of_gt after)]
      exact h.new c (Nat.lt_of_succ_lt after)
  | move holds =>
    have moved := h.go holds
    exact ⟨moved.old, moved.current, moved.new⟩

/-- The handler of an operation on an old connection. -/
lemma Referred.finish_old (h : Referred s) (before : c < s.sock) :
    Referred { s with conns := Function.update s.conns c (s.conns c).finish } := by
  refine ⟨fun d earlier => ?_, ?_, fun d after => ?_⟩
  · by_cases e : d = c
    · subst e
      simp only [Function.update_self]
      exact (h.old d before).finish
    · simp only [Function.update_of_ne e]
      exact h.old d earlier
  · simp only [SlaveWorker.conn, Function.update_of_ne (Nat.ne_of_gt before)]
    exact h.current
  · simp only [Function.update_of_ne (Nat.ne_of_gt (Nat.lt_trans before after))]
    exact h.new d after

/-- The handler of an operation on the socket the worker has. -/
lemma Referred.finish_current (h : Referred s) (holds : Holds pc s.conn.finish) :
    Referred { s with conns := Function.update s.conns s.sock s.conn.finish, pc } :=
  h.go holds

/-- What the handler of an operation keeps. -/
lemma Referred.done (h : Referred s) (step : s.done c ok = some s') : Referred s' := by
  have current : Holds s.pc s.conn := h.current
  unfold SlaveWorker.done at step
  split at step
  · rename_i pending
    -- the handler is one of an old socket or of the last one
    rcases Nat.lt_trichotomy c s.sock with before | rfl | after
    · have other : c ≠ s.sock := Nat.ne_of_lt before
      split at step
      · rw [if_neg other] at step
        cases step
        exact h.finish_old before
      · cases step
        exact h.finish_old before
    · dsimp only at step
      split at step
      · rename_i op at_pc
        rw [if_pos rfl] at step
        cases step
        rw [at_pc] at current
        exact h.finish_current current.finish
      · rename_i awake
        cases step
        refine h.finish_current (?_ : Holds s.pc s.conn.finish)
        cases at_pc : s.pc with
        | head | raised | ended =>
          rw [at_pc] at current
          exact Old.finish current
        | waiting op result =>
          cases result with
          | none => exact absurd at_pc (awake op)
          | some ok =>
            rw [at_pc] at current
            exact (current.idle pending).elim
        | loop | handling =>
          rw [at_pc] at current
          exact (current.idle pending).elim
        | delaying deadline =>
          rw [at_pc] at current
          obtain ⟨busy, left, -, delayed⟩ := current
          have isBusy : busy = true := delayed.pending.symm.trans pending
          subst isBusy
          exact ⟨false, left, nofun, delayed.finish⟩
    · rw [h.new c after] at pending
      cases pending
  · cases step

/-- What every step keeps. -/
lemma Referred.next {a : WorkerAction} (h : Referred s) (step : s.next cfg a = some s') :
    Referred s' := by
  cases a with
  | tick =>
    cases step
    exact ⟨h.old, h.current, h.new⟩
  | stop =>
    cases step
    exact ⟨h.old, h.current, h.new⟩
  | worker r => exact h.worker step
  | done c ok => exact h.done step

end Steps

/-! ## Old connections -/

/-- The worker refers to none but its last socket, and a read that is pending on another is one with which the
message loop has been left. -/
theorem referred {cfg : SlaveConfig} {s : SlaveWorker} (r : (slave cfg).Reachable s) : Referred s := by
  refine r.invariant ?_ fun _ _ _ h step => h.next step
  rintro _ rfl
  exact ⟨fun c before => absurd before (Nat.not_lt_zero c), ⟨rfl, rfl, rfl⟩, fun _ _ => rfl⟩

/-- No read with which the message loop has been left is still to complete. -/
def SlaveConn.settled (conn : SlaveConn) : Bool := !conn.abandoned || conn.completed

lemma Old.closed_iff {conn : SlaveConn} (h : Old conn) : conn.isOpen = false ↔ conn.settled = true := by
  rw [h.isOpen, h.pending, SlaveConn.settled]
  cases conn.abandoned <;> cases conn.completed <;> simp

namespace SlaveWorker

/-- No socket is open but the one of the last connect. -/
def Single (s : SlaveWorker) : Prop := ∀ c, c ≠ s.sock → (s.conns c).isOpen = false

/-- If the worker connects, every read with which it has left its message loop has completed. -/
def prompt (s : SlaveWorker) : WorkerAction → Bool
  | .worker _ => s.pc != .head || s.stopped || (List.range (s.sock + 1)).all fun c => (s.conns c).settled
  | _ => true

end SlaveWorker

section Single
variable {cfg : SlaveConfig} {s s' : SlaveWorker} {r : Received} {a : WorkerAction}

/-- An old socket is closed unless a read the worker has given up is pending on it. -/
theorem single_iff (h : Referred s) : s.Single ↔ ∀ c < s.sock, (s.conns c).settled = true := by
  constructor
  · intro single c before
    exact (h.old c before).closed_iff.mp (single c (Nat.ne_of_lt before))
  · intro settled c ne
    rcases Nat.lt_or_gt_of_ne ne with before | after
    · exact (h.old c before).closed_iff.mpr (settled c before)
    · rw [h.new c after]

/-- A connect leaves an old socket open exactly when there is such a read. -/
lemma connect_single (h : Referred s) (single : s.Single) (head : s.pc = .head)
    (step : s.workerStep cfg r = some s') : s'.Single ↔ s.prompt (.worker r) = true := by
  have kept := h.worker step
  simp only [SlaveWorker.workerStep, head] at step
  split at step
  · rename_i stopped
    cases step
    simp only [SlaveWorker.prompt, stopped, Bool.or_true, Bool.true_or, iff_true]
    exact single
  · rename_i run
    cases step
    rw [single_iff kept]
    simp only [SlaveWorker.prompt, head, run, bne_self_eq_false, Bool.false_or, List.all_eq_true,
      List.mem_range]
    refine forall₂_congr fun c before => ?_
    rw [Function.update_of_ne (Nat.ne_of_lt before)]

/-- Wherever else the worker is, it touches its last socket only. -/
lemma worker_single (h : Referred s) (single : s.Single) (elsewhere : s.pc ≠ .head)
    (step : s.workerStep cfg r = some s') : s'.Single := by
  cases workerStep_move h.current step with
  | ended => exact single
  | connect head => exact absurd head elsewhere
  | @move conn pc rank time =>
    intro c ne
    have same : ({ s.go conn pc with rank := rank, lastRequestTime := time }).conns c = s.conns c :=
      Function.update_of_ne ne ..
    rw [same]
    exact single c ne

/-- A handler opens nothing. -/
lemma done_single {c : Nat} {ok : Bool} (single : s.Single) (step : s.done c ok = some s') :
    s'.Single := by
  have closes (pc : WorkerPc) :
      SlaveWorker.Single { s with conns := Function.update s.conns c (s.conns c).finish, pc } := by
    intro d ne
    by_cases e : d = c
    · subst e
      simp [SlaveConn.finish, single d ne]
    · simp only [Function.update_of_ne e]
      exact single d ne
  unfold SlaveWorker.done at step
  split at step
  · split at step
    · split at step
      · cases step
        exact closes _
      · cases step
        exact closes s.pc
    · cases step
      exact closes s.pc
  · cases step

lemma next_single (h : Referred s) (single : s.Single) (step : s.next cfg a = some s') :
    s'.Single ↔ s.prompt a = true := by
  cases a with
  | tick =>
    cases step
    exact iff_of_true single rfl
  | stop =>
    cases step
    exact iff_of_true single rfl
  | worker r =>
    by_cases head : s.pc = .head
    · exact connect_single h single head step
    · exact iff_of_true (worker_single h single head step) (by simp [SlaveWorker.prompt, head])
  | done c ok => exact iff_of_true (done_single single step) rfl

end Single

/-- As long as every read the worker has given up completes before the next connect, no old socket is open,
and the first connect before which one has not completed leaves one open. -/
theorem old_connections_closed_iff (cfg : SlaveConfig) (s : SlaveWorker)
    (r : ((slave cfg).restrict fun s a => s.prompt a = true).Reachable s) :
    (∀ c, c ≠ s.sock → (s.conns c).isOpen = false) ∧
      ∀ a s', (slave cfg).next s a = some s' →
        ((∀ c, c ≠ s'.sock → (s'.conns c).isOpen = false) ↔ s.prompt a = true) := by
  have single : s.Single := by
    have both : (slave cfg).Reachable s ∧ s.Single := by
      induction r with
      | init h =>
        cases h
        exact ⟨.init rfl, fun _ _ => rfl⟩
      | step _ step ih =>
        obtain ⟨prompt, step⟩ := System.restrict_next.mp step
        exact ⟨.step ih.1 step, (next_single (referred ih.1) ih.2 step).mpr prompt⟩
    exact both.2
  exact ⟨single, fun _ _ step => next_single (referred r.of_restrict) single step⟩

/-- The worker has been greeted, and waits for the header of a frame. -/
def greeted : List WorkerAction :=
  [.worker .more, .done 1 true, .worker .more, .done 1 true, .worker (.greeting 0), .done 1 true,
    .worker .more, .worker .more]

/-- After the delay it connects again. -/
def reconnect : List WorkerAction :=
  List.replicate 100 .tick ++ [.worker .more, .worker .more]

/-- The master closes the connection, and the worker makes another. -/
theorem old_connections_closed_iff_reconnect :
    ∃ s : SlaveWorker, (s.conns 2).isOpen = true ∧ ∀ c, c ≠ s.sock → (s.conns c).isOpen = false := by
  obtain ⟨s, run, h⟩ := System.Reachable.exists_of_run
    (S := (slave {}).restrict fun s a => s.prompt a = true) (.init rfl)
    (greeted ++ [.done 1 false, .worker .more] ++ reconnect) (fun s => (s.conns 2).isOpen)
    (by decide +kernel)
  exact ⟨s, h, (old_connections_closed_iff {} s run).1⟩

/-- The master says nothing until the time is over: the read of the header is still pending when the worker
connects again. -/
theorem old_connection_left_open :
    ¬ ∀ (cfg : SlaveConfig) (s : SlaveWorker), (slave cfg).Reachable s →
      ∀ c, c ≠ s.sock → (s.conns c).isOpen = false := by
  intro claim
  obtain ⟨s, run, h⟩ := System.Reachable.exists_of_run
    (S := slave { slaveKeepAliveTimeout := 1 }) (.init rfl)
    (greeted ++ [.tick, .worker .more] ++ reconnect)
    (fun s => decide (s.sock = 2) && (s.conns 1).isOpen) (by decide +kernel)
  obtain ⟨last, isOpen⟩ := Bool.and_eq_true_iff.mp h
  have other : 1 ≠ s.sock := by
    rw [of_decide_eq_true last]
    decide
  rw [claim _ s run 1 other] at isOpen
  cases isOpen

end CovNet.Slave
