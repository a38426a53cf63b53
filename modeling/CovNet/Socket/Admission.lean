import Mathlib.Algebra.Group.Nat.Defs
import CovNet.Lib.System

/-!
# Socket admission

The admission functions of `tcp::socket` and `udp::socket` (`include/network.hpp`): four atomics
decide whether an I/O job, an exclusive operation or a draining section may start.

The functions appear twice. `beginIoJob`, `beginExclusiveOperation` and their siblings run one call
to its end, as a fiber that is not preempted sees them, with the texts of the errors they throw.
`Thread.next` runs them one atomic access at a time: a `Pc` is the place a thread has stopped at, an
`Instr` the access it makes next, and `admission` is the system in which any number of threads
interleave these accesses. `async_jobs` is a `std::size_t`: it wraps at `2 ^ 64`, so an unmatched
`fetch_sub` would show as a huge count.
-/

namespace CovNet.Socket
open CovNet.Lib

/-- The direction of an I/O job (`io_direction`). -/
inductive IoDirection where
  | read
  | write
  deriving DecidableEq, Repr

/-- The two socket classes. -/
inductive Kind where
  | tcp
  | udp
  deriving DecidableEq, Repr

/-- The atomics of a socket. -/
structure Atomics where
  exclusiveOperation : Bool := false
  readOperation : Bool := false
  writeOperation : Bool := false
  asyncJobs : Nat := 0
  deriving DecidableEq, Repr

namespace Atomics

/-- The flag of a direction (`operation` in the source). -/
def operation (a : Atomics) : IoDirection → Bool
  | .read => a.readOperation
  | .write => a.writeOperation

/-- `operation.store(b)`. -/
def setOperation (a : Atomics) (b : Bool) : IoDirection → Atomics
  | .read => { a with readOperation := b }
  | .write => { a with writeOperation := b }

/-- `exclusive_operation.store(b)`. -/
def setExclusive (a : Atomics) (b : Bool) : Atomics := { a with exclusiveOperation := b }

/-- `async_jobs.fetch_add(1)`. -/
def addJob (a : Atomics) : Atomics := { a with asyncJobs := (a.asyncJobs + 1) % 2 ^ 64 }

/-- `async_jobs.fetch_sub(1)`. -/
def subJob (a : Atomics) : Atomics :=
  { a with asyncJobs := if a.asyncJobs = 0 then 2 ^ 64 - 1 else a.asyncJobs - 1 }

end Atomics

/-! ## Calls that run to their end -/

/-- `try_begin_io_job()`: the double-checked increment. -/
def tryBeginJob (a : Atomics) : Bool × Atomics :=
  if a.exclusiveOperation then (false, a)
  else
    let b := a.addJob
    if b.exclusiveOperation then (false, b.subJob) else (true, b)

/-- `try_begin_io_job(direction)`. -/
def tryBeginIoJob (d : IoDirection) (a : Atomics) : Bool × Atomics :=
  if a.operation d then (false, a)
  else
    match tryBeginJob (a.setOperation true d) with
    | (true, b) => (true, b)
    | (false, b) => (false, b.setOperation false d)

/-- The text of the error for a second job in the same direction. -/
def pendingError : Kind → IoDirection → String
  | .tcp, .read => "Another read operation is already pending on this socket."
  | .tcp, .write => "Another write operation is already pending on this socket."
  | .udp, .read => "Another receive operation is already pending on this UDP socket."
  | .udp, .write => "Another send operation is already pending on this UDP socket."

/-- The text of the error for a job that meets an exclusive operation. -/
def exclusiveError : Kind → String
  | .tcp => "Cannot start I/O while an exclusive socket operation is pending."
  | .udp => "Cannot start UDP I/O while close is pending."

/-- `begin_io_job(direction)`. -/
def beginIoJob (k : Kind) (d : IoDirection) (a : Atomics) : Except String Atomics :=
  if a.operation d then .error (pendingError k d)
  else
    match tryBeginJob (a.setOperation true d) with
    | (true, b) => .ok b
    | (false, _) => .error (exclusiveError k)

/-- `finish_io_job(direction)`. -/
def finishIoJob (d : IoDirection) (a : Atomics) : Atomics := a.subJob.setOperation false d

/-- The shared body of `begin_exclusive_operation` and `begin_exclusive_close`. -/
def beginExclusive (busy activeIoError : String) (a : Atomics) : Except String Atomics :=
  if a.exclusiveOperation then .error busy
  else if a.asyncJobs = 0 then .ok { a with exclusiveOperation := true, asyncJobs := 1 }
  else .error activeIoError

/-- `tcp::socket::begin_exclusive_operation(active_io_error)`. -/
def beginExclusiveOperation (activeIoError : String) : Atomics → Except String Atomics :=
  beginExclusive "Another exclusive socket operation is already pending." activeIoError

/-- `udp::socket::begin_exclusive_close()`. -/
def beginExclusiveClose : Atomics → Except String Atomics :=
  beginExclusive "Another UDP close operation is already pending."
    "close() called with async operations still in flight. Use safe_close() instead."

/-- `end_exclusive_operation()` and `end_exclusive_close()`. -/
def endExclusive (a : Atomics) : Atomics := a.subJob.setExclusive false

/-- `tcp::socket::begin_draining_exclusive()`. -/
def beginDrainingExclusive (a : Atomics) : Except String Atomics :=
  if a.exclusiveOperation then .error "Another exclusive socket operation is already pending."
  else .ok (a.setExclusive true)

/-- `tcp::socket::end_draining_exclusive()`. -/
def endDrainingExclusive (a : Atomics) : Atomics := a.setExclusive false

/-! ## Calls cut at every atomic access -/

/-- Where a thread has stopped. -/
inductive Pc where
  /-- outside the admission functions -/
  | idle
  /-- owns the direction's flag, before the first load of `exclusive_operation` -/
  | ioLoad (d : IoDirection)
  /-- saw no exclusive operation, before `fetch_add` -/
  | ioAdd (d : IoDirection)
  /-- counted, before the second load of `exclusive_operation` -/
  | ioRecheck (d : IoDirection)
  /-- counted but refused, before the undoing `fetch_sub` -/
  | ioUndo (d : IoDirection)
  /-- refused, before the direction's flag is cleared -/
  | ioRefused (d : IoDirection)
  /-- the job is admitted and runs -/
  | ioAdmitted (d : IoDirection)
  /-- the job is over and no longer counted, before the direction's flag is cleared -/
  | ioFinish (d : IoDirection)
  /-- owns `exclusive_operation`, before the exchange on `async_jobs` -/
  | exReserve
  /-- the exchange failed, before `exclusive_operation` is cleared -/
  | exRefused
  /-- the exclusive section is held -/
  | exHeld
  /-- the section is over and no longer counted, before `exclusive_operation` is cleared -/
  | exFinish
  /-- a draining section that has not yet read `async_jobs` as 0 -/
  | draining
  /-- a draining section that has read `async_jobs` as 0 -/
  | drained
  deriving DecidableEq, Repr

/-- The atomic accesses, under the function that makes them. -/
inductive Instr where
  /-- `compare_exchange_strong(operation, false, true)` of `begin_io_job` / `try_begin_io_job` -/
  | beginIo (d : IoDirection)
  /-- the first `exclusive_operation.load()` of `try_begin_io_job` -/
  | loadExclusive
  /-- `async_jobs.fetch_add(1)` of `try_begin_io_job` -/
  | addJob
  /-- the second `exclusive_operation.load()` of `try_begin_io_job` -/
  | reloadExclusive
  /-- `async_jobs.fetch_sub(1)` of the refused `try_begin_io_job` -/
  | undoJob
  /-- `operation.store(false)` of a refused `begin_io_job` / `try_begin_io_job` -/
  | dropOperation
  /-- `async_jobs.fetch_sub(1)` of `finish_io_job` -/
  | finishJob
  /-- `operation.store(false)` of `finish_io_job` -/
  | clearOperation
  /-- `compare_exchange_strong(exclusive_operation, false, true)` of `begin_exclusive_operation` -/
  | beginExclusive
  /-- `compare_exchange_strong(async_jobs, 0, 1)` of `begin_exclusive_operation` -/
  | reserveJobs
  /-- `exclusive_operation.store(false)` of a refused `begin_exclusive_operation` -/
  | dropExclusive
  /-- `async_jobs.fetch_sub(1)` of `end_exclusive_operation` -/
  | releaseJobs
  /-- `exclusive_operation.store(false)` of `end_exclusive_operation` -/
  | clearExclusive
  /-- `compare_exchange_strong(exclusive_operation, false, true)` of `begin_draining_exclusive` -/
  | beginDraining
  /-- `async_jobs.load()` of the drain loop -/
  | pollJobs
  /-- `exclusive_operation.store(false)` of `end_draining_exclusive` -/
  | endDraining
  deriving DecidableEq, Repr

/-- One access of one thread. A failed exchange of the flag leaves the thread outside, with an
exception or `false`; a UDP socket has no draining section. -/
def Thread.next (k : Kind) (a : Atomics) : Pc → Instr → Option (Atomics × Pc)
  | .idle, .beginIo d =>
    if a.operation d then some (a, .idle) else some (a.setOperation true d, .ioLoad d)
  | .ioLoad d, .loadExclusive =>
    if a.exclusiveOperation then some (a, .ioRefused d) else some (a, .ioAdd d)
  | .ioAdd d, .addJob => some (a.addJob, .ioRecheck d)
  | .ioRecheck d, .reloadExclusive =>
    if a.exclusiveOperation then some (a, .ioUndo d) else some (a, .ioAdmitted d)
  | .ioUndo d, .undoJob => some (a.subJob, .ioRefused d)
  | .ioRefused d, .dropOperation => some (a.setOperation false d, .idle)
  | .ioAdmitted d, .finishJob => some (a.subJob, .ioFinish d)
  | .ioFinish d, .clearOperation => some (a.setOperation false d, .idle)
  | .idle, .beginExclusive =>
    if a.exclusiveOperation then some (a, .idle) else some (a.setExclusive true, .exReserve)
  | .exReserve, .reserveJobs =>
    if a.asyncJobs = 0 then some ({ a with asyncJobs := 1 }, .exHeld) else some (a, .exRefused)
  | .exRefused, .dropExclusive => some (a.setExclusive false, .idle)
  | .exHeld, .releaseJobs => some (a.subJob, .exFinish)
  | .exFinish, .clearExclusive => some (a.setExclusive false, .idle)
  | .idle, .beginDraining =>
    if k = .udp then none
    else if a.exclusiveOperation then some (a, .idle) else some (a.setExclusive true, .draining)
  | .draining, .pollJobs => if a.asyncJobs = 0 then some (a, .drained) else some (a, .draining)
  | .draining, .endDraining => some (a.setExclusive false, .idle)
  | .drained, .endDraining => some (a.setExclusive false, .idle)
  | _, _ => none

/-- A socket with the threads that use it. -/
structure World (ι : Type*) where
  atomics : Atomics
  pc : ι → Pc

/-- Any number of threads interleave their accesses. -/
def admission (k : Kind) (ι : Type*) [DecidableEq ι] : System (World ι) (ι × Instr) where
  init s := s = ⟨{}, fun _ => .idle⟩
  next s := fun (t, i) =>
    (Thread.next k s.atomics (s.pc t) i).map fun (a, p) => ⟨a, Function.update s.pc t p⟩

section System
variable {ι : Type*} [DecidableEq ι] {k : Kind}

lemma admission_next {s s' : World ι} {t : ι} {i : Instr} :
    (admission k ι).next s (t, i) = some s' ↔
      ∃ a p, Thread.next k s.atomics (s.pc t) i = some (a, p) ∧
        s' = ⟨a, Function.update s.pc t p⟩ := by
  simp only [admission, Option.map_eq_some_iff, Prod.exists]
  exact exists_congr fun a => exists_congr fun p => and_congr_right fun _ => eq_comm

end System

/-! ## The calls are uninterrupted runs -/

/-- One thread runs alone. -/
def Thread.run (k : Kind) : Atomics → Pc → List Instr → Option (Atomics × Pc)
  | a, p, [] => some (a, p)
  | a, p, i :: is => (Thread.next k a p i).bind fun (a', p') => Thread.run k a' p' is

section Solo
variable {k : Kind} {d : IoDirection} {a b : Atomics} {e : String}

@[simp] lemma Atomics.exclusive_setOperation (c : Bool) :
    (a.setOperation c d).exclusiveOperation = a.exclusiveOperation := by
  cases d <;> rfl

lemma Atomics.setOperation_of_eq {c : Bool} (h : a.operation d = c) :
    (a.setOperation true d).setOperation c d = a := by
  cases d <;> cases a <;> cases h <;> rfl

/-- An accepted `begin_io_job` is the run that ends admitted. -/
lemma beginIoJob_ok (h : beginIoJob k d a = .ok b) :
    Thread.run k a .idle [.beginIo d, .loadExclusive, .addJob, .reloadExclusive] =
      some (b, .ioAdmitted d) := by
  simp only [beginIoJob, tryBeginJob, Atomics.exclusive_setOperation] at h
  split at h
  · cases h
  · rename_i free
    cases ex : a.exclusiveOperation <;>
      simp only [ex, Atomics.addJob, Bool.false_eq_true, if_true, if_false,
        Atomics.exclusive_setOperation, reduceCtorEq, Except.ok.injEq] at h
    subst h
    simp [Thread.run, Thread.next, free, ex, Atomics.addJob]

/-- A refused `begin_io_job` is a run that ends outside and leaves the atomics as they were. -/
lemma beginIoJob_error (h : beginIoJob k d a = .error e) :
    Thread.run k a .idle [.beginIo d] = some (a, .idle) ∧ e = pendingError k d ∨
    Thread.run k a .idle [.beginIo d, .loadExclusive, .dropOperation] = some (a, .idle) ∧
      e = exclusiveError k := by
  simp only [beginIoJob, tryBeginJob, Atomics.exclusive_setOperation] at h
  split at h
  · rename_i set
    cases h
    exact .inl ⟨by simp [Thread.run, Thread.next, set], rfl⟩
  · rename_i free
    cases ex : a.exclusiveOperation <;>
      simp only [ex, Atomics.addJob, Bool.false_eq_true, if_true, if_false,
        Atomics.exclusive_setOperation, reduceCtorEq, Except.error.injEq] at h
    subst h
    refine .inr ⟨?_, rfl⟩
    have back := Atomics.setOperation_of_eq (Bool.eq_false_iff.mpr free)
    simp [Thread.run, Thread.next, free, ex, back]

/-- `finish_io_job` is the run of an admitted job to the outside. -/
lemma finishIoJob_run :
    Thread.run k a (.ioAdmitted d) [.finishJob, .clearOperation] =
      some (finishIoJob d a, .idle) := rfl

/-- An accepted `begin_exclusive_operation` is the run that ends with the section held. -/
lemma beginExclusive_ok {busy active : String} (h : beginExclusive busy active a = .ok b) :
    Thread.run k a .idle [.beginExclusive, .reserveJobs] = some (b, .exHeld) := by
  simp only [beginExclusive] at h
  split at h
  · cases h
  · rename_i free
    split at h
    · rename_i zero
      cases h
      simp [Thread.run, Thread.next, free, zero, Atomics.setExclusive]
    · cases h

/-- An accepted `begin_draining_exclusive` is the run that ends draining. -/
lemma beginDrainingExclusive_ok (h : beginDrainingExclusive a = .ok b) :
    Thread.run .tcp a .idle [.beginDraining] = some (b, .draining) := by
  simp only [beginDrainingExclusive] at h
  split at h
  · cases h
  · rename_i free
    cases h
    simp [Thread.run, Thread.next, free]

end Solo

end CovNet.Socket
