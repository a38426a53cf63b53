import Mathlib.Algebra.Group.Nat.Defs
import CovNet.Lib.Owner
import CovNet.Lib.System

/-!
# Driving the event loop

Script threads and executor threads share one `io_context` (`network.cpp`). A script thread polls it
(`async.poll`, `async.poll_once`), restarts it (`async.restart`, `async.work_guard` and the constructor
of `thread_worker`) and constructs and destroys executors; an executor thread drives it until it is
told to stop. `lifecycle_mutex` and the counter `thread_executors` keep these apart: the counter goes up
with the mutex held, before the thread of an executor exists, and goes down without it, as the last act
of that thread.

`eventLoop` interleaves the accesses of any number of script threads `ι` and executors `κ`. The context
may stop at any time, when its work runs out. `2 ^ 64` executors at a time do not exist, so the counter
is a natural number; a `fetch_sub` of 0 would wrap.
-/

namespace CovNet.Async
open Lib

/-- The functions of `global_settings_type` that run handlers. -/
inductive PollCall where
  | poll
  | pollOne
  deriving DecidableEq, Repr

/-- The functions that restart a stopped context with the mutex held. -/
inductive LifecycleCall where
  | restart
  | workGuard
  | threadWorker
  deriving DecidableEq, Repr

/-- Where a script thread has stopped. -/
inductive Pc (κ : Type*) where
  | idle
  /-- before the first load of `thread_executors` -/
  | pollEntry (f : PollCall)
  /-- read 0, before the mutex is taken -/
  | pollLock (f : PollCall)
  /-- before the second load -/
  | pollRecheck (f : PollCall)
  /-- inside `io.poll` or `io.poll_one` -/
  | polling (f : PollCall)
  | lifecycleLock (c : LifecycleCall)
  /-- before the load of `thread_executors` -/
  | lifecycleLoad (c : LifecycleCall)
  /-- read 0, before `io.stopped` -/
  | lifecycleStopped (c : LifecycleCall)
  /-- inside `io.restart` -/
  | restarting (c : LifecycleCall)
  /-- before the work guard of `work_guard` or `thread_worker` is made -/
  | guarding (c : LifecycleCall)
  /-- before `fetch_add` -/
  | counting
  /-- the executor is counted -/
  | counted (k : κ)
  | unlocking
  /-- before `std::thread` is constructed -/
  | spawning (k : κ)
  /-- that has thrown, before `fetch_sub` -/
  | undoing (k : κ)
  /-- in the destructor, before `running` is cleared -/
  | stopping (k : κ)
  | posting (k : κ)
  | joining (k : κ)
  deriving DecidableEq, Repr

/-- Where an executor has stopped. -/
inductive Executor where
  | absent
  /-- counted, its thread not started -/
  | constructing
  /-- before `io.poll_one` -/
  | draining
  /-- inside `io.poll_one` -/
  | pollOne
  /-- before the load of `running` -/
  | checking
  /-- before `io.run_one_for` -/
  | blocking
  /-- inside `io.run_one_for` -/
  | runOneFor
  /-- before `fetch_sub` -/
  | leaving
  | exited
  deriving DecidableEq, Repr

/-- The accesses of a script thread. -/
inductive Instr (κ : Type*) where
  | callPoll (f : PollCall)
  | callLifecycle (c : LifecycleCall)
  | callDestructor (k : κ)
  | loadExecutors
  | lock
  | unlock
  /-- the return from the context, also with an exception -/
  | ioReturn
  | readStopped
  /-- `std::make_shared` of the guard -/
  | makeGuard (ok : Bool)
  | fetchAdd (k : κ)
  /-- `std::thread` -/
  | spawn (ok : Bool)
  | fetchSub
  | storeRunning
  | post
  | join
  deriving DecidableEq, Repr

/-- The accesses of the thread of an executor. -/
inductive WorkerInstr where
  | ioEnter
  /-- the return from the context: whether a handler has run -/
  | ioReturn (ran : Bool)
  | ioThrow
  | loadRunning
  | fetchSub
  deriving DecidableEq, Repr

inductive Action (ι κ : Type*) where
  | script (t : ι) (i : Instr κ)
  | worker (k : κ) (i : WorkerInstr)
  | ioStops
  deriving DecidableEq, Repr

structure EventLoop (ι κ : Type*) where
  lifecycleMutex : Bool
  threadExecutors : Nat
  stopped : Bool
  running : κ → Bool
  executor : κ → Executor
  pc : ι → Pc κ

/-- `thread_executors.fetch_sub(1)`. -/
def fetchSub (n : Nat) : Nat := if n = 0 then 2 ^ 64 - 1 else n - 1

/-- What a lifecycle call does after the restart. -/
def LifecycleCall.guard {κ : Type*} : LifecycleCall → Pc κ
  | .restart => .unlocking
  | c => .guarding c

section Next
variable {ι κ : Type*} [DecidableEq ι] [DecidableEq κ]

namespace EventLoop

def goto (s : EventLoop ι κ) (t : ι) (p : Pc κ) : EventLoop ι κ :=
  { s with pc := Function.update s.pc t p }

def setExecutor (s : EventLoop ι κ) (k : κ) (e : Executor) : EventLoop ι κ :=
  { s with executor := Function.update s.executor k e }

/-- `running.store(b)`. -/
def setRunning (s : EventLoop ι κ) (k : κ) (b : Bool) : EventLoop ι κ :=
  { s with running := Function.update s.running k b }

def setMutex (s : EventLoop ι κ) (b : Bool) : EventLoop ι κ := { s with lifecycleMutex := b }

def setCount (s : EventLoop ι κ) (n : Nat) : EventLoop ι κ := { s with threadExecutors := n }

def setStopped (s : EventLoop ι κ) (b : Bool) : EventLoop ι κ := { s with stopped := b }

end EventLoop

/-- One access of a script thread. -/
def scriptNext (s : EventLoop ι κ) (t : ι) : Pc κ → Instr κ → Option (EventLoop ι κ)
  | .idle, .callPoll f => some (s.goto t (.pollEntry f))
  | .pollEntry f, .loadExecutors =>
    some (s.goto t (if s.threadExecutors ≠ 0 then .idle else .pollLock f))
  | .pollLock f, .lock =>
    if s.lifecycleMutex then none else some ((s.setMutex true).goto t (.pollRecheck f))
  | .pollRecheck f, .loadExecutors =>
    some (s.goto t (if s.threadExecutors = 0 then .polling f else .unlocking))
  | .polling _, .ioReturn => some (s.goto t .unlocking)
  | .unlocking, .unlock => some ((s.setMutex false).goto t .idle)
  | .idle, .callLifecycle c => some (s.goto t (.lifecycleLock c))
  | .lifecycleLock c, .lock =>
    if s.lifecycleMutex then none else some ((s.setMutex true).goto t (.lifecycleLoad c))
  | .lifecycleLoad c, .loadExecutors =>
    some (s.goto t (if s.threadExecutors = 0 then .lifecycleStopped c else c.guard))
  | .lifecycleStopped c, .readStopped =>
    some (s.goto t (if s.stopped then .restarting c else c.guard))
  | .restarting c, .ioReturn => some ((s.setStopped false).goto t c.guard)
  | .guarding _, .makeGuard false => some (s.goto t .unlocking)
  | .guarding c, .makeGuard true =>
    some (s.goto t (if c = .threadWorker then .counting else .unlocking))
  | .counting, .fetchAdd k =>
    if s.executor k = .absent then
      some ((((s.setCount (s.threadExecutors + 1)).setExecutor k .constructing).setRunning k true).goto t
        (.counted k))
    else none
  | .counted k, .unlock => some ((s.setMutex false).goto t (.spawning k))
  | .spawning k, .spawn true => some ((s.setExecutor k .draining).goto t .idle)
  | .spawning k, .spawn false => some (s.goto t (.undoing k))
  | .undoing k, .fetchSub =>
    some (((s.setCount (fetchSub s.threadExecutors)).setExecutor k .absent).goto t .idle)
  | .idle, .callDestructor k =>
    if s.executor k = .absent ∨ s.executor k = .constructing then none
    else some (s.goto t (.stopping k))
  | .stopping k, .storeRunning => some ((s.setRunning k false).goto t (.posting k))
  | .posting k, .post => some (s.goto t (.joining k))
  | .joining k, .join => if s.executor k = .exited then some (s.goto t .idle) else none
  | _, _ => none

/-- One access of the thread of an executor. -/
def workerNext (s : EventLoop ι κ) (k : κ) : Executor → WorkerInstr → Option (EventLoop ι κ)
  | .draining, .ioEnter => some (s.setExecutor k .pollOne)
  | .pollOne, .ioReturn ran => some (s.setExecutor k (if ran then .draining else .checking))
  | .pollOne, .ioThrow => some (s.setExecutor k .leaving)
  | .checking, .loadRunning => some (s.setExecutor k (if s.running k then .blocking else .leaving))
  | .blocking, .ioEnter => some (s.setExecutor k .runOneFor)
  | .runOneFor, .ioReturn _ => some (s.setExecutor k .draining)
  | .runOneFor, .ioThrow => some (s.setExecutor k .leaving)
  | .leaving, .fetchSub =>
    some ((s.setCount (fetchSub s.threadExecutors)).setExecutor k .exited)
  | _, _ => none

/-- Any number of script threads and executors interleave their accesses. -/
def eventLoop (ι κ : Type*) [DecidableEq ι] [DecidableEq κ] : System (EventLoop ι κ) (Action ι κ) where
  init s := s = ⟨false, 0, false, fun _ => true, fun _ => .absent, fun _ => .idle⟩
  next s
    | .script t i => scriptNext s t (s.pc t) i
    | .worker k i => workerNext s k (s.executor k) i
    | .ioStops => some (s.setStopped true)

end Next

end CovNet.Async
