import CovNet.Async.Executors

/-!
# The event loop is driven exclusively

A script thread enters the context, or restarts it, with `lifecycle_mutex` held and after it has read
`thread_executors` as 0 with the mutex held. An executor thread inside the context has a share in the
counter, and the counter goes up only with the mutex held; so neither meets the other
(`driving_exclusive`).

What an access can do is said once, by `ScriptMove` and `WorkerMove`. The invariant `Inv` follows from
the rules for unique owners, which hold of the mutex and of the executors under construction, and from
those for counted holders, which hold of `thread_executors`.
-/

namespace CovNet.Async
open Lib

/-- The places at which a script thread holds the mutex. -/
def Pc.Locked {κ : Type*} (p : Pc κ) : Prop :=
  match p with
  | pollRecheck _ | polling _ | lifecycleLoad _ | lifecycleStopped _ | restarting _ | guarding _
  | counting | counted _ | unlocking => True
  | _ => False

/-- The places at which it constructs an executor that is counted. -/
def Pc.Builds {κ : Type*} (k : κ) (p : Pc κ) : Prop :=
  p = counted k ∨ p = spawning k ∨ p = undoing k

/-- The places at which it relies on having read 0. -/
def Pc.SawZero {κ : Type*} (p : Pc κ) : Prop :=
  match p with
  | polling _ | lifecycleStopped _ | restarting _ => True
  | _ => False

/-- The thread of the executor has started, and not yet come to its last act. -/
def Executor.Live (e : Executor) : Prop := e ≠ absent ∧ e ≠ constructing ∧ e ≠ exited

/-- The executor has a share in the counter. -/
def Executor.Counts (e : Executor) : Prop := e = constructing ∨ e.Live

/-- Its thread is inside the context. -/
def Executor.Inside (e : Executor) : Prop := e = pollOne ∨ e = runOneFor

lemma Pc.SawZero.locked {κ : Type*} {p : Pc κ} (h : p.SawZero) : p.Locked := by
  cases p <;> trivial

lemma Executor.Inside.live {e : Executor} (h : e.Inside) : e.Live := by
  rcases h with rfl | rfl <;> simp [Live]

section Moves
variable {ι κ : Type*} [DecidableEq ι] [DecidableEq κ]

/-- What an access of a script thread can do, with the guard it has passed. -/
inductive ScriptMove (s : EventLoop ι κ) (t : ι) : EventLoop ι κ → Prop
  /-- neither the mutex nor the counter changes -/
  | walk {stopped : Bool} {running : κ → Bool} {p : Pc κ} (locked : p.Locked ↔ (s.pc t).Locked)
      (builds : ∀ k, p.Builds k ↔ (s.pc t).Builds k)
      (zero : p.SawZero → (s.pc t).SawZero ∨ s.threadExecutors = 0) :
      ScriptMove s t (EventLoop.goto { s with stopped := stopped, running := running } t p)
  | lock {p : Pc κ} (free : s.lifecycleMutex = false) (locked : p.Locked)
      (builds : ∀ k, p.Builds k ↔ (s.pc t).Builds k) (zero : ¬ p.SawZero) :
      ScriptMove s t ((s.setMutex true).goto t p)
  | unlock {p : Pc κ} (held : (s.pc t).Locked) (locked : ¬ p.Locked)
      (builds : ∀ k, p.Builds k ↔ (s.pc t).Builds k) (zero : ¬ p.SawZero) :
      ScriptMove s t ((s.setMutex false).goto t p)
  | fetchAdd {k : κ} (here : s.pc t = .counting) (absent : s.executor k = .absent) :
      ScriptMove s t ((((s.setCount (s.threadExecutors + 1)).setExecutor k .constructing).setRunning k
        true).goto t (.counted k))
  | spawn {k : κ} (here : s.pc t = .spawning k) :
      ScriptMove s t ((s.setExecutor k .draining).goto t .idle)
  | fetchSub {k : κ} (here : s.pc t = .undoing k) :
      ScriptMove s t (((s.setCount (fetchSub s.threadExecutors)).setExecutor k .absent).goto t .idle)

/-- What an access of the thread of an executor can do. -/
inductive WorkerMove (s : EventLoop ι κ) (k : κ) : EventLoop ι κ → Prop
  | walk {e : Executor} (live : (s.executor k).Live) (still : e.Live) :
      WorkerMove s k (s.setExecutor k e)
  | fetchSub (here : s.executor k = .leaving) :
      WorkerMove s k ((s.setCount (fetchSub s.threadExecutors)).setExecutor k .exited)

variable {s s' : EventLoop ι κ} {t : ι} {k : κ}

lemma ScriptMove.step {p : Pc κ} (locked : p.Locked ↔ (s.pc t).Locked)
    (builds : ∀ k, p.Builds k ↔ (s.pc t).Builds k)
    (zero : p.SawZero → (s.pc t).SawZero ∨ s.threadExecutors = 0) : ScriptMove s t (s.goto t p) :=
  .walk locked builds zero

omit [DecidableEq κ] in
lemma LifecycleCall.guard_spec (c : LifecycleCall) : (c.guard : Pc κ).Locked ∧
    (∀ k, ¬ (c.guard : Pc κ).Builds k) ∧ ¬ (c.guard : Pc κ).SawZero := by
  cases c <;> simp [LifecycleCall.guard, Pc.Locked, Pc.Builds, Pc.SawZero]

/-- Every access of the source is one of the listed moves. -/
lemma scriptNext_move {i : Instr κ} (h : scriptNext s t (s.pc t) i = some s') : ScriptMove s t s' := by
  generalize here : s.pc t = p at h
  unfold scriptNext at h
  split at h
  case h_1 =>
    cases h
    apply ScriptMove.step <;> simp [here, Pc.Locked, Pc.Builds, Pc.SawZero]
  case h_2 =>
    cases h
    split <;> apply ScriptMove.step <;> simp [here, Pc.Locked, Pc.Builds, Pc.SawZero]
  case h_3 =>
    split at h
    · cases h
    · rename_i free
      cases h
      apply ScriptMove.lock (Bool.eq_false_iff.mpr free) <;>
        simp [here, Pc.Locked, Pc.Builds, Pc.SawZero]
  case h_4 =>
    cases h
    split <;> apply ScriptMove.step <;> simp [Pc.Locked, Pc.Builds, Pc.SawZero, *]
  case h_5 =>
    cases h
    apply ScriptMove.step <;> simp [here, Pc.Locked, Pc.Builds, Pc.SawZero]
  case h_6 =>
    cases h
    apply ScriptMove.unlock <;> simp [here, Pc.Locked, Pc.Builds, Pc.SawZero]
  case h_7 =>
    cases h
    apply ScriptMove.step <;> simp [here, Pc.Locked, Pc.Builds, Pc.SawZero]
  case h_8 =>
    split at h
    · cases h
    · rename_i free
      cases h
      apply ScriptMove.lock (Bool.eq_false_iff.mpr free) <;>
        simp [here, Pc.Locked, Pc.Builds, Pc.SawZero]
  case h_9 c =>
    cases h
    obtain ⟨locked, builds, zero⟩ := c.guard_spec (κ := κ)
    split <;> apply ScriptMove.step <;> simp_all [Pc.Locked, Pc.Builds, Pc.SawZero]
  case h_10 c =>
    cases h
    obtain ⟨locked, builds, zero⟩ := c.guard_spec (κ := κ)
    split <;> apply ScriptMove.step <;> simp_all [Pc.Locked, Pc.Builds, Pc.SawZero]
  case h_11 c =>
    cases h
    obtain ⟨locked, builds, zero⟩ := c.guard_spec (κ := κ)
    refine ScriptMove.walk ?_ ?_ ?_ <;> simp_all [Pc.Locked, Pc.Builds, Pc.SawZero]
  case h_12 =>
    cases h
    apply ScriptMove.step <;> simp [here, Pc.Locked, Pc.Builds, Pc.SawZero]
  case h_13 =>
    cases h
    split <;> apply ScriptMove.step <;> simp [here, Pc.Locked, Pc.Builds, Pc.SawZero]
  case h_14 =>
    split at h
    · rename_i absent
      cases h
      exact .fetchAdd here absent
    · cases h
  case h_15 =>
    cases h
    apply ScriptMove.unlock <;> simp [here, Pc.Locked, Pc.Builds, Pc.SawZero]
  case h_16 =>
    cases h
    exact .spawn here
  case h_17 =>
    cases h
    apply ScriptMove.step <;> simp [here, Pc.Locked, Pc.Builds, Pc.SawZero]
  case h_18 =>
    cases h
    exact .fetchSub here
  case h_19 =>
    split at h
    · cases h
    · cases h
      apply ScriptMove.step <;> simp [here, Pc.Locked, Pc.Builds, Pc.SawZero]
  case h_20 =>
    cases h
    refine ScriptMove.walk ?_ ?_ ?_ <;> simp [here, Pc.Locked, Pc.Builds, Pc.SawZero]
  case h_21 =>
    cases h
    apply ScriptMove.step <;> simp [here, Pc.Locked, Pc.Builds, Pc.SawZero]
  case h_22 =>
    split at h
    · cases h
      apply ScriptMove.step <;> simp [here, Pc.Locked, Pc.Builds, Pc.SawZero]
    · cases h
  case h_23 => cases h

omit [DecidableEq ι] in
lemma workerNext_move {i : WorkerInstr} (h : workerNext s k (s.executor k) i = some s') :
    WorkerMove s k s' := by
  generalize here : s.executor k = e at h
  unfold workerNext at h
  split at h
  case h_8 =>
    cases h
    exact .fetchSub here
  case h_9 => cases h
  all_goals
    cases h
    refine .walk ?_ ?_
    · rw [here]
      simp [Executor.Live]
    · first | (split <;> simp [Executor.Live]) | simp [Executor.Live]

/-! ## The invariant -/

/-- What holds whenever no access is under way. -/
structure Inv (s : EventLoop ι κ) : Prop where
  mutex : Owned Pc.Locked s.lifecycleMutex s.pc
  built : ∀ k, Owned (Pc.Builds k) (decide (s.executor k = .constructing)) s.pc
  count : Counted Executor.Counts s.threadExecutors s.executor
  quiet : ∀ t, (s.pc t).SawZero → s.threadExecutors = 0

lemma fetchSub_of_pos {n : Nat} (pos : 0 < n) : fetchSub n = n - 1 := if_neg pos.ne'

omit [DecidableEq κ] in
/-- While a thread that has read 0 relies on it nothing is counted. -/
lemma quiet_goto {p : Pc κ} {n : Nat} (quiet : ∀ u, u ≠ t → (s.pc u).SawZero → n = 0)
    (here : p.SawZero → n = 0) (u : ι) (h : (Function.update s.pc t p u).SawZero) : n = 0 := by
  by_cases e : u = t
  · subst e
    rw [Function.update_self] at h
    exact here h
  · rw [Function.update_of_ne e] at h
    exact quiet u e h

/-- A move about one executor leaves the construction of the others as it is. -/
lemma Inv.built_move (inv : Inv s) {e : Executor} {p : Pc κ}
    (others : ∀ k', k' ≠ k → (p.Builds k' ↔ (s.pc t).Builds k'))
    (this : Owned (Pc.Builds k) (decide (e = .constructing)) (Function.update s.pc t p)) (k' : κ) :
    Owned (Pc.Builds k') (decide (Function.update s.executor k e k' = .constructing))
      (Function.update s.pc t p) := by
  by_cases same : k' = k
  · subst same
    rw [Function.update_self]
    exact this
  · rw [Function.update_of_ne same]
    exact (inv.built k').keep (others k' same)

lemma Inv.script (inv : Inv s) (mv : ScriptMove s t s') : Inv s' := by
  cases mv with
  | @walk stopped running p locked builds zero =>
    refine ⟨inv.mutex.keep locked, fun k => (inv.built k).keep (builds k), inv.count, ?_⟩
    refine quiet_goto (fun u _ => inv.quiet u) fun saw => ?_
    exact (zero saw).elim (inv.quiet t) id
  | @lock p free locked builds zero =>
    have mutex := inv.mutex
    rw [free] at mutex
    refine ⟨mutex.acquire locked, fun k => (inv.built k).keep (builds k), inv.count, ?_⟩
    exact quiet_goto (fun u _ => inv.quiet u) fun saw => absurd saw zero
  | @unlock p held locked builds zero =>
    refine ⟨inv.mutex.release held locked, fun k => (inv.built k).keep (builds k), inv.count, ?_⟩
    exact quiet_goto (fun u _ => inv.quiet u) fun saw => absurd saw zero
  | @fetchAdd k here absent =>
    have counting : (s.pc t).Locked := by simp [here, Pc.Locked]
    refine ⟨?_, inv.built_move ?_ ?_, ?_, ?_⟩
    · exact inv.mutex.keep (by simp [here, Pc.Locked])
    · intro k' ne
      simp [here, Pc.Builds, ne.symm]
    · have built := inv.built k
      rw [absent] at built
      exact built.acquire (.inl rfl)
    · exact inv.count.acquire (by simp [absent, Executor.Counts, Executor.Live]) (.inl rfl)
    · -- the mutex keeps everyone else from relying on the old value
      refine quiet_goto (fun u ne saw => absurd ?_ ne) fun saw => saw.elim
      exact inv.mutex.uniq saw.locked counting
  | @spawn k here =>
    have builds : (s.pc t).Builds k := by simp [here, Pc.Builds]
    -- nobody else moves an executor that is under construction
    have constructing := of_decide_eq_true ((inv.built k).of_holder builds)
    refine ⟨?_, inv.built_move ?_ ?_, ?_, ?_⟩
    · exact inv.mutex.keep (by simp [here, Pc.Locked])
    · intro k' ne
      simp [here, Pc.Builds, ne.symm]
    · exact (inv.built k).release builds (by simp [Pc.Builds])
    · exact inv.count.keep (by simp [constructing, Executor.Counts, Executor.Live])
    · exact quiet_goto (fun u _ => inv.quiet u) fun saw => saw.elim
  | @fetchSub k here =>
    have builds : (s.pc t).Builds k := by simp [here, Pc.Builds]
    have constructing := of_decide_eq_true ((inv.built k).of_holder builds)
    have counts : (s.executor k).Counts := .inl constructing
    have pos := inv.count.pos counts
    refine ⟨?_, inv.built_move ?_ ?_, ?_, ?_⟩
    · exact inv.mutex.keep (by simp [here, Pc.Locked])
    · intro k' ne
      simp [here, Pc.Builds, ne.symm]
    · exact (inv.built k).release builds (by simp [Pc.Builds])
    · show Counted _ (fetchSub s.threadExecutors) _
      rw [fetchSub_of_pos pos]
      exact inv.count.release counts (by simp [Executor.Counts, Executor.Live])
    · exact quiet_goto (fun u _ saw => absurd (inv.quiet u saw) pos.ne') fun saw => saw.elim

lemma Executor.Live.constructing {e : Executor} (live : e.Live) : decide (e = .constructing) = false :=
  decide_eq_false live.2.1

omit [DecidableEq ι] in
lemma Inv.worker (inv : Inv s) (mv : WorkerMove s k s') : Inv s' := by
  have built : ∀ e : Executor, (s.executor k).Live → e ≠ .constructing → ∀ k',
      Owned (Pc.Builds k') (decide (Function.update s.executor k e k' = .constructing)) s.pc := by
    intro e live ne k'
    have before := inv.built k'
    by_cases same : k' = k
    · subst same
      rw [live.constructing] at before
      rw [Function.update_self, decide_eq_false ne]
      exact before
    · rwa [Function.update_of_ne same]
  cases mv with
  | @walk e live still =>
    refine ⟨inv.mutex, built e live still.2.1, ?_, inv.quiet⟩
    exact inv.count.keep (iff_of_true (.inr still) (.inr live))
  | fetchSub here =>
    have live : (s.executor k).Live := by simp [here, Executor.Live]
    have pos := inv.count.pos (.inr live)
    refine ⟨inv.mutex, built .exited live (by decide), ?_, fun u saw => ?_⟩
    · show Counted _ (fetchSub s.threadExecutors) _
      rw [fetchSub_of_pos pos]
      exact inv.count.release (.inr live) (by simp [Executor.Counts, Executor.Live])
    · exact absurd (inv.quiet u saw) pos.ne'

lemma eventLoop_inv (r : (eventLoop ι κ).Reachable s) : Inv s := by
  refine r.invariant ?_ ?_
  · rintro s rfl
    refine ⟨Owned.init fun _ h => h, fun k => Owned.init ?_, Counted.init ?_, fun _ h => h.elim⟩
    · simp [Pc.Builds]
    · simp [Executor.Counts, Executor.Live]
  · intro s a s' inv st
    cases a with
    | script t i => exact inv.script (scriptNext_move st)
    | worker k i => exact inv.worker (workerNext_move st)
    | ioStops =>
      cases st
      exact ⟨inv.mutex, inv.built, inv.count, inv.quiet⟩

/-- The event loop is driven by one side at a time, and the counter tells which. -/
structure Exclusive (s : EventLoop ι κ) : Prop where
  restart : ∀ t c, s.pc t = .restarting c →
    (∀ u f, s.pc u ≠ .polling f) ∧ ∀ k, ¬ (s.executor k).Inside
  poll : ∀ t f, s.pc t = .polling f → ∀ k, ¬ (s.executor k).Live
  bound : ∃ live : Finset κ, (∀ k, k ∈ live ↔ (s.executor k).Live) ∧ live.card ≤ s.threadExecutors
  zero : (∀ k, s.executor k = .absent ∨ s.executor k = .exited) → s.threadExecutors = 0

/-- In every run, whatever the order of the accesses, the context is not restarted while a thread is
inside it, no script thread is inside it while an executor drives it, and the counter is no smaller than
the number of executors whose threads run, and 0 when all have exited. -/
theorem driving_exclusive (ι κ : Type*) [DecidableEq ι] [DecidableEq κ] (s : EventLoop ι κ)
    (r : (eventLoop ι κ).Reachable s) : Exclusive s := by
  have inv := eventLoop_inv r
  have alone : ∀ t, (s.pc t).SawZero → ∀ k, ¬ (s.executor k).Live := by
    intro t saw k live
    have count := inv.count
    rw [inv.quiet t saw] at count
    exact count.free (.inr live)
  -- who restarts has the mutex and has read 0, so nobody polls and no executor lives
  refine ⟨fun t c here => ⟨fun u f there => ?_, fun k inside => ?_⟩, fun t f here => ?_, ?_, ?_⟩
  · have same : u = t := inv.mutex.uniq (by simp [there, Pc.Locked]) (by simp [here, Pc.Locked])
    rw [same, here] at there
    cases there
  · exact alone t (by simp [here, Pc.SawZero]) k inside.live
  · exact alone t (by simp [here, Pc.SawZero])
  · obtain ⟨holders, mem, card⟩ := inv.count
    classical
    refine ⟨holders.filter fun k => (s.executor k).Live, fun k => ?_, ?_⟩
    · rw [Finset.mem_filter, mem]
      exact and_iff_right_of_imp .inr
    · rw [← card]
      exact Finset.card_filter_le _ _
  · intro gone
    refine inv.count.eq_zero fun k counts => ?_
    rcases gone k with e | e <;> simp [e, Executor.Counts, Executor.Live] at counts

/-- An executor is inside the context when a script thread polls. -/
theorem driving_exclusive_one : ∃ s : EventLoop Nat Nat, Exclusive s ∧
    (s.executor 7 = .pollOne ∧ s.pc 1 = .idle ∧ s.threadExecutors = 1) := by
  obtain ⟨s, r, holds⟩ := System.Reachable.exists_of_run (.init (S := eventLoop Nat Nat) rfl)
    [.script 0 (.callLifecycle .threadWorker), .script 0 .lock, .script 0 .loadExecutors,
      .script 0 .readStopped, .script 0 (.makeGuard true), .script 0 (.fetchAdd 7), .script 0 .unlock,
      .script 0 (.spawn true), .worker 7 .ioEnter, .script 1 (.callPoll .poll), .script 1 .loadExecutors]
    (fun s => s.executor 7 = .pollOne ∧ s.pc 1 = .idle ∧ s.threadExecutors = 1) (by decide)
  exact ⟨s, driving_exclusive Nat Nat s r, of_decide_eq_true holds⟩

end Moves

end CovNet.Async
