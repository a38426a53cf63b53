import CovNet.Lib.Pipeline
import CovNet.Master.Model

/-!
# Moves of the workers

What a step of a worker can do, said once: `RequestMove`, `ResponseMove` and `DispatchMove` list the
states that `requestStep`, `responseStep` and `dispatchStep` lead to, each with the guards that led
there. The invariants of the master are proved from these lists and never unfold a step.

`State.failing` tells the steps at which a read fails, with the connection and the code.
-/

namespace CovNet.Master
open Lib Text Http Socket

/-! ## safe_shutdown -/

section Shutdown
variable {conn : HttpConn} {now deadline : Nat}

/-- `safe_shutdown` works on the socket alone, and the draining reservation is set afterwards only if
the caller drains or, unless it drained before, another does. -/
def Shuts (conn : HttpConn) (drained : Prop) (r : HttpConn × Option Shutdown) : Prop :=
  ∃ isOpen exclusive,
    r.1 = { conn with isOpen := isOpen, sock := conn.sock.setExclusive exclusive } ∧
    (exclusive = true → (∃ deadline, r.2 = some (.draining deadline)) ∨
      ¬ drained ∧ conn.sock.exclusiveOperation = true)

lemma Shuts.refl {sh : Option Shutdown} (h : conn.sock.exclusiveOperation = true →
    (∃ deadline, sh = some (.draining deadline)) ∨ ¬ drained) :
    Shuts conn drained (conn, sh) :=
  ⟨conn.isOpen, conn.sock.exclusiveOperation, rfl, fun e => (h e).imp id fun d => ⟨d, e⟩⟩

lemma drain_shuts {a : Atomics} {drained : Prop} (h : ∃ e, a = conn.sock.setExclusive e) :
    Shuts conn drained ({ conn with sock := a }.drain now deadline) := by
  obtain ⟨e, rfl⟩ := h
  unfold HttpConn.drain
  split
  · exact ⟨false, false, rfl, by simp⟩
  · split
    · exact ⟨conn.isOpen, false, rfl, by simp⟩
    · exact ⟨conn.isOpen, e, rfl, fun _ => .inl ⟨deadline, rfl⟩⟩

lemma beginDraining_eq {a b : Atomics} (h : beginDrainingExclusive a = .ok b) :
    ∃ e, b = a.setExclusive e := by
  unfold beginDrainingExclusive at h
  split at h
  · cases h
  · cases h
    exact ⟨true, rfl⟩

lemma retry_shuts : Shuts conn False (conn.retry now deadline) := by
  unfold HttpConn.retry
  split
  · exact .refl fun _ => .inr id
  · split
    · exact drain_shuts (beginDraining_eq ‹_›)
    · exact .refl fun _ => .inr id

lemma safeShutdown_shuts : Shuts conn False (conn.safeShutdown now) := by
  unfold HttpConn.safeShutdown
  split
  · exact .refl fun _ => .inr id
  · split
    · exact drain_shuts (beginDraining_eq ‹_›)
    · exact retry_shuts

lemma resume_shuts (sh : Shutdown) :
    Shuts conn (∃ deadline, sh = .draining deadline) (conn.resume now sh) := by
  cases sh with
  | draining deadline => exact drain_shuts ⟨_, rfl⟩
  | retrying deadline =>
    obtain ⟨i, e, eq, h⟩ : Shuts conn False (conn.retry now deadline) := retry_shuts
    exact ⟨i, e, eq, fun t => (h t).imp id fun d => ⟨by simp, d.2⟩⟩

end Shutdown

/-! ## What the workers leave of a connection -/

/-- The responses written on a connection, with their sessions: what was sent less the error responses. -/
def HttpConn.responses (conn : HttpConn) : List (Nat × Bytes) :=
  conn.sent.filterMap fun e => e.1.map (·, e.2)

/-- The queue of a connection as a pipeline. -/
def HttpConn.line (conn : HttpConn) : Pipeline Nat :=
  ⟨conn.requestQueue, conn.requestIdx.toNat, conn.enqueued, conn.responses.map Prod.fst, conn.failed⟩

/-- A connection whose socket has been worked on: its queue is as it was. -/
structure Handled (conn conn' : HttpConn) : Prop where
  requestCount : conn'.requestCount = conn.requestCount
  keepAlive : conn'.keepAlive = conn.keepAlive
  requestQueue : conn'.requestQueue = conn.requestQueue
  requestIdx : conn'.requestIdx = conn.requestIdx
  failed : conn'.failed = conn.failed
  enqueued : conn'.enqueued = conn.enqueued
  responses : conn'.responses = conn.responses

lemma Handled.line {conn conn' : HttpConn} (h : Handled conn conn') : conn'.line = conn.line := by
  simp only [HttpConn.line, h.requestQueue, h.requestIdx, h.failed, h.enqueued, h.responses]

lemma Handled.trans {conn conn1 conn' : HttpConn} (h : Handled conn conn1)
    (h' : Handled conn1 conn') : Handled conn conn' where
  requestCount := h'.requestCount.trans h.requestCount
  keepAlive := h'.keepAlive.trans h.keepAlive
  requestQueue := h'.requestQueue.trans h.requestQueue
  requestIdx := h'.requestIdx.trans h.requestIdx
  failed := h'.failed.trans h.failed
  enqueued := h'.enqueued.trans h.enqueued
  responses := h'.responses.trans h.responses

lemma Shuts.handled {conn : HttpConn} {drained : Prop} {r : HttpConn × Option Shutdown}
    (h : Shuts conn drained r) : Handled conn r.1 := by
  obtain ⟨isOpen, exclusive, e, -⟩ := h
  rw [e]
  exact ⟨rfl, rfl, rfl, rfl, rfl, rfl, rfl⟩

lemma Shuts.refused {conn : HttpConn} {drained : Prop} {r : HttpConn × Option Shutdown}
    (h : Shuts conn drained r) : r.1.refused = conn.refused := by
  obtain ⟨isOpen, exclusive, e, -⟩ := h
  rw [e]

lemma shutFor_refused {c : Nat} {code : StateCode} {r : HttpConn × Option Shutdown} :
    (shutFor c code r).1.refused = r.1.refused := by
  obtain ⟨conn, sh⟩ := r
  cases sh with
  | none => rfl
  | some sh => rfl

/-- The connection a request worker is on. -/
def RequestPc.conn : RequestPc → Option Nat
  | .on c _ => some c
  | _ => none

/-- What a request worker makes of the connection it is on. -/
structure Handles (c : Nat) (conn : HttpConn) (r : HttpConn × RequestPc) : Prop where
  handled : Handled conn r.1
  state : r.1.state = conn.state ∨ r.1.state = .close
  place : ∀ d, r.2.conn = some d → d = c

lemma shutFor_handles {c : Nat} {code : StateCode} {conn : HttpConn} {drained : Prop}
    {r : HttpConn × Option Shutdown} (h : Shuts conn drained r) :
    Handles c conn (shutFor c code r) := by
  obtain ⟨conn', sh⟩ := r
  have handled := h.handled
  obtain ⟨isOpen, exclusive, e, -⟩ := h
  cases sh with
  | none =>
    refine ⟨handled.trans ⟨rfl, rfl, rfl, rfl, rfl, rfl, rfl⟩, .inr rfl, fun d e => by cases e⟩
  | some sh =>
    refine ⟨handled, .inl ?_, fun d e => by cases e; rfl⟩
    exact (congrArg HttpConn.state e :)

lemma refuse_handles {c now : Nat} {code : StateCode} {conn : HttpConn} :
    Handles c conn (conn.refuse c now code) := by
  unfold HttpConn.refuse
  dsimp only
  split
  · obtain ⟨handled, state, place⟩ : Handles c { conn with refused := true }
        (shutFor c code ({ conn with refused := true }.safeShutdown now)) :=
      shutFor_handles safeShutdown_shuts
    have same : Handled conn { conn with refused := true } := ⟨rfl, rfl, rfl, rfl, rfl, rfl, rfl⟩
    exact ⟨same.trans handled, state, place⟩
  · split
    · refine ⟨⟨rfl, rfl, rfl, rfl, rfl, rfl, ?_⟩, .inl rfl, fun d e => by cases e; rfl⟩
      simp [HttpConn.responses]
    · exact ⟨⟨rfl, rfl, rfl, rfl, rfl, rfl, rfl⟩, .inl rfl, fun d e => by cases e⟩

/-! ## Request workers -/

namespace State

/-- The connection and the code, at a step of a request worker at which its read fails. -/
def failing (cfg : Config) (m : State) (w : Nat) (p : Parsed) : Option (Nat × StateCode) :=
  match m.request w with
  | .head =>
    if m.stopped then none
    else
      match (scanConns m.conns m.connList).2 with
      | none => none
      | some c =>
        if (m.conns c).lastRequestTime + cfg.keepAliveTimeout ≤ m.now then some (c, .code408)
        else none
  | .on c (.reading deadline state) =>
    match readNext m.now deadline p state with
    | some .more => if deadline ≤ m.now then some (c, .code408) else none
    | some (.refuse code) => some (c, code)
    | _ => none
  | _ => none

/-- The scan drops connections, and takes out one that is open to the next request. -/
lemma scanConns_spec {conns : Nat → HttpConn} {l list : List Nat} {r : Option Nat}
    (h : scanConns conns l = (list, r)) :
    list ⊆ l ∧ ∀ c, r = some c →
      c ∈ l ∧ (conns c).state = .established ∧ (conns c).keepAlive = true := by
  induction l generalizing list r with
  | nil =>
    cases h
    exact ⟨List.Subset.refl _, by simp⟩
  | cons c l ih =>
    rw [scanConns] at h
    split at h
    · obtain ⟨sub, out⟩ := ih h
      exact ⟨List.Subset.trans sub (List.subset_cons_self c l),
        fun d e => ⟨List.mem_cons_of_mem c (out d e).1, (out d e).2⟩⟩
    · split at h
      · rename_i est
        cases h
        refine ⟨List.subset_cons_self c l, fun d e => ?_⟩
        cases e
        exact ⟨List.mem_cons_self, est⟩
      · cases h
        obtain ⟨sub, out⟩ := ih rfl
        exact ⟨List.cons_subset_cons c sub,
          fun d e => ⟨List.mem_cons_of_mem c (out d e).1, (out d e).2⟩⟩

end State

/-- A request worker has the connection `c` in hand, as `conn`: it has just taken it out of the list, or
its read is over. -/
inductive InHand (m : State) (w c : Nat) : HttpConn → List Nat → Prop where
  | pick {list : List Nat} :
    m.request w = .head →
    c ∈ m.connList →
    (m.conns c).state = .established →
    (m.conns c).keepAlive = true →
    list ⊆ m.connList →
    InHand m w c { m.conns c with state := .busy } (list ++ [c])
  | keep {deadline : Nat} {state : Option ReadResult} {abandoned : Bool} :
    m.request w = .on c (.reading deadline state) →
    InHand m w c { m.conns c with abandoned := abandoned } m.connList

/-- What a step of a request worker leads to. -/
inductive RequestMove (cfg : Config) (m : State) (w : Nat) (p : Parsed) : State → Prop where
  | ended :
    m.request w = .head →
    RequestMove cfg m w p { m with request := Function.update m.request w .ended }
  | scan {list : List Nat} :
    list ⊆ m.connList →
    RequestMove cfg m w p { m with connList := list }
  | read {c : Nat} {conn : HttpConn} {list : List Nat} {a : Atomics} {deadline : Nat} :
    InHand m w c conn list →
    m.failing cfg w p = none →
    beginIoJob .tcp .read conn.sock = .ok a →
    RequestMove cfg m w p ({ m with connList := list }.place w c
      ({ conn with sock := a }, .on c (.reading deadline none)))
  | raise {c : Nat} {conn : HttpConn} {list : List Nat} :
    InHand m w c conn list →
    m.failing cfg w p = none →
    RequestMove cfg m w p ({ m with connList := list }.place w c (conn, .raised (.io .read)))
  | fail {c : Nat} {conn : HttpConn} {list : List Nat} {code : StateCode} :
    InHand m w c conn list →
    m.failing cfg w p = some (c, code) →
    RequestMove cfg m w p ({ m with connList := list }.place w c (conn.refuse c m.now code))
  | enqueue {c deadline : Nat} {s : Session} {state : Option ReadResult} :
    m.request w = .on c (.reading deadline state) →
    p = .session s →
    m.failing cfg w p = none →
    RequestMove cfg m w p (m.enqueue cfg w c s)
  | fault {c deadline : Nat} {state : Option ReadResult} :
    m.request w = .on c (.reading deadline state) →
    RequestMove cfg m w p { m with request := Function.update m.request w (.raised .option) }
  | shut {c : Nat} {code : StateCode} {r : HttpConn × Option Shutdown} :
    (∃ ok, m.request w = .on c (.refusing code (some ok)) ∧ Shuts (m.conns c) False r) ∨
      (∃ sh, m.request w = .on c (.shutting code sh) ∧
        Shuts (m.conns c) (∃ deadline, sh = .draining deadline) r) →
    RequestMove cfg m w p (m.place w c (shutFor c code r))

lemma readNext_session {now deadline : Nat} {p : Parsed} {state : Option ReadResult} {s : Session}
    (h : readNext now deadline p state = some (.session s)) : p = .session s := by
  cases state with
  | none => simp [readNext] at h
  | some r =>
    cases r with
    | ok =>
      cases p with
      | session s' => simpa [readNext] using h
      | refuse code =>
        simp only [readNext] at h
        split at h
        · cases h
        · cases h
      | more | fault => cases h
    | eof | error => cases h

/-- The head of the read loop: the read fails at its deadline, or is started. -/
lemma readLoop_move {cfg : Config} {m : State} {w c deadline : Nat} {p : Parsed} {conn : HttpConn}
    {list : List Nat} (hand : InHand m w c conn list)
    (failing : m.failing cfg w p = if deadline ≤ m.now then some (c, .code408) else none) :
    RequestMove cfg m w p
      ({ m with connList := list }.place w c (conn.readLoop c m.now deadline)) := by
  unfold HttpConn.readLoop
  split at failing
  · rename_i late
    rw [if_pos late]
    exact .fail hand failing
  · rename_i early
    rw [if_neg early]
    split
    · exact .read hand failing ‹_›
    · exact .raise hand failing

lemma requestStep_move {cfg : Config} {m m' : State} {w : Nat} {p : Parsed}
    (h : m.requestStep cfg w p = some m') : RequestMove cfg m w p m' := by
  unfold State.requestStep at h
  split at h
  · rename_i head
    split at h
    · cases h
      exact .ended head
    · rename_i run
      split at h
      · rename_i scan
        cases h
        exact .scan (State.scanConns_spec scan).1
      · rename_i c scan
        cases h
        obtain ⟨sub, out⟩ := State.scanConns_spec scan
        obtain ⟨mem, est, keep⟩ := out c rfl
        exact readLoop_move (.pick head mem est keep sub) (by simp [State.failing, head, run, scan])
  · rename_i c deadline state reading
    split at h
    · cases h
    · rename_i next
      cases h
      exact readLoop_move (.keep reading) (by simp [State.failing, reading, next])
    · rename_i s next
      cases h
      exact .enqueue reading (readNext_session next) (by simp [State.failing, reading, next])
    · rename_i code next
      cases h
      exact .fail (.keep reading) (by simp [State.failing, reading, next])
    · split at h
      · cases h
      · cases h
        exact .fault reading
  · rename_i c code ok refusing
    cases h
    exact .shut (.inl ⟨ok, refusing, safeShutdown_shuts⟩)
  · rename_i c code sh shutting
    cases h
    exact .shut (.inr ⟨sh, shutting, resume_shuts sh⟩)
  · cases h

/-! ## The response worker -/

/-- The connection the response worker is on. -/
def ResponsePc.conn : ResponsePc → Option Nat
  | .writing c _ | .paused c | .shutting c _ => some c
  | _ => none

/-- What the response worker makes of a connection it closes. -/
lemma closeFor_spec {c : Nat} {conn : HttpConn} {drained : Prop} {r : HttpConn × Option Shutdown}
    (h : Shuts conn drained r) :
    Handled conn (State.closeFor c r).1 ∧ (State.closeFor c r).1.refused = conn.refused ∧
      ((State.closeFor c r).1.state = conn.state ∨ (State.closeFor c r).1.state = .close) ∧
      ((State.closeFor c r).2 = .head ∨ ∃ sh, (State.closeFor c r).2 = .shutting c sh) := by
  obtain ⟨conn', sh⟩ := r
  have handled := h.handled
  have refused := h.refused
  obtain ⟨isOpen, exclusive, e, -⟩ := h
  cases sh with
  | none => exact ⟨handled.trans ⟨rfl, rfl, rfl, rfl, rfl, rfl, rfl⟩, refused, .inr rfl, .inl rfl⟩
  | some sh => exact ⟨handled, refused, .inl (congrArg HttpConn.state e :), .inr ⟨sh, rfl⟩⟩

/-- What the loop over the queue of a connection leads to. -/
inductive ServeMove (m : State) (c : Nat) : State → Prop where
  | pause {σ : Nat} {rest : List Nat} :
    (m.conns c).requestQueue = σ :: rest →
    (m.sessions σ).response = none →
    ServeMove m c { m with response := .paused c }
  | write {σ : Nat} {rest : List Nat} {b : Bytes} {a : Atomics} :
    (m.conns c).requestQueue = σ :: rest →
    (m.sessions σ).response = some b →
    beginIoJob .tcp .write (m.conns c).sock = .ok a →
    ServeMove m c ((m.answer σ (writtenResponse (m.conns c).keepAlive b)).settle c
      ({ m.conns c with
          sock := a
          sent := (m.conns c).sent ++ [(some σ, writtenResponse (m.conns c).keepAlive b)] },
        .writing c none))
  | raise {σ : Nat} {rest : List Nat} {b : Bytes} {e : String} :
    (m.conns c).requestQueue = σ :: rest →
    (m.sessions σ).response = some b →
    beginIoJob .tcp .write (m.conns c).sock = .error e →
    ServeMove m c
      { m.answer σ (writtenResponse (m.conns c).keepAlive b) with response := .raised }
  | close {r : HttpConn × Option Shutdown} :
    (m.conns c).requestQueue = [] →
    (m.conns c).keepAlive = false →
    Shuts (m.conns c) False r →
    ServeMove m c (m.settle c (State.closeFor c r))
  | done :
    ((m.conns c).requestQueue = [] → (m.conns c).keepAlive = true) →
    ServeMove m c { m with response := .head }

lemma closeCheck_move {m : State} {c : Nat} : ServeMove m c (m.closeCheck c) := by
  unfold State.closeCheck
  dsimp only
  split
  · rename_i used
    exact .close used.1 used.2 safeShutdown_shuts
  · rename_i more
    exact .done fun e => by simpa [e] using more

lemma serve_move {m : State} {c : Nat} : ServeMove m c (m.serve c) := by
  unfold State.serve
  dsimp only
  split
  · exact closeCheck_move
  · rename_i σ rest front
    split
    · exact .pause front ‹_›
    · rename_i b have'
      split
      · exact .raise front have' ‹_›
      · exact .write front have' ‹_›

/-- The state in which the response worker turns to the connection `c`, at the head of its loop. -/
inductive TurnsTo (m : State) (c : Nat) : State → Prop where
  | pick :
    m.response = .head →
    c ∈ m.connList →
    (m.conns c).requestQueue ≠ [] →
    TurnsTo m c m
  | written :
    m.response = .writing c (some true) →
    TurnsTo m c (m.written c)
  | dropped :
    m.response = .writing c (some false) →
    TurnsTo m c (m.dropped c)
  | paused :
    m.response = .paused c →
    TurnsTo m c { m with response := .head }

/-- What a step of the response worker leads to. -/
inductive ResponseMove (m : State) : State → Prop where
  | ended :
    m.response = .head →
    ResponseMove m { m with response := .ended }
  | idle :
    ResponseMove m m
  | serve {c : Nat} {m1 m' : State} :
    TurnsTo m c m1 →
    ServeMove m1 c m' →
    ResponseMove m m'
  | shut {c : Nat} {sh : Shutdown} {r : HttpConn × Option Shutdown} :
    m.response = .shutting c sh →
    Shuts (m.conns c) (∃ deadline, sh = .draining deadline) r →
    ResponseMove m (m.settle c (State.closeFor c r))

lemma responseStep_move {m m' : State} (h : m.responseStep = some m') : ResponseMove m m' := by
  unfold State.responseStep at h
  split at h
  · rename_i head
    split at h
    · cases h
      exact .ended head
    · split at h
      · cases h
        exact .idle
      · rename_i c found
        cases h
        have queued := List.find?_some found
        exact .serve (.pick head (List.mem_of_find?_eq_some found) (by simpa using queued)) serve_move
  · rename_i c done
    cases h
    exact .serve (.written done) serve_move
  · rename_i c lost
    cases h
    exact .serve (.dropped lost) closeCheck_move
  · rename_i c paused
    cases h
    exact .serve (.paused paused) closeCheck_move
  · rename_i c sh shutting
    cases h
    exact .shut shutting (resume_shuts sh)
  · cases h

/-! ## Dispatch workers -/

namespace DispatchPc

/-- The node a worker has. -/
def node : DispatchPc → Option Nat
  | sending n _ _ | sendingBody n _ _ | receiving n _ _ | retiring n _ _ => some n
  | _ => none

/-- The session a worker has to answer. -/
def session : DispatchPc → Option Nat
  | sending _ job _ | receiving _ job _ | retiring _ job _ => job
  | sendingBody _ σ _ | awaiting σ _ _ => some σ
  | _ => none

/-- The node that works on a job, while the worker waits for the answer. -/
def pending : DispatchPc → Option (Nat × Option Nat)
  | sending n job _ | receiving n job _ => some (n, job)
  | sendingBody n σ _ => some (n, some σ)
  | _ => none

/-- A worker goes on with its job, or stops waiting for the answer. -/
def Follows (pc pc' : DispatchPc) : Prop :=
  pc'.node = pc.node ∧ pc'.session = pc.session ∧ (pc'.pending = pc.pending ∨ pc'.pending = none)

end DispatchPc

/-- The ranks of nodes. -/
def ranksOf (nodes : Nat → SlaveNode) (list : List Nat) : List Nat := list.map fun n => (nodes n).rank

/-- The scan drops nodes, keeping their ranks, and takes out a ready one. -/
lemma scanNodes_spec {nodes : Nat → SlaveNode} {l list ranks : List Nat} {r : Option Nat}
    (h : State.scanNodes nodes l = (list, ranks, r)) :
    list ⊆ l ∧ (ranksOf nodes (list ++ r.toList) ++ ranks).Perm (ranksOf nodes l) ∧
      ∀ n, r = some n → n ∈ l ∧ (nodes n).state = .ready := by
  induction l generalizing list ranks r with
  | nil =>
    cases h
    exact ⟨List.Subset.refl _, .refl _, by simp⟩
  | cons n l ih =>
    rw [State.scanNodes] at h
    split at h
    · cases h
      obtain ⟨sub, perm, out⟩ := ih rfl
      refine ⟨List.Subset.trans sub (List.subset_cons_self n l), ?_,
        fun k e => ⟨List.mem_cons_of_mem n (out k e).1, (out k e).2⟩⟩
      -- the rank of a node that is dropped goes to the free ones
      exact List.perm_middle.trans (perm.cons _)
    · rename_i ready
      cases h
      refine ⟨List.subset_cons_self n l, ?_, fun k e => ?_⟩
      · rw [List.append_nil]
        exact (List.perm_append_singleton n l).map _
      · cases e
        exact ⟨List.mem_cons_self, ready⟩
    · cases h
      obtain ⟨sub, perm, out⟩ := ih rfl
      exact ⟨List.cons_subset_cons n sub, perm.cons _,
        fun k e => ⟨List.mem_cons_of_mem n (out k e).1, (out k e).2⟩⟩

/-- The state after `master_pick_slave`: nodes may have been retired, their ranks are kept, and one node
may have been picked. -/
def Picks (m : State) (node : Option Nat) (m' : State) : Prop :=
  ∃ list ranks, m' = { m with slaveList := list, deprecatedRank := ranks } ∧
    (ranksOf m.nodes list ++ ranks).Perm (ranksOf m.nodes m.slaveList ++ m.deprecatedRank) ∧
    list ⊆ m.slaveList ∧ ∀ n, node = some n → n ∈ m.slaveList ∧ (m.nodes n).state = .ready

lemma pickSlave_picks {m m' : State} {node : Option Nat} (h : m.pickSlave = (m', node)) :
    Picks m node m' := by
  unfold State.pickSlave at h
  split at h
  rename_i list ranks r scan
  cases h
  obtain ⟨sub, perm, out⟩ := scanNodes_spec scan
  refine ⟨_, _, rfl, ?_, List.append_subset.mpr ⟨sub, ?_⟩, out⟩
  · refine List.Perm.trans ?_ (perm.append_right m.deprecatedRank)
    rw [List.append_assoc]
    exact List.perm_append_comm.append_left _
  · intro n mem
    exact (out n (Option.mem_toList.mp mem)).1

/-- What a step of a dispatch worker leads to. -/
inductive DispatchMove (cfg : Config) (m : State) (w : Nat) : State → Prop where
  | go {pc : DispatchPc} :
    (m.dispatch w).Follows pc →
    pc ≠ .raised →
    DispatchMove cfg m w (m.go w pc)
  | pick {node : Option Nat} {m' : State} :
    Picks m node m' →
    DispatchMove cfg m w m'
  | send {n : Nat} {job : Option Nat} {m' : State} :
    (m.dispatch w).node = none →
    job = (m.dispatch w).session →
    Picks m (some n) m' →
    DispatchMove cfg m w (m'.send cfg w n job)
  | depart {n c : Nat} {m' : State} :
    m.dispatch w = .head →
    Picks m (some n) m' →
    c ∈ m.connList →
    (m.conns c).requestIdx < (m.conns c).requestQueue.length →
    DispatchMove cfg m w (m'.depart cfg w n c)
  | receive {n deadline : Nat} {job tag : Option Nat} {frame : Bytes}
      {rest : List (Option Nat × Bytes)} :
    m.dispatch w = .receiving n job deadline →
    (m.nodes n).inbox = (tag, frame) :: rest →
    DispatchMove cfg m w (m.receive w n job frame)
  | retire {n : Nat} {job : Option Nat} {code : StateCode} :
    m.dispatch w = .retiring n job code →
    DispatchMove cfg m w (m.retire cfg w n job code)
  | giveUp {σ waitStart : Nat} {code : StateCode} :
    m.dispatch w = .awaiting σ code waitStart →
    DispatchMove cfg m w (m.giveUp w σ code)

lemma dispatchStep_move {cfg : Config} {m m' : State} {w : Nat} {r : NodeResult}
    (h : m.dispatchStep cfg w r = some m') : DispatchMove cfg m w m' := by
  have follow : ∀ {pc pc'}, m.dispatch w = pc → pc.Follows pc' → pc' ≠ .raised →
      DispatchMove cfg m w (m.go w pc') := fun e f ok => .go (e ▸ f) ok
  unfold State.dispatchStep at h
  split at h
  · rename_i head
    split at h
    · cases h
      exact follow head ⟨rfl, rfl, .inl rfl⟩ (by simp)
    · split at h
      · rename_i pick
        cases h
        exact .pick (pickSlave_picks pick)
      · rename_i n pick
        split at h
        · rename_i c found
          cases h
          have left := List.find?_some found
          exact .depart head (pickSlave_picks pick) (List.mem_of_find?_eq_some found)
            (of_decide_eq_true left)
        · split at h
          · cases h
            exact .send (by rw [head]; rfl) (by rw [head]; rfl) (pickSlave_picks pick)
          · cases h
            exact .pick (pickSlave_picks pick)
  · rename_i place
    cases h
    exact follow place ⟨rfl, rfl, .inl rfl⟩ (by simp)
  · rename_i place
    split at h
    · cases h
      exact follow place ⟨rfl, rfl, .inl rfl⟩ (by simp)
    · cases h
      exact follow place ⟨rfl, rfl, .inl rfl⟩ (by simp)
  · rename_i place
    cases h
    exact follow place ⟨rfl, rfl, .inr rfl⟩ (by simp)
  · rename_i place
    cases h
    exact follow place ⟨rfl, rfl, .inl rfl⟩ (by simp)
  · rename_i place
    cases h
    exact follow place ⟨rfl, rfl, .inr rfl⟩ (by simp)
  · split at h
    · cases h
    · split at h
      · cases h
        exact .receive ‹_› ‹_›
      · cases h
  · rename_i place
    cases h
    exact follow place ⟨rfl, rfl, .inr rfl⟩ (by simp)
  · rename_i place
    split at h
    · cases h
      exact follow place ⟨rfl, rfl, .inr rfl⟩ (by simp)
    · cases h
  · cases h
    exact .retire ‹_›
  · rename_i await
    split at h
    · cases h
      exact .giveUp await
    · split at h
      · rename_i pick
        cases h
        exact .pick (pickSlave_picks pick)
      · rename_i n pick
        cases h
        exact .send (by rw [await]; rfl) (by rw [await]; rfl) (pickSlave_picks pick)
  · cases h

section Frame
variable {cfg : Config} {m m' : State} {w n : Nat} {job : Option Nat}

/-- What a dispatch worker leaves alone once it has its session. -/
structure Aside (m m' : State) : Prop where
  conns : m'.conns = m.conns
  request : m'.request = m.request
  response : m'.response = m.response
  connList : m'.connList = m.connList
  nextConn : m'.nextConn = m.nextConn
  nextSession : m'.nextSession = m.nextSession
  accept : m'.accept = m.accept
  spawn : m'.spawn = m.spawn
  handed : m'.handed = m.handed
  session : ∀ σ, (m'.sessions σ).session = (m.sessions σ).session

lemma Aside.trans {m1 : State} (h : Aside m m1) (h' : Aside m1 m') : Aside m m' where
  conns := h'.conns.trans h.conns
  request := h'.request.trans h.request
  response := h'.response.trans h.response
  connList := h'.connList.trans h.connList
  nextConn := h'.nextConn.trans h.nextConn
  nextSession := h'.nextSession.trans h.nextSession
  accept := h'.accept.trans h.accept
  spawn := h'.spawn.trans h.spawn
  handed := h'.handed.trans h.handed
  session σ := (h'.session σ).trans (h.session σ)

lemma answer_aside {σ : Nat} {b : Bytes} : Aside m (m.answer σ b) := by
  refine ⟨rfl, rfl, rfl, rfl, rfl, rfl, rfl, rfl, rfl, fun τ => ?_⟩
  simp only [State.answer, Function.update_apply]
  split
  · simp [*]
  · rfl

lemma attempt_aside {σ : Nat} : Aside m (m.attempt σ) := by
  refine ⟨rfl, rfl, rfl, rfl, rfl, rfl, rfl, rfl, rfl, fun τ => ?_⟩
  simp only [State.attempt, Function.update_apply]
  split
  · simp [*]
  · rfl

lemma drive_aside {r : SlaveNode × DispatchPc} : Aside m (m.drive w n r) :=
  ⟨rfl, rfl, rfl, rfl, rfl, rfl, rfl, rfl, rfl, fun _ => rfl⟩

lemma go_aside {pc : DispatchPc} : Aside m (m.go w pc) :=
  ⟨rfl, rfl, rfl, rfl, rfl, rfl, rfl, rfl, rfl, fun _ => rfl⟩

lemma giveUp_aside {σ : Nat} {code : StateCode} : Aside m (m.giveUp w σ code) :=
  answer_aside.trans go_aside

lemma send_aside : Aside m (m.send cfg w n job) := by
  unfold State.send
  dsimp only
  split
  · exact drive_aside
  · exact ⟨rfl, rfl, rfl, rfl, rfl, rfl, rfl, rfl, rfl, fun _ => rfl⟩

lemma depart_aside {c : Nat} : Aside (m.take c) (m.depart cfg w n c) := by
  unfold State.depart
  split
  · exact send_aside
  · exact drive_aside

lemma receive_aside {frame : Bytes} : Aside m (m.receive w n job frame) := by
  unfold State.receive
  dsimp only
  split
  · exact answer_aside.trans drive_aside
  · split
    · exact drive_aside
    · exact drive_aside

lemma retire_aside {code : StateCode} : Aside m (m.retire cfg w n job code) := by
  unfold State.retire
  dsimp only
  split
  · exact drive_aside
  · split
    · split
      · exact (drive_aside.trans attempt_aside).trans giveUp_aside
      · exact (drive_aside.trans attempt_aside).trans go_aside
    · exact drive_aside.trans giveUp_aside

lemma Picks.aside {node : Option Nat} (h : Picks m node m') : Aside m m' := by
  obtain ⟨list, ranks, rfl, -⟩ := h
  exact ⟨rfl, rfl, rfl, rfl, rfl, rfl, rfl, rfl, rfl, fun _ => rfl⟩

/-- A dispatch worker counts at most one session of a connection as taken. -/
lemma DispatchMove.aside (h : DispatchMove cfg m w m') :
    Aside m m' ∨ ∃ c ∈ m.connList,
      (m.conns c).requestIdx < (m.conns c).requestQueue.length ∧ Aside (m.take c) m' := by
  cases h with
  | go _ => exact .inl go_aside
  | pick picks => exact .inl picks.aside
  | send _ _ picks => exact .inl (picks.aside.trans send_aside)
  | @depart n c m1 _ picks mem lt =>
    obtain ⟨list, ranks, rfl, -⟩ := picks
    have taken : Aside (m.take c) ({ m with slaveList := list, deprecatedRank := ranks }.take c) :=
      ⟨rfl, rfl, rfl, rfl, rfl, rfl, rfl, rfl, rfl, fun _ => rfl⟩
    exact .inr ⟨c, mem, lt, taken.trans depart_aside⟩
  | receive _ _ => exact .inl receive_aside
  | retire _ => exact .inl retire_aside
  | giveUp _ => exact .inl giveUp_aside

end Frame

/-! ## Every step -/

/-- What a step of the master leads to. -/
inductive Move (cfg : Config) (m : State) : Action → State → Prop where
  | tick :
    Move cfg m .tick { m with now := m.now + 1 }
  | stop :
    Move cfg m .stop { m with stopped := true }
  | accept {ok : Bool} {pc : AcceptPc} :
    Move cfg m (.accept ok) { m with accept := pc }
  | accepted {ok : Bool} :
    Move cfg m (.accept ok)
      { m with
        accept := .head
        conns := Function.update m.conns m.nextConn { lastRequestTime := m.now }
        connList := m.connList ++ [m.nextConn]
        nextConn := m.nextConn + 1 }
  | spawn {r : Option Bytes} {pc : SpawnPc} {ranks : List Nat} :
    Move cfg m (.spawn r) { m with spawn := pc, deprecatedRank := ranks }
  | spawned {r : Option Bytes} {rank : Nat} :
    Move cfg m (.spawn r)
      { m with
        spawn := .head
        nodes := Function.update m.nodes m.nextNode { rank, lastConnTime := m.now }
        slaveList := m.slaveList ++ [m.nextNode]
        nextNode := m.nextNode + 1 }
  | request {w : Nat} {p : Parsed} {m' : State} :
    RequestMove cfg m w p m' →
    Move cfg m (.request w p) m'
  | response {m' : State} :
    ResponseMove m m' →
    Move cfg m .response m'
  | dispatch {w : Nat} {r : NodeResult} {m' : State} :
    DispatchMove cfg m w m' →
    Move cfg m (.dispatch w r) m'
  | readDone {w c deadline : Nat} {r : ReadResult} :
    m.request w = .on c (.reading deadline none) →
    Move cfg m (.readDone w r)
      (m.place w c ((m.conns c).finish .read, .on c (.reading deadline (some r))))
  | readLate {c : Nat} :
    (m.conns c).abandoned = true →
    Move cfg m (.readLate c)
      { m with
        conns := Function.update m.conns c { (m.conns c).finish .read with abandoned := false } }
  | refuseDone {w c : Nat} {code : StateCode} {ok : Bool} :
    m.request w = .on c (.refusing code none) →
    Move cfg m (.refuseDone w ok)
      (m.place w c ((m.conns c).finish .write, .on c (.refusing code (some ok))))
  | responseDone {c : Nat} {ok : Bool} :
    m.response = .writing c none →
    Move cfg m (.responseDone ok)
      (m.settle c ((m.conns c).finish .write, .writing c (some ok)))
  | reply {n : Nat} {job : Option Nat} {frame : Bytes} {rest : List (Option Nat)} :
    (m.nodes n).outstanding = job :: rest →
    Move cfg m (.reply n frame)
      { m with
        nodes := Function.update m.nodes n
          { m.nodes n with
            outstanding := rest
            inbox := (m.nodes n).inbox ++ [(job, frame)] }
        returned := m.returned ++ (job.map (·, frame)).toList }

theorem next_move {cfg : Config} {m m' : State} {a : Action} (h : m.next cfg a = some m') :
    Move cfg m a m' := by
  cases a with
  | tick =>
    cases h
    exact .tick
  | stop =>
    cases h
    exact .stop
  | accept ok =>
    simp only [State.next, State.acceptStep] at h
    split at h
    · split at h
      · cases h
        exact .accept
      · split at h
        · cases h
          exact (.accept : Move cfg m (.accept ok) { m with accept := m.accept })
        · cases h
          exact .accept
    · split at h
      · cases h
        exact .accepted
      · cases h
        exact .accept
    · cases h
  | spawn r =>
    simp only [State.next, State.spawnStep] at h
    split at h
    · cases h
      exact .spawn
    · split at h
      · cases h
        exact .spawn
      · cases h
        exact .spawn
      · cases h
        exact .spawn
    · split at h
      · cases h
        exact .spawned
      · cases h
        exact .spawn
    · cases h
  | request w p => exact .request (requestStep_move h)
  | response => exact .response (responseStep_move h)
  | dispatch w r => exact .dispatch (dispatchStep_move h)
  | readDone w r =>
    simp only [State.next, State.readDone] at h
    split at h
    · cases h
      exact .readDone ‹_›
    · cases h
  | readLate c =>
    simp only [State.next, State.readLate] at h
    split at h
    · cases h
      exact .readLate ‹_›
    · cases h
  | refuseDone w ok =>
    simp only [State.next, State.refuseDone] at h
    split at h
    · cases h
      exact .refuseDone ‹_›
    · cases h
  | responseDone ok =>
    simp only [State.next, State.responseDone] at h
    split at h
    · cases h
      exact .responseDone ‹_›
    · cases h
  | reply n frame =>
    simp only [State.next, State.reply] at h
    split at h
    · cases h
    · cases h
      exact .reply ‹_›

end CovNet.Master
