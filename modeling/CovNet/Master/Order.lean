import CovNet.Master.Readers
import CovNet.Master.Nodes

/-!
# The order of the responses

The queues of the connections are pipelines whose tickets are the sessions: the request workers enqueue
them, the dispatch workers take and answer them in any order, and the response worker issues them. The
state of the master is a `Desk` of such pipelines (`State.desk`), every step is one of the operations of
the desk or leaves it alone, and so the responses are written in the order of the requests.

`Origins` says where a response comes from. Together with `Nodes` it gives the correlation: what is
written for a session is the frame a slave returned for that session, or the response the master made up
for it, up to the rewrite of its `Connection` header.
-/

namespace CovNet.Master
open Lib Text Http Socket

/-- The connection on which a response is being written. -/
def ResponsePc.writes : ResponsePc → Option Nat
  | .writing c _ => some c
  | _ => none

/-- The queues of the master, with the dispatch workers as parties. -/
def State.desk (m : State) : Desk Nat Nat Nat Bytes where
  line c := (m.conns c).line
  holds w := (m.dispatch w).session
  answer σ := (m.sessions σ).response
  writer := m.response.writes

/-- The queues are in order, and their sessions are known. -/
structure Order (m : State) : Prop where
  sound : m.desk.Sound
  index : ∀ c, 0 ≤ (m.conns c).requestIdx
  known : ∀ {c σ}, σ ∈ (m.conns c).enqueued → σ < m.nextSession
  held : ∀ {w σ}, (m.dispatch w).session = some σ → σ < m.nextSession

/-- What is read off an updated map is updated. -/
lemma update_read {β γ : Type*} (f : β → γ) (g : Nat → β) (i : Nat) (b : β) :
    (fun j => f (Function.update g i b j)) = Function.update (fun j => f (g j)) i (f b) := by
  funext j
  by_cases e : j = i
  · subst e
    simp
  · simp [e]

lemma update_read_same {β γ : Type*} (f : β → γ) (g : Nat → β) {i : Nat} {b : β}
    (h : f b = f (g i)) : (fun j => f (Function.update g i b j)) = fun j => f (g j) := by
  rw [update_read, h, Function.update_eq_self i fun j => f (g j)]

/-- An index that is not negative stays so where it is not changed. -/
lemma index_update {conns : Nat → HttpConn} {c : Nat} {conn : HttpConn}
    (h : ∀ d, 0 ≤ (conns d).requestIdx) (new : 0 ≤ conn.requestIdx) (d : Nat) :
    0 ≤ (Function.update conns c conn d).requestIdx := by
  by_cases e : d = c
  · subst e
    rwa [Function.update_self]
  · rw [Function.update_of_ne e]
    exact h d

/-- Counting an attempt leaves the responses alone. -/
lemma attempt_response {m : State} {σ : Nat} (τ : Nat) :
    ((m.attempt σ).sessions τ).response = (m.sessions τ).response := by
  simp only [State.attempt]
  by_cases e : τ = σ
  · subst e
    rw [Function.update_self]
  · rw [Function.update_of_ne e]

namespace Order
variable {cfg : Config} {m m' : State} {w c : Nat}

lemma init : Order {} where
  sound := by
    refine ⟨fun _ => List.nodup_nil, ?_, fun c => ?_, ?_, fun _ => rfl⟩
    · intro c c' σ h
      cases h
    · exact ⟨(fun b => by cases b), fun _ => ⟨[], rfl, rfl⟩, (fun b => by cases b)⟩
    · intro c w σ h
      cases h
  index _ := Int.le_refl 0
  known h := by cases h
  held h := by cases h

/-- What the invariant is about. -/
lemma congr (o : Order m) (line : ∀ c, (m'.conns c).line = (m.conns c).line)
    (index : ∀ c, (m'.conns c).requestIdx = (m.conns c).requestIdx)
    (holds : ∀ w, (m'.dispatch w).session = (m.dispatch w).session)
    (answer : ∀ σ, (m'.sessions σ).response = (m.sessions σ).response)
    (writer : m'.response.writes = m.response.writes)
    (next : m'.nextSession = m.nextSession) : Order m' where
  sound := by
    have same : m'.desk = m.desk := by
      simp only [State.desk, line, holds, answer, writer]
    rw [same]
    exact o.sound
  index c := (index c).symm ▸ o.index c
  known {c σ} h := by
    have same : (m'.conns c).enqueued = (m.conns c).enqueued := congrArg Pipeline.enqueued (line c)
    rw [next]
    exact o.known (same ▸ h)
  held {w σ} h := by
    rw [next]
    exact o.held (holds w ▸ h)

/-- Work on the socket of a connection leaves the desk alone. -/
lemma touch {conn : HttpConn} (o : Order m) (h : Handled (m.conns c) conn) :
    Order { m with conns := Function.update m.conns c conn } := by
  refine o.congr (fun d => ?_) (fun d => ?_) (fun _ => rfl) (fun _ => rfl) rfl rfl
  · exact congrFun (update_read_same HttpConn.line m.conns h.line) d
  · exact congrFun (update_read_same HttpConn.requestIdx m.conns h.requestIdx) d

lemma place {p : HttpConn × RequestPc} {list : List Nat} (o : Order m)
    (h : Handled (m.conns c) p.1) : Order ({ m with connList := list }.place w c p) :=
  (o.touch h).congr (fun _ => rfl) (fun _ => rfl) (fun _ => rfl) (fun _ => rfl) rfl rfl

lemma settle {p : HttpConn × ResponsePc} (o : Order m) (h : Handled (m.conns c) p.1)
    (writer : p.2.writes = m.response.writes) : Order (m.settle c p) :=
  (o.touch h).congr (fun _ => rfl) (fun _ => rfl) (fun _ => rfl) (fun _ => rfl) writer rfl

/-- A session joins the queue of its connection. -/
lemma enqueue {s : Session} (o : Order m)
    (late : (m.conns c).failed = true → (m.conns c).requestQueue = []) :
    Order (m.enqueue cfg w c s) := by
  refine ⟨?_, fun d => ?_, fun {d σ} h => ?_, fun h => Nat.lt_succ_of_lt (o.held h)⟩
  · have e : (m.enqueue cfg w c s).desk =
        { m.desk with
          line := Function.update m.desk.line c ((m.desk.line c).enqueue m.nextSession)
          answer := Function.update m.desk.answer m.nextSession none } := by
      simp only [State.desk, State.enqueue, State.place, update_read HttpConn.line,
        update_read MasterSession.response]
      rfl
    rw [e]
    -- a session of this number is in no queue and in nobody's hands
    exact o.sound.enqueue (fun d mem => Nat.lt_irrefl _ (o.known mem))
      (fun u held => Nat.lt_irrefl _ (o.held held)) late
  · refine index_update o.index ?_ d
    exact o.index c
  · simp only [State.enqueue, State.place] at h ⊢
    by_cases e : d = c
    · subst e
      rw [Function.update_self] at h
      rcases List.mem_append.mp h with old | new
      · exact Nat.lt_succ_of_lt (o.known old)
      · rw [List.mem_singleton.mp new]
        exact Nat.lt_succ_self _
    · rw [Function.update_of_ne e] at h
      exact Nat.lt_succ_of_lt (o.known h)

lemma request {p : Parsed} (o : Order m) (r : Readers m) (h : RequestMove cfg m w p m') :
    Order m' := by
  cases h with
  | ended _ | scan _ | fault _ =>
    exact o.congr (fun _ => rfl) (fun _ => rfl) (fun _ => rfl) (fun _ => rfl) rfl rfl
  | read hand _ _ =>
    have same := (r.inHand hand).2.2.2.2
    exact o.place (same.trans ⟨rfl, rfl, rfl, rfl, rfl, rfl, rfl⟩)
  | raise hand _ => exact o.place (r.inHand hand).2.2.2.2
  | fail hand _ => exact o.place ((r.inHand hand).2.2.2.2.trans refuse_handles.handled)
  | @enqueue c deadline s state reading _ _ =>
    exact o.enqueue (r.held (show (m.request w).conn = some c by rw [reading]; rfl)).late
  | shut h =>
    rcases h with ⟨ok, -, h⟩ | ⟨sh, -, h⟩
    · exact o.place (shutFor_handles h).handled
    · exact o.place (shutFor_handles h).handled

lemma ordered (o : Order m) (c : Nat) :
    (m.conns c).line.Ordered (decide (m.response.writes = some c)) := o.sound.ordered c

/-- The queue of the connection that is written on. -/
lemma ordered_writing (o : Order m) {state : Option Bool} (h : m.response = .writing c state) :
    (m.conns c).line.Ordered true := by
  simpa [h, ResponsePc.writes] using o.ordered c

/-- One connection changes, its history apart. -/
lemma reline {conn : HttpConn} (o : Order m) (conns : m'.conns = Function.update m.conns c conn)
    (sound : m'.desk.Sound) (index : 0 ≤ conn.requestIdx)
    (history : conn.enqueued = (m.conns c).enqueued)
    (held : ∀ {w σ}, (m'.dispatch w).session = some σ → σ < m.nextSession)
    (next : m'.nextSession = m.nextSession) : Order m' where
  sound := sound
  index d := by
    rw [conns]
    exact index_update o.index index d
  known {d σ} h := by
    rw [next]
    rw [conns] at h
    by_cases e : d = c
    · subst e
      rw [Function.update_self, history] at h
      exact o.known h
    · rw [Function.update_of_ne e] at h
      exact o.known h
  held h := next ▸ held h

/-- A session that waits nowhere is answered. -/
lemma answer {σ : Nat} {b : Bytes} (o : Order m) (waits : ∀ c, σ ∉ (m.conns c).line.waiting) :
    Order (m.answer σ b) := by
  refine ⟨?_, o.index, o.known, o.held⟩
  have e : (m.answer σ b).desk =
      { m.desk with answer := Function.update m.desk.answer σ (some b) } := by
    simp only [State.desk, State.answer, update_read MasterSession.response]
  rw [e]
  exact o.sound.put waits

/-! ## The response worker -/

/-- The front session of a queue is written. -/
lemma issue {σ : Nat} {rest : List Nat} {b b' : Bytes} {a : Atomics} (o : Order m)
    (off : m.response.writes = none) (front : (m.conns c).requestQueue = σ :: rest)
    (answered : (m.sessions σ).response = some b) :
    Order ((m.answer σ b').settle c
      ({ m.conns c with sock := a, sent := (m.conns c).sent ++ [(some σ, b')] },
        .writing c none)) := by
  have waits := o.sound.not_waiting_of_answer (t := σ) (a := b) answered
  have ord : (m.conns c).line.Ordered false := by simpa [off] using o.ordered c
  refine o.reline rfl ?_ (o.index c) rfl o.held rfl
  have e : ((m.answer σ b').settle c
        ({ m.conns c with sock := a, sent := (m.conns c).sent ++ [(some σ, b')] },
          .writing c none)).desk =
      { m.desk with
        line := Function.update m.desk.line c ((m.desk.line c).issue σ)
        answer := Function.update m.desk.answer σ (some b')
        writer := some c } := by
    simp only [State.desk, State.settle, State.answer, update_read HttpConn.line,
      update_read MasterSession.response]
    simp [HttpConn.line, HttpConn.responses, Pipeline.issue, ResponsePc.writes]
  rw [e]
  refine (o.sound.put waits).move rfl (List.Subset.refl _) ?_ ?_
  · rw [decide_eq_true rfl]
    exact ord.issue front (waits c)
  · intro d ne
    simp only [Option.some.injEq]
    exact ⟨fun e => absurd e.symm ne, fun e => absurd (off.symm.trans e) (by simp)⟩

/-- The response worker leaves the connection it has written on. -/
lemma leave {p : Pipeline Nat} {conn : HttpConn} (o : Order m) (on : m.response.writes = some c)
    (line : conn.line = p) (history : conn.enqueued = (m.conns c).enqueued)
    (wait : p.waiting ⊆ (m.conns c).line.waiting) (ord : p.Ordered false)
    (index : 0 ≤ conn.requestIdx) : Order (m.settle c (conn, .head)) := by
  refine o.reline rfl ?_ index history o.held rfl
  have e : (m.settle c (conn, .head)).desk =
      { m.desk with line := Function.update m.desk.line c p, writer := none } := by
    simp only [State.desk, State.settle, update_read HttpConn.line, line]
    rfl
  rw [e]
  refine o.sound.move ?_ wait (by simpa using ord) ?_
  · rw [← line]
    exact history
  · intro d ne
    have at_c : m.desk.writer = some c := on
    rw [at_c]
    simpa using fun h => absurd h.symm ne

lemma turnsTo {m1 : State} (o : Order m) (h : TurnsTo m c m1) :
    Order m1 ∧ m1.response = .head := by
  cases h with
  | pick head _ _ => exact ⟨o, head⟩
  | paused paused =>
    refine ⟨o.congr (fun _ => rfl) (fun _ => rfl) (fun _ => rfl) (fun _ => rfl) ?_ rfl, rfl⟩
    rw [paused]
    rfl
  | written writing =>
    have on : m.response.writes = some c := by rw [writing]; rfl
    have ord := o.ordered_writing writing
    have pos : 0 < (m.conns c).requestIdx.toNat := (ord.front rfl).2
    -- the front session has been taken by a dispatch worker, so the index stays positive
    refine ⟨o.leave on (p := (m.conns c).line.retire) ?_ rfl ?_ ord.retire ?_, rfl⟩
    · simp only [HttpConn.line, HttpConn.responses, Pipeline.retire, Pipeline.mk.injEq, true_and, and_true]
      omega
    · rw [Pipeline.waiting_retire ord.live_of_busy (ord.front rfl).2]
      exact List.Subset.refl _
    · show 0 ≤ (m.conns c).requestIdx - 1
      omega
  | dropped writing =>
    have on : m.response.writes = some c := by rw [writing]; rfl
    have ord := o.ordered_writing writing
    exact ⟨o.leave on (p := (m.conns c).line.breakDown) rfl rfl (List.nil_subset _) ord.breakDown
      (o.index c), rfl⟩

lemma closeFor_settle {r : HttpConn × Option Shutdown} {drained : Prop} (o : Order m)
    (off : m.response.writes = none) (h : Shuts (m.conns c) drained r) :
    Order (m.settle c (State.closeFor c r)) := by
  obtain ⟨conn, sh⟩ := r
  cases sh with
  | none => exact o.settle (h.handled.trans ⟨rfl, rfl, rfl, rfl, rfl, rfl, rfl⟩) off.symm
  | some sh => exact o.settle h.handled off.symm

lemma serve (o : Order m) (head : m.response = .head) (h : ServeMove m c m') : Order m' := by
  have off : m.response.writes = none := by rw [head]; rfl
  have aside : ∀ {pc}, pc.writes = none → Order { m with response := pc } := fun e =>
    o.congr (fun _ => rfl) (fun _ => rfl) (fun _ => rfl) (fun _ => rfl) (e.trans off.symm) rfl
  cases h with
  | pause _ _ => exact aside rfl
  | write front answered _ => exact o.issue off front answered
  | @raise σ rest b e _ answered _ =>
    have put := o.answer (b := writtenResponse (m.conns c).keepAlive b)
      (o.sound.not_waiting_of_answer (t := σ) (a := b) answered)
    exact put.congr (fun _ => rfl) (fun _ => rfl) (fun _ => rfl) (fun _ => rfl) off.symm rfl
  | close _ _ shuts => exact o.closeFor_settle off shuts
  | done _ => exact aside rfl

lemma response (o : Order m) (h : ResponseMove m m') : Order m' := by
  cases h with
  | ended head =>
    refine o.congr (fun _ => rfl) (fun _ => rfl) (fun _ => rfl) (fun _ => rfl) ?_ rfl
    rw [head]
    rfl
  | idle => exact o
  | serve turns serves =>
    obtain ⟨o1, head⟩ := o.turnsTo turns
    exact o1.serve head serves
  | shut shutting shuts => exact o.closeFor_settle (by rw [shutting]; rfl) shuts

/-! ## The dispatch workers -/

/-- The session waits nowhere, and so may be given to a worker. -/
def Free (m : State) (σ : Nat) : Prop :=
  σ < m.nextSession ∧ ∀ c, σ ∉ (m.conns c).line.waiting

lemma free_of_held {σ : Nat} (o : Order m) (h : (m.dispatch w).session = some σ) : Free m σ :=
  ⟨o.held h, o.sound.not_waiting_of_held h⟩

/-- A worker moves, with a session that waits nowhere or with none. -/
lemma assign {pc : DispatchPc} (o : Order m) (free : ∀ σ, pc.session = some σ → Free m σ)
    (dispatch : m'.dispatch = Function.update m.dispatch w pc) (conns : m'.conns = m.conns)
    (answer : ∀ σ, (m'.sessions σ).response = (m.sessions σ).response)
    (response : m'.response = m.response) (next : m'.nextSession = m.nextSession) : Order m' := by
  have e : m'.desk =
      { m.desk with holds := Function.update m.desk.holds w pc.session } := by
    simp only [State.desk, conns, answer, response, dispatch, update_read DispatchPc.session]
  refine ⟨?_, by rw [conns]; exact o.index, by rw [conns, next]; exact o.known, fun {u σ} h => ?_⟩
  · rw [e]
    cases held : pc.session with
    | none => exact o.sound.leave
    | some σ => exact o.sound.hold (free σ held).2
  · rw [next]
    rw [dispatch] at h
    by_cases e : u = w
    · subst e
      rw [Function.update_self] at h
      exact (free σ h).1
    · rw [Function.update_of_ne e] at h
      exact o.held h

/-- The session is counted as taken, before a worker has it. -/
lemma take (o : Order m) : Order (m.take c) := by
  have ord := o.ordered c
  refine o.reline rfl ?_ ?_ rfl o.held rfl
  · have e : (m.take c).desk =
        { m.desk with line := Function.update m.desk.line c (m.desk.line c).take } := by
      simp only [State.desk, State.take, update_read HttpConn.line]
      have idx := o.index c
      simp only [HttpConn.line, HttpConn.responses, Pipeline.take, Desk.mk.injEq, and_true]
      refine congrArg (Function.update _ c) ?_
      simp only [Pipeline.mk.injEq, true_and, and_true]
      omega
    rw [e]
    refine o.sound.move rfl ?_ ord.take fun _ _ => Iff.rfl
    show (m.conns c).line.take.waiting ⊆ (m.conns c).line.waiting
    unfold Pipeline.waiting Pipeline.take
    split
    · exact List.Subset.refl _
    · exact List.drop_subset_drop_left _ (Nat.le_succ _)
  · have idx := o.index c
    show 0 ≤ (m.conns c).requestIdx + 1
    omega

/-- The session a worker is about to take. -/
lemma current {σ : Nat} (o : Order m) (h : (m.conns c).current = some σ) :
    (m.conns c).line.queue[(m.conns c).line.taken]? = some σ ∧ (m.conns c).line.broken = false ∧
      σ < m.nextSession := by
  unfold HttpConn.current at h
  split at h
  · have ord := o.ordered c
    obtain ⟨lt, e⟩ := List.getElem?_eq_some_iff.mp h
    refine ⟨h, ord.live_of_taken_lt lt, o.known (c := c) (ord.queue_subset ?_)⟩
    rw [← e]
    exact List.getElem_mem lt
  · cases h

lemma send {n : Nat} {job : Option Nat} (o : Order m) (free : ∀ σ, job = some σ → Free m σ) :
    Order (m.send cfg w n job) := by
  unfold State.send
  dsimp only
  split
  · exact o.assign (fun σ e => by cases e) rfl rfl (fun _ => rfl) rfl rfl
  · refine o.assign (fun σ e => ?_) rfl rfl (fun _ => rfl) rfl rfl
    exact free σ e

lemma depart {n : Nat} (o : Order m) : Order (m.depart cfg w n c) := by
  unfold State.depart
  split
  · rename_i σ cur
    obtain ⟨first, live, lt⟩ := o.current cur
    have idx := o.index c
    refine o.take.send fun τ e => ?_
    cases e
    refine ⟨lt, fun d => ?_⟩
    have out := o.sound.not_waiting_of_taken live first d
    by_cases e : d = c
    · subst e
      rw [Function.update_self] at out
      have same : ((m.take d).conns d).line = (m.conns d).line.take := by
        simp only [State.take, Function.update_self, HttpConn.line, HttpConn.responses,
          Pipeline.take, Pipeline.mk.injEq, true_and, and_true]
        omega
      rw [same]
      exact out
    · rw [Function.update_of_ne e] at out
      simp only [State.take, Function.update_of_ne e]
      exact out
  · exact o.take.assign (fun σ e => by cases e) rfl rfl (fun _ => rfl) rfl rfl

lemma giveUp {σ : Nat} {code : StateCode} (o : Order m) (free : Free m σ) :
    Order (m.giveUp w σ code) :=
  (o.answer free.2).assign (fun τ e => by cases e) rfl rfl (fun _ => rfl) rfl rfl

lemma receive {n : Nat} {job : Option Nat} {frame : Bytes} (o : Order m)
    (held : (m.dispatch w).session = job) : Order (m.receive w n job frame) := by
  unfold State.receive
  dsimp only
  split
  · rename_i σ
    exact (o.answer (o.free_of_held held).2).assign (fun τ e => by cases e) rfl rfl (fun _ => rfl)
      rfl rfl
  · split
    · exact o.assign (fun τ e => by cases e) rfl rfl (fun _ => rfl) rfl rfl
    · exact o.assign (fun τ e => by cases e) rfl rfl (fun _ => rfl) rfl rfl

lemma attempt {σ : Nat} (o : Order m) : Order (m.attempt σ) :=
  o.congr (fun _ => rfl) (fun _ => rfl) (fun _ => rfl) attempt_response rfl rfl

lemma retire {n : Nat} {job : Option Nat} {code : StateCode} (o : Order m)
    (held : (m.dispatch w).session = job) : Order (m.retire cfg w n job code) := by
  have driven : Order (m.drive w n ({ m.nodes n with state := .error }, .head)) :=
    o.assign (fun τ e => by cases e) rfl rfl (fun _ => rfl) rfl rfl
  unfold State.retire
  dsimp only
  split
  · exact driven
  · have free := o.free_of_held held
    split
    · split
      · exact driven.attempt.giveUp free
      · refine driven.attempt.assign (fun τ e => ?_) rfl rfl (fun _ => rfl) rfl rfl
        cases e
        exact free
    · exact driven.giveUp free

lemma picks {node : Option Nat} (o : Order m) (h : Picks m node m') : Order m' := by
  obtain ⟨list, ranks, rfl, -⟩ := h
  exact o.congr (fun _ => rfl) (fun _ => rfl) (fun _ => rfl) (fun _ => rfl) rfl rfl

lemma dispatch (o : Order m) (h : DispatchMove cfg m w m') : Order m' := by
  cases h with
  | @go pc follows =>
    refine o.assign (fun σ e => ?_) rfl rfl (fun _ => rfl) rfl rfl
    exact o.free_of_held (follows.2.1 ▸ e)
  | pick picks => exact o.picks picks
  | send _ same picks =>
    refine (o.picks picks).send fun σ e => ?_
    obtain ⟨list, ranks, rfl, -⟩ := picks
    exact o.free_of_held (same ▸ e)
  | depart _ picks _ _ => exact (o.picks picks).depart
  | receive place _ => exact o.receive (by rw [place]; rfl)
  | retire place => exact o.retire (by rw [place]; rfl)
  | giveUp place => exact o.giveUp (o.free_of_held (by rw [place]; rfl))

/-! ## Every step -/

lemma step {a : Action} (o : Order m) (r : Readers m) (h : Move cfg m a m') : Order m' := by
  cases h with
  | tick | stop | accept | spawn | spawned | reply =>
    exact o.congr (fun _ => rfl) (fun _ => rfl) (fun _ => rfl) (fun _ => rfl) rfl rfl
  | accepted =>
    have blank := r.fresh m.nextConn le_rfl
    refine (o.touch (c := m.nextConn) ?_).congr (fun _ => rfl) (fun _ => rfl) (fun _ => rfl)
      (fun _ => rfl) rfl rfl
    rw [blank]
    exact ⟨rfl, rfl, rfl, rfl, rfl, rfl, rfl⟩
  | request move => exact o.request r move
  | response move => exact o.response move
  | dispatch move => exact o.dispatch move
  | readDone _ => exact o.place ⟨rfl, rfl, rfl, rfl, rfl, rfl, rfl⟩
  | readLate _ => exact o.touch ⟨rfl, rfl, rfl, rfl, rfl, rfl, rfl⟩
  | refuseDone _ => exact o.place ⟨rfl, rfl, rfl, rfl, rfl, rfl, rfl⟩
  | responseDone writing => exact o.settle ⟨rfl, rfl, rfl, rfl, rfl, rfl, rfl⟩ (by rw [writing]; rfl)

end Order

end CovNet.Master
