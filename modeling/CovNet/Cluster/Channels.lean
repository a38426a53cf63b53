import CovNet.Cluster.Model

/-!
# What a step of the master does to the channels

The steps of the master that bring nothing in from a stream leave what has been read alone, and all they do to the
channels of a node is to send jobs: `Outward`. It is said once for all of them (`Outward.of_move`), so that the
invariants of the cluster never look into the steps of the master.
-/

namespace CovNet.Cluster
open Lib Text Http Master Socket

/-- A step that sends jobs, and leaves the sessions and the histories of the connections alone. -/
structure Outward (m m' : Master.State) : Prop where
  enqueued : ∀ c, (m'.conns c).enqueued = (m.conns c).enqueued
  count : ∀ c, (m'.conns c).requestCount = (m.conns c).requestCount
  session : ∀ σ, (m'.sessions σ).session = (m.sessions σ).session
  known : m'.nextSession = m.nextSession
  returned : m'.returned = m.returned
  inbox : ∀ n, (m'.nodes n).inbox = (m.nodes n).inbox
  outstanding : ∀ n, ∃ jobs, (m'.nodes n).outstanding = (m.nodes n).outstanding ++ jobs ∧
    ∀ σ, some σ ∈ jobs → σ < m.nextSession ∧ (serialize (m.sessions σ).session).isSome = true

namespace Outward
variable {cfg : Config} {m m' m1 : Master.State} {w c n : Nat}

/-- Nothing is sent. -/
lemma of_quiet (enqueued : ∀ c, (m'.conns c).enqueued = (m.conns c).enqueued)
    (count : ∀ c, (m'.conns c).requestCount = (m.conns c).requestCount)
    (session : ∀ σ, (m'.sessions σ).session = (m.sessions σ).session) (known : m'.nextSession = m.nextSession)
    (returned : m'.returned = m.returned) (nodes : ∀ n, (m'.nodes n).inbox = (m.nodes n).inbox ∧
      (m'.nodes n).outstanding = (m.nodes n).outstanding) : Outward m m' where
  enqueued := enqueued
  count := count
  session := session
  known := known
  returned := returned
  inbox n := (nodes n).1
  outstanding n := ⟨[], by rw [(nodes n).2, List.append_nil], nofun⟩

lemma refl : Outward m m :=
  of_quiet (fun _ => rfl) (fun _ => rfl) (fun _ => rfl) rfl rfl fun _ => ⟨rfl, rfl⟩

/-- A quiet step before another. -/
lemma trans_quiet (h : Outward m m1) (nodes : m1.nodes = m.nodes) (h' : Outward m1 m') : Outward m m' where
  enqueued c := (h'.enqueued c).trans (h.enqueued c)
  count c := (h'.count c).trans (h.count c)
  session σ := (h'.session σ).trans (h.session σ)
  known := h'.known.trans h.known
  returned := h'.returned.trans h.returned
  inbox n := (h'.inbox n).trans (h.inbox n)
  outstanding n := by
    obtain ⟨jobs, out, sent⟩ := h'.outstanding n
    refine ⟨jobs, by rw [out, nodes], fun σ mem => ?_⟩
    obtain ⟨lt, text⟩ := sent σ mem
    exact ⟨h.known ▸ lt, h.session σ ▸ text⟩

/-- Work on one connection that leaves its history alone. -/
lemma touch {conn : HttpConn} (conns : m'.conns = Function.update m.conns c conn)
    (enqueued : conn.enqueued = (m.conns c).enqueued) (count : conn.requestCount = (m.conns c).requestCount)
    (session : ∀ σ, (m'.sessions σ).session = (m.sessions σ).session) (known : m'.nextSession = m.nextSession)
    (returned : m'.returned = m.returned) (nodes : m'.nodes = m.nodes) : Outward m m' := by
  apply of_quiet _ _ session known returned
  · intro n
    rw [nodes]
    exact ⟨rfl, rfl⟩
  · rw [conns]
    exact congrFun (update_read_same HttpConn.enqueued m.conns enqueued)
  · rw [conns]
    exact congrFun (update_read_same HttpConn.requestCount m.conns count)

lemma handled {conn : HttpConn} (conns : m'.conns = Function.update m.conns c conn)
    (h : Handled (m.conns c) conn) (session : ∀ σ, (m'.sessions σ).session = (m.sessions σ).session)
    (known : m'.nextSession = m.nextSession) (returned : m'.returned = m.returned) (nodes : m'.nodes = m.nodes) :
    Outward m m' :=
  touch conns h.enqueued h.requestCount session known returned nodes

/-! ## The workers on the side of the clients -/

lemma of_request {p : Parsed} (r : Readers m) (h : RequestMove cfg m w p m')
    (more : ∀ s, p ≠ .session s) : Outward m m' := by
  cases h with
  | ended _ | scan _ | fault _ =>
    exact of_quiet (fun _ => rfl) (fun _ => rfl) (fun _ => rfl) rfl rfl fun _ => ⟨rfl, rfl⟩
  | read hand _ _ =>
    have same := (r.inHand hand).2.2.2.2
    exact touch rfl same.enqueued same.requestCount (fun _ => rfl) rfl rfl rfl
  | raise hand _ => exact handled rfl (r.inHand hand).2.2.2.2 (fun _ => rfl) rfl rfl rfl
  | fail hand _ =>
    exact handled rfl ((r.inHand hand).2.2.2.2.trans refuse_handles.handled) (fun _ => rfl) rfl rfl rfl
  | enqueue _ session _ => exact absurd session (more _)
  | shut h =>
    rcases h with ⟨ok, -, h⟩ | ⟨sh, -, h⟩
    · exact handled rfl (shutFor_handles h).handled (fun _ => rfl) rfl rfl rfl
    · exact handled rfl (shutFor_handles h).handled (fun _ => rfl) rfl rfl rfl

lemma closeFor_settle {shut : HttpConn × Option Shutdown} {drained : Prop} (h : Shuts (m.conns c) drained shut) :
    Outward m (m.settle c (State.closeFor c shut)) :=
  handled rfl (closeFor_spec h).1 (fun _ => rfl) rfl rfl rfl

lemma of_serve (h : ServeMove m c m') : Outward m m' := by
  cases h with
  | pause _ _ | done _ => exact of_quiet (fun _ => rfl) (fun _ => rfl) (fun _ => rfl) rfl rfl fun _ => ⟨rfl, rfl⟩
  | close _ _ shuts => exact closeFor_settle shuts
  | raise _ _ _ =>
    exact of_quiet (fun _ => rfl) (fun _ => rfl) answer_aside.session rfl rfl fun _ => ⟨rfl, rfl⟩
  | write _ _ _ => exact touch rfl rfl rfl answer_aside.session rfl rfl rfl

lemma of_response (h : ResponseMove m m') : Outward m m' := by
  cases h with
  | ended _ => exact of_quiet (fun _ => rfl) (fun _ => rfl) (fun _ => rfl) rfl rfl fun _ => ⟨rfl, rfl⟩
  | idle => exact refl
  | shut _ shuts => exact closeFor_settle shuts
  | serve turns serves =>
    refine trans_quiet ?_ ?_ (of_serve serves)
    · cases turns with
      | pick => exact refl
      | written _ | dropped _ => exact touch rfl rfl rfl (fun _ => rfl) rfl rfl rfl
      | paused _ => exact of_quiet (fun _ => rfl) (fun _ => rfl) (fun _ => rfl) rfl rfl fun _ => ⟨rfl, rfl⟩
    · cases turns <;> rfl

/-! ## The dispatch workers -/

/-- A node is updated, and jobs are sent to it. -/
lemma of_node {node : SlaveNode} {jobs : List (Option Nat)} (nodes : m'.nodes = Function.update m.nodes n node)
    (inbox : node.inbox = (m.nodes n).inbox) (outstanding : node.outstanding = (m.nodes n).outstanding ++ jobs)
    (sent : ∀ σ, some σ ∈ jobs → σ < m.nextSession ∧ (serialize (m.sessions σ).session).isSome = true)
    (conns : m'.conns = m.conns) (session : ∀ σ, (m'.sessions σ).session = (m.sessions σ).session)
    (known : m'.nextSession = m.nextSession) (returned : m'.returned = m.returned) : Outward m m' where
  enqueued _ := by rw [conns]
  count _ := by rw [conns]
  session := session
  known := known
  returned := returned
  inbox := by
    rw [nodes]
    exact congrFun (update_read_same SlaveNode.inbox m.nodes inbox)
  outstanding k := by
    rw [nodes, Function.update_apply]
    split
    · rename_i here
      exact ⟨jobs, by rw [here, outstanding], sent⟩
    · exact ⟨[], (List.append_nil _).symm, nofun⟩

lemma of_send {job : Option Nat} (known : ∀ σ, job = some σ → σ < m.nextSession) :
    Outward m (m.send cfg w n job) := by
  unfold State.send
  dsimp only
  split
  · exact of_node rfl rfl (List.append_nil _).symm nofun rfl (fun _ => rfl) rfl rfl
  · rename_i text
    refine of_node rfl rfl (show _ = (m.nodes n).outstanding ++ [job] from rfl) (fun σ mem => ?_) rfl (fun _ => rfl)
      rfl rfl
    obtain rfl := List.mem_singleton.mp mem
    exact ⟨known σ rfl, by simpa [Option.isSome_iff_ne_none] using text⟩

lemma of_depart (o : Order m) : Outward m (m.depart cfg w n c) := by
  have taken : Outward m (m.take c) := touch rfl rfl rfl (fun _ => rfl) rfl rfl rfl
  unfold State.depart
  split
  · rename_i σ cur
    refine taken.trans_quiet rfl (of_send fun τ e => ?_)
    cases e
    exact (o.current cur).2.2
  · exact taken.trans_quiet rfl (of_node rfl rfl (List.append_nil _).symm nofun rfl (fun _ => rfl) rfl rfl)

lemma of_retire {job : Option Nat} {code : StateCode} : Outward m (m.retire cfg w n job code) := by
  have same : ({ m.nodes n with state := .error } : SlaveNode).inbox = (m.nodes n).inbox := rfl
  refine of_node ?_ same (List.append_nil _).symm nofun
    retire_aside.conns retire_aside.session retire_aside.nextSession ?_
  · unfold State.retire
    dsimp only
    split
    · rfl
    · split
      · split <;> rfl
      · rfl
  · unfold State.retire
    dsimp only
    split
    · rfl
    · split
      · split <;> rfl
      · rfl

lemma of_picks {node : Option Nat} (h : Picks m node m') : Outward m m' ∧ m'.nodes = m.nodes := by
  obtain ⟨list, ranks, rfl, -⟩ := h
  exact ⟨of_quiet (fun _ => rfl) (fun _ => rfl) (fun _ => rfl) rfl rfl fun _ => ⟨rfl, rfl⟩, rfl⟩

lemma of_go {pc : DispatchPc} : Outward m (m.go w pc) :=
  of_quiet (fun _ => rfl) (fun _ => rfl) (fun _ => rfl) rfl rfl fun _ => ⟨rfl, rfl⟩

/-- A dispatch worker, unless it has received a frame. -/
lemma of_dispatch {r : NodeResult} (o : Order m) (h : m.dispatchStep cfg w r = some m')
    (out : inward m (.dispatch w r) = false) : Outward m m' := by
  cases dispatchStep_move h with
  | go _ => exact of_go
  | pick picks => exact (of_picks picks).1
  | send _ same picks =>
    obtain ⟨quiet, nodes⟩ := of_picks picks
    refine quiet.trans_quiet nodes (of_send fun σ e => ?_)
    rw [quiet.known]
    exact o.held (same ▸ e)
  | depart _ picks _ _ =>
    obtain ⟨quiet, nodes⟩ := of_picks picks
    exact quiet.trans_quiet nodes (of_depart (o.picks picks))
  | retire _ => exact of_retire
  | giveUp _ => exact of_quiet (fun _ => rfl) (fun _ => rfl) giveUp_aside.session rfl rfl fun _ => ⟨rfl, rfl⟩
  | receive place _ =>
    -- the operation has failed, and the worker gives its node up
    cases r with
    | ok =>
      simp only [inward, place] at out
      cases out
    | error =>
      simp only [State.dispatchStep, place, Option.some.injEq] at h
      rw [← h]
      exact of_go
    | timeout =>
      simp only [State.dispatchStep, place] at h
      split at h
      · rw [← Option.some.inj h]
        exact of_go
      · cases h

end Outward

/-- A frame that has been received leaves the inbox of its node. -/
lemma receive_channels (m : Master.State) (w n : Nat) (job : Option Nat) (frame : Bytes) :
    (m.receive w n job frame).returned = m.returned ∧
      ∀ k, ((m.receive w n job frame).nodes k).outstanding = (m.nodes k).outstanding ∧
        ((m.receive w n job frame).nodes k).inbox = if k = n then (m.nodes n).inbox.tail else (m.nodes k).inbox := by
  have update : ∀ node : SlaveNode, node.outstanding = (m.nodes n).outstanding →
      node.inbox = (m.nodes n).inbox.tail → ∀ k,
      (Function.update m.nodes n node k).outstanding = (m.nodes k).outstanding ∧
        (Function.update m.nodes n node k).inbox = if k = n then (m.nodes n).inbox.tail else (m.nodes k).inbox := by
    intro node outstanding inbox k
    rw [Function.update_apply]
    split
    · rename_i here
      rw [here]
      exact ⟨outstanding, inbox⟩
    · exact ⟨rfl, rfl⟩
  unfold State.receive
  dsimp only
  split
  · exact ⟨rfl, update _ rfl rfl⟩
  · split
    · exact ⟨rfl, update _ rfl rfl⟩
    · exact ⟨rfl, update _ rfl rfl⟩

/-- Every step of the master that brings nothing in. -/
lemma outward {cfg : Config} {m m' : Master.State} {a : Action} (i : Inv m) (h : m.next cfg a = some m')
    (out : inward m a = false) : Outward m m' := by
  have move := next_move h
  cases move with
  | tick | stop | accept | spawn =>
    exact .of_quiet (fun _ => rfl) (fun _ => rfl) (fun _ => rfl) rfl rfl fun _ => ⟨rfl, rfl⟩
  | accepted =>
    have blank := i.readers.fresh m.nextConn le_rfl
    exact .touch rfl (by rw [blank]) (by rw [blank]) (fun _ => rfl) rfl rfl rfl
  | spawned =>
    obtain ⟨out, ins⟩ := i.nodes.idle m.nextNode (i.nodes.fresh m.nextNode le_rfl)
    have fresh : [] = (m.nodes m.nextNode).outstanding ++ [] := by
      rw [out]
      rfl
    exact .of_node rfl ins.symm fresh nofun rfl (fun _ => rfl) rfl rfl
  | request move =>
    refine .of_request i.readers move fun s e => ?_
    subst e
    cases out
  | response move => exact .of_response move
  | dispatch _ => exact .of_dispatch i.order h out
  | readDone _ => exact .handled rfl ⟨rfl, rfl, rfl, rfl, rfl, rfl, rfl⟩ (fun _ => rfl) rfl rfl rfl
  | readLate _ => exact .handled rfl ⟨rfl, rfl, rfl, rfl, rfl, rfl, rfl⟩ (fun _ => rfl) rfl rfl rfl
  | refuseDone _ => exact .handled rfl ⟨rfl, rfl, rfl, rfl, rfl, rfl, rfl⟩ (fun _ => rfl) rfl rfl rfl
  | responseDone _ => exact .handled rfl ⟨rfl, rfl, rfl, rfl, rfl, rfl, rfl⟩ (fun _ => rfl) rfl rfl rfl
  | reply _ => cases out

end CovNet.Cluster
