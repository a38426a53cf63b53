import CovNet.Master.Moves

/-!
# Slave nodes

A dispatch worker has its node for itself: the node is busy, and of everything that was sent to it only
the worker's own job is unanswered or waits to be read. So the frame a worker receives is the one its
slave returned for the worker's session. A node that has not answered is never ready again, which is why
an answer that comes late goes to nobody.
-/

namespace CovNet.Master
open Lib Text Http Socket

/-- Who has which node, and what is under way between them. -/
structure Nodes (m : State) : Prop where
  listed : ∀ n ∈ m.slaveList, n < m.nextNode
  fresh : ∀ n, m.nextNode ≤ n → (m.nodes n).state = .ready
  busy : ∀ {w n}, (m.dispatch w).node = some n → (m.nodes n).state = .busy ∧ n < m.nextNode
  uniq : ∀ {w u n}, (m.dispatch w).node = some n → (m.dispatch u).node = some n → w = u
  idle : ∀ n, (m.nodes n).state = .ready → (m.nodes n).outstanding = [] ∧ (m.nodes n).inbox = []
  flight : ∀ {w n job}, (m.dispatch w).pending = some (n, job) →
    (m.nodes n).inbox.map Prod.fst ++ (m.nodes n).outstanding = [job]
  origin : ∀ {n σ b}, (some σ, b) ∈ (m.nodes n).inbox → (σ, b) ∈ m.returned

lemma DispatchPc.node_of_pending {pc : DispatchPc} {n : Nat} {job : Option Nat}
    (h : pc.pending = some (n, job)) : pc.node = some n ∧ pc.session = job := by
  cases pc with
  | sending | sendingBody | receiving =>
    cases h
    exact ⟨rfl, rfl⟩
  | head | retiring | awaiting | raised | ended => cases h

namespace Nodes
variable {cfg : Config} {m m' : State} {w n : Nat} {job : Option Nat}

lemma init : Nodes {} where
  listed n mem := by cases mem
  fresh n _ := rfl
  busy e := by cases e
  uniq e := by cases e
  idle n _ := ⟨rfl, rfl⟩
  flight e := by cases e
  origin mem := by cases mem

lemma congr (s : Nodes m) (nodes : m'.nodes = m.nodes) (dispatch : m'.dispatch = m.dispatch)
    (returned : m'.returned = m.returned) (slaveList : m'.slaveList ⊆ m.slaveList)
    (nextNode : m'.nextNode = m.nextNode) : Nodes m' where
  listed n mem := nextNode ▸ s.listed n (slaveList mem)
  fresh := by
    rw [nodes, nextNode]
    exact s.fresh
  busy := by
    rw [dispatch, nodes, nextNode]
    exact s.busy
  uniq := by
    rw [dispatch]
    exact s.uniq
  idle := by
    rw [nodes]
    exact s.idle
  flight := by
    rw [dispatch, nodes]
    exact s.flight
  origin := by
    rw [nodes, returned]
    exact s.origin

/-- Nobody has a node that is not busy. -/
lemma free (s : Nodes m) (ready : (m.nodes n).state = .ready) (u : Nat) :
    (m.dispatch u).node ≠ some n := by
  intro has
  exact absurd (ready.symm.trans (s.busy has).1) (by decide)

/-- A worker that nobody shares its node with moves. -/
lemma drive {p : SlaveNode × DispatchPc} (s : Nodes m) (known : n < m.nextNode)
    (alone : ∀ u, u ≠ w → (m.dispatch u).node ≠ some n)
    (busy : ∀ k, p.2.node = some k → k = n ∧ p.1.state = .busy)
    (idle : p.1.state = .ready → p.1.outstanding = [] ∧ p.1.inbox = [])
    (flight : ∀ k job, p.2.pending = some (k, job) →
      p.1.inbox.map Prod.fst ++ p.1.outstanding = [job])
    (origin : p.1.inbox ⊆ (m.nodes n).inbox) : Nodes (m.drive w n p) := by
  have other : ∀ {u k}, u ≠ w → (m.dispatch u).node = some k → k ≠ n := by
    rintro u k ne has rfl
    exact alone u ne has
  refine ⟨s.listed, fun k le => ?_, fun {u k} has => ?_, fun {u v k} has has' => ?_, fun k ready => ?_,
    fun {u k job} under => ?_, fun {k σ b} mem => ?_⟩
  · have ne : k ≠ n := by
      rintro rfl
      exact absurd known (Nat.not_lt.mpr le)
    simp only [State.drive, Function.update_of_ne ne]
    exact s.fresh k le
  · simp only [State.drive] at has ⊢
    by_cases eu : u = w
    · subst eu
      rw [Function.update_self] at has
      obtain ⟨rfl, h⟩ := busy k has
      rw [Function.update_self]
      exact ⟨h, known⟩
    · rw [Function.update_of_ne eu] at has
      rw [Function.update_of_ne (other eu has)]
      exact s.busy has
  · simp only [State.drive] at has has'
    -- the others have nodes of their own, and nobody else has this one
    by_cases eu : u = w <;> by_cases ev : v = w
    · rw [eu, ev]
    · subst eu
      rw [Function.update_self] at has
      rw [Function.update_of_ne ev] at has'
      exact absurd (busy k has).1 (other ev has')
    · subst ev
      rw [Function.update_self] at has'
      rw [Function.update_of_ne eu] at has
      exact absurd (busy k has').1 (other eu has)
    · rw [Function.update_of_ne eu] at has
      rw [Function.update_of_ne ev] at has'
      exact s.uniq has has'
  · simp only [State.drive] at ready ⊢
    by_cases ek : k = n
    · subst ek
      rw [Function.update_self] at ready ⊢
      exact idle ready
    · rw [Function.update_of_ne ek] at ready ⊢
      exact s.idle k ready
  · simp only [State.drive] at under ⊢
    by_cases eu : u = w
    · subst eu
      rw [Function.update_self] at under
      obtain ⟨rfl, -⟩ := busy k (DispatchPc.node_of_pending under).1
      rw [Function.update_self]
      exact flight k job under
    · rw [Function.update_of_ne eu] at under
      rw [Function.update_of_ne (other eu (DispatchPc.node_of_pending under).1)]
      exact s.flight under
  · simp only [State.drive] at mem
    by_cases ek : k = n
    · subst ek
      rw [Function.update_self] at mem
      exact s.origin (origin mem)
    · rw [Function.update_of_ne ek] at mem
      exact s.origin mem

/-- A worker goes on with the node it has, or gives it up. -/
lemma go {pc : DispatchPc} (s : Nodes m) (node : pc.node = (m.dispatch w).node ∨ pc.node = none)
    (pending : pc.pending = (m.dispatch w).pending ∨ pc.pending = none) : Nodes (m.go w pc) := by
  have old : ∀ {u k}, ((m.go w pc).dispatch u).node = some k → (m.dispatch u).node = some k := by
    intro u k has
    simp only [State.go] at has
    by_cases eu : u = w
    · subst eu
      rw [Function.update_self] at has
      rcases node with e | e
      · exact e ▸ has
      · rw [e] at has
        cases has
    · rwa [Function.update_of_ne eu] at has
  refine ⟨s.listed, s.fresh, fun has => s.busy (old has),
    fun has has' => s.uniq (old has) (old has'), s.idle, fun {u k job} under => ?_, s.origin⟩
  simp only [State.go] at under
  by_cases eu : u = w
  · subst eu
    rw [Function.update_self] at under
    rcases pending with e | e
    · exact s.flight (e ▸ under)
    · rw [e] at under
      cases under
  · rw [Function.update_of_ne eu] at under
    exact s.flight under

/-- A job goes to a ready node. -/
lemma send (s : Nodes m) (known : n < m.nextNode) (ready : (m.nodes n).state = .ready) :
    Nodes (m.send cfg w n job) := by
  have alone : ∀ u, u ≠ w → (m.dispatch u).node ≠ some n := fun u _ => s.free ready u
  obtain ⟨out, ins⟩ := s.idle n ready
  unfold State.send
  dsimp only
  split
  · refine s.drive known alone (fun k e => by cases e) (fun e => by cases e) (fun k j e => by cases e) ?_
    exact List.Subset.refl _
  · refine (s.drive known alone (fun k e => ?_) (fun e => by cases e) (fun k j e => ?_) ?_).congr
      rfl rfl rfl (List.Subset.refl _) rfl
    · cases e
      exact ⟨rfl, rfl⟩
    · cases e
      simp [out, ins]
    · exact List.Subset.refl _

lemma depart {c : Nat} (s : Nodes m) (known : n < m.nextNode) (ready : (m.nodes n).state = .ready) :
    Nodes (m.depart cfg w n c) := by
  have taken : Nodes (m.take c) := s.congr rfl rfl rfl (List.Subset.refl _) rfl
  unfold State.depart
  split
  · exact taken.send known ready
  · refine taken.drive known (fun u _ => s.free ready u) (fun k e => by cases e) (fun e => by cases e)
      (fun k j e => by cases e) ?_
    exact List.Subset.refl _

/-- The one frame a worker can receive is the answer to its own job. -/
lemma receiving {deadline : Nat} {tag : Option Nat} {frame : Bytes}
    {rest : List (Option Nat × Bytes)} (s : Nodes m)
    (receiving : m.dispatch w = .receiving n job deadline)
    (inbox : (m.nodes n).inbox = (tag, frame) :: rest) :
    tag = job ∧ rest = [] ∧ (m.nodes n).outstanding = [] := by
  have flight : (m.nodes n).inbox.map Prod.fst ++ (m.nodes n).outstanding = [job] := by
    apply s.flight
    rw [receiving]
    rfl
  rw [inbox] at flight
  simpa using flight

lemma receive {deadline : Nat} {tag : Option Nat} {frame : Bytes}
    {rest : List (Option Nat × Bytes)} (s : Nodes m)
    (place : m.dispatch w = .receiving n job deadline)
    (inbox : (m.nodes n).inbox = (tag, frame) :: rest) : Nodes (m.receive w n job frame) := by
  obtain ⟨-, rfl, out⟩ := s.receiving place inbox
  have has : (m.dispatch w).node = some n := by rw [place]; rfl
  have known := (s.busy has).2
  have alone : ∀ u, u ≠ w → (m.dispatch u).node ≠ some n := fun u ne has' => ne (s.uniq has' has)
  have sub : (m.nodes n).inbox.tail ⊆ (m.nodes n).inbox := List.tail_subset _
  -- the inbox is empty once the frame has been read, so the node may be ready again
  have empty : (m.nodes n).outstanding = [] ∧ (m.nodes n).inbox.tail = [] := by simp [out, inbox]
  unfold State.receive
  dsimp only
  split
  · rename_i σ
    have answered : Nodes (m.answer σ frame) := s.congr rfl rfl rfl (List.Subset.refl _) rfl
    exact answered.drive known alone (fun k e => by cases e) (fun _ => empty) (fun k j e => by cases e) sub
  · split
    · exact s.drive known alone (fun k e => by cases e) (fun _ => empty) (fun k j e => by cases e) sub
    · have busy := (s.busy has).1
      refine s.drive known alone (fun k e => ?_) (fun ready => ?_) (fun k j e => by cases e) sub
      · cases e
        exact ⟨rfl, busy⟩
      · exact absurd (busy.symm.trans ready) (by decide)

lemma giveUp {σ : Nat} {code : StateCode} (s : Nodes m) : Nodes (m.giveUp w σ code) := by
  have answered : Nodes (m.answer σ (composeResponse code.text)) :=
    s.congr rfl rfl rfl (List.Subset.refl _) rfl
  exact answered.go (.inr rfl) (.inr rfl)

lemma retire {code : StateCode} (s : Nodes m) (place : m.dispatch w = .retiring n job code) :
    Nodes (m.retire cfg w n job code) := by
  have has : (m.dispatch w).node = some n := by rw [place]; rfl
  have driven : Nodes (m.drive w n ({ m.nodes n with state := .error }, .head)) := by
    refine s.drive (s.busy has).2 (fun u ne has' => ne (s.uniq has' has)) (fun k e => by cases e)
      (fun e => by cases e) (fun k j e => by cases e) ?_
    exact List.Subset.refl _
  unfold State.retire
  dsimp only
  split
  · exact driven
  · rename_i σ
    have counted : Nodes
        ((m.drive w n ({ m.nodes n with state := .error }, .head)).attempt σ) :=
      driven.congr rfl rfl rfl (List.Subset.refl _) rfl
    split
    · split
      · exact counted.giveUp
      · exact counted.go (.inr rfl) (.inr rfl)
    · exact driven.giveUp

lemma picks {node : Option Nat} (s : Nodes m) (h : Picks m node m') :
    Nodes m' ∧ ∀ n, node = some n → n < m'.nextNode ∧ (m'.nodes n).state = .ready := by
  obtain ⟨list, ranks, rfl, -, sub, out⟩ := h
  exact ⟨s.congr rfl rfl rfl sub rfl, fun n e => ⟨s.listed n (out n e).1, (out n e).2⟩⟩

lemma dispatch (s : Nodes m) (h : DispatchMove cfg m w m') : Nodes m' := by
  cases h with
  | go follows => exact s.go (.inl follows.1) follows.2.2
  | pick picks => exact (s.picks picks).1
  | send _ _ picks =>
    obtain ⟨s1, out⟩ := s.picks picks
    exact s1.send (out _ rfl).1 (out _ rfl).2
  | depart _ picks _ _ =>
    obtain ⟨s1, out⟩ := s.picks picks
    exact s1.depart (out _ rfl).1 (out _ rfl).2
  | receive place inbox => exact s.receive place inbox
  | retire place => exact s.retire place
  | giveUp _ => exact s.giveUp

/-- A slave answers: the message moves from one channel to the other. -/
lemma reply {frame : Bytes} {rest : List (Option Nat)} (s : Nodes m)
    (first : (m.nodes n).outstanding = job :: rest) :
    Nodes { m with
      nodes := Function.update m.nodes n
        { m.nodes n with
          outstanding := rest
          inbox := (m.nodes n).inbox ++ [(job, frame)] }
      returned := m.returned ++ (job.map (·, frame)).toList } := by
  refine ⟨s.listed, fun k le => ?_, fun {w k} has => ?_, s.uniq, fun k ready => ?_,
    fun {w k j} under => ?_, fun {k σ b} mem => ?_⟩
  · by_cases e : k = n
    · subst e
      simpa only [Function.update_self] using s.fresh k le
    · simpa only [Function.update_of_ne e] using s.fresh k le
  · by_cases e : k = n
    · subst e
      simpa only [Function.update_self] using s.busy has
    · simpa only [Function.update_of_ne e] using s.busy has
  · by_cases e : k = n
    · subst e
      simp only [Function.update_self] at ready
      rw [(s.idle k ready).1] at first
      cases first
    · simp only [Function.update_of_ne e] at ready ⊢
      exact s.idle k ready
  · by_cases e : k = n
    · subst e
      have flight := s.flight under
      rw [first] at flight
      simpa using flight
    · simpa only [Function.update_of_ne e] using s.flight under
  · by_cases e : k = n
    · subst e
      simp only [Function.update_self] at mem
      rcases List.mem_append.mp mem with old | new
      · exact List.mem_append_left _ (s.origin old)
      · cases List.mem_singleton.mp new
        exact List.mem_append_right _ (by simp)
    · simp only [Function.update_of_ne e] at mem
      exact List.mem_append_left _ (s.origin mem)

/-- A new node has nothing under way. -/
lemma spawned {rank : Nat} {pc : SpawnPc} (s : Nodes m) :
    Nodes { m with
      spawn := pc
      nodes := Function.update m.nodes m.nextNode { rank, lastConnTime := m.now }
      slaveList := m.slaveList ++ [m.nextNode]
      nextNode := m.nextNode + 1 } := by
  -- no worker can have the new node yet
  have other : ∀ {w k}, (m.dispatch w).node = some k → k ≠ m.nextNode := fun has => (s.busy has).2.ne
  refine ⟨fun k mem => ?_, fun k (le : m.nextNode + 1 ≤ k) => ?_, fun {w k} has => ?_, s.uniq,
    fun k ready => ?_, fun {w k j} under => ?_, fun {k σ b} mem => ?_⟩
  · rcases List.mem_append.mp mem with old | new
    · exact Nat.lt_succ_of_lt (s.listed k old)
    · rw [List.mem_singleton.mp new]
      exact Nat.lt_succ_self _
  · simp only [Function.update_of_ne (show k ≠ m.nextNode by omega)]
    exact s.fresh k (by omega)
  · simp only [Function.update_of_ne (other has)]
    exact ⟨(s.busy has).1, Nat.lt_succ_of_lt (s.busy has).2⟩
  · by_cases e : k = m.nextNode
    · subst e
      simp
    · simp only [Function.update_of_ne e] at ready ⊢
      exact s.idle k ready
  · simp only [Function.update_of_ne (other (DispatchPc.node_of_pending under).1)]
    exact s.flight under
  · by_cases e : k = m.nextNode
    · subst e
      simp at mem
    · simp only [Function.update_of_ne e] at mem
      exact s.origin mem

/-- What the workers on the side of the clients leave alone. -/
lemma request {p : Parsed} (s : Nodes m) (h : RequestMove cfg m w p m') : Nodes m' := by
  cases h <;> exact s.congr rfl rfl rfl (List.Subset.refl _) rfl

lemma serve {c : Nat} (s : Nodes m) (h : ServeMove m c m') : Nodes m' := by
  cases h <;> exact s.congr rfl rfl rfl (List.Subset.refl _) rfl

lemma response (s : Nodes m) (h : ResponseMove m m') : Nodes m' := by
  cases h with
  | idle => exact s
  | serve turns serves =>
    refine Nodes.serve ?_ serves
    cases turns <;> exact s.congr rfl rfl rfl (List.Subset.refl _) rfl
  | ended _ | shut _ _ => exact s.congr rfl rfl rfl (List.Subset.refl _) rfl

/-- Every step keeps each worker alone with its node. -/
lemma step {a : Action} (s : Nodes m) (h : Move cfg m a m') : Nodes m' := by
  cases h with
  | request move => exact s.request move
  | response move => exact s.response move
  | dispatch move => exact s.dispatch move
  | spawned => exact s.spawned
  | reply first => exact s.reply first
  | tick | stop | accept | accepted | spawn | readDone _ | readLate _ | refuseDone _ | responseDone _ =>
    exact s.congr rfl rfl rfl (List.Subset.refl _) rfl

end Nodes

end CovNet.Master
