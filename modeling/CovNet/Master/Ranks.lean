import CovNet.Master.Correlation

/-!
# The ranks of the slaves

A slave gets its rank before the handshake: the first of `deprecated_rank`, or the size of `slave_list` if
there is none. The ranks of the listed nodes, the recycled ones and the one of the handshake under way are
then the numbers below their own count (`Ranks`), so that the size of the list is always a new rank.

A handshake that fails drops its rank. If that was the highest one the others still have no gap; a recycled
rank leaves a gap, the list becomes shorter than its highest rank, and its size is given out twice
(`rank_given_twice`). `keepsRank` excludes this, and in every run whose steps all meet it the ranks are
unique (`ranks_unique`).
-/

namespace CovNet.Master
open Lib Text Http Socket

/-- The rank of the handshake under way. -/
def SpawnPc.rank : SpawnPc → Option Nat
  | .handshake rank => some rank
  | _ => none

/-- The ranks in use: of listed nodes, recycled, and under way. -/
def State.ranks (m : State) : List Nat :=
  ranksOf m.nodes m.slaveList ++ m.deprecatedRank ++ m.spawn.rank.toList

/-- The slave has answered the handshake as it should. -/
def greets (rank : Nat) (r : Option Bytes) : Bool :=
  decide (r.map (split ' ') = some [bytes "WORKER", serverVersion, decimal rank])

/-- If the step is a handshake that fails, its rank is the highest one in use. -/
def keepsRank (m : State) : Action → Bool
  | .spawn r =>
    match m.spawn with
    | .handshake rank => greets rank r || rank == m.slaveList.length + m.deprecatedRank.length
    | _ => true
  | _ => true

/-- The ranks in use have no gap. -/
def Ranks (m : State) : Prop := m.ranks.Perm (List.range m.ranks.length)

lemma ranksOf_update {nodes : Nat → SlaveNode} {n : Nat} {node : SlaveNode} {list : List Nat}
    (h : node.rank = (nodes n).rank) : ranksOf (Function.update nodes n node) list = ranksOf nodes list := by
  unfold ranksOf
  rw [update_read_same SlaveNode.rank nodes h]

/-- A new node brings its rank. -/
lemma ranksOf_new {nodes : Nat → SlaveNode} {n : Nat} {node : SlaveNode} {list : List Nat}
    (new : n ∉ list) :
    ranksOf (Function.update nodes n node) (list ++ [n]) = ranksOf nodes list ++ [node.rank] := by
  unfold ranksOf
  rw [List.map_append]
  congr 1
  · apply List.map_congr_left
    intro k mem
    have ne : k ≠ n := by
      rintro rfl
      exact new mem
    rw [Function.update_of_ne ne]
  · simp

section Dispatch
variable {cfg : Config} {m m' : State} {w n : Nat} {job : Option Nat}

/-- A node changes, and keeps its rank. -/
lemma ranks_update {node : SlaveNode} (nodes : m'.nodes = Function.update m.nodes n node)
    (rank : node.rank = (m.nodes n).rank) (list : m'.slaveList = m.slaveList)
    (recycled : m'.deprecatedRank = m.deprecatedRank) (spawn : m'.spawn = m.spawn) :
    m'.ranks = m.ranks := by
  rw [State.ranks, nodes, list, recycled, spawn, ranksOf_update rank]
  rfl

lemma drive_ranks {p : SlaveNode × DispatchPc} (rank : p.1.rank = (m.nodes n).rank) :
    (m.drive w n p).ranks = m.ranks :=
  ranks_update rfl rank rfl rfl rfl

lemma send_ranks : (m.send cfg w n job).ranks = m.ranks := by
  unfold State.send
  dsimp only
  split
  · exact drive_ranks rfl
  · exact ranks_update rfl rfl rfl rfl rfl

lemma depart_ranks {c : Nat} : (m.depart cfg w n c).ranks = m.ranks := by
  unfold State.depart
  split
  · exact send_ranks
  · exact drive_ranks rfl

lemma receive_ranks {frame : Bytes} : (m.receive w n job frame).ranks = m.ranks := by
  unfold State.receive
  dsimp only
  split
  · exact drive_ranks rfl
  · split
    · exact drive_ranks rfl
    · exact drive_ranks rfl

lemma retire_ranks {code : StateCode} : (m.retire cfg w n job code).ranks = m.ranks := by
  have driven : (m.drive w n ({ m.nodes n with state := .error }, .head)).ranks = m.ranks :=
    drive_ranks rfl
  unfold State.retire
  dsimp only
  split
  · exact driven
  · split
    · split
      · exact driven
      · exact driven
    · exact driven

/-- The dispatch workers recycle ranks, and lose none. -/
lemma DispatchMove.ranks (h : DispatchMove cfg m w m') : m'.ranks.Perm m.ranks := by
  have picked : ∀ {node m1}, Picks m node m1 → m1.ranks.Perm m.ranks := by
    intro node m1 picks
    obtain ⟨list, ranks, rfl, perm, -⟩ := picks
    exact perm.append_right _
  cases h with
  | go _ => exact .refl _
  | pick picks => exact picked picks
  | send _ _ picks =>
    rw [send_ranks]
    exact picked picks
  | depart _ picks _ _ =>
    rw [depart_ranks]
    exact picked picks
  | receive _ _ => rw [receive_ranks]
  | retire _ => rw [retire_ranks]
  | giveUp _ => exact .refl _

end Dispatch

namespace Ranks
variable {cfg : Config} {m m' : State}

lemma init : Ranks {} := List.Perm.refl _

lemma of_perm (k : Ranks m) (perm : m'.ranks.Perm m.ranks) : Ranks m' := by
  unfold Ranks
  rw [perm.length_eq]
  exact perm.trans k

lemma congr (k : Ranks m) (nodes : m'.nodes = m.nodes) (list : m'.slaveList = m.slaveList)
    (ranks : m'.deprecatedRank = m.deprecatedRank) (spawn : m'.spawn = m.spawn) : Ranks m' := by
  refine k.of_perm (.of_eq ?_)
  rw [State.ranks, nodes, list, ranks, spawn]
  rfl

/-- The size of the list is a new rank when no rank is recycled. -/
lemma fresh (k : Ranks m) (idle : m.spawn.rank = none) (none : m.deprecatedRank = []) :
    Ranks { m with spawn := .handshake m.slaveList.length } := by
  unfold Ranks State.ranks at *
  have len : (ranksOf m.nodes m.slaveList).length = m.slaveList.length := List.length_map ..
  simp only [idle, none, Option.toList_none, List.append_nil, len] at k
  simp only [SpawnPc.rank, none, Option.toList_some, List.append_nil, List.length_append, len,
    List.length_singleton, List.range_succ]
  exact k.append_right _

/-- The highest rank may be dropped. -/
lemma drop {rank : Nat} (k : Ranks m) (under : m.spawn = .handshake rank)
    (highest : rank = m.slaveList.length + m.deprecatedRank.length) :
    Ranks { m with spawn := .head } := by
  unfold Ranks State.ranks at *
  have len : (ranksOf m.nodes m.slaveList).length = m.slaveList.length := List.length_map ..
  simp only [under, SpawnPc.rank, Option.toList_some, List.length_append, len, List.length_singleton,
    ← highest, List.range_succ] at k
  simp only [SpawnPc.rank, Option.toList_none, List.append_nil, List.length_append, len, ← highest]
  exact (List.perm_append_right_iff _).mp k

/-- The slave of the handshake joins the list under its rank. -/
lemma join {rank : Nat} (k : Ranks m) (s : Nodes m) (under : m.spawn = .handshake rank) :
    Ranks { m with
      spawn := .head
      nodes := Function.update m.nodes m.nextNode { rank, lastConnTime := m.now }
      slaveList := m.slaveList ++ [m.nextNode]
      nextNode := m.nextNode + 1 } := by
  refine k.of_perm ?_
  have new : m.nextNode ∉ m.slaveList := fun mem => Nat.lt_irrefl _ (s.listed _ mem)
  simp only [State.ranks, under, SpawnPc.rank, Option.toList_none, Option.toList_some, List.append_nil,
    ranksOf_new new, List.append_assoc]
  exact List.perm_append_comm.append_left _

lemma spawnStep {r : Option Bytes} (k : Ranks m) (s : Nodes m) (h : m.spawnStep r = some m')
    (ok : keepsRank m (.spawn r) = true) : Ranks m' := by
  unfold State.spawnStep at h
  split at h
  · rename_i head
    cases h
    refine k.of_perm (.of_eq ?_)
    simp only [State.ranks, head]
    split
    · rfl
    · rfl
  · rename_i accepting
    split at h
    · cases h
      refine k.of_perm (.of_eq ?_)
      simp only [State.ranks, accepting, SpawnPc.rank]
    · rename_i rank ranks recycled
      cases h
      refine k.of_perm ?_
      simp only [State.ranks, accepting, recycled, SpawnPc.rank, Option.toList_none, Option.toList_some,
        List.append_nil, List.append_assoc]
      exact (List.perm_append_singleton rank ranks).append_left _
    · rename_i none
      cases h
      exact k.fresh (by rw [accepting]; rfl) none
  · rename_i rank under
    split at h
    · cases h
      exact k.join s under
    · rename_i fails
      cases h
      -- the greeting has failed, so by the condition no rank in use is higher
      have no : greets rank r = false := decide_eq_false fails
      simp only [keepsRank, under, no, Bool.false_or, beq_iff_eq] at ok
      exact k.drop under ok
  · cases h

lemma step {a : Action} (k : Ranks m) (s : Nodes m) (h : m.next cfg a = some m')
    (ok : keepsRank m a = true) : Ranks m' := by
  have move := next_move h
  cases a with
  | spawn r => exact k.spawnStep s h ok
  | dispatch w r =>
    cases move with
    | dispatch move => exact k.of_perm move.ranks
  | reply n frame =>
    cases move with
    | reply first =>
      exact k.of_perm (.of_eq (ranks_update rfl rfl rfl rfl rfl))
  | request w p =>
    cases move with
    | request move => cases move <;> exact k.congr rfl rfl rfl rfl
  | response =>
    cases move with
    | response move =>
      cases move with
      | serve turns serves => cases turns <;> cases serves <;> exact k.congr rfl rfl rfl rfl
      | ended _ | idle | shut _ _ => exact k.congr rfl rfl rfl rfl
  | tick | stop | accept | readDone | readLate | refuseDone | responseDone =>
    cases move <;> exact k.congr rfl rfl rfl rfl

end Ranks

/-- In a run whose failed handshakes all had the highest rank in use, no two nodes of the list have the same
rank, and no recycled rank is that of a node of the list. -/
theorem ranks_unique (cfg : Config) (m : State)
    (run : ((master cfg).restrict fun m a => keepsRank m a = true).Reachable m) :
    (m.slaveList.map fun n => (m.nodes n).rank).Nodup ∧
      ∀ rank ∈ m.deprecatedRank, ∀ n ∈ m.slaveList, (m.nodes n).rank ≠ rank := by
  have both : Nodes m ∧ Ranks m := by
    refine run.invariant (I := fun m => Nodes m ∧ Ranks m) ?_ ?_
    · rintro _ rfl
      exact ⟨.init, .init⟩
    intro m a m' ⟨s, k⟩ st
    obtain ⟨ok, st⟩ := System.restrict_next.mp st
    exact ⟨s.step (next_move st), k.step s st ok⟩
  have nodup : (ranksOf m.nodes m.slaveList ++ m.deprecatedRank ++ m.spawn.rank.toList).Nodup :=
    both.2.nodup_iff.mpr List.nodup_range
  obtain ⟨listed, -, apart⟩ := List.nodup_append'.mp nodup.of_append_left
  refine ⟨listed, fun rank old n mem same => ?_⟩
  exact apart (List.mem_map.mpr ⟨n, mem, same⟩) old

/-- Two slaves connect, and the handshake of a third fails. -/
theorem ranks_unique_two :
    ∃ m, ((master {}).restrict fun m a => keepsRank m a = true).Reachable m ∧
      (m.slaveList.map fun n => (m.nodes n).rank) = [0, 1] ∧ m.spawn = .head ∧
      (m.slaveList.map fun n => (m.nodes n).rank).Nodup := by
  obtain ⟨m, run, h⟩ := System.Reachable.exists_of_run
    (S := (master {}).restrict fun m a => keepsRank m a = true) (.init rfl)
    (opening ++ [.spawn (some []), .spawn (some []), .spawn (some (bytes "WORKER 2.2 1")),
      .spawn (some []), .spawn (some []), .spawn none])
    (fun m => decide ((m.slaveList.map fun n => (m.nodes n).rank) = [0, 1] ∧ m.spawn = .head))
    (by decide +kernel)
  obtain ⟨ranks, head⟩ := of_decide_eq_true h
  exact ⟨m, run, ranks, head, (ranks_unique {} m run).1⟩

/-- The first of two slaves dies, the handshake of its successor fails and loses the rank 0, and the next
slave gets the rank 1, which the second slave has. -/
theorem rank_given_twice :
    ¬ ∀ (cfg : Config) (m : State), (master cfg).Reachable m →
      (m.slaveList.map fun n => (m.nodes n).rank).Nodup := by
  intro claim
  obtain ⟨m, run, h⟩ := System.Reachable.exists_of_run (S := master { heartbeatInterval := 0 }) (.init rfl)
    (opening ++ [.spawn (some []), .spawn (some []), .spawn (some (bytes "WORKER 2.2 1")),
      .dispatch 0 .ok, .dispatch 0 .ok, .dispatch 0 .error, .dispatch 0 .ok, .dispatch 0 .ok, .dispatch 1 .ok,
      .spawn (some []), .spawn (some []), .spawn none,
      .spawn (some []), .spawn (some []), .spawn (some (bytes "WORKER 2.2 1"))])
    (fun m => decide ((m.slaveList.map fun n => (m.nodes n).rank) = [1, 1])) (by decide +kernel)
  have nodup := claim _ m run
  rw [of_decide_eq_true h] at nodup
  exact absurd nodup (by decide)

end CovNet.Master
