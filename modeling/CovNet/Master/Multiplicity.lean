import CovNet.Master.Index

/-!
# How often a session is sent

A session is handed to one dispatch worker, which sends it to one node at a time. When the node dies the
worker sends the session again, to another node, as long as its method allows it and its attempts are not
used up; else it answers the session itself. `Sends` counts the messages sent for a session against
`dispatch_attempts`, and `dispatch_multiplicity` is what follows for every run.
-/

namespace CovNet.Master
open Lib Text Http Socket

/-- How often a session was sent. -/
def State.sendCount (m : State) (σ : Nat) : Nat := (m.sends.map Prod.fst).count σ

/-- How often a session may be sent again. -/
def again (cfg : Config) (s : Session) : Nat :=
  if State.retriable s then cfg.masterDispatchRetry else 0

/-- The message of a worker that has a node is counted before its attempt is. -/
def DispatchPc.ahead (pc : DispatchPc) : Nat := if pc.node.isSome then 1 else 0

/-- The messages that were sent for a session whose worker is at the place `pc`. -/
structure Tally (cfg : Config) (m : State) (pc : DispatchPc) (σ : Nat) : Prop where
  count : m.sendCount σ = (m.sessions σ).dispatchAttempts + pc.ahead
  attempts : (m.sessions σ).dispatchAttempts ≤ again cfg (m.sessions σ).session
  blank : (m.sessions σ).response = none
  retired : ∀ n, (σ, n) ∈ m.sends → pc.node = some n ∨ (m.nodes n).state = .error

/-- Each session has at most one worker, and is not sent too often. -/
structure Sends (cfg : Config) (m : State) : Prop where
  fresh : ∀ {σ}, σ ∉ m.handed → m.sendCount σ = 0 ∧ (m.sessions σ).dispatchAttempts = 0
  handed : ∀ {w σ}, (m.dispatch w).session = some σ → σ ∈ m.handed
  uniq : ∀ {w u σ}, (m.dispatch w).session = some σ → (m.dispatch u).session = some σ → w = u
  tally : ∀ {w σ}, (m.dispatch w).session = some σ → Tally cfg m (m.dispatch w) σ
  bound : ∀ σ, m.sendCount σ ≤ 1 + again cfg (m.sessions σ).session

namespace Sends
variable {cfg : Config} {m m' : State} {w n c : Nat} {job : Option Nat}

lemma init : Sends cfg {} where
  fresh _ := ⟨rfl, rfl⟩
  handed e := by cases e
  uniq e := by cases e
  tally e := by cases e
  bound σ := Nat.zero_le _

/-- What the workers that send nothing change: responses of sessions that nobody holds. -/
lemma congr (t : Sends cfg m) (dispatch : m'.dispatch = m.dispatch) (handed : m'.handed = m.handed)
    (sends : m'.sends = m.sends)
    (nodes : ∀ n, (m.nodes n).state = .error → (m'.nodes n).state = .error)
    (attempts : ∀ σ, (m'.sessions σ).dispatchAttempts = (m.sessions σ).dispatchAttempts)
    (session : ∀ σ, m.sendCount σ = 0 ∨ (m'.sessions σ).session = (m.sessions σ).session)
    (blank : ∀ σ, (m.sessions σ).response = none → (m'.sessions σ).response = none) :
    Sends cfg m' := by
  have count : ∀ σ, m'.sendCount σ = m.sendCount σ := fun σ => by rw [State.sendCount, sends]; rfl
  refine ⟨fun {σ} out => ?_, fun has => ?_, fun has has' => ?_, fun {w σ} has => ?_, fun σ => ?_⟩
  · rw [handed] at out
    rw [count, attempts]
    exact t.fresh out
  · rw [dispatch] at has
    rw [handed]
    exact t.handed has
  · rw [dispatch] at has has'
    exact t.uniq has has'
  · rw [dispatch] at has ⊢
    obtain ⟨number, tried, none, dead⟩ := t.tally has
    refine ⟨by rw [count, attempts, number], ?_, blank σ none, fun n mem => ?_⟩
    · rw [attempts]
      rcases session σ with zero | same
      · omega
      · rwa [same]
    · rw [sends] at mem
      exact (dead n mem).imp id (nodes n)
  · rw [count]
    rcases session σ with zero | same
    · omega
    · rw [same]
      exact t.bound σ

/-- A dispatch worker moves, in charge of a session that nobody else has. -/
lemma advance {pc : DispatchPc} (t : Sends cfg m)
    (alone : ∀ σ, job = some σ → ∀ u, u ≠ w → (m.dispatch u).session ≠ some σ)
    (dispatch : m'.dispatch = Function.update m.dispatch w pc)
    (charge : ∀ σ, pc.session = some σ → job = some σ) (handed : m.handed ⊆ m'.handed)
    (given : ∀ σ, job = some σ → σ ∈ m'.handed)
    (nodes : ∀ n, (m.nodes n).state = .error → (m'.nodes n).state = .error)
    (session : ∀ σ, (m'.sessions σ).session = (m.sessions σ).session)
    (others : ∀ σ, job ≠ some σ → (∀ n, (σ, n) ∈ m'.sends → (σ, n) ∈ m.sends) ∧
      m'.sendCount σ = m.sendCount σ ∧ m'.sessions σ = m.sessions σ)
    (bound : ∀ σ, job = some σ → m'.sendCount σ ≤ 1 + again cfg (m.sessions σ).session)
    (held : ∀ σ, pc.session = some σ → Tally cfg m' pc σ) : Sends cfg m' := by
  have elsewhere : ∀ {u σ}, u ≠ w → (m.dispatch u).session = some σ → job ≠ some σ := by
    intro u σ ne has mine
    exact alone σ mine u ne has
  refine ⟨fun {σ} out => ?_, fun {u σ} has => ?_, fun {u v σ} has has' => ?_, fun {u σ} has => ?_,
    fun σ => ?_⟩
  · obtain ⟨-, count, same⟩ := others σ fun mine => out (given σ mine)
    rw [count, same]
    exact t.fresh fun mem => out (handed mem)
  · rw [dispatch] at has
    by_cases eq : u = w
    · subst eq
      rw [Function.update_self] at has
      exact given σ (charge σ has)
    · rw [Function.update_of_ne eq] at has
      exact handed (t.handed has)
  · rw [dispatch] at has has'
    -- only this worker has changed its session
    by_cases eu : u = w <;> by_cases ev : v = w
    · rw [eu, ev]
    · subst eu
      rw [Function.update_self] at has
      rw [Function.update_of_ne ev] at has'
      exact absurd (charge σ has) (elsewhere ev has')
    · subst ev
      rw [Function.update_self] at has'
      rw [Function.update_of_ne eu] at has
      exact absurd (charge σ has') (elsewhere eu has)
    · rw [Function.update_of_ne eu] at has
      rw [Function.update_of_ne ev] at has'
      exact t.uniq has has'
  · rw [dispatch] at has ⊢
    by_cases eq : u = w
    · subst eq
      rw [Function.update_self] at has ⊢
      exact held σ has
    · rw [Function.update_of_ne eq] at has ⊢
      obtain ⟨sub, count, same⟩ := others σ (elsewhere eq has)
      obtain ⟨number, tried, none, dead⟩ := t.tally has
      refine ⟨by rw [count, same, number], by rwa [same], by rwa [same], fun n mem => ?_⟩
      exact (dead n (sub n mem)).imp id (nodes n)
  · rw [session]
    by_cases mine : job = some σ
    · exact bound σ mine
    · rw [(others σ mine).2.1]
      exact t.bound σ

/-- A node that is not dead changes. -/
lemma dead_update {node : SlaveNode} (live : (m.nodes n).state ≠ .error) (k : Nat)
    (dead : (m.nodes k).state = .error) : (Function.update m.nodes n node k).state = .error := by
  have ne : k ≠ n := by
    rintro rfl
    exact live dead
  rwa [Function.update_of_ne ne]

/-- A job goes to a node. Its session, if it has one, has no node yet. -/
lemma send (t : Sends cfg m) (ready : (m.nodes n).state = .ready)
    (alone : ∀ σ, job = some σ → ∀ u, u ≠ w → (m.dispatch u).session ≠ some σ)
    (given : ∀ σ, job = some σ → σ ∈ m.handed)
    (off : ∀ σ, job = some σ → Tally cfg m .head σ) : Sends cfg (m.send cfg w n job) := by
  have live : (m.nodes n).state ≠ .error := by
    rw [ready]
    decide
  unfold State.send
  dsimp only
  split
  · refine t.advance alone rfl (fun σ e => by cases e) (List.Subset.refl _) given (dead_update live)
      (fun _ => rfl) (fun σ _ => ⟨fun _ => id, rfl, rfl⟩) (fun σ _ => t.bound σ) (fun σ e => by cases e)
  · -- the one message that is added counts for the session of the job
    have count : ∀ σ, ((m.sends ++ (job.map (·, n)).toList).map Prod.fst).count σ =
        m.sendCount σ + if job = some σ then 1 else 0 := by
      intro σ
      rw [List.map_append, List.count_append]
      cases job with
      | none => rfl
      | some τ =>
        by_cases eq : τ = σ
        · simp [State.sendCount, eq]
        · simp [State.sendCount, eq]
    refine t.advance alone rfl (fun σ e => e) (List.Subset.refl _) given (dead_update live)
      (fun _ => rfl) (fun σ ne => ⟨fun k mem => ?_, ?_, rfl⟩) (fun σ mine => ?_)
      (fun σ (mine : job = some σ) => ?_)
    · rcases List.mem_append.mp mem with old | new
      · exact old
      · cases job with
        | none => cases new
        | some τ =>
          cases List.mem_singleton.mp new
          exact absurd rfl ne
    · rw [State.sendCount, count, if_neg ne]
      rfl
    · obtain ⟨number, tried, -, -⟩ := off σ mine
      rw [State.sendCount, count, if_pos mine]
      rw [show DispatchPc.ahead .head = 0 from rfl] at number
      omega
    · obtain ⟨number, tried, none, dead⟩ := off σ mine
      refine ⟨?_, tried, none, fun k mem => ?_⟩
      · rw [State.sendCount, count, if_pos mine, number]
        rfl
      · rcases List.mem_append.mp mem with old | new
        · exact .inr (dead_update live k ((dead k old).resolve_left (by simp [DispatchPc.node])))
        · rw [mine] at new
          cases List.mem_singleton.mp new
          exact .inl rfl

/-- The next session of a connection goes to a node. -/
lemma depart (t : Sends cfg m) (o : Order m) (d : Handed m) (ready : (m.nodes n).state = .ready) :
    Sends cfg (m.depart cfg w n c) := by
  have taken : Sends cfg (m.take c) := by
    refine ⟨fun out => t.fresh fun mem => out (List.mem_append_left _ mem),
      fun has => List.mem_append_left _ (t.handed has), t.uniq, fun has => ?_, t.bound⟩
    obtain ⟨number, tried, none, dead⟩ := t.tally has
    exact ⟨number, tried, none, dead⟩
  unfold State.depart
  split
  · rename_i σ cur
    obtain ⟨first, live, -⟩ := o.current cur
    have waits : σ ∈ (m.conns c).line.waiting := by
      rw [Pipeline.waiting_eq_cons live first]
      exact List.mem_cons_self
    obtain ⟨count, attempts⟩ := t.fresh (d.waiting waits)
    refine taken.send ready (fun τ e u _ => ?_) (fun τ e => ?_) (fun τ e => ?_)
    · cases e
      exact o.sound.unheld waits
    · cases e
      refine List.mem_append_right _ ?_
      rw [cur]
      exact List.mem_cons_self
    · cases e
      refine ⟨count.trans attempts.symm, attempts.le.trans (Nat.zero_le _), o.sound.blank waits,
        fun k mem => ?_⟩
      have none : σ ∉ m.sends.map Prod.fst := List.count_eq_zero.mp count
      exact absurd (List.mem_map_of_mem (f := Prod.fst) mem) none
  · have free : (m.nodes n).state ≠ .error := by
      rw [ready]
      decide
    exact taken.advance (fun σ (e : none = some σ) => by cases e) rfl (fun σ e => by cases e)
      (List.Subset.refl _) (fun σ e => by cases e) (dead_update free) (fun _ => rfl)
      (fun σ _ => ⟨fun _ => id, rfl, rfl⟩) (fun σ _ => t.bound σ) (fun σ e => by cases e)

/-- A worker is done with its session, which it may have answered. -/
lemma finish {pc : DispatchPc} (t : Sends cfg m)
    (dispatch : m'.dispatch = Function.update m.dispatch w pc) (out : pc.session = none) (handed : m'.handed = m.handed)
    (sends : m'.sends = m.sends)
    (nodes : ∀ n, (m.nodes n).state = .error → (m'.nodes n).state = .error)
    (session : ∀ σ, (m'.sessions σ).session = (m.sessions σ).session)
    (others : ∀ σ, (m.dispatch w).session ≠ some σ → m'.sessions σ = m.sessions σ) :
    Sends cfg m' := by
  have count : ∀ σ, m'.sendCount σ = m.sendCount σ := fun σ => by rw [State.sendCount, sends]; rfl
  have gone : ∀ {σ : Nat} {P : Prop}, pc.session = some σ → P := by
    intro σ P e
    rw [out] at e
    cases e
  refine t.advance (fun σ has u ne has' => ne (t.uniq has' has)) dispatch (fun σ e => gone e) ?_
    (fun σ has => ?_) nodes session (fun σ ne => ⟨fun k mem => ?_, count σ, others σ ne⟩)
    (fun σ _ => ?_) (fun σ e => gone e)
  · rw [handed]
    exact List.Subset.refl _
  · rw [handed]
    exact t.handed has
  · rwa [sends] at mem
  · rw [count]
    exact t.bound σ

lemma answer_other {σ τ : Nat} {b : Bytes} (h : some τ ≠ some σ) :
    (m.answer τ b).sessions σ = m.sessions σ := by
  have ne : σ ≠ τ := fun e => h (congrArg some e.symm)
  exact Function.update_of_ne ne _ _

lemma receive {deadline : Nat} {frame : Bytes} (t : Sends cfg m) (s : Nodes m)
    (place : m.dispatch w = .receiving n job deadline) : Sends cfg (m.receive w n job frame) := by
  have live : (m.nodes n).state ≠ .error := by
    rw [(s.busy (show (m.dispatch w).node = some n by rw [place]; rfl)).1]
    decide
  have session : (m.dispatch w).session = job := by rw [place]; rfl
  have aside : Aside m (m.receive w n job frame) := receive_aside
  unfold State.receive at aside ⊢
  dsimp only at aside ⊢
  split
  · refine t.finish rfl rfl rfl rfl (dead_update live) aside.session (fun σ ne => ?_)
    exact answer_other (session ▸ ne)
  · split
    · exact t.finish rfl rfl rfl rfl (dead_update live) (fun _ => rfl) (fun _ _ => rfl)
    · exact t.finish rfl rfl rfl rfl (dead_update live) (fun _ => rfl) (fun _ _ => rfl)

lemma giveUp {σ : Nat} {code : StateCode} (t : Sends cfg m) (has : (m.dispatch w).session = some σ) :
    Sends cfg (m.giveUp w σ code) := by
  refine t.finish rfl rfl rfl rfl (fun _ => id) (fun τ => giveUp_aside.session τ) (fun τ ne => ?_)
  exact answer_other (has ▸ ne)

/-- A session whose node has died is answered, or waits for another node. -/
lemma retire {code : StateCode} (t : Sends cfg m) (s : Nodes m)
    (place : m.dispatch w = .retiring n job code) : Sends cfg (m.retire cfg w n job code) := by
  have live : (m.nodes n).state ≠ .error := by
    rw [(s.busy (show (m.dispatch w).node = some n by rw [place]; rfl)).1]
    decide
  have has : (m.dispatch w).session = job := by rw [place]; rfl
  unfold State.retire
  dsimp only
  split
  · exact t.finish rfl rfl rfl rfl (dead_update live) (fun _ => rfl) (fun _ _ => rfl)
  · rename_i σ
    have other : ∀ {τ : Nat} {m1 : State}, (m.dispatch w).session ≠ some τ →
        (m1.attempt σ).sessions τ = m1.sessions τ := by
      intro τ m1 ne
      have ne' : τ ≠ σ := fun e => ne (by rw [has, e])
      exact Function.update_of_ne ne' _ _
    split
    · rename_i idempotent
      split
      · refine t.finish (Function.update_idem ..) rfl rfl rfl (dead_update live)
          ((drive_aside.trans attempt_aside).trans giveUp_aside).session (fun τ ne => ?_)
        exact (answer_other (has ▸ ne)).trans (other ne)
      · rename_i left
        obtain ⟨number, -, none, dead⟩ := t.tally has
        refine t.advance (fun τ mine u ne has' => ne (t.uniq has' (has.trans mine)))
          (Function.update_idem ..) (fun τ e => ?_) (List.Subset.refl _)
          (fun τ mine => t.handed (has.trans mine)) (dead_update live)
          ((drive_aside.trans attempt_aside).trans go_aside).session
          (fun τ ne => ⟨fun _ => id, rfl, other (has ▸ ne)⟩) (fun τ _ => t.bound τ) (fun τ e => ?_)
        · exact e
        · cases e
          refine ⟨?_, ?_, ?_, fun k mem => .inr ?_⟩
          · rw [place] at number
            simp only [State.go, State.attempt, Function.update_self]
            exact number
          · simp only [State.go, State.attempt, State.drive, Function.update_self, again,
              if_pos idempotent]
            exact Nat.le_of_not_lt left
          · simp only [State.go, State.attempt, Function.update_self]
            exact none
          · simp only [State.go, State.attempt, State.drive]
            -- the node is dead now; those tried before were dead already
            by_cases eq : k = n
            · rw [eq, Function.update_self]
            · rw [Function.update_of_ne eq]
              refine (dead k mem).resolve_left fun here => eq ?_
              rw [place] at here
              cases here
              rfl
    · refine t.finish (Function.update_idem ..) rfl rfl rfl (dead_update live)
        (drive_aside.trans giveUp_aside).session (fun τ ne => ?_)
      exact answer_other (has ▸ ne)

lemma dispatch (t : Sends cfg m) (s : Nodes m) (o : Order m) (d : Handed m)
    (h : DispatchMove cfg m w m') : Sends cfg m' := by
  have picked : ∀ {node m1}, Picks m node m1 → Sends cfg m1 := by
    intro node m1 picks
    obtain ⟨list, ranks, rfl, -⟩ := picks
    exact t.congr rfl rfl rfl (fun _ => id) (fun _ => rfl) (fun _ => .inr rfl) (fun _ => id)
  cases h with
  | @go pc follows =>
    have count : ∀ {σ}, pc.session = some σ → Tally cfg (m.go w pc) pc σ := by
      intro σ e
      obtain ⟨number, tried, none, dead⟩ := t.tally (follows.2.1 ▸ e)
      refine ⟨?_, tried, none, fun n mem => ?_⟩
      · rw [DispatchPc.ahead, follows.1]
        exact number
      · rw [follows.1]
        exact dead n mem
    exact t.advance (fun σ has u ne has' => ne (t.uniq has' has)) rfl (fun σ e => follows.2.1 ▸ e)
      (List.Subset.refl _) (fun σ => t.handed) (fun _ => id) (fun _ => rfl)
      (fun σ _ => ⟨fun _ => id, rfl, rfl⟩) (fun σ _ => t.bound σ) (fun σ => count)
  | pick picks => exact picked picks
  | @send n job m1 off same picks =>
    have t1 := picked picks
    obtain ⟨list, ranks, rfl, -, -, out⟩ := picks
    refine t1.send (out n rfl).2 (fun σ e u ne has => ?_) (fun σ e => ?_) (fun σ e => ?_)
    · exact ne (t.uniq has (same ▸ e))
    · exact t.handed (same ▸ e)
    · -- the worker has no node, so that its last message was counted as an attempt
      obtain ⟨number, tried, none, dead⟩ := t.tally (w := w) (same ▸ e)
      refine ⟨?_, tried, none, fun k mem => .inr ?_⟩
      · rw [DispatchPc.ahead, off] at number
        exact number
      · exact (dead k mem).resolve_left (by rw [off]; simp)
  | depart _ picks _ _ =>
    have t1 := picked picks
    have o1 := o.picks picks
    obtain ⟨list, ranks, rfl, -, -, out⟩ := picks
    exact t1.depart o1 (d.congr rfl rfl rfl) (out _ rfl).2
  | receive place _ => exact t.receive s place
  | retire place => exact t.retire s place
  | giveUp place => exact t.giveUp (by rw [place]; rfl)

lemma request {p : Parsed} (t : Sends cfg m) (d : Handed m) (h : RequestMove cfg m w p m') :
    Sends cfg m' := by
  cases h with
  | @enqueue c deadline s state _ _ _ =>
    have fresh : m.nextSession ∉ m.handed := fun mem => Nat.lt_irrefl _ (d.known mem)
    obtain ⟨count, attempts⟩ := t.fresh fresh
    refine t.congr rfl rfl rfl (fun _ => id) (fun σ => ?_) (fun σ => ?_) (fun σ none => ?_)
    · by_cases e : σ = m.nextSession
      · subst e
        simp only [State.enqueue, Function.update_self]
        exact attempts.symm
      · simp only [State.enqueue, Function.update_of_ne e]
    · by_cases e : σ = m.nextSession
      · subst e
        exact .inl count
      · refine .inr ?_
        simp only [State.enqueue, Function.update_of_ne e]
    · by_cases e : σ = m.nextSession
      · subst e
        simp only [State.enqueue, Function.update_self]
      · simp only [State.enqueue, Function.update_of_ne e]
        exact none
  | _ => exact t.congr rfl rfl rfl (fun _ => id) (fun _ => rfl) (fun _ => .inr rfl) (fun _ => id)

/-- The response worker rewrites a response. -/
lemma rewrite {σ : Nat} {b b' : Bytes} (t : Sends cfg m)
    (answered : (m.sessions σ).response = some b) : Sends cfg (m.answer σ b') := by
  have each : ∀ τ, ((m.answer σ b').sessions τ).dispatchAttempts = (m.sessions τ).dispatchAttempts ∧
      ((m.sessions τ).response = none → ((m.answer σ b').sessions τ).response = none) := by
    intro τ
    by_cases e : τ = σ
    · subst e
      simp only [State.answer, Function.update_self, answered, reduceCtorEq, false_implies, and_self]
    · simp only [State.answer, Function.update_of_ne e, imp_self, and_self]
  exact t.congr rfl rfl rfl (fun _ => id) (fun τ => (each τ).1) (fun τ => .inr (answer_aside.session τ))
    (fun τ => (each τ).2)

lemma response (t : Sends cfg m) (h : ResponseMove m m') : Sends cfg m' := by
  have same : ∀ {m1 m2 : State}, Sends cfg m1 → m2.dispatch = m1.dispatch → m2.handed = m1.handed →
      m2.sends = m1.sends → m2.nodes = m1.nodes → m2.sessions = m1.sessions → Sends cfg m2 := by
    intro m1 m2 t1 dispatch handed sends nodes sessions
    refine t1.congr dispatch handed sends (fun n => ?_) (fun _ => ?_) (fun _ => .inr ?_) (fun _ => ?_)
    · rw [nodes]
      exact id
    · rw [sessions]
    · rw [sessions]
    · rw [sessions]
      exact id
  cases h with
  | idle => exact t
  | ended _ | shut _ _ => exact same t rfl rfl rfl rfl rfl
  | @serve c m1 _ turns serves =>
    have t1 : Sends cfg m1 := by
      cases turns <;> exact same t rfl rfl rfl rfl rfl
    cases serves with
    | pause _ _ | close _ _ _ | done _ => exact same t1 rfl rfl rfl rfl rfl
    | write _ answered _ => exact same (t1.rewrite answered) rfl rfl rfl rfl rfl
    | raise _ answered _ => exact same (t1.rewrite answered) rfl rfl rfl rfl rfl

lemma step {a : Action} (t : Sends cfg m) (i : Inv m) (d : Handed m) (h : Move cfg m a m') :
    Sends cfg m' := by
  cases h with
  | request move => exact t.request d move
  | response move => exact t.response move
  | dispatch move => exact t.dispatch i.nodes i.order d move
  | @reply n job frame rest first =>
    refine t.congr rfl rfl rfl (fun k dead => ?_) (fun _ => rfl) (fun _ => .inr rfl) (fun _ => id)
    by_cases e : k = n
    · subst e
      simpa only [Function.update_self] using dead
    · simpa only [Function.update_of_ne e] using dead
  | spawned =>
    have ready := i.nodes.fresh m.nextNode le_rfl
    exact t.congr rfl rfl rfl (dead_update (by rw [ready]; decide)) (fun _ => rfl)
      (fun _ => .inr rfl) (fun _ => id)
  | _ => exact t.congr rfl rfl rfl (fun _ => id) (fun _ => rfl) (fun _ => .inr rfl) (fun _ => id)

end Sends

theorem sends_of_reachable {cfg : Config} {m : State} (h : (master cfg).Reachable m) :
    (Inv m ∧ Handed m) ∧ Sends cfg m := by
  refine h.invariant (I := fun m => (Inv m ∧ Handed m) ∧ Sends cfg m) ?_ ?_
  · rintro _ rfl
    exact ⟨⟨.init, .init⟩, .init⟩
  intro m a m' ⟨⟨i, d⟩, t⟩ st
  have move := next_move st
  exact ⟨⟨i.step move, d.step i.readers i.order move⟩, t.step i d move⟩

/-! ## The multiplicity -/

section Steps
variable {cfg : Config} {m m' : State} {w σ : Nat}

/-- A message is sent for a session that its worker has, or for one that nobody had before. -/
lemma sends_dispatch (h : DispatchMove cfg m w m') :
    m'.sends = m.sends ∨ ∃ σ n, m'.sends = m.sends ++ [(σ, n)] ∧
      ((m.dispatch w).session = some σ ∨ ∃ c, (m.conns c).current = some σ) := by
  have sent : ∀ (m1 : State) (n : Nat) (job : Option Nat), (m1.send cfg w n job).sends = m1.sends ∨
      ∃ σ, job = some σ ∧ (m1.send cfg w n job).sends = m1.sends ++ [(σ, n)] := by
    intro m1 n job
    unfold State.send
    dsimp only
    split
    · exact .inl rfl
    · cases job with
      | none => exact .inl (List.append_nil _)
      | some σ => exact .inr ⟨σ, rfl, rfl⟩
  cases h with
  | go _ => exact .inl rfl
  | pick picks =>
    obtain ⟨list, ranks, rfl, -⟩ := picks
    exact .inl rfl
  | @send n job m1 _ same picks =>
    obtain ⟨list, ranks, rfl, -⟩ := picks
    refine (sent _ n job).imp id fun ⟨σ, e, more⟩ => ?_
    exact ⟨σ, n, more, .inl (same.symm.trans e)⟩
  | @depart n c m1 _ picks _ _ =>
    obtain ⟨list, ranks, rfl, -⟩ := picks
    unfold State.depart
    split
    · rename_i τ cur
      refine (sent _ n (some τ)).imp id fun ⟨σ, e, more⟩ => ?_
      cases e
      exact ⟨τ, n, more, .inr ⟨c, cur⟩⟩
    · exact .inl rfl
  | receive _ _ =>
    unfold State.receive
    dsimp only
    split
    · exact .inl rfl
    · split
      · exact .inl rfl
      · exact .inl rfl
  | retire _ =>
    unfold State.retire
    dsimp only
    split
    · exact .inl rfl
    · split
      · split
        · exact .inl rfl
        · exact .inl rfl
      · exact .inl rfl
  | giveUp _ => exact .inl rfl

/-- Only a dispatch worker sends. -/
lemma sends_step {a : Action} (h : Move cfg m a m') :
    m'.sends = m.sends ∨ ∃ σ n, m'.sends = m.sends ++ [(σ, n)] ∧
      ((∃ w, (m.dispatch w).session = some σ) ∨ ∃ c, (m.conns c).current = some σ) := by
  cases h with
  | dispatch move =>
    refine (sends_dispatch move).imp id fun ⟨σ, n, more, from'⟩ => ⟨σ, n, more, ?_⟩
    exact from'.imp (fun has => ⟨_, has⟩) id
  | request move => cases move <;> exact .inl rfl
  | response move =>
    cases move with
    | serve turns serves => cases turns <;> cases serves <;> exact .inl rfl
    | ended _ | idle | shut _ _ => exact .inl rfl
  | _ => exact .inl rfl

/-- A session that has a response is not sent. -/
lemma sendCount_answered {a : Action} (t : Sends cfg m) (o : Order m) (h : Move cfg m a m')
    (answered : (m.sessions σ).response ≠ none) : m'.sendCount σ = m.sendCount σ := by
  rcases sends_step h with same | ⟨τ, n, more, from'⟩
  · rw [State.sendCount, same]
    rfl
  · have ne : τ ≠ σ := by
      rintro rfl
      rcases from' with ⟨w, has⟩ | ⟨c, cur⟩
      · exact answered (t.tally has).blank
      · obtain ⟨first, live, -⟩ := o.current cur
        refine answered (o.sound.blank (c := c) ?_)
        rw [show m.desk.line c = (m.conns c).line from rfl, Pipeline.waiting_eq_cons live first]
        exact List.mem_cons_self
    rw [State.sendCount, more, List.map_append, List.count_append]
    simp [State.sendCount, ne]

/-- A worker that leaves its session without raising has answered it. -/
lemma answered_of_leave (h : DispatchMove cfg m w m') (has : (m.dispatch w).session = some σ)
    (left : (m'.dispatch w).session ≠ some σ) (ok : m'.dispatch w ≠ .raised) :
    (m'.sessions σ).response ≠ none := by
  have given : ∀ {m1 : State} {code : StateCode}, ((m1.giveUp w σ code).sessions σ).response ≠ none := by
    intro m1 code
    simp [State.giveUp, State.answer, State.go]
  cases h with
  | go follows =>
    simp only [State.go, Function.update_self] at left
    exact absurd (follows.2.1.trans has) left
  | pick picks =>
    obtain ⟨list, ranks, rfl, -⟩ := picks
    exact absurd has left
  | send _ same picks =>
    unfold State.send at left ok
    dsimp only at left ok
    -- a node that is lost at the send makes the worker raise
    split at left
    · rename_i lost
      rw [if_pos lost] at ok
      simp [State.drive] at ok
    · simp only [State.drive, Function.update_self, DispatchPc.session, same] at left
      exact absurd has left
  | depart head _ _ _ =>
    rw [head] at has
    cases has
  | receive place _ =>
    rw [place] at has
    cases has
    simp [State.receive, State.answer, State.drive]
  | retire place =>
    rw [place] at has
    cases has
    unfold State.retire at left ⊢
    dsimp only at left ⊢
    split at left
    · rename_i idempotent
      rw [if_pos idempotent]
      split at left
      · rename_i spent
        rw [if_pos spent]
        exact given
      · simp [State.go, DispatchPc.session] at left
    · rename_i once
      rw [if_neg once]
      exact given
  | giveUp place =>
    rw [place] at has
    cases has
    exact given

end Steps

/-- In every state of every run a session was sent at most once, or at most `1 + master_dispatch_retry`
times if it may be sent again; it has at most one worker, and every node it was sent to before the one the
worker has is dead. A session that has a response is not sent any more, and a dispatch worker that is done
with a session, unless it raised, has left a response. -/
theorem dispatch_multiplicity (cfg : Config) (m : State) (run : (master cfg).Reachable m) :
    (∀ σ, m.sendCount σ ≤
      if State.retriable (m.sessions σ).session then 1 + cfg.masterDispatchRetry else 1) ∧
    (∀ w σ, (m.dispatch w).session = some σ →
      (∀ u, (m.dispatch u).session = some σ → u = w) ∧
      ∀ n, (σ, n) ∈ m.sends → (m.dispatch w).node = some n ∨ (m.nodes n).state = .error) ∧
    (∀ a m' σ, m.next cfg a = some m' → (m.sessions σ).response ≠ none →
      m'.sendCount σ = m.sendCount σ) ∧
    (∀ w r m' σ, m.next cfg (.dispatch w r) = some m' → (m.dispatch w).session = some σ →
      (m'.dispatch w).session ≠ some σ → m'.dispatch w ≠ .raised →
      (m'.sessions σ).response ≠ none) := by
  obtain ⟨⟨i, -⟩, t⟩ := sends_of_reachable run
  refine ⟨fun σ => ?_, fun w σ has => ⟨fun u has' => t.uniq has' has, (t.tally has).retired⟩,
    fun a m' σ st => sendCount_answered t i.order (next_move st), fun w r m' σ st => ?_⟩
  · have bound := t.bound σ
    unfold again at bound
    split
    · rename_i idempotent
      rwa [if_pos idempotent] at bound
    · rename_i once
      rwa [if_neg once] at bound
  · exact answered_of_leave (dispatchStep_move st)

/-- A slave dies over a page, which is sent to the next one and answered. -/
theorem dispatch_multiplicity_page :
    ∃ m, (master {}).Reachable m ∧ m.sends = [(0, 0), (0, 1)] ∧
      (m.sessions 0).response = some (bytes "HTTP/1.1 200 OK") ∧ m.sendCount 0 ≤ 3 := by
  obtain ⟨m, run, h⟩ := System.Reachable.exists_of_run (S := master {}) (.init rfl)
    (opening ++ [.spawn (some []), .spawn (some []), .spawn (some (bytes "WORKER 2.2 1"))] ++
      asks (page (bytes "keep-alive")) ++
      [.dispatch 0 .ok, .dispatch 0 .ok, .dispatch 0 .error, .dispatch 0 .ok, .dispatch 0 .ok,
        .dispatch 0 .ok, .reply 1 (bytes "HTTP/1.1 200 OK"), .dispatch 0 .ok])
    (fun m => decide (m.sends = [(0, 0), (0, 1)] ∧
      (m.sessions 0).response = some (bytes "HTTP/1.1 200 OK") ∧
      State.retriable (m.sessions 0).session = true)) (by decide +kernel)
  obtain ⟨sends, answered, idempotent⟩ := of_decide_eq_true h
  refine ⟨m, run, sends, answered, ?_⟩
  have bound := (dispatch_multiplicity {} m run).1 0
  rwa [if_pos idempotent] at bound

end CovNet.Master
