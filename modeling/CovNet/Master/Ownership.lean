import CovNet.Http.Reader
import CovNet.Master.Index

/-!
# The owners of the busy nodes

A dispatch worker marks a node busy, sends it a session and, whatever comes back, makes it ready again or
retires it: as long as no dispatch worker raises in between, every busy node has exactly one worker.

A worker raises when its session cannot be serialized, and `read_http_header` accepts requests for which that
is so: those without a Host header (`readHttpHeader_serialize`). One such request leaves a node busy for good
(`busy_without_owner`). In every run whose requests all have a Host header the owners are as they should be
(`busy_owned`).
-/

namespace CovNet.Master
open Lib Text Http Socket

/-! ## The requests that can be sent on -/

/-- One of the header lines at the front of the stream is taken as the host. -/
def hasHost (ending : Async.Ending) (s : Bytes) : Bool :=
  match parseLines ending 0 [] s with
  | .ok (_ :: lines, _) => lines.any isHost
  | _ => false

/-- The session of a request can be serialized if and only if the request has a Host header. -/
lemma parseRequest_serialize {asInteger : Bytes → Option Int} {maxBodySize : Int} {ending : Async.Ending}
    {s rest : Bytes} {session : Session}
    (h : parseRequest asInteger maxBodySize ending s = .ok (session, rest)) :
    (serialize session).isSome = hasHost ending s := by
  unfold parseRequest at h
  unfold hasHost
  rw [serialize_isSome]
  cases lines : parseLines ending 0 [] s with
  | error stop =>
    rw [lines] at h
    cases h
  | ok p =>
    obtain ⟨header, s'⟩ := p
    rw [lines] at h
    dsimp only at h ⊢
    split at h
    · cases h
    · rename_i some
      split at h
      · cases h
      · rename_i session' created
        -- reading the body does not touch the host
        have host : session.host = session'.host := by
          split at h
          · cases h
            rfl
          · split at h
            · cases h
            · split at h
              · split at h
                · cases h
                · cases h
                  rfl
              · cases h
                rfl
        rw [host]
        cases header with
        | nil => exact absurd rfl some
        | cons requestLine lines => exact createHttpSession_host created

lemma readHttpHeader_serialize {asInteger : Bytes → Option Int} {maxBodySize : Int}
    {late : Nat → Bool} {sock sock' : Async.Socket} {st st' : Async.State} {session : Session}
    (h : readHttpHeader asInteger maxBodySize late sock st = .ok (session, sock', st')) :
    (serialize session).isSome = hasHost sock.ending (Async.unread sock st) :=
  parseRequest_serialize (readHttpHeader_parses h)

/-! ## The owners -/

/-- If the step accepts a request, the request has a host. -/
def hosted : Action → Bool
  | .request _ (.session s) => s.host.isSome
  | _ => true

/-- Every session can be serialized, no dispatch worker has raised, and every busy node has an owner. -/
structure Owners (m : State) : Prop where
  host : ∀ σ, σ < m.nextSession → (m.sessions σ).session.host.isSome = true
  running : ∀ w, m.dispatch w ≠ .raised
  owned : ∀ n, (m.nodes n).state = .busy → ∃ w, (m.dispatch w).node = some n

namespace Owners
variable {cfg : Config} {m m' : State} {w n : Nat} {job : Option Nat}

lemma init : Owners {} where
  host σ lt := absurd lt (Nat.not_lt_zero σ)
  running w := by simp
  owned n e := by cases e

lemma congr (o : Owners m) (session : ∀ σ, (m'.sessions σ).session = (m.sessions σ).session)
    (next : m'.nextSession = m.nextSession) (dispatch : m'.dispatch = m.dispatch)
    (nodes : ∀ n, (m'.nodes n).state = .busy → (m.nodes n).state = .busy) : Owners m' where
  host σ lt := by
    rw [session]
    exact o.host σ (next ▸ lt)
  running := dispatch ▸ o.running
  owned n e := by
    rw [dispatch]
    exact o.owned n (nodes n e)

/-- A worker moves, with what it did to its node. -/
lemma move {node : SlaveNode} {pc : DispatchPc} (o : Owners m) (aside : Aside m m')
    (dispatch : m'.dispatch = Function.update m.dispatch w pc)
    (nodes : m'.nodes = Function.update m.nodes n node) (ok : pc ≠ .raised)
    (mine : ∀ k, (m.dispatch w).node = some k → k = n)
    (owned : node.state = .busy → pc.node = some n) : Owners m' where
  host σ lt := by
    rw [aside.session]
    exact o.host σ (aside.nextSession ▸ lt)
  running u := by
    rw [dispatch]
    by_cases eu : u = w
    · subst eu
      rwa [Function.update_self]
    · rw [Function.update_of_ne eu]
      exact o.running u
  owned k e := by
    rw [nodes] at e
    rw [dispatch]
    -- only the worker moves, and only between having this node and having none
    by_cases ek : k = n
    · subst ek
      rw [Function.update_self] at e
      exact ⟨w, by rw [Function.update_self, owned e]⟩
    · rw [Function.update_of_ne ek] at e
      obtain ⟨u, has⟩ := o.owned k e
      have ne : u ≠ w := by
        rintro rfl
        exact ek (mine k has)
      exact ⟨u, by rw [Function.update_of_ne ne, has]⟩

lemma go {pc : DispatchPc} (o : Owners m) (node : pc.node = (m.dispatch w).node) (ok : pc ≠ .raised) :
    Owners (m.go w pc) where
  host := o.host
  running u := by
    simp only [State.go]
    by_cases eu : u = w
    · subst eu
      rwa [Function.update_self]
    · rw [Function.update_of_ne eu]
      exact o.running u
  owned k e := by
    obtain ⟨u, has⟩ := o.owned k e
    refine ⟨u, ?_⟩
    simp only [State.go]
    by_cases eu : u = w
    · subst eu
      rw [Function.update_self, node, has]
    · rw [Function.update_of_ne eu, has]

/-- A known session is sent, for it can be serialized. -/
lemma send (o : Owners m) (free : (m.dispatch w).node = none)
    (known : ∀ σ, job = some σ → σ < m.nextSession) : Owners (m.send cfg w n job) := by
  have fit : ¬ (job.any fun σ => (serialize (m.sessions σ).session).isNone) = true := by
    cases job with
    | none => simp
    | some σ =>
      have host := o.host σ (known σ rfl)
      rw [← serialize_isSome] at host
      simp [Option.isSome_iff_ne_none.mp host]
  have aside : Aside m (m.send cfg w n job) := send_aside
  unfold State.send at aside ⊢
  dsimp only at aside ⊢
  rw [if_neg fit] at aside ⊢
  refine o.move aside rfl rfl (by simp) (fun k has => ?_) (fun _ => rfl)
  rw [free] at has
  cases has

lemma depart {c : Nat} (o : Owners m) (order : Order m) (head : m.dispatch w = .head)
    (lt : (m.conns c).requestIdx < (m.conns c).requestQueue.length) : Owners (m.depart cfg w n c) := by
  have taken : Owners (m.take c) := o.congr (fun _ => rfl) rfl rfl (fun _ => id)
  have idx := order.index c
  unfold State.depart
  split
  · rename_i σ cur
    refine taken.send ?_ fun τ e => ?_
    · show (m.dispatch w).node = none
      rw [head]
      rfl
    · cases e
      exact (order.current cur).2.2
  · rename_i none
    unfold HttpConn.current at none
    rw [if_pos idx, List.getElem?_eq_none_iff] at none
    omega

lemma receive {deadline : Nat} {frame : Bytes} (o : Owners m)
    (place : m.dispatch w = .receiving n job deadline) : Owners (m.receive w n job frame) := by
  have mine : ∀ k, (m.dispatch w).node = some k → k = n := by
    intro k has
    rw [place] at has
    cases has
    rfl
  have aside : Aside m (m.receive w n job frame) := receive_aside
  unfold State.receive at aside ⊢
  dsimp only at aside ⊢
  split
  · exact o.move aside rfl rfl (by simp) mine fun e => by cases e
  · split
    · exact o.move drive_aside rfl rfl (by simp) mine fun e => by cases e
    · exact o.move drive_aside rfl rfl (by simp) mine fun _ => rfl

lemma retire {code : StateCode} (o : Owners m) (place : m.dispatch w = .retiring n job code) :
    Owners (m.retire cfg w n job code) := by
  have mine : ∀ k, (m.dispatch w).node = some k → k = n := by
    intro k has
    rw [place] at has
    cases has
    rfl
  have driven : Owners (m.drive w n ({ m.nodes n with state := .error }, .head)) :=
    o.move drive_aside rfl rfl (by simp) mine fun e => by cases e
  have off : ((m.drive w n ({ m.nodes n with state := .error }, .head)).dispatch w).node = none := by
    simp [State.drive, DispatchPc.node]
  have goes : ∀ {m1 : State} {pc : DispatchPc},
      Aside (m.drive w n ({ m.nodes n with state := .error }, .head)) m1 →
      m1.dispatch = (m.drive w n ({ m.nodes n with state := .error }, .head)).dispatch →
      m1.nodes = (m.drive w n ({ m.nodes n with state := .error }, .head)).nodes →
      pc.node = none → pc ≠ .raised → Owners (m1.go w pc) := by
    intro m1 pc aside dispatch nodes out ok
    have same : Owners m1 := driven.congr aside.session aside.nextSession dispatch fun k => by rw [nodes]; exact id
    exact same.go (by rw [out, dispatch, off]) ok
  unfold State.retire
  dsimp only
  split
  · exact driven
  · split
    · split
      · exact goes (attempt_aside.trans answer_aside) rfl rfl rfl (by simp)
      · exact goes attempt_aside rfl rfl rfl (by simp)
    · exact goes answer_aside rfl rfl rfl (by simp)

lemma dispatch (o : Owners m) (order : Order m) (h : DispatchMove cfg m w m') : Owners m' := by
  have picked : ∀ {node m1}, Picks m node m1 → Owners m1 := by
    intro node m1 picks
    obtain ⟨list, ranks, rfl, -⟩ := picks
    exact o.congr (fun _ => rfl) rfl rfl (fun _ => id)
  cases h with
  | go follows ok => exact o.go follows.1 ok
  | pick picks => exact picked picks
  | send off same picks =>
    have o1 := picked picks
    obtain ⟨list, ranks, rfl, -⟩ := picks
    exact o1.send off fun σ e => order.held (same ▸ e)
  | depart head picks _ lt =>
    have o1 := picked picks
    have order1 := order.picks picks
    obtain ⟨list, ranks, rfl, -⟩ := picks
    exact o1.depart order1 head lt
  | receive place _ => exact o.receive place
  | retire place => exact o.retire place
  | @giveUp σ waitStart code place =>
    have answered : Owners (m.answer σ (composeResponse code.text)) :=
      o.congr answer_aside.session rfl rfl (fun _ => id)
    refine answered.go ?_ (by simp)
    show DispatchPc.node .head = (m.dispatch w).node
    rw [place]
    rfl

/-- A session that is accepted has a host, which the limit of the requests leaves alone. -/
lemma enqueue {c : Nat} {s : Session} (o : Owners m) (host : s.host.isSome = true) :
    Owners (m.enqueue cfg w c s) := by
  refine ⟨fun σ (lt : σ < m.nextSession + 1) => ?_, o.running, o.owned⟩
  simp only [State.enqueue]
  by_cases e : σ = m.nextSession
  · subst e
    rw [Function.update_self]
    show (State.limited cfg _ s).host.isSome = true
    unfold State.limited
    split
    · exact host
    · exact host
  · rw [Function.update_of_ne e]
    exact o.host σ (by omega)

lemma step {a : Action} (o : Owners m) (order : Order m) (h : Move cfg m a m')
    (ok : hosted a = true) : Owners m' := by
  have same : ∀ {m1 m2 : State}, Owners m1 → m2.sessions = m1.sessions →
      m2.nextSession = m1.nextSession → m2.dispatch = m1.dispatch → m2.nodes = m1.nodes →
      Owners m2 := by
    intro m1 m2 o1 sessions next dispatch nodes
    exact o1.congr (fun σ => by rw [sessions]) next dispatch fun k => by rw [nodes]; exact id
  cases h with
  | request move =>
    cases move with
    | enqueue _ session _ =>
      subst session
      exact o.enqueue ok
    | _ => exact same o rfl rfl rfl rfl
  | response move =>
    cases move with
    | @serve c m1 _ turns serves =>
      have o1 : Owners m1 := by
        cases turns <;> exact same o rfl rfl rfl rfl
      cases serves with
      | write _ _ _ | raise _ _ _ => exact o1.congr answer_aside.session rfl rfl (fun _ => id)
      | pause _ _ | close _ _ _ | done _ => exact same o1 rfl rfl rfl rfl
    | ended _ | idle | shut _ _ => exact same o rfl rfl rfl rfl
  | dispatch move => exact o.dispatch order move
  | @spawned r rank =>
    refine o.congr (fun _ => rfl) rfl rfl fun k e => ?_
    by_cases ek : k = m.nextNode
    · subst ek
      simp at e
    · simpa only [Function.update_of_ne ek] using e
  | @reply n job frame rest first =>
    refine o.congr (fun _ => rfl) rfl rfl fun k e => ?_
    by_cases ek : k = n
    · subst ek
      simpa only [Function.update_self] using e
    · simpa only [Function.update_of_ne ek] using e
  | _ => exact same o rfl rfl rfl rfl

end Owners

/-- A session that `read_http_header` returns can be serialized if and only if its request has a Host
header. In a run whose requests all have one no dispatch worker raises, and every busy node is owned by
exactly one dispatch worker. -/
theorem busy_owned (cfg : Config) (m : State)
    (run : ((master cfg).restrict fun _ a => hosted a = true).Reachable m) :
    (∀ asInteger maxBodySize late sock st session sock' st',
      readHttpHeader asInteger maxBodySize late sock st = .ok (session, sock', st') →
      (serialize session).isSome = hasHost sock.ending (Async.unread sock st)) ∧
    (∀ w, m.dispatch w ≠ .raised) ∧
    ∀ n, (m.nodes n).state = .busy → ∃! w, (m.dispatch w).node = some n := by
  have both : Inv m ∧ Owners m := by
    refine run.invariant (I := fun m => Inv m ∧ Owners m) ?_ ?_
    · rintro _ rfl
      exact ⟨.init, .init⟩
    intro m a m' ⟨i, o⟩ st
    obtain ⟨ok, st⟩ := System.restrict_next.mp st
    exact ⟨i.step (next_move st), o.step i.order (next_move st) ok⟩
  obtain ⟨i, o⟩ := both
  refine ⟨fun _ _ _ _ _ _ _ _ => readHttpHeader_serialize, o.running, fun n busy => ?_⟩
  obtain ⟨w, has⟩ := o.owned n busy
  exact ⟨w, has, fun u has' => i.nodes.uniq has' has⟩

/-- A page is under way on a node. -/
theorem busy_owned_page :
    ∃ m, ((master {}).restrict fun _ a => hosted a = true).Reachable m ∧
      (m.nodes 0).state = .busy ∧ ∃! w, (m.dispatch w).node = some 0 := by
  obtain ⟨m, run, h⟩ := System.Reachable.exists_of_run
    (S := (master {}).restrict fun _ a => hosted a = true) (.init rfl)
    (opening ++ asks (page (bytes "keep-alive")) ++ [.dispatch 0 .ok])
    (fun m => decide ((m.nodes 0).state = .busy)) (by decide +kernel)
  have busy := of_decide_eq_true h
  exact ⟨m, run, busy, (busy_owned {} m run).2.2 0 busy⟩

/-! ## A node that nobody has -/

section Other
variable {cfg : Config} {m m' : State} {w u : Nat}

/-- A dispatch worker moves alone. -/
lemma DispatchMove.others (h : DispatchMove cfg m w m') (ne : u ≠ w) : m'.dispatch u = m.dispatch u := by
  have sent : ∀ {m1 : State} {n : Nat} {job : Option Nat},
      (m1.send cfg w n job).dispatch u = m1.dispatch u := by
    intro m1 n job
    unfold State.send
    dsimp only
    split
    · exact Function.update_of_ne ne _ _
    · exact Function.update_of_ne ne _ _
  cases h with
  | go _ _ => exact Function.update_of_ne ne _ _
  | pick picks =>
    obtain ⟨list, ranks, rfl, -⟩ := picks
    rfl
  | send _ _ picks =>
    obtain ⟨list, ranks, rfl, -⟩ := picks
    exact sent
  | depart _ picks _ _ =>
    obtain ⟨list, ranks, rfl, -⟩ := picks
    unfold State.depart
    split
    · exact sent
    · exact Function.update_of_ne ne _ _
  | receive _ _ =>
    unfold State.receive
    dsimp only
    split
    · exact Function.update_of_ne ne _ _
    · split
      · exact Function.update_of_ne ne _ _
      · exact Function.update_of_ne ne _ _
  | retire _ =>
    have driven := Function.update_of_ne ne DispatchPc.head m.dispatch
    unfold State.retire
    dsimp only
    split
    · exact driven
    · split
      · split
        · exact (Function.update_of_ne ne _ _).trans driven
        · exact (Function.update_of_ne ne _ _).trans driven
      · exact (Function.update_of_ne ne _ _).trans driven
  | giveUp _ => exact Function.update_of_ne ne _ _

/-- A dispatch worker that takes no step stays where it is. -/
lemma Move.others {a : Action} (h : Move cfg m a m') (idle : ∀ r, a ≠ .dispatch w r) :
    m'.dispatch w = m.dispatch w := by
  cases h with
  | dispatch move =>
    refine move.others ?_
    rintro rfl
    exact idle _ rfl
  | request move => cases move <;> rfl
  | response move =>
    cases move with
    | serve turns serves => cases turns <;> cases serves <;> rfl
    | ended _ | idle | shut _ _ => rfl
  | _ => rfl

end Other

/-- The steps that only the first dispatch worker takes. -/
def single : Action → Bool
  | .dispatch w _ => w == 0
  | _ => true

/-- The bytes of a request without a Host header. -/
def bareRequest : Bytes := bytes "GET / HTTP/1.1\r\n\r\n"

/-- Its session. -/
def bareSession : Session :=
  ⟨bytes "/", [], none, bytes "GET", bytes "1.1", bytes "keep-alive", none, none, []⟩

/-- A request without a Host header is accepted, although its session cannot be serialized. The session is
handed to a dispatch worker, which raises: the node is busy and nobody has it. -/
theorem busy_without_owner :
    (¬ ∀ asInteger maxBodySize late sock st session sock' st',
      readHttpHeader asInteger maxBodySize late sock st = .ok (session, sock', st') →
      (serialize session).isSome = true) ∧
    ¬ ∀ (cfg : Config) (m : State), (master cfg).Reachable m → ∀ n, (m.nodes n).state = .busy →
      ∃! w, (m.dispatch w).node = some n := by
  refine ⟨fun claim => ?_, fun claim => ?_⟩
  · have read : (readHttpHeader (fun _ => none) 1048576 (fun _ => false) ⟨[bareRequest], .silent⟩
        Async.State.new).toOption.map (fun r => r.1) = some bareSession := by decide +kernel
    obtain ⟨⟨session, sock', st'⟩, got, same⟩ := Option.map_eq_some_iff.mp read
    cases result : readHttpHeader (fun _ => none) 1048576 (fun _ => false) ⟨[bareRequest], .silent⟩
        Async.State.new with
    | error stop =>
      rw [result] at got
      cases got
    | ok r =>
      rw [result] at got
      cases got
      have fit := claim _ _ _ _ _ _ _ _ result
      rw [show session = bareSession from same] at fit
      exact absurd fit (by decide)
  · obtain ⟨m, run, h⟩ := System.Reachable.exists_of_run
      (S := (master {}).restrict fun _ a => single a = true) (.init rfl)
      (opening ++ asks bareSession ++ [.dispatch 0 .ok])
      (fun m => decide ((m.nodes 0).state = .busy ∧ m.dispatch 0 = .raised)) (by decide +kernel)
    obtain ⟨busy, raised⟩ := of_decide_eq_true h
    -- the other dispatch workers have never moved
    have still : ∀ w, w ≠ 0 → m.dispatch w = .head := by
      refine run.invariant (I := fun m => ∀ w, w ≠ 0 → m.dispatch w = .head) ?_ ?_
      · rintro _ rfl w -
        rfl
      intro m a m' idle st w ne
      obtain ⟨ok, st⟩ := System.restrict_next.mp st
      rw [(next_move st).others fun r e => ?_, idle w ne]
      subst e
      exact ne (by simpa [single] using ok)
    obtain ⟨w, has, -⟩ := claim {} m run.of_restrict 0 busy
    have has : (m.dispatch w).node = some 0 := has
    by_cases e : w = 0
    · rw [e, raised] at has
      cases has
    · rw [still w e] at has
      cases has

end CovNet.Master
