import CovNet.Master.Order

/-!
# Where the responses come from

What is stored for a session, and what is written for it, is the frame a slave returned for that very
session or the response that `compose_response` made for it, up to the rewrite of its `Connection` header.
`responses_in_order` puts this together with the order of the queues: it is the guarantee the master gives
to a client that sends several requests at once.
-/

namespace CovNet.Master
open Lib Text Http Socket

/-- The response of a session as it came in: a frame returned for it, or one the master made up. -/
def Origin (returned : List (Nat × Bytes)) (σ : Nat) (frame : Bytes) : Prop :=
  (σ, frame) ∈ returned ∨ ∃ code : StateCode, frame = composeResponse code.text

/-- The response of a session up to the rewrite. -/
def Rewritten (returned : List (Nat × Bytes)) (σ : Nat) (b : Bytes) : Prop :=
  ∃ frame keepAlive, Origin returned σ frame ∧ b = writtenResponse keepAlive frame

/-- Every response has an origin. Only what has been handed to a write is rewritten. -/
structure Origins (m : State) : Prop where
  stored : ∀ {σ b}, (m.sessions σ).response = some b →
    Origin m.returned σ b ∨
      Rewritten m.returned σ b ∧
        (m.response = .raised ∨ ∃ c, σ ∈ (m.conns c).responses.map Prod.fst)
  sent : ∀ {c σ b}, (σ, b) ∈ (m.conns c).responses → Rewritten m.returned σ b

lemma Origin.mono {returned returned' : List (Nat × Bytes)} {σ : Nat} {frame : Bytes}
    (h : Origin returned σ frame) (sub : returned ⊆ returned') : Origin returned' σ frame :=
  h.imp (fun mem => sub mem) id

lemma Origin.rewritten {returned : List (Nat × Bytes)} {σ : Nat} {frame : Bytes}
    (h : Origin returned σ frame) : Rewritten returned σ frame := ⟨frame, true, h, rfl⟩

lemma Rewritten.mono {returned returned' : List (Nat × Bytes)} {σ : Nat} {b : Bytes}
    (h : Rewritten returned σ b) (sub : returned ⊆ returned') : Rewritten returned' σ b := by
  obtain ⟨frame, keepAlive, origin, e⟩ := h
  exact ⟨frame, keepAlive, origin.mono sub, e⟩

namespace Origins
variable {cfg : Config} {m m' : State} {w c : Nat}

lemma init : Origins {} where
  stored h := by cases h
  sent h := by cases h

lemma congr (g : Origins m) (responses : ∀ c, (m'.conns c).responses = (m.conns c).responses)
    (answer : ∀ σ b, (m'.sessions σ).response = some b → (m.sessions σ).response = some b)
    (returned : m.returned ⊆ m'.returned) (raised : m.response = .raised → m'.response = .raised) :
    Origins m' where
  stored {σ b} h := by
    rcases g.stored (answer σ b h) with raw | ⟨rewritten, out⟩
    · exact .inl (raw.mono returned)
    · refine .inr ⟨rewritten.mono returned, out.imp raised fun issued => ?_⟩
      obtain ⟨c, mem⟩ := issued
      exact ⟨c, (responses c).symm ▸ mem⟩
  sent {c σ b} h := (g.sent (responses c ▸ h)).mono returned

/-- Work on the socket of a connection. -/
lemma touch {conn : HttpConn} (g : Origins m) (h : Handled (m.conns c) conn)
    (conns : m'.conns = Function.update m.conns c conn) (sessions : m'.sessions = m.sessions)
    (returned : m'.returned = m.returned) (raised : m.response = .raised → m'.response = .raised) :
    Origins m' := by
  refine g.congr (fun d => ?_) (fun σ b => ?_) ?_ raised
  · rw [conns]
    exact congrFun (update_read_same HttpConn.responses m.conns h.responses) d
  · rw [sessions]
    exact id
  · rw [returned]
    exact List.Subset.refl _

/-- A session gets a response that is its own. -/
lemma answer {σ : Nat} {b : Bytes} (g : Origins m) (own : Origin m.returned σ b) :
    Origins (m.answer σ b) where
  stored {τ b'} h := by
    simp only [State.answer] at h
    by_cases e : τ = σ
    · subst e
      rw [Function.update_self] at h
      cases h
      exact .inl own
    · rw [Function.update_of_ne e] at h
      exact g.stored h
  sent := g.sent

lemma request {p : Parsed} (g : Origins m) (r : Readers m) (h : RequestMove cfg m w p m') :
    Origins m' := by
  cases h with
  | ended _ | scan _ | fault _ =>
    exact g.congr (fun _ => rfl) (fun _ _ => id) (List.Subset.refl _) id
  | @read c conn list a deadline hand _ _ =>
    have same : Handled (m.conns c) { conn with sock := a } :=
      (r.inHand hand).2.2.2.2.trans ⟨rfl, rfl, rfl, rfl, rfl, rfl, rfl⟩
    exact g.touch same rfl rfl rfl id
  | raise hand _ => exact g.touch (r.inHand hand).2.2.2.2 rfl rfl rfl id
  | fail hand _ =>
    exact g.touch ((r.inHand hand).2.2.2.2.trans refuse_handles.handled) rfl rfl rfl id
  | @enqueue c deadline s state _ _ _ =>
    refine g.congr (congrFun (update_read_same HttpConn.responses m.conns rfl)) (fun σ b h => ?_)
      (List.Subset.refl _) id
    simp only [State.enqueue] at h
    by_cases e : σ = m.nextSession
    · subst e
      simp at h
    · rwa [Function.update_of_ne e] at h
  | shut h =>
    rcases h with ⟨ok, -, h⟩ | ⟨sh, -, h⟩
    · exact g.touch (shutFor_handles h).handled rfl rfl rfl id
    · exact g.touch (shutFor_handles h).handled rfl rfl rfl id

lemma closeFor_settle {p : HttpConn × Option Shutdown} {drained : Prop} (g : Origins m)
    (live : m.response ≠ .raised) (h : Shuts (m.conns c) drained p) :
    Origins (m.settle c (State.closeFor c p)) := by
  obtain ⟨conn, sh⟩ := p
  cases sh with
  | none =>
    have same : Handled (m.conns c) { conn with state := .close } :=
      h.handled.trans ⟨rfl, rfl, rfl, rfl, rfl, rfl, rfl⟩
    exact g.touch same rfl rfl rfl fun e => absurd e live
  | some sh => exact g.touch h.handled rfl rfl rfl fun e => absurd e live

/-- What the response worker is about to write has not been rewritten before. -/
lemma raw {σ : Nat} {rest : List Nat} {b : Bytes} (g : Origins m) (o : Order m)
    (head : m.response = .head) (front : (m.conns c).requestQueue = σ :: rest)
    (answered : (m.sessions σ).response = some b) : Origin m.returned σ b := by
  rcases g.stored answered with raw | ⟨-, raised | ⟨d, issued⟩⟩
  · exact raw
  · rw [head] at raised
    cases raised
  · have off : m.desk.writer = none := by
      show m.response.writes = none
      rw [head]
      rfl
    exact absurd issued (o.sound.not_issued off front answered d)

/-- A response is handed to a write, rewritten or not. -/
lemma write {σ : Nat} {b : Bytes} {keepAlive : Bool} {a : Atomics} (g : Origins m)
    (live : m.response ≠ .raised) (own : Origin m.returned σ b) :
    Origins ((m.answer σ (writtenResponse keepAlive b)).settle c
      ({ m.conns c with
          sock := a
          sent := (m.conns c).sent ++ [(some σ, writtenResponse keepAlive b)] },
        .writing c none)) := by
  have here : Rewritten m.returned σ (writtenResponse keepAlive b) := ⟨b, keepAlive, own, rfl⟩
  have grown : ∀ d, (((m.answer σ (writtenResponse keepAlive b)).settle c
      ({ m.conns c with
          sock := a
          sent := (m.conns c).sent ++ [(some σ, writtenResponse keepAlive b)] },
        .writing c none)).conns d).responses =
      (m.conns d).responses ++ if d = c then [(σ, writtenResponse keepAlive b)] else [] := by
    intro d
    simp only [State.settle]
    by_cases e : d = c
    · subst e
      simp [HttpConn.responses]
    · simp [State.answer, e]
  refine ⟨fun {τ b'} h => ?_, fun {d τ b'} h => ?_⟩
  · simp only [State.settle, State.answer] at h
    by_cases e : τ = σ
    · subst e
      rw [Function.update_self] at h
      cases h
      refine .inr ⟨here, .inr ⟨c, ?_⟩⟩
      rw [grown c]
      simp
    · rw [Function.update_of_ne e] at h
      refine (g.stored h).imp id ?_
      rintro ⟨rewritten, out⟩
      refine ⟨rewritten, ?_⟩
      rcases out with raised | ⟨d, mem⟩
      · exact absurd raised live
      · refine .inr ⟨d, ?_⟩
        rw [grown d, List.map_append]
        exact List.mem_append_left _ mem
  · rw [grown d] at h
    rcases List.mem_append.mp h with old | new
    · exact g.sent old
    · split at new
      · cases List.mem_singleton.mp new
        exact here
      · cases new

lemma serve (g : Origins m) (o : Order m) (head : m.response = .head) (h : ServeMove m c m') :
    Origins m' := by
  have live : m.response ≠ .raised := by simp [head]
  cases h with
  | pause _ _ | done _ =>
    exact g.congr (fun _ => rfl) (fun _ _ => id) (List.Subset.refl _) fun e => absurd e live
  | close _ _ shuts => exact g.closeFor_settle live shuts
  | @raise σ rest b e front answered _ =>
    have own := g.raw o head front answered
    refine ⟨fun {τ b'} h => ?_, g.sent⟩
    simp only [State.answer] at h
    by_cases e : τ = σ
    · subst e
      rw [Function.update_self] at h
      cases h
      exact .inr ⟨⟨b, _, own, rfl⟩, .inl rfl⟩
    · rw [Function.update_of_ne e] at h
      refine (g.stored h).imp id ?_
      rintro ⟨rewritten, -⟩
      exact ⟨rewritten, .inl rfl⟩
  | @write σ rest b a front answered _ => exact g.write live (g.raw o head front answered)

lemma turnsTo {m1 : State} (g : Origins m) (h : TurnsTo m c m1) : Origins m1 := by
  cases h with
  | pick _ _ _ => exact g
  | written writing =>
    refine g.congr (congrFun (update_read_same HttpConn.responses m.conns rfl)) (fun _ _ => id)
      (List.Subset.refl _) fun e => ?_
    rw [writing] at e
    cases e
  | dropped writing =>
    refine g.congr (congrFun (update_read_same HttpConn.responses m.conns rfl)) (fun _ _ => id)
      (List.Subset.refl _) fun e => ?_
    rw [writing] at e
    cases e
  | paused paused =>
    refine g.congr (fun _ => rfl) (fun _ _ => id) (List.Subset.refl _) fun e => ?_
    rw [paused] at e
    cases e

lemma response (g : Origins m) (o : Order m) (h : ResponseMove m m') : Origins m' := by
  cases h with
  | ended head =>
    refine g.congr (fun _ => rfl) (fun _ _ => id) (List.Subset.refl _) fun e => ?_
    rw [head] at e
    cases e
  | idle => exact g
  | serve turns serves =>
    obtain ⟨o1, head⟩ := o.turnsTo turns
    exact (g.turnsTo turns).serve o1 head serves
  | shut shutting shuts => exact g.closeFor_settle (by simp [shutting]) shuts

/-! ## The dispatch workers -/

/-- The dispatch workers store responses, and nothing else of interest here. -/
lemma driven (g : Origins m) (conns : m'.conns = m.conns) (sessions : m'.sessions = m.sessions)
    (returned : m'.returned = m.returned) (response : m'.response = m.response) : Origins m' := by
  refine g.congr (fun _ => by rw [conns]) (fun _ _ => ?_) ?_ fun e => response.trans e
  · rw [sessions]
    exact id
  · rw [returned]
    exact List.Subset.refl _

lemma giveUp {σ : Nat} {code : StateCode} (g : Origins m) : Origins (m.giveUp w σ code) :=
  (g.answer (.inr ⟨code, rfl⟩)).driven rfl rfl rfl rfl

lemma send {n : Nat} {job : Option Nat} (g : Origins m) : Origins (m.send cfg w n job) := by
  unfold State.send
  dsimp only
  split
  · exact g.driven rfl rfl rfl rfl
  · exact g.driven rfl rfl rfl rfl

lemma depart {n : Nat} (g : Origins m) : Origins (m.depart cfg w n c) := by
  have taken : Origins (m.take c) :=
    g.congr (congrFun (update_read_same HttpConn.responses m.conns rfl)) (fun _ _ => id)
      (List.Subset.refl _) id
  unfold State.depart
  split
  · exact taken.send
  · exact taken.driven rfl rfl rfl rfl

/-- The frame a worker receives is the one returned for its session. -/
lemma receive {n deadline : Nat} {job tag : Option Nat} {frame : Bytes}
    {rest : List (Option Nat × Bytes)} (g : Origins m) (s : Nodes m)
    (place : m.dispatch w = .receiving n job deadline)
    (inbox : (m.nodes n).inbox = (tag, frame) :: rest) : Origins (m.receive w n job frame) := by
  obtain ⟨rfl, -, -⟩ := s.receiving place inbox
  unfold State.receive
  dsimp only
  split
  · have own := s.origin (inbox ▸ List.mem_cons_self)
    exact (g.answer (.inl own)).driven rfl rfl rfl rfl
  · split
    · exact g.driven rfl rfl rfl rfl
    · exact g.driven rfl rfl rfl rfl

lemma attempt {σ : Nat} (g : Origins m) : Origins (m.attempt σ) := by
  refine g.congr (fun _ => rfl) (fun τ b h => ?_) (List.Subset.refl _) id
  exact (attempt_response τ).symm.trans h

lemma retire {n : Nat} {job : Option Nat} {code : StateCode} (g : Origins m) :
    Origins (m.retire cfg w n job code) := by
  have driven : Origins (m.drive w n ({ m.nodes n with state := .error }, .head)) :=
    g.driven rfl rfl rfl rfl
  unfold State.retire
  dsimp only
  split
  · exact driven
  · split
    · split
      · exact driven.attempt.giveUp
      · exact driven.attempt.driven rfl rfl rfl rfl
    · exact driven.giveUp

lemma dispatch (g : Origins m) (s : Nodes m) (h : DispatchMove cfg m w m') : Origins m' := by
  have picked : ∀ {node m1}, Picks m node m1 → Origins m1 := by
    intro node m1 picks
    obtain ⟨list, ranks, rfl, -⟩ := picks
    exact g.driven rfl rfl rfl rfl
  cases h with
  | go _ => exact g.driven rfl rfl rfl rfl
  | pick picks => exact picked picks
  | send _ _ picks => exact (picked picks).send
  | depart _ picks _ _ => exact (picked picks).depart
  | receive place inbox => exact g.receive s place inbox
  | retire _ => exact g.retire
  | giveUp _ => exact g.giveUp

lemma step {a : Action} (g : Origins m) (r : Readers m) (s : Nodes m) (o : Order m)
    (h : Move cfg m a m') : Origins m' := by
  cases h with
  | tick | stop | accept | spawn | spawned => exact g.driven rfl rfl rfl rfl
  | reply => exact g.congr (fun _ => rfl) (fun _ _ => id) (List.subset_append_left _ _) id
  | accepted =>
    have blank : (m.conns m.nextConn).responses = [] := by rw [r.fresh m.nextConn le_rfl]; rfl
    refine g.congr ?_ (fun _ _ => id) (List.Subset.refl _) id
    exact congrFun (update_read_same HttpConn.responses m.conns blank.symm)
  | request move => exact g.request r move
  | response move => exact g.response o move
  | dispatch move => exact g.dispatch s move
  | @readDone w c deadline r reading =>
    have same : Handled (m.conns c) ((m.conns c).finish .read) := ⟨rfl, rfl, rfl, rfl, rfl, rfl, rfl⟩
    exact g.touch same rfl rfl rfl id
  | @readLate c _ =>
    have same : Handled (m.conns c) { (m.conns c).finish .read with abandoned := false } :=
      ⟨rfl, rfl, rfl, rfl, rfl, rfl, rfl⟩
    exact g.touch same rfl rfl rfl id
  | @refuseDone w c code ok refusing =>
    have same : Handled (m.conns c) ((m.conns c).finish .write) := ⟨rfl, rfl, rfl, rfl, rfl, rfl, rfl⟩
    exact g.touch same rfl rfl rfl id
  | @responseDone c ok writing =>
    have same : Handled (m.conns c) ((m.conns c).finish .write) := ⟨rfl, rfl, rfl, rfl, rfl, rfl, rfl⟩
    refine g.touch same rfl rfl rfl fun e => ?_
    rw [writing] at e
    cases e

end Origins

/-! ## The guarantee -/

/-- The invariants of the master. -/
structure Inv (m : State) : Prop where
  readers : Readers m
  nodes : Nodes m
  order : Order m
  origins : Origins m

lemma Inv.init : Inv {} := ⟨.init, .init, .init, .init⟩

lemma Inv.step {cfg : Config} {m m' : State} {a : Action} (i : Inv m) (h : Move cfg m a m') :
    Inv m' :=
  ⟨i.readers.step h, i.nodes.step h, i.order.step i.readers h,
    i.origins.step i.readers i.nodes i.order h⟩

theorem inv_of_reachable {cfg : Config} {m : State} (h : (master cfg).Reachable m) : Inv m :=
  h.invariant (by rintro _ rfl; exact .init) fun _ _ _ i st => i.step (next_move st)

/-- The responses written on a connection are those of the sessions enqueued there, in their order and
without gap or repetition, and each one is its session's own. What is stored for a session is its own
too. -/
theorem responses_in_order (cfg : Config) (m : State) (run : (master cfg).Reachable m) :
    (∀ c, (m.conns c).enqueued.Nodup ∧
      (m.conns c).responses.map Prod.fst <+: (m.conns c).enqueued ∧
      ∀ σ b, (σ, b) ∈ (m.conns c).responses → Rewritten m.returned σ b) ∧
    (∀ c c' σ, σ ∈ (m.conns c).enqueued → σ ∈ (m.conns c').enqueued → c = c') ∧
    ∀ σ b, (m.sessions σ).response = some b → Rewritten m.returned σ b := by
  obtain ⟨-, -, order, origins⟩ := inv_of_reachable run
  refine ⟨fun c => ⟨order.sound.nodup c, ?_, fun σ b mem => origins.sent mem⟩, ?_, ?_⟩
  · exact (order.ordered c).issued_prefix_enqueued
  · intro c c' σ mem mem'
    exact order.sound.apart mem mem'
  · intro σ b stored
    exact (origins.stored stored).elim Origin.rewritten fun h => h.1

/-! ## A run -/

/-- A request for a page, with the connection it asks for. -/
def page (connection : Bytes) : Session :=
  ⟨bytes "/", [], some (bytes "h"), bytes "GET", bytes "1.1", connection, none, none, []⟩

/-- One client and one slave connect. -/
def opening : List Action :=
  [.accept true, .accept true, .spawn (some []), .spawn (some []), .spawn (some (bytes "WORKER 2.2 0"))]

/-- A request worker takes the connection and reads a session from it. -/
def asks (s : Session) : List Action := [.request 0 .more, .readDone 0 .ok, .request 0 (.session s)]

/-- A dispatch worker sends the next session to the slave, which returns a frame. -/
def answers (frame : Bytes) : List Action :=
  [.dispatch 0 .ok, .dispatch 0 .ok, .reply 0 frame, .dispatch 0 .ok]

/-- A request is read, sent to the slave, answered and written back. -/
theorem responses_in_order_page :
    ∃ m, (master {}).Reachable m ∧ (m.conns 0).responses = [(0, bytes "HTTP/1.1 200 OK")] ∧
      Rewritten m.returned 0 (bytes "HTTP/1.1 200 OK") := by
  obtain ⟨m, run, h⟩ := System.Reachable.exists_of_run (S := master {}) (.init rfl)
    (opening ++ asks (page (bytes "keep-alive")) ++ answers (bytes "HTTP/1.1 200 OK") ++
      [.response, .responseDone true, .response])
    (fun m => decide ((m.conns 0).responses = [(0, bytes "HTTP/1.1 200 OK")])) (by decide +kernel)
  have written := of_decide_eq_true h
  refine ⟨m, run, written, ((responses_in_order {} m run).1 0).2.2 0 _ ?_⟩
  rw [written]
  exact List.mem_singleton_self _

end CovNet.Master
