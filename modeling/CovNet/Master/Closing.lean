import CovNet.Master.Life
import CovNet.Master.Overtaking

/-!
# What the responses say and what the master does

A response says `Connection: close` when its slave, or `compose_response`, has put it there, or when the
response worker has rewritten it; the connection is closed when `keep_alive` is false and the queue is
empty, or when a read has failed. The two agree as long as the slaves answer as they are told to and
nothing else ends up on a connection that stays open: `agreeing` is the condition on the steps, and
`closing_agrees` what it gives. Where a dispatch fails for good, the error response says close on a
connection that stays open (`keep_alive_says_close`).
-/

namespace CovNet.Master
open Lib Text Http Socket

/-- The connection the response worker shuts down. -/
def ResponsePc.shuts : ResponsePc → Option Nat
  | .shutting c _ => some c
  | _ => none

/-- The connection a request worker gives up after a failed read, with the code. -/
def RequestPc.leaves : RequestPc → Option (Nat × StateCode)
  | .on c (.refusing code _) | .on c (.shutting code _) => some (c, code)
  | _ => none

/-- The connection a request worker gives up with an error response. -/
def RequestPc.rejects (pc : RequestPc) : Option Nat :=
  (pc.leaves.filter fun p => p.2 ≠ .codeEof).map Prod.fst

namespace State

/-- The queued sessions whose responses have not been handed to `async.write`. -/
def unissued (m : State) (c : Nat) : List Nat :=
  if m.response.writes = some c then (m.conns c).requestQueue.tail else (m.conns c).requestQueue

/-- The response of a session that the response worker may still write. -/
def stored (m : State) (σ : Nat) : Option Bytes :=
  if m.response = .raised then none else (m.sessions σ).response

/-- The sessions that wait for their response to be written: whether they close the connection, and the
response. -/
def waiting (m : State) (c : Nat) : List (Bool × Option Bytes) :=
  (m.unissued c).map fun σ => (closes (m.sessions σ).session, m.stored σ)

/-- The session a request worker is about to queue. -/
def joining (cfg : Config) (m : State) (w : Nat) (p : Parsed) : Option (Nat × Session) :=
  match m.request w, p, m.failing cfg w p with
  | .on c (.reading _ _), .session s, none =>
    some (c, limited cfg ((m.conns c).requestCount + 1) s)
  | _, _, _ => none

/-- The response a dispatch worker is about to store: a frame or an error response. -/
def answering (cfg : Config) (m : State) (w : Nat) (r : NodeResult) : Option (Nat × Bytes) :=
  match m.dispatch w, r with
  | .receiving n (some σ) _, .ok => (m.nodes n).inbox.head?.map fun frame => (σ, frame.2)
  | .retiring _ (some σ) code, _ =>
    if retriable (m.sessions σ).session ∧
        (m.sessions σ).dispatchAttempts + 1 ≤ cfg.masterDispatchRetry then none
    else some (σ, composeResponse code.text)
  | .awaiting σ code waitStart, _ =>
    if m.stopped ∨ cfg.slaveKeepAliveTimeout + cfg.slaveSpawnTimeout ≤ m.now - waitStart then
      some (σ, composeResponse code.text)
    else none
  | _, _ => none

/-- The response fits the session on every connection it waits on: as it would be written now, it says
close exactly if the session closes the connection. -/
def fits (m : State) (σ : Nat) (b : Bytes) : Bool :=
  (List.range m.nextConn).all fun c =>
    σ ∉ m.unissued c ||
      saysClose (writtenResponse (m.conns c).keepAlive b) == closes (m.sessions σ).session

end State

/-- A read fails, the end of the stream apart, only where no response is still to be handed over; a
session that closes is queued only behind responses that do not say close after the rewrite; and the
responses stored for the sessions fit them. -/
def agreeing (cfg : Config) (m : State) : Action → Bool
  | .request w p =>
    ((m.failing cfg w p).all fun f => f.2 == .codeEof || (m.unissued f.1).isEmpty) &&
      ((m.joining cfg w p).all fun f => !closes f.2 || !(m.conns f.1).keepAlive ||
        (m.waiting f.1).all fun x => x.2.all fun b => !saysClose (writtenResponse false b))
  | .dispatch w r => (m.answering cfg w r).all fun f => m.fits f.1 f.2
  | _ => true

/-- Every connection agrees with its responses. The response worker may be at work on one of them. -/
def Agreement (att : Option Nat) (m : State) : Prop :=
  ∀ c, Agrees (m.conns c) (m.waiting c) (m.response.writes = some c ∨ att = some c)
    (m.response.shuts = some c) (∃ w, (m.request w).reads = some c)
    (∃ w, (m.request w).rejects = some c) (∃ w code, (m.request w).leaves = some (c, code))

lemma RequestPc.conn_of_leaves {pc : RequestPc} {c : Nat} {code : StateCode}
    (h : pc.leaves = some (c, code)) : pc.conn = some c := by
  cases pc with
  | on d phase =>
    cases phase with
    | reading deadline state => cases h
    | refusing code' state =>
      cases h
      rfl
    | shutting code' sh =>
      cases h
      rfl
  | head | raised | ended => cases h

lemma RequestPc.leaves_of_rejects {pc : RequestPc} {c : Nat} (h : pc.rejects = some c) :
    ∃ code, pc.leaves = some (c, code) ∧ code ≠ .codeEof := by
  simp only [rejects, Option.map_eq_some_iff, Option.filter_eq_some_iff, decide_eq_true_eq] at h
  obtain ⟨⟨d, code⟩, ⟨e, ne⟩, rfl⟩ := h
  exact ⟨code, e, ne⟩

lemma RequestPc.conn_of_rejects {pc : RequestPc} {c : Nat} (h : pc.rejects = some c) :
    pc.conn = some c := by
  obtain ⟨code, e, -⟩ := RequestPc.leaves_of_rejects h
  exact RequestPc.conn_of_leaves e

lemma ResponsePc.conn_of_shuts {pc : ResponsePc} {c : Nat} (h : pc.shuts = some c) :
    pc.conn = some c := by
  cases pc <;> first | exact h | cases h

lemma ResponsePc.conn_of_writes {pc : ResponsePc} {c : Nat} (h : pc.writes = some c) :
    pc.conn = some c := by
  cases pc <;> first | exact h | cases h

namespace Agreement
variable {cfg : Config} {m m' : State} {w c : Nat} {att att' : Option Nat}

lemma init : Agreement none {} := by
  intro c
  refine ⟨?_, ?_, ?_, ?_, ?_, ?_, ?_, ?_, ?_, ?_, ?_, ?_⟩
  · intro e mem
    cases mem
  · intro closing b mem
    cases mem
  · intro _ x mem
    cases mem
  · intro no
    cases no
  · intro no
    cases no
  · rintro ⟨u, on⟩
    cases on
  · rintro _ _ ⟨e, mem, -⟩
    cases mem
  · rintro ⟨e, mem, -⟩
    cases mem
  · intro no
    cases no
  · rintro ⟨u, on⟩
    cases on
  · rintro ⟨u, code, on⟩
    cases on
  · intro no
    cases no

/-- The invariant sees no more than this. -/
lemma congr (g : Agreement att m) (conns : m'.conns = m.conns)
    (waiting : ∀ c, m'.waiting c = m.waiting c) (request : m'.request = m.request)
    (response : m'.response = m.response) : Agreement att m' := by
  intro c
  rw [conns, waiting, request, response]
  exact g c

/-- What a request worker does, seen from the connection it is on. -/
lemma own (g : Agreement att m) (alone : ∀ u, u ≠ w → (m.request u).conn ≠ some c) :
    Agrees (m.conns c) (m.waiting c) (m.response.writes = some c ∨ att = some c)
      (m.response.shuts = some c) ((m.request w).reads = some c)
      ((m.request w).rejects = some c) (∃ code, (m.request w).leaves = some (c, code)) := by
  refine (g c).mono id Iff.rfl (fun on => ⟨w, on⟩) ⟨fun on => ⟨w, on⟩, ?_⟩ fun ⟨code, on⟩ => ⟨w, code, on⟩
  rintro ⟨u, on⟩
  by_cases eu : u = w
  · rwa [← eu]
  · exact absurd (RequestPc.conn_of_rejects on) (alone u eu)

/-- A request worker moves on a connection that nobody else is on. -/
lemma moveOn {conn : HttpConn} {pc : RequestPc} (g : Agreement none m)
    (conns : m'.conns = Function.update m.conns c conn)
    (request : m'.request = Function.update m.request w pc) (response : m'.response = m.response)
    (waiting : ∀ d, d ≠ c → m'.waiting d = m.waiting d)
    (alone : ∀ u, u ≠ w → (m.request u).conn ≠ some c)
    (source : ∀ d, (m.request w).conn = some d → d = c) (target : ∀ d, pc.conn = some d → d = c)
    (new : Agrees conn (m'.waiting c) (m.response.writes = some c ∨ none = some c)
      (m.response.shuts = some c) (pc.reads = some c) (pc.rejects = some c)
      (∃ code, pc.leaves = some (c, code))) : Agreement none m' := by
  have self : m'.request w = pc := by rw [request, Function.update_self]
  have other : ∀ u, u ≠ w → m'.request u = m.request u := by
    intro u ne
    rw [request, Function.update_of_ne ne]
  intro d
  rw [conns, response]
  -- the worker is alone on `c`; it was on no other connection and goes to none
  by_cases ed : d = c
  · subst ed
    rw [Function.update_self]
    refine new.mono id Iff.rfl ?_ ⟨?_, fun on => ⟨w, self.symm ▸ on⟩⟩ ?_
    · rintro ⟨u, on⟩
      by_cases eu : u = w
      · rwa [eu, self] at on
      · rw [other u eu] at on
        exact absurd (RequestPc.conn_of_reads on) (alone u eu)
    · rintro ⟨u, on⟩
      by_cases eu : u = w
      · rwa [eu, self] at on
      · rw [other u eu] at on
        exact absurd (RequestPc.conn_of_rejects on) (alone u eu)
    · rintro ⟨u, code, on⟩
      by_cases eu : u = w
      · rw [eu, self] at on
        exact ⟨code, on⟩
      · rw [other u eu] at on
        exact absurd (RequestPc.conn_of_leaves on) (alone u eu)
  · rw [Function.update_of_ne ed, waiting d ed]
    refine (g d).mono id Iff.rfl ?_ ⟨?_, ?_⟩ ?_
    · rintro ⟨u, on⟩
      by_cases eu : u = w
      · rw [eu, self] at on
        exact absurd (target d (RequestPc.conn_of_reads on)) ed
      · rw [other u eu] at on
        exact ⟨u, on⟩
    · rintro ⟨u, on⟩
      by_cases eu : u = w
      · rw [eu, self] at on
        exact absurd (target d (RequestPc.conn_of_rejects on)) ed
      · rw [other u eu] at on
        exact ⟨u, on⟩
    · rintro ⟨u, on⟩
      by_cases eu : u = w
      · rw [eu] at on
        exact absurd (source d (RequestPc.conn_of_rejects on)) ed
      · exact ⟨u, (other u eu).symm ▸ on⟩
    · rintro ⟨u, code, on⟩
      by_cases eu : u = w
      · rw [eu, self] at on
        exact absurd (target d (RequestPc.conn_of_leaves on)) ed
      · rw [other u eu] at on
        exact ⟨u, code, on⟩

/-- The same where the queue of the connection stays as it is. -/
lemma place {list : List Nat} {p : HttpConn × RequestPc} (g : Agreement none m)
    (alone : ∀ u, u ≠ w → (m.request u).conn ≠ some c)
    (source : ∀ d, (m.request w).conn = some d → d = c) (target : ∀ d, p.2.conn = some d → d = c)
    (queue : p.1.requestQueue = (m.conns c).requestQueue)
    (new : Agrees p.1 (m.waiting c) (m.response.writes = some c ∨ none = some c)
      (m.response.shuts = some c) (p.2.reads = some c) (p.2.rejects = some c)
      (∃ code, p.2.leaves = some (c, code))) :
    Agreement none ({ m with connList := list }.place w c p) := by
  have waiting : ∀ d, ({ m with connList := list }.place w c p).waiting d = m.waiting d := by
    intro d
    unfold State.waiting State.unissued State.stored
    simp only [State.place]
    by_cases ed : d = c
    · subst ed
      rw [Function.update_self, queue]
      rfl
    · rw [Function.update_of_ne ed]
      rfl
  refine g.moveOn rfl rfl rfl (fun d _ => waiting d) alone source target ?_
  rw [waiting]
  exact new

/-- A worker that is on no connection before and after its move. -/
lemma leave {pc : RequestPc} (g : Agreement none m)
    (same : ∀ d, pc.rejects = some d ↔ (m.request w).rejects = some d) (reads : pc.reads = none)
    (leaves : ∀ d code, pc.leaves = some (d, code) → (m.request w).leaves = some (d, code)) :
    Agreement none { m with request := Function.update m.request w pc } := by
  intro d
  refine (g d).mono id Iff.rfl ?_ ⟨?_, ?_⟩ ?_
  · rintro ⟨u, on⟩
    by_cases eu : u = w
    · subst eu
      simp [reads] at on
    · exact ⟨u, by simpa [Function.update_of_ne eu] using on⟩
  · rintro ⟨u, on⟩
    by_cases eu : u = w
    · subst eu
      exact ⟨u, (same d).mp (by simpa using on)⟩
    · exact ⟨u, by simpa [Function.update_of_ne eu] using on⟩
  · rintro ⟨u, on⟩
    by_cases eu : u = w
    · subst eu
      exact ⟨u, by simpa using (same d).mpr on⟩
    · exact ⟨u, by simpa [Function.update_of_ne eu] using on⟩
  · rintro ⟨u, code, on⟩
    by_cases eu : u = w
    · subst eu
      exact ⟨u, code, leaves d code (by simpa using on)⟩
    · exact ⟨u, code, by simpa [Function.update_of_ne eu] using on⟩

/-- The connection in hand: its worker reads from it. -/
lemma inHand {conn : HttpConn} {list : List Nat} (g : Agreement none m) (r : Readers m)
    (hand : InHand m w c conn list) :
    Agrees conn (m.waiting c) (m.response.writes = some c ∨ none = some c)
      (m.response.shuts = some c) True False False := by
  obtain ⟨-, -, alone, -, same⟩ := r.inHand hand
  have own := g.own alone
  cases hand with
  | pick head mem est keep sub =>
    have silent := (g c).fresh est keep
    refine own.move rfl rfl rfl id (fun _ => .inr ⟨est, keep⟩) (fun _ => est)
      (fun said => absurd said silent) .inl False.elim False.elim (fun no => by cases no)
  | keep reading =>
    have on : (m.request w).reads = some c := by rw [reading]; rfl
    refine own.move rfl rfl rfl id (fun _ => .inl on) id
      (fun said => absurd said (own.reading on).1) .inl False.elim False.elim .inl

/-- A read fails: the connection is given up. -/
lemma fail {conn : HttpConn} {list : List Nat} {code : StateCode} (g : Agreement none m)
    (r : Readers m) (hand : InHand m w c conn list)
    (none : code = .codeEof ∨ m.unissued c = []) :
    Agreement Option.none ({ m with connList := list }.place w c (conn.refuse c m.now code)) := by
  obtain ⟨-, -, alone, held, same⟩ := r.inHand hand
  have here := g.inHand r hand
  have silent := (here.reading trivial).1
  have source : ∀ d, (m.request w).conn = some d → d = c := by
    intro d on
    cases hand with
    | pick head _ _ _ _ =>
      rw [head] at on
      cases on
    | keep reading =>
      rw [reading] at on
      cases on
      rfl
  have handles : Handles c conn (conn.refuse c m.now code) := refuse_handles
  refine g.place alone source handles.place (handles.handled.trans
    ⟨rfl, rfl, rfl, rfl, rfl, rfl, rfl⟩ |>.requestQueue.trans same.requestQueue) ?_
  unfold HttpConn.refuse
  dsimp only
  -- at the end of the stream the socket is shut down, otherwise a response is written first
  split
  · rename_i eof
    subst eof
    have shuts : Shuts { conn with refused := true } _
        (HttpConn.safeShutdown { conn with refused := true } m.now) := safeShutdown_shuts
    obtain ⟨isOpen, exclusive, e, -⟩ := shuts
    cases hs : HttpConn.safeShutdown { conn with refused := true } m.now with
    | mk conn' sh =>
      rw [hs] at e
      dsimp only at e
      subst e
      cases sh with
      | none =>
        refine here.move rfl rfl rfl (fun _ => rfl) (fun no => by cases no) (fun no => by cases no)
          (fun said => absurd said silent) .inl (fun no => by cases no)
          (fun _ => rfl) (fun _ => .inr (.inl rfl))
      | some sh =>
        refine here.move rfl rfl rfl (fun _ => rfl) (fun no => by cases no) id
          (fun said => absurd said silent) .inl (fun no => by cases no) (fun _ => rfl) .inl
  · rename_i real
    split
    · rename_i a _
      have empty : m.waiting c = [] := by
        rw [State.waiting, none.resolve_left real, List.map_nil]
      have given : Agrees { conn with
            refused := true
            sock := a
            sent := conn.sent ++ [(Option.none, composeResponse code.text)] } (m.waiting c)
          (m.response.writes = some c ∨ Option.none = some c) (m.response.shuts = some c) False True
          True := here.refuse trivial rfl rfl rfl rfl held.state empty
      exact given.mono id Iff.rfl (fun no => by cases no)
        (by simp [RequestPc.rejects, RequestPc.leaves, real]) fun _ => trivial
    · refine here.move rfl rfl rfl (fun _ => rfl) (fun no => by cases no) id
        (fun said => absurd said silent) .inl (fun no => by cases no)
        (fun ⟨_, no⟩ => by cases no) .inl

/-- The worker shuts the connection down. -/
lemma shut {r : HttpConn × Option Shutdown} {code : StateCode} {drained : Prop} {phase : Phase}
    (g : Agreement none m) (rd : Readers m) (place : m.request w = .on c phase)
    (leaves : (m.request w).leaves = some (c, code)) (h : Shuts (m.conns c) drained r) :
    Agreement none (m.place w c (shutFor c code r)) := by
  have on : (m.request w).conn = some c := by rw [place]; rfl
  have alone : ∀ u, u ≠ w → (m.request u).conn ≠ some c := fun u ne on' => ne (rd.uniq on' on)
  have own := g.own alone
  have handles : Handles c (m.conns c) (shutFor c code r) := shutFor_handles h
  refine show Agreement none ({ m with connList := m.connList }.place w c (shutFor c code r)) from
    g.place alone (fun d e => ?_) handles.place handles.handled.requestQueue ?_
  · rw [on] at e
    cases e
    rfl
  obtain ⟨isOpen, exclusive, e, -⟩ := h
  obtain ⟨conn', sh⟩ := r
  dsimp only at e
  subst e
  have gone := own.leaving ⟨code, leaves⟩
  cases sh with
  | none =>
    refine own.move rfl rfl rfl id (fun no => by cases no) (fun no => by cases no)
      (fun _ _ _ => .inr (.inr rfl)) .inl (fun no => by cases no) (fun ⟨_, no⟩ => by cases no)
      (fun _ => .inr (.inl gone))
  | some sh =>
    have same : (RequestPc.on c (.shutting code sh)).rejects = (m.request w).rejects := by
      simp only [RequestPc.rejects, leaves]
      rfl
    refine own.move rfl rfl rfl id (fun no => by cases no) id ?_ .inl ?_ (fun _ => gone) .inl
    · rintro - - (⟨keep, att | shuts⟩ | refuses | closed)
      · exact .inl ⟨keep, .inl att⟩
      · exact .inl ⟨keep, .inr shuts⟩
      · exact .inr (.inl (same.trans refuses))
      · exact .inr (.inr closed)
    · exact fun yes => same.symm.trans yes

/-- A session that waits is known. -/
lemma unissued_lt {σ : Nat} (o : Order m) (mem : σ ∈ m.unissued c) : σ < m.nextSession := by
  refine o.known ((o.ordered c).queue_subset ?_)
  unfold State.unissued at mem
  split at mem
  · exact List.mem_of_mem_tail mem
  · exact mem

/-- The session that has been read is queued. -/
lemma enqueue {deadline : Nat} {s : Session} {state : Option ReadResult} (g : Agreement none m)
    (r : Readers m) (o : Order m) (reading : m.request w = .on c (.reading deadline state))
    (ok : closes (State.limited cfg ((m.conns c).requestCount + 1) s) = true →
      (m.conns c).keepAlive = true → ∀ x b, (x, some b) ∈ m.waiting c →
        saysClose (writtenResponse false b) = false) :
    Agreement none (m.enqueue cfg w c s) := by
  have on : (m.request w).conn = some c := by rw [reading]; rfl
  have alone : ∀ u, u ≠ w → (m.request u).conn ≠ some c := fun u ne on' => ne (r.uniq on' on)
  have known : ∀ d, ((m.unissued d).map fun σ =>
      (closes ((m.enqueue cfg w c s).sessions σ).session, (m.enqueue cfg w c s).stored σ)) =
      m.waiting d := by
    intro d
    refine List.map_congr_left fun σ mem => ?_
    have ne : σ ≠ m.nextSession := (unissued_lt o mem).ne
    simp only [State.stored, State.enqueue, State.place, Function.update_of_ne ne]
  have elsewhere : ∀ d, d ≠ c → (m.enqueue cfg w c s).waiting d = m.waiting d := by
    intro d ne
    rw [← known d]
    unfold State.waiting State.unissued
    simp only [State.enqueue, State.place, Function.update_of_ne ne]
  -- the session being written is no longer waiting, but it is still at the front of the queue
  have joined : (m.enqueue cfg w c s).unissued c = m.unissued c ++ [m.nextSession] := by
    unfold State.unissued
    simp only [State.enqueue, State.place, Function.update_self, HttpConn.push]
    split
    · rename_i writes
      have front := ((o.ordered c).front (by simpa using writes)).1
      exact List.tail_append_of_ne_nil front
    · rfl
  have here : (m.enqueue cfg w c s).waiting c = m.waiting c ++
      [(closes (State.limited cfg ((m.conns c).requestCount + 1) s), none)] := by
    rw [State.waiting, joined, List.map_append, known]
    have new : (m.enqueue cfg w c s).stored m.nextSession = none := by
      unfold State.stored
      split
      · rfl
      · simp [State.enqueue]
    rw [List.map_singleton, new]
    simp [State.enqueue]
  have late : (m.conns c).failed = true → m.waiting c = [] := by
    intro lost
    have empty := (r.held on).late lost
    simp [State.waiting, State.unissued, empty]
  refine g.moveOn rfl rfl rfl elsewhere alone (fun d e => ?_) (fun d e => by cases e) ?_
  · rw [on] at e
    cases e
    rfl
  · rw [here]
    have reads : (m.request w).reads = some c := by rw [reading]; rfl
    have pushed : Agrees ((m.conns c).push m.now m.nextSession
        (State.limited cfg ((m.conns c).requestCount + 1) s)) _ _ _ False _ _ :=
      (g.own alone).enqueue reads rfl rfl rfl rfl rfl late ok
    refine pushed.mono id Iff.rfl (fun no => by cases no) ?_ ?_
    · rw [reading]
      rfl
    · rintro ⟨code, no⟩
      cases no

lemma request {p : Parsed} (g : Agreement none m) (r : Readers m) (o : Order m)
    (h : RequestMove cfg m w p m') (ok : agreeing cfg m (.request w p) = true) :
    Agreement none m' := by
  simp only [agreeing, Bool.and_eq_true] at ok
  obtain ⟨fails, joins⟩ := ok
  have source : ∀ {c conn list}, InHand m w c conn list →
      ∀ d, (m.request w).conn = some d → d = c := by
    intro c conn list hand d on
    cases hand with
    | pick head _ _ _ _ =>
      rw [head] at on
      cases on
    | keep reading =>
      rw [reading] at on
      cases on
      rfl
  cases h with
  | ended head =>
    exact g.leave (fun d => by rw [head]; rfl) rfl fun d code no => by cases no
  | scan _ => exact g.congr rfl (fun _ => rfl) rfl rfl
  | fault reading =>
    exact g.leave (fun d => by rw [reading]; rfl) rfl fun d code no => by cases no
  | @read c conn list a deadline hand _ _ =>
    obtain ⟨-, -, alone, held, same⟩ := r.inHand hand
    refine g.place alone (source hand) (fun d e => by cases e; rfl) same.requestQueue ?_
    exact (g.inHand r hand).move rfl rfl rfl id (fun _ => .inl trivial) id (fun _ _ => by tauto)
      .inl (fun no => by cases no) (fun ⟨_, no⟩ => by cases no) .inl
  | @raise c conn list hand _ =>
    obtain ⟨-, -, alone, held, same⟩ := r.inHand hand
    refine g.place alone (source hand) (fun d e => by cases e) same.requestQueue ?_
    exact (g.inHand r hand).move rfl rfl rfl id (fun no => by cases no) id (fun _ _ => by tauto)
      .inl (fun no => by cases no) (fun ⟨_, no⟩ => by cases no) .inl
  | @fail c conn list code hand failing =>
    simp only [failing, Option.all_some, Bool.or_eq_true, beq_iff_eq, List.isEmpty_iff] at fails
    exact g.fail r hand fails
  | @enqueue c deadline s state reading parsed live =>
    refine g.enqueue r o reading ?_
    intro closing keep x b mem
    have joining : m.joining cfg w p =
        some (c, State.limited cfg ((m.conns c).requestCount + 1) s) := by
      simp only [State.joining, reading, parsed] at live ⊢
      rw [live]
    simp only [joining, Option.all_some, closing, keep, Bool.not_true, Bool.false_or] at joins
    have one := List.all_eq_true.mp joins _ mem
    simpa using one
  | @shut c code rs h =>
    rcases h with ⟨done, place, h⟩ | ⟨sh, place, h⟩
    · exact g.shut r place (by rw [place]; rfl) h
    · exact g.shut r place (by rw [place]; rfl) h

/-! ## The response worker -/

/-- The response worker moves on the one connection it is on. -/
lemma attend {conn : HttpConn} {pc : ResponsePc} (g : Agreement att m)
    (conns : m'.conns = Function.update m.conns c conn) (request : m'.request = m.request)
    (response : m'.response = pc) (waiting : ∀ d, d ≠ c → m'.waiting d = m.waiting d)
    (source : ∀ d, m.response.conn = some d ∨ att = some d → d = c)
    (target : ∀ d, pc.conn = some d ∨ att' = some d → d = c)
    (new : Agrees conn (m'.waiting c) (pc.writes = some c ∨ att' = some c) (pc.shuts = some c)
      (∃ w, (m.request w).reads = some c) (∃ w, (m.request w).rejects = some c)
      (∃ w code, (m.request w).leaves = some (c, code))) : Agreement att' m' := by
  intro d
  rw [conns, request, response]
  by_cases ed : d = c
  · subst ed
    rw [Function.update_self]
    exact new
  · rw [Function.update_of_ne ed, waiting d ed]
    refine (g d).mono ?_ ⟨?_, ?_⟩ id Iff.rfl id
    · rintro (on | on)
      · exact absurd (source d (.inl (ResponsePc.conn_of_writes on))) ed
      · exact absurd (source d (.inr on)) ed
    · exact fun on => absurd (target d (.inl (ResponsePc.conn_of_shuts on))) ed
    · exact fun on => absurd (source d (.inl (ResponsePc.conn_of_shuts on))) ed

/-- What waits elsewhere is not touched by the response worker. -/
lemma waiting_settle {p : HttpConn × ResponsePc} {d : Nat} (ne : d ≠ c)
    (old : m.response.writes ≠ some d) (new : p.2.writes ≠ some d) (live : m.response ≠ .raised)
    (live' : p.2 ≠ .raised) : (m.settle c p).waiting d = m.waiting d := by
  unfold State.waiting State.unissued State.stored
  simp only [State.settle, Function.update_of_ne ne, if_neg old, if_neg new, live, live', if_false]

/-- A session that does not wait is answered. -/
lemma waiting_answer {σ d : Nat} {b : Bytes} (out : σ ∉ m.unissued d) :
    (m.answer σ b).waiting d = m.waiting d := by
  have others : ∀ τ ∈ m.unissued d, τ ≠ σ := by
    rintro τ mem rfl
    exact out mem
  refine List.map_congr_left fun τ mem => ?_
  unfold State.stored
  simp only [State.answer, Function.update_of_ne (others τ mem)]

/-- The response worker turns to a connection. -/
lemma turnsTo {m1 : State} (g : Agreement none m) (h : TurnsTo m c m1) :
    Agreement (some c) m1 := by
  have some' : ∀ {d}, some c = some d → d = c := fun e => by cases e; rfl
  cases h with
  | pick head _ _ =>
    intro d
    exact (g d).mono (fun on => on.imp_right fun no => by cases no) Iff.rfl id Iff.rfl id
  | paused paused =>
    intro d
    have waiting : State.waiting { m with response := .head } d = m.waiting d := by
      unfold State.waiting State.unissued State.stored
      simp [paused, ResponsePc.writes]
    rw [waiting]
    refine (g d).mono ?_ ?_ id Iff.rfl id
    · simp [paused, ResponsePc.writes]
    · simp [paused, ResponsePc.shuts]
  | written writing =>
    have on : m.response.writes = some c := by rw [writing]; rfl
    have here : (m.written c).waiting c = m.waiting c := by
      unfold State.waiting State.unissued State.stored
      simp [State.written, State.settle, writing, ResponsePc.writes]
    refine g.attend rfl rfl rfl (fun d ne => ?_) ?_ (fun d e => ?_) ?_
    · refine waiting_settle ne ?_ (by simp [ResponsePc.writes]) (by simp [writing]) (by simp)
      rw [on]
      exact fun e => ne (some' e)
    · rintro d (e | e)
      · rw [writing] at e
        exact some' e
      · cases e
    · exact e.elim (fun no => by cases no) some'
    · rw [here]
      refine (g c).move rfl rfl rfl id .inl id ?_ (fun no => by cases no) id
        (fun yes => (g c).leaving yes) .inl
      rintro - - (⟨keep, -⟩ | going)
      · exact .inl ⟨keep, .inl (.inr rfl)⟩
      · exact .inr going
  | dropped writing =>
    have on : m.response.writes = some c := by rw [writing]; rfl
    have here : (m.dropped c).waiting c = [] := by
      simp [State.waiting, State.unissued, State.dropped, State.settle, ResponsePc.writes]
    refine g.attend rfl rfl rfl (fun d ne => ?_) ?_ (fun d e => ?_) ?_
    · refine waiting_settle ne ?_ (by simp [ResponsePc.writes]) (by simp [writing]) (by simp)
      rw [on]
      exact fun e => ne (some' e)
    · rintro d (e | e)
      · rw [writing] at e
        exact some' e
      · cases e
    · exact e.elim (fun no => by cases no) some'
    · rw [here]
      -- the queue is dropped with the connection, so nothing is left to agree on
      have lost : Agrees { m.conns c with keepAlive := false, requestQueue := [], failed := true } []
          (ResponsePc.head.writes = some c ∨ some c = some c) _ _ _ _ :=
        (g c).drop rfl rfl rfl rfl (.inr rfl)
      refine lost.mono id ⟨(fun no => by cases no), fun yes => ?_⟩ id Iff.rfl id
      rw [writing] at yes
      cases yes

/-- The response worker leaves the connection it has turned to. -/
lemma turnAway {pc : ResponsePc} (g : Agreement (some c) m) (head : m.response = .head)
    (writes : pc.writes = none) (shuts : pc.shuts = none) (live : pc ≠ .raised)
    (more : m.unissued c = [] → (m.conns c).keepAlive = true) :
    Agreement none { m with response := pc } := by
  have off : m.response.writes = none := by rw [head]; rfl
  have waiting : ∀ d, State.waiting { m with response := pc } d = m.waiting d := by
    intro d
    simp only [State.waiting, State.unissued, writes, off]
    simp [State.stored, head, live]
  intro d
  rw [waiting]
  refine (g d).move rfl rfl rfl id .inl id ?_ (fun yes => by simp [shuts] at yes) id
    (fun yes => (g d).leaving yes) .inl
  rintro - none (⟨keep, (on | att) | on⟩ | going)
  · simp [off] at on
  · cases att
    rw [more (by simpa [State.waiting] using none)] at keep
    cases keep
  · simp [head, ResponsePc.shuts] at on
  · exact .inr going

/-- The front response is handed to `async.write`. -/
lemma issue {σ : Nat} {rest : List Nat} {b : Bytes} {a : Atomics} (g : Agreement (some c) m)
    (o : Order m) (head : m.response = .head) (front : (m.conns c).requestQueue = σ :: rest)
    (answered : (m.sessions σ).response = some b) :
    Agreement none ((m.answer σ (writtenResponse (m.conns c).keepAlive b)).settle c
      ({ m.conns c with
          sock := a
          sent := (m.conns c).sent ++ [(some σ, writtenResponse (m.conns c).keepAlive b)] },
        .writing c none)) := by
  have off : m.response.writes = none := by rw [head]; rfl
  have unissued : ∀ d, m.unissued d = (m.conns d).requestQueue := fun d => by
    simp [State.unissued, off]
  have nodup : (σ :: rest).Nodup := front ▸ (o.ordered c).queue_nodup (o.sound.nodup c)
  have inside : σ ∈ (m.conns c).line.enqueued :=
    (o.ordered c).queue_subset (show σ ∈ (m.conns c).requestQueue from front ▸ List.mem_cons_self)
  have live : (m.conns c).failed = false := by
    cases lost : (m.conns c).failed with
    | false => rfl
    | true =>
      have waits : σ ∈ (m.conns c).line.waiting := by
        simp [Pipeline.waiting, HttpConn.line, lost, front]
      exact absurd waits (o.sound.not_waiting_of_answer answered c)
  have here : m.waiting c = (closes (m.sessions σ).session, some b) ::
      rest.map fun τ => (closes (m.sessions τ).session, m.stored τ) := by
    rw [State.waiting, unissued, front, List.map_cons]
    simp [State.stored, head, answered]
  refine g.attend rfl rfl rfl (fun d ne => ?_) (fun d e => ?_) (fun d e => ?_) ?_
  · have out : σ ∉ m.unissued d := by
      rw [unissued]
      exact fun mem => ne (o.sound.apart ((o.ordered d).queue_subset mem) inside)
    rw [← waiting_answer out]
    refine waiting_settle ne ?_ ?_ ?_ (by simp)
    · simp [State.answer, off]
    · simpa [ResponsePc.writes] using ne.symm
    · simp [State.answer, head]
  · rcases e with e | e
    · simp [head, ResponsePc.conn] at e
    · cases e
      rfl
  · rcases e with e | e
    · cases e
      rfl
    · cases e
  · -- only the front session leaves those that wait
    have left : ((m.answer σ (writtenResponse (m.conns c).keepAlive b)).settle c
        ({ m.conns c with
            sock := a
            sent := (m.conns c).sent ++ [(some σ, writtenResponse (m.conns c).keepAlive b)] },
          .writing c none)).waiting c =
        rest.map fun τ => (closes (m.sessions τ).session, m.stored τ) := by
      have tail : ∀ τ ∈ rest, τ ≠ σ := by
        rintro τ mem rfl
        exact (List.nodup_cons.mp nodup).1 mem
      simp only [State.waiting, State.unissued, State.settle, ResponsePc.writes, if_pos,
        Function.update_self, front, List.tail_cons]
      refine List.map_congr_left fun τ mem => ?_
      simp [State.stored, State.answer, head, Function.update_of_ne (tail τ mem)]
    have own := g c
    rw [here] at own
    rw [left]
    have next : Agrees { m.conns c with
          sock := a
          sent := (m.conns c).sent ++ [(some σ, writtenResponse (m.conns c).keepAlive b)] }
        (rest.map fun τ => (closes (m.sessions τ).session, m.stored τ)) True
        (m.response.shuts = some c) _ _ _ := own.issue live rfl rfl rfl rfl rfl
    refine next.mono (fun _ => .inl rfl) ?_ id Iff.rfl id
    rw [head]
    exact ⟨(fun no => by cases no), fun no => by cases no⟩

/-- The front response is not admitted. -/
lemma raise {σ : Nat} {rest : List Nat} {b : Bytes} (g : Agreement (some c) m)
    (head : m.response = .head) (front : (m.conns c).requestQueue = σ :: rest) :
    Agreement none { m.answer σ b with response := .raised } := by
  have off : m.response.writes = none := by rw [head]; rfl
  have known : ∀ τ, ((m.answer σ b).sessions τ).session = (m.sessions τ).session :=
    fun τ => answer_aside.session τ
  have waiting : ∀ d, State.waiting { m.answer σ b with response := .raised } d =
      (m.unissued d).map fun τ => (closes (m.sessions τ).session, none) := by
    intro d
    have out : ResponsePc.raised.writes = none := rfl
    simp only [State.waiting, State.stored, if_true, known]
    simp [State.unissued, State.answer, off, out]
  -- the stored responses are lost with the worker; who waits, and who closes, is as before
  have same : ∀ d, ((m.unissued d).map fun τ =>
      (closes (m.sessions τ).session, (none : Option Bytes))).map Prod.fst =
      (m.waiting d).map Prod.fst := by
    intro d
    rw [State.waiting, List.map_map, List.map_map]
    rfl
  intro d
  rw [waiting]
  have lost := (g d).store (same d) fun mem => by simp at mem
  refine lost.move rfl rfl rfl id .inl id ?_ (fun no => by cases no) id (fun yes => lost.leaving yes)
    .inl
  rintro - none (⟨keep, (on | att) | on⟩ | going)
  · simp [off] at on
  · cases att
    simp [State.unissued, off, front] at none
  · simp [head, ResponsePc.shuts] at on
  · exact .inr going

/-- The response worker closes a connection that is used up. -/
lemma close {r : HttpConn × Option Shutdown} {drained : Prop} (g : Agreement att m)
    (source : ∀ d, m.response.conn = some d ∨ att = some d → d = c)
    (off : m.response.writes = none) (live : m.response ≠ .raised)
    (keep : (m.conns c).keepAlive = false)
    (used : (m.conns c).failed = false → m.waiting c = [])
    (h : Shuts (m.conns c) drained r) : Agreement none (m.settle c (State.closeFor c r)) := by
  obtain ⟨handled, -, -, place⟩ := closeFor_spec (c := c) h
  have quiet : (State.closeFor c r).2.writes = none ∧ (State.closeFor c r).2 ≠ .raised ∧
      ∀ d, (State.closeFor c r).2.conn = some d → d = c := by
    rcases place with e | ⟨sh, e⟩
    · rw [e]
      exact ⟨rfl, by simp, fun d no => by cases no⟩
    · rw [e]
      exact ⟨rfl, by simp, fun d on => by cases on; rfl⟩
  obtain ⟨writes, live', target⟩ := quiet
  have here : (m.settle c (State.closeFor c r)).waiting c = m.waiting c := by
    simp only [State.waiting, State.unissued, State.stored, State.settle, Function.update_self, off,
      writes, live, live', handled.requestQueue]
  refine g.attend rfl rfl rfl (fun d ne => ?_) source (fun d e => ?_) ?_
  · exact waiting_settle ne (by simp [off]) (by simp [writes]) live live'
  · exact e.elim (target d) fun no => by cases no
  · rw [here]
    obtain ⟨isOpen, exclusive, e, -⟩ := h
    obtain ⟨conn', sh⟩ := r
    dsimp only at e
    subst e
    cases sh with
    | none =>
      refine (g c).move rfl rfl rfl id .inl (fun no => by cases no) (fun _ _ _ => .inr (.inr rfl))
        (fun no => by cases no) id (fun yes => (g c).leaving yes) fun _ => .inr (.inr ⟨keep, used⟩)
    | some sh =>
      refine (g c).move rfl rfl rfl id .inl id ?_ (fun _ => .inr ⟨keep, used⟩) id
        (fun yes => (g c).leaving yes) .inl
      rintro - - (- | going)
      · exact .inl ⟨keep, .inr rfl⟩
      · exact .inr going

lemma serve (g : Agreement (some c) m) (o : Order m) (head : m.response = .head)
    (h : ServeMove m c m') : Agreement none m' := by
  cases h with
  | @pause σ rest front _ =>
    refine g.turnAway head rfl rfl (by simp) fun none => ?_
    simp [State.unissued, head, ResponsePc.writes, front] at none
  | write front answered _ => exact g.issue o head front answered
  | raise front answered _ => exact g.raise head front
  | close none keep shuts =>
    refine g.close (fun d e => ?_) (by rw [head]; rfl) (by simp [head]) keep (fun _ => ?_) shuts
    · rcases e with e | e
      · simp [head, ResponsePc.conn] at e
      · cases e
        rfl
    · simp [State.waiting, State.unissued, head, ResponsePc.writes, none]
  | done more =>
    refine g.turnAway head rfl rfl (by simp) fun none => more ?_
    simpa [State.unissued, head, ResponsePc.writes] using none

lemma response (g : Agreement none m) (o : Order m) (h : ResponseMove m m') : Agreement none m' := by
  cases h with
  | ended head =>
    have waiting : ∀ d, State.waiting { m with response := .ended } d = m.waiting d := by
      intro d
      have out : ResponsePc.ended.writes = none := rfl
      have off : m.response.writes = none := by rw [head]; rfl
      simp only [State.waiting, State.unissued, out, off]
      simp [State.stored, head]
    intro d
    rw [waiting]
    refine (g d).mono ?_ ?_ id Iff.rfl id
    · rw [head]
      exact id
    · rw [head]
      exact Iff.rfl
  | idle => exact g
  | serve turns serves => exact (g.turnsTo turns).serve (o.turnsTo turns).1 (o.turnsTo turns).2 serves
  | @shut c sh r shutting shuts =>
    obtain ⟨keep, used⟩ := (g c).shutting (by rw [shutting]; rfl)
    refine g.close (fun d e => ?_) (by rw [shutting]; rfl) (by simp [shutting]) keep used shuts
    rcases e with e | e
    · rw [shutting] at e
      cases e
      rfl
    · cases e

/-! ## The dispatch workers -/

end Agreement

section Answers
variable {cfg : Config} {m m' : State} {w n σ : Nat} {job : Option Nat} {b : Bytes}

lemma Picks.sessions {node : Option Nat} (h : Picks m node m') : m'.sessions = m.sessions := by
  obtain ⟨list, ranks, rfl, -⟩ := h
  rfl

lemma send_sessions : (m.send cfg w n job).sessions = m.sessions := by
  unfold State.send
  dsimp only
  split <;> rfl

lemma depart_sessions {c : Nat} : (m.depart cfg w n c).sessions = m.sessions := by
  unfold State.depart
  split
  · exact send_sessions
  · rfl

/-- A response is stored for one session. -/
lemma answer_response {τ : Nat} {b' : Bytes} (h : ((m.answer τ b').sessions σ).response = some b) :
    (m.sessions σ).response = some b ∨ (τ, b') = (σ, b) := by
  simp only [State.answer] at h
  by_cases e : σ = τ
  · subst e
    rw [Function.update_self] at h
    cases h
    exact .inr rfl
  · rw [Function.update_of_ne e] at h
    exact .inl h

/-- A dispatch worker stores no other response than the one it is answering with. -/
lemma dispatch_answers {r : NodeResult} (st : m.dispatchStep cfg w r = some m')
    (new : (m'.sessions σ).response = some b) :
    (m.sessions σ).response = some b ∨ m.answering cfg w r = some (σ, b) := by
  have silent : m'.sessions = m.sessions → (m.sessions σ).response = some b :=
    fun same => same ▸ new
  unfold State.dispatchStep at st
  split at st
  · split at st
    · cases st
      exact .inl new
    · split at st
      · rename_i pick
        cases st
        exact .inl (silent (pickSlave_picks pick).sessions)
      · rename_i pick
        have picked := (pickSlave_picks pick).sessions
        split at st
        · cases st
          exact .inl (silent (depart_sessions.trans picked))
        · split at st
          · cases st
            exact .inl (silent (send_sessions.trans picked))
          · cases st
            exact .inl (silent picked)
  · cases st
    exact .inl new
  · split at st
    · cases st
      exact .inl new
    · cases st
      exact .inl new
  · cases st
    exact .inl new
  · cases st
    exact .inl new
  · cases st
    exact .inl new
  · rename_i n job deadline receiving
    split at st
    · cases st
    · rename_i tag frame rest inbox
      split at st
      · cases st
        unfold State.receive at new
        dsimp only at new
        split at new
        · refine (answer_response new).imp_right fun e => ?_
          simp [State.answering, receiving, inbox, e]
        · split at new
          · exact .inl new
          · exact .inl new
      · cases st
  · cases st
    exact .inl new
  · split at st
    · cases st
      exact .inl new
    · cases st
  · rename_i n job code retiring
    cases st
    unfold State.retire at new
    dsimp only at new
    split at new
    · exact .inl new
    · rename_i τ
      split at new
      · rename_i again
        split at new
        · rename_i past
          refine (answer_response new).imp (fun old => ?_) fun e => ?_
          · rwa [attempt_response] at old
          · simp [State.answering, retiring, again, Nat.not_le.mpr past, e]
        · simp only [State.go, attempt_response] at new
          exact .inl new
      · rename_i once
        refine (answer_response new).imp_right fun e => ?_
        simp [State.answering, retiring, once, e]
  · rename_i τ code waitStart awaiting
    split at st
    · rename_i past
      cases st
      refine (answer_response new).imp_right fun e => ?_
      simp only [State.answering, awaiting, if_pos past, e]
    · split at st
      · rename_i pick
        cases st
        exact .inl (silent (pickSlave_picks pick).sessions)
      · rename_i pick
        cases st
        exact .inl (silent (send_sessions.trans (pickSlave_picks pick).sessions))
  · cases st

end Answers

namespace Agreement
variable {cfg : Config} {m m' : State} {w c : Nat}

/-- The dispatch workers store nothing but responses. -/
lemma aside (g : Agreement none m) (h : Aside m m')
    (fits : ∀ c σ b, σ ∈ m.unissued c → (m'.sessions σ).response = some b →
      (m.sessions σ).response = some b ∨
        saysClose (writtenResponse (m.conns c).keepAlive b) = closes (m.sessions σ).session) :
    Agreement none m' := by
  have unissued : ∀ c, m'.unissued c = m.unissued c := by
    intro c
    rw [State.unissued, State.unissued, h.conns, h.response]
  intro c
  rw [h.conns, h.request, h.response]
  refine (g c).store ?_ ?_
  · simp only [State.waiting, unissued, List.map_map]
    exact List.map_congr_left fun σ _ => congrArg closes (h.session σ)
  · intro closing b mem
    simp only [State.waiting, unissued, List.mem_map, Prod.mk.injEq] at mem
    obtain ⟨σ, mem, rfl, e⟩ := mem
    rw [State.stored, h.response] at e
    rw [h.session]
    split at e
    · cases e
    · rename_i live
      refine (fits c σ b mem e).imp_left fun old => List.mem_map.mpr ⟨σ, mem, ?_⟩
      rw [State.stored, if_neg live, old]

/-- The connection changes where its life is not concerned. -/
lemma touch {conn : HttpConn} (g : Agreement none m) (sent : conn.sent = (m.conns c).sent)
    (keepAlive : conn.keepAlive = (m.conns c).keepAlive) (failed : conn.failed = (m.conns c).failed)
    (refused : conn.refused = (m.conns c).refused) (state : conn.state = (m.conns c).state)
    (queue : conn.requestQueue = (m.conns c).requestQueue) :
    Agreement none { m with conns := Function.update m.conns c conn } := by
  have waiting : ∀ d,
      State.waiting { m with conns := Function.update m.conns c conn } d = m.waiting d := by
    intro d
    have same : (Function.update m.conns c conn d).requestQueue = (m.conns d).requestQueue :=
      congrFun (update_read_same HttpConn.requestQueue m.conns queue) d
    simp only [State.waiting, State.unissued, State.stored, same]
  intro d
  rw [waiting]
  by_cases e : d = c
  · subst e
    simp only [Function.update_self]
    refine (g d).move sent keepAlive failed (fun yes => refused.trans yes) .inl
      (fun est => state ▸ est) ?_ .inl id (fun yes => refused.trans ((g d).leaving yes))
      (fun shut => .inl (state ▸ shut))
    rw [state]
    exact fun _ _ => id
  · simp only [Function.update_of_ne e]
    exact g d

/-- A dispatch worker takes a session off. -/
lemma take (g : Agreement none m) : Agreement none (m.take c) := by
  have touched : Agreement none { m with conns := (m.take c).conns } :=
    g.touch rfl rfl rfl rfl rfl rfl
  exact touched.congr rfl (fun _ => rfl) rfl rfl

/-- A dispatch worker takes a session, or stores the response that it has for one. -/
lemma dispatch {r : NodeResult} (g : Agreement none m) (rd : Readers m)
    (st : m.dispatchStep cfg w r = some m') (ok : agreeing cfg m (.dispatch w r) = true) :
    Agreement none m' := by
  have fits : ∀ c σ b, σ ∈ m.unissued c → (m'.sessions σ).response = some b →
      (m.sessions σ).response = some b ∨
        saysClose (writtenResponse (m.conns c).keepAlive b) = closes (m.sessions σ).session := by
    intro c σ b mem new
    refine (dispatch_answers st new).imp_right fun here => ?_
    simp only [agreeing, here, Option.all_some] at ok
    have accepted : c < m.nextConn := by
      by_contra out
      rw [State.unissued, rd.fresh c (by omega)] at mem
      simp at mem
    have one := List.all_eq_true.mp ok c (List.mem_range.mpr accepted)
    simpa [mem] using one
  rcases (dispatchStep_move st).aside with a | ⟨d, -, -, a⟩
  · exact g.aside a fits
  · refine g.take.aside a fun c σ b mem new => ?_
    let taken : HttpConn := { m.conns d with requestIdx := (m.conns d).requestIdx + 1 }
    have keep : ((m.take d).conns c).keepAlive = (m.conns c).keepAlive :=
      congrFun (update_read_same HttpConn.keepAlive m.conns (b := taken) rfl) c
    have queue : ((m.take d).conns c).requestQueue = (m.conns c).requestQueue :=
      congrFun (update_read_same HttpConn.requestQueue m.conns (b := taken) rfl) c
    rw [State.unissued, queue] at mem
    rw [keep]
    exact fits c σ b mem new

/-! ## Every step -/

/-- A job of a connection is over, and its worker sees it. -/
lemma done {phase : Phase} {conn : HttpConn} (g : Agreement none m) (r : Readers m)
    (on : (m.request w).conn = some c) (sent : conn.sent = (m.conns c).sent)
    (keepAlive : conn.keepAlive = (m.conns c).keepAlive) (failed : conn.failed = (m.conns c).failed)
    (refused : conn.refused = (m.conns c).refused) (state : conn.state = (m.conns c).state)
    (queue : conn.requestQueue = (m.conns c).requestQueue)
    (reads : (RequestPc.on c phase).reads = (m.request w).reads)
    (leaves : (RequestPc.on c phase).leaves = (m.request w).leaves) :
    Agreement none (m.place w c (conn, .on c phase)) := by
  have alone : ∀ u, u ≠ w → (m.request u).conn ≠ some c := fun u ne on' => ne (r.uniq on' on)
  have own := g.own alone
  have rejects : (RequestPc.on c phase).rejects = (m.request w).rejects := by
    rw [RequestPc.rejects, leaves, RequestPc.rejects]
  refine show Agreement none ({ m with connList := m.connList }.place w c (conn, .on c phase)) from
    g.place alone (fun d e => ?_) (fun d e => by cases e; rfl) queue ?_
  · rw [on] at e
    cases e
    rfl
  · refine own.move sent keepAlive failed (fun yes => refused.trans yes)
      (fun yes => .inl (reads ▸ yes)) (fun est => state ▸ est) ?_ .inl (fun yes => rejects ▸ yes)
      (fun ⟨code, yes⟩ => refused.trans (own.leaving ⟨code, leaves ▸ yes⟩))
      (fun shut => .inl (state ▸ shut))
    rw [rejects, state]
    exact fun _ _ => id

/-- A step that meets the condition keeps the connections in agreement with their responses. -/
lemma step {a : Action} (g : Agreement none m) (r : Readers m) (o : Order m)
    (st : m.next cfg a = some m') (ok : agreeing cfg m a = true) : Agreement none m' := by
  have move := next_move st
  cases move with
  | tick | stop | accept | spawn | spawned | reply => exact g.congr rfl (fun _ => rfl) rfl rfl
  | accepted =>
    have blank := r.fresh m.nextConn le_rfl
    have moved : Agreement none { m with
        conns := Function.update m.conns m.nextConn { lastRequestTime := m.now } } :=
      g.touch (by rw [blank]) (by rw [blank]) (by rw [blank]) (by rw [blank]) (by rw [blank])
        (by rw [blank])
    exact moved.congr rfl (fun _ => rfl) rfl rfl
  | request move => exact g.request r o move ok
  | response move => exact g.response o move
  | dispatch _ => exact g.dispatch r st ok
  | readDone reading =>
    exact g.done r (by rw [reading]; rfl) rfl rfl rfl rfl rfl rfl (by rw [reading]; rfl)
      (by rw [reading]; rfl)
  | readLate _ => exact g.touch rfl rfl rfl rfl rfl rfl
  | refuseDone refusing =>
    exact g.done r (by rw [refusing]; rfl) rfl rfl rfl rfl rfl rfl (by rw [refusing]; rfl)
      (by rw [refusing]; rfl)
  | @responseDone c done writing =>
    have here : (m.settle c ((m.conns c).finish .write, .writing c (some done))).waiting c =
        m.waiting c := by
      simp [State.waiting, State.unissued, State.stored, State.settle, writing, ResponsePc.writes,
        HttpConn.finish]
    refine g.attend rfl rfl rfl (fun d ne => ?_) (fun d e => ?_) (fun d e => ?_) ?_
    · refine waiting_settle ne ?_ ?_ (by simp [writing]) (by simp)
      · simpa [writing, ResponsePc.writes] using ne.symm
      · simpa [ResponsePc.writes] using ne.symm
    · simpa [writing, ResponsePc.conn, eq_comm] using e
    · simpa [State.settle, ResponsePc.conn, eq_comm] using e
    · rw [here]
      refine (g c).move rfl rfl rfl id .inl id ?_ (fun no => by cases no) id
        (fun yes => (g c).leaving yes) .inl
      rintro - - (⟨keep, -⟩ | going)
      · exact .inl ⟨keep, .inl (.inl rfl)⟩
      · exact .inr going

end Agreement

/-! ## The connections close as they say -/

end CovNet.Master
