import CovNet.Master.Moves

/-!
# Readers

At most one request worker is on a connection, and only while the connection is not open to others: the
worker that reads a request is the only one that can push it on the queue. A connection that has lost a
response gets no further reader, so that at most the request that is being read is still queued there.
-/

namespace CovNet.Master
open Lib Text Http Socket

/-- A connection a request worker may be on. -/
structure HttpConn.Held (conn : HttpConn) : Prop where
  state : conn.state ≠ .established
  keepAlive : conn.keepAlive = true ∨ conn.failed = true
  late : conn.failed = true → conn.requestQueue = []

lemma HttpConn.Held.of_handled {conn conn' : HttpConn} (held : conn.Held) (h : Handled conn conn')
    (state : conn'.state = conn.state ∨ conn'.state = .close) : conn'.Held where
  state := by
    rcases state with e | e
    · rw [e]
      exact held.state
    · rw [e]
      decide
  keepAlive := by
    rw [h.keepAlive, h.failed]
    exact held.keepAlive
  late := by
    rw [h.failed, h.requestQueue]
    exact held.late

/-- Who is on which connection. -/
structure Readers (m : State) : Prop where
  listed : ∀ c ∈ m.connList, c < m.nextConn
  fresh : ∀ c, m.nextConn ≤ c → m.conns c = {}
  serving : ∀ c, m.response.conn = some c → c < m.nextConn
  held : ∀ {w c}, (m.request w).conn = some c → (m.conns c).Held
  uniq : ∀ {w u c}, (m.request w).conn = some c → (m.request u).conn = some c → w = u
  broken : ∀ c, (m.conns c).failed = true → (m.conns c).keepAlive = false

namespace Readers
variable {cfg : Config} {m m' : State} {w c : Nat}

lemma init : Readers {} where
  listed c mem := by cases mem
  fresh c _ := rfl
  serving c e := by cases e
  held e := by cases e
  uniq e := by cases e
  broken c e := by cases e

/-- A connection that somebody is on has been accepted. -/
lemma bound (r : Readers m) (on : (m.request w).conn = some c) : c < m.nextConn := by
  by_contra out
  have held := r.held on
  rw [r.fresh c (by omega)] at held
  exact held.state rfl

/-- Nobody is on a connection that is open to readers. -/
lemma free (r : Readers m) (est : (m.conns c).state = .established) (u : Nat) :
    (m.request u).conn ≠ some c := by
  intro on
  exact (r.held on).state est

lemma congr (r : Readers m) (request : m'.request = m.request) (response : m'.response = m.response)
    (conns : m'.conns = m.conns) (connList : m'.connList ⊆ m.connList)
    (nextConn : m'.nextConn = m.nextConn) : Readers m' where
  listed c mem := nextConn ▸ r.listed c (connList mem)
  fresh c := by
    rw [nextConn, conns]
    exact r.fresh c
  serving c := by
    rw [response, nextConn]
    exact r.serving c
  held := by
    rw [request, conns]
    exact r.held
  uniq := by
    rw [request]
    exact r.uniq
  broken := by
    rw [conns]
    exact r.broken

/-- A request worker that nobody shares its connection with moves. -/
lemma place {list : List Nat} {p : HttpConn × RequestPc} (r : Readers m) (accepted : c < m.nextConn)
    (listed : ∀ d ∈ list, d < m.nextConn) (alone : ∀ u, u ≠ w → (m.request u).conn ≠ some c)
    (held : ∀ d, p.2.conn = some d → d = c ∧ p.1.Held)
    (broken : p.1.failed = true → p.1.keepAlive = false) :
    Readers ({ m with connList := list }.place w c p) where
  listed := listed
  fresh d le := by
    have ne : d ≠ c := by
      rintro rfl
      exact absurd accepted (Nat.not_lt.mpr le)
    simpa only [State.place, Function.update_of_ne ne] using r.fresh d le
  serving := r.serving
  held {u d} on := by
    simp only [State.place] at on ⊢
    by_cases eu : u = w
    · subst eu
      rw [Function.update_self] at on
      obtain ⟨rfl, h⟩ := held d on
      rwa [Function.update_self]
    · rw [Function.update_of_ne eu] at on
      have ed : d ≠ c := by
        rintro rfl
        exact alone u eu on
      rw [Function.update_of_ne ed]
      exact r.held on
  uniq {u v d} on on' := by
    simp only [State.place] at on on'
    -- the others were apart, and this one is alone on its connection
    by_cases eu : u = w <;> by_cases ev : v = w
    · rw [eu, ev]
    · subst eu
      rw [Function.update_self] at on
      rw [Function.update_of_ne ev] at on'
      obtain ⟨rfl, -⟩ := held d on
      exact absurd on' (alone v ev)
    · subst ev
      rw [Function.update_self] at on'
      rw [Function.update_of_ne eu] at on
      obtain ⟨rfl, -⟩ := held d on'
      exact absurd on (alone u eu)
    · rw [Function.update_of_ne eu] at on
      rw [Function.update_of_ne ev] at on'
      exact r.uniq on on'
  broken d := by
    simp only [State.place]
    by_cases ed : d = c
    · subst ed
      rwa [Function.update_self]
    · rw [Function.update_of_ne ed]
      exact r.broken d

/-- A worker that is on a connection works on it. -/
lemma handle {p : HttpConn × RequestPc} (r : Readers m) (on : (m.request w).conn = some c)
    (h : Handles c (m.conns c) p) : Readers (m.place w c p) := by
  refine r.place (r.bound on) r.listed (fun u ne on' => ne (r.uniq on' on)) (fun d e => ?_) ?_
  · exact ⟨h.place d e, (r.held on).of_handled h.handled h.state⟩
  · rw [h.handled.failed, h.handled.keepAlive]
    exact r.broken c

/-- The connection in hand is like the one in the list, and nobody else is on it. -/
lemma inHand {conn : HttpConn} {list : List Nat} (r : Readers m) (h : InHand m w c conn list) :
    c < m.nextConn ∧ (∀ d ∈ list, d < m.nextConn) ∧
      (∀ u, u ≠ w → (m.request u).conn ≠ some c) ∧ conn.Held ∧ Handled (m.conns c) conn := by
  cases h with
  | pick head mem est keep sub =>
    refine ⟨r.listed c mem, ?_, fun u _ => r.free est u, ⟨by simp, .inl keep, ?_⟩,
      ⟨rfl, rfl, rfl, rfl, rfl, rfl, rfl⟩⟩
    · intro d hd
      rcases List.mem_append.mp hd with old | new
      · exact r.listed d (sub old)
      · rw [List.mem_singleton.mp new]
        exact r.listed c mem
    · intro lost
      exact absurd (keep.symm.trans (r.broken c lost)) (by decide)
  | keep reading =>
    have on : (m.request w).conn = some c := by rw [reading]; rfl
    refine ⟨r.bound on, r.listed, fun u ne on' => ne (r.uniq on' on), ?_, ⟨rfl, rfl, rfl, rfl, rfl, rfl, rfl⟩⟩
    exact ⟨(r.held on).state, (r.held on).keepAlive, (r.held on).late⟩

/-- A worker goes on with the connection in hand. -/
lemma takeUp {conn : HttpConn} {list : List Nat} {p : HttpConn × RequestPc} (r : Readers m)
    (hand : InHand m w c conn list) (h : Handles c conn p) :
    Readers ({ m with connList := list }.place w c p) := by
  obtain ⟨accepted, listed, alone, held, same⟩ := r.inHand hand
  refine r.place accepted listed alone (fun d e => ?_) ?_
  · exact ⟨h.place d e, held.of_handled h.handled h.state⟩
  · rw [(same.trans h.handled).failed, (same.trans h.handled).keepAlive]
    exact r.broken c

/-- A worker leaves its connection as it is. -/
lemma leave {pc : RequestPc} (r : Readers m) (out : pc.conn = none) :
    Readers { m with request := Function.update m.request w pc } := by
  have old : ∀ {u d}, (Function.update m.request w pc u).conn = some d →
      (m.request u).conn = some d := by
    intro u d on
    by_cases e : u = w
    · subst e
      rw [Function.update_self, out] at on
      cases on
    · rwa [Function.update_of_ne e] at on
  exact ⟨r.listed, r.fresh, r.serving, fun on => r.held (old on),
    fun on on' => r.uniq (old on) (old on'), r.broken⟩

lemma request {p : Parsed} (r : Readers m) (h : RequestMove cfg m w p m') : Readers m' := by
  cases h with
  | ended _ => exact r.leave rfl
  | scan sub => exact r.congr rfl rfl rfl sub rfl
  | read hand _ _ =>
    exact r.takeUp hand ⟨⟨rfl, rfl, rfl, rfl, rfl, rfl, rfl⟩, .inl rfl, fun d e => by cases e; rfl⟩
  | raise hand _ =>
    exact r.takeUp hand ⟨⟨rfl, rfl, rfl, rfl, rfl, rfl, rfl⟩, .inl rfl, fun d e => by cases e⟩
  | fail hand _ => exact r.takeUp hand refuse_handles
  | @enqueue c deadline s state reading _ _ =>
    have on : (m.request w).conn = some c := by rw [reading]; rfl
    -- the worker leaves, so that nobody is on the connection whose queue has grown
    refine (r.place (r.bound on) r.listed (fun u ne on' => ne (r.uniq on' on)) ?_ ?_).congr
      rfl rfl rfl (List.Subset.refl _) rfl
    · intro d e
      cases e
    · intro lost
      show (_ && _) = false
      rw [r.broken c lost, Bool.false_and]
  | fault _ => exact r.leave rfl
  | shut h =>
    rcases h with ⟨ok, refusing, h⟩ | ⟨sh, shutting, h⟩
    · exact r.handle (by rw [refusing]; rfl) (shutFor_handles h)
    · exact r.handle (by rw [shutting]; rfl) (shutFor_handles h)

/-! ## The response worker -/

/-- The response worker moves on an accepted connection, which stays fit for its reader. -/
lemma settle {p : HttpConn × ResponsePc} (r : Readers m) (accepted : c < m.nextConn)
    (place : ∀ d, p.2.conn = some d → d = c)
    (held : (m.conns c).Held → p.1.Held)
    (broken : p.1.failed = true → p.1.keepAlive = false) : Readers (m.settle c p) where
  listed := r.listed
  fresh d le := by
    have ne : d ≠ c := by
      rintro rfl
      exact absurd accepted (Nat.not_lt.mpr le)
    simpa only [State.settle, Function.update_of_ne ne] using r.fresh d le
  serving d e := by
    rw [place d e]
    exact accepted
  held {u d} on := by
    simp only [State.settle]
    by_cases ed : d = c
    · subst ed
      rw [Function.update_self]
      exact held (r.held on)
    · rw [Function.update_of_ne ed]
      exact r.held on
  uniq := r.uniq
  broken d := by
    simp only [State.settle]
    by_cases ed : d = c
    · subst ed
      rwa [Function.update_self]
    · rw [Function.update_of_ne ed]
      exact r.broken d

lemma closeFor_settle {shut : HttpConn × Option Shutdown} {drained : Prop} (r : Readers m)
    (accepted : c < m.nextConn) (h : Shuts (m.conns c) drained shut) :
    Readers (m.settle c (State.closeFor c shut)) := by
  obtain ⟨conn, sh⟩ := shut
  have same := h.handled
  obtain ⟨isOpen, exclusive, e, -⟩ := h
  have broken : conn.failed = true → conn.keepAlive = false := by
    rw [same.failed, same.keepAlive]
    exact r.broken c
  cases sh with
  | none =>
    refine r.settle accepted (fun d e => by cases e) (fun held => ?_) broken
    exact held.of_handled (same.trans ⟨rfl, rfl, rfl, rfl, rfl, rfl, rfl⟩) (.inr rfl)
  | some sh =>
    refine r.settle accepted (fun d e => by cases e; rfl) (fun held => ?_) broken
    exact held.of_handled same (.inl (congrArg HttpConn.state e :))

/-- The response worker goes elsewhere. -/
lemma moveTo {pc : ResponsePc} (r : Readers m) (place : ∀ d, pc.conn = some d → d < m.nextConn) :
    Readers { m with response := pc } :=
  ⟨r.listed, r.fresh, place, r.held, r.uniq, r.broken⟩

lemma turnsTo {m1 : State} (r : Readers m) (h : TurnsTo m c m1) :
    Readers m1 ∧ c < m1.nextConn := by
  cases h with
  | pick _ mem _ => exact ⟨r, r.listed c mem⟩
  | written writing =>
    have accepted := r.serving c (by rw [writing]; rfl)
    refine ⟨r.settle accepted (fun d e => by cases e) (fun held => ?_) (r.broken c), accepted⟩
    exact ⟨held.state, held.keepAlive, fun lost => by simp [held.late lost]⟩
  | dropped writing =>
    have accepted := r.serving c (by rw [writing]; rfl)
    refine ⟨r.settle accepted (fun d e => by cases e) (fun held => ?_) (fun _ => rfl), accepted⟩
    exact ⟨held.state, .inr rfl, fun _ => rfl⟩
  | paused paused =>
    exact ⟨r.moveTo (fun d e => by cases e), r.serving c (by rw [paused]; rfl)⟩

lemma serve (r : Readers m) (accepted : c < m.nextConn) (h : ServeMove m c m') : Readers m' := by
  cases h with
  | pause _ _ => exact r.moveTo fun d e => by cases e; exact accepted
  | @write σ rest b a _ _ _ =>
    have answered : Readers (m.answer σ (writtenResponse (m.conns c).keepAlive b)) :=
      r.congr rfl rfl rfl (List.Subset.refl _) rfl
    refine answered.settle accepted (fun d e => by cases e; rfl) (fun held => ?_) (r.broken c)
    exact ⟨held.state, held.keepAlive, held.late⟩
  | @raise σ rest b e _ _ _ =>
    have answered : Readers (m.answer σ (writtenResponse (m.conns c).keepAlive b)) :=
      r.congr rfl rfl rfl (List.Subset.refl _) rfl
    exact answered.moveTo fun d e => by cases e
  | close _ _ shuts => exact r.closeFor_settle accepted shuts
  | done _ => exact r.moveTo fun d e => by cases e

lemma response (r : Readers m) (h : ResponseMove m m') : Readers m' := by
  cases h with
  | ended _ => exact r.moveTo fun d e => by cases e
  | idle => exact r
  | serve turns serves =>
    obtain ⟨r1, accepted⟩ := r.turnsTo turns
    exact r1.serve accepted serves
  | shut shutting shuts => exact r.closeFor_settle (r.serving _ (by rw [shutting]; rfl)) shuts

/-! ## Every step -/

/-- The connection changes where no request worker looks. -/
lemma touch {conn : HttpConn} (r : Readers m) (accepted : c < m.nextConn)
    (state : conn.state = (m.conns c).state) (keepAlive : conn.keepAlive = (m.conns c).keepAlive)
    (failed : conn.failed = (m.conns c).failed)
    (queue : conn.requestQueue = (m.conns c).requestQueue) :
    Readers { m with conns := Function.update m.conns c conn } := by
  have set : Readers (m.settle c (conn, .head)) :=
    r.settle accepted (fun d e => by cases e)
      (fun held => ⟨state ▸ held.state, by rw [keepAlive, failed]; exact held.keepAlive,
        by rw [failed, queue]; exact held.late⟩)
      (by rw [failed, keepAlive]; exact r.broken c)
  exact set.moveTo r.serving

lemma dispatch (r : Readers m) (h : DispatchMove cfg m w m') : Readers m' := by
  rcases h.aside with a | ⟨c, mem, -, a⟩
  · exact r.congr a.request a.response a.conns (a.connList ▸ List.Subset.refl _) a.nextConn
  · have taken : Readers { m with conns := (m.take c).conns } :=
      r.touch (r.listed c mem) rfl rfl rfl rfl
    exact taken.congr a.request a.response a.conns (a.connList ▸ List.Subset.refl _) a.nextConn

/-- Every step keeps the readers apart. -/
lemma step {a : Action} (r : Readers m) (h : Move cfg m a m') : Readers m' := by
  cases h with
  | tick | stop | accept | spawn | spawned =>
    exact r.congr rfl rfl rfl (List.Subset.refl _) rfl
  | accepted =>
    refine ⟨?_, fun c (le : m.nextConn + 1 ≤ c) => ?_,
      fun c on => Nat.lt_succ_of_lt (r.serving c on), fun {w c} on => ?_, r.uniq, fun c lost => ?_⟩
    · intro c mem
      rcases List.mem_append.mp mem with old | new
      · exact Nat.lt_succ_of_lt (r.listed c old)
      · rw [List.mem_singleton.mp new]
        exact Nat.lt_succ_self _
    · simp only [Function.update_of_ne (show c ≠ m.nextConn by omega)]
      exact r.fresh c (by omega)
    · simp only [Function.update_of_ne (r.bound on).ne]
      exact r.held on
    · by_cases e : c = m.nextConn
      · subst e
        simp at lost
      · simp only [Function.update_of_ne e] at lost ⊢
        exact r.broken c lost
  | request move => exact r.request move
  | response move => exact r.response move
  | dispatch move => exact r.dispatch move
  | readDone reading =>
    refine r.handle (by rw [reading]; rfl) ⟨⟨rfl, rfl, rfl, rfl, rfl, rfl, rfl⟩, .inl rfl, fun d e => ?_⟩
    cases e
    rfl
  | readLate given =>
    refine r.touch ?_ rfl rfl rfl rfl
    by_contra out
    rw [r.fresh _ (by omega)] at given
    cases given
  | refuseDone refusing =>
    refine r.handle (by rw [refusing]; rfl) ⟨⟨rfl, rfl, rfl, rfl, rfl, rfl, rfl⟩, .inl rfl, fun d e => ?_⟩
    cases e
    rfl
  | responseDone writing =>
    refine r.settle (r.serving _ (by rw [writing]; rfl)) (fun d e => by cases e; rfl) (fun held => ?_)
      (r.broken _)
    exact ⟨held.state, held.keepAlive, held.late⟩
  | reply _ => exact r.congr rfl rfl rfl (List.Subset.refl _) rfl

end Readers

end CovNet.Master
