import CovNet.Master.Overtaking

/-!
# The idle window of a client

The deadline of a read is fixed when a request worker takes a connection, from `last_request_time` as it is
then. The response worker restarts that clock with every response it has written, but a read that has
begun keeps its deadline. So a client that waits for a response is given up with 408 while the slave works
(`read_given_up_early`).

`Watch` is the history of the connections that this is about. `timely` is the condition under which no
window is cut short: a read is given up only if no response was outstanding when it began, or if the write
of a response has failed and none has been completed since. In every run whose steps all meet it, a read
that is given up leaves no response outstanding, and the whole window has passed since the connection was
accepted and since the last response was written (`idle_allowance`).
-/

namespace CovNet.Master
open Lib Text Http Socket

/-- What is observed of the connections. -/
structure Watch where
  /-- when the last response was written: the time of the accept before the first -/
  writtenAt : Nat → Nat := fun _ => 0
  /-- no response was outstanding when the read began -/
  idle : Nat → Bool := fun _ => false
  /-- no response has been written since -/
  fresh : Nat → Bool := fun _ => false

namespace Watch

/-- What a step of the master adds. -/
def after (g : Watch) (m : State) : Action → Watch
  | .accept ok =>
    if m.accept = .accepting ∧ ok then
      { g with writtenAt := Function.update g.writtenAt m.nextConn m.now }
    else g
  | .request w _ =>
    if m.request w = .head ∧ m.stopped = false then
      match (State.scanConns m.conns m.connList).2 with
      | none => g
      | some c =>
        { g with
          idle := Function.update g.idle c (m.conns c).requestQueue.isEmpty
          fresh := Function.update g.fresh c true }
    else g
  | .response =>
    match m.response with
    | .writing c (some true) =>
      { g with
        writtenAt := Function.update g.writtenAt c m.now
        fresh := Function.update g.fresh c false }
    | _ => g
  | _ => g

end Watch

/-- The master, watched. -/
def watched (cfg : Config) : System (State × Watch) Action where
  init s := s = ({}, {})
  next s a := (s.1.next cfg a).map fun m => (m, s.2.after s.1 a)

/-- If the step is one at which a read is given up, the read began with no response outstanding, or the
write of a response has failed since and none has been completed. -/
def timely (cfg : Config) (s : State × Watch) (a : Action) : Bool :=
  match a with
  | .request w p =>
    (s.1.failing cfg w p).all fun f =>
      f.2 != .code408 || (s.2.after s.1 a).idle f.1 ||
        (s.1.conns f.1).failed && (s.2.after s.1 a).fresh f.1
  | _ => true

/-! ## What the steps do to the clocks -/

/-- A connection whose clock goes on, and whose queue does not grow. -/
structure Quiet (conn conn' : HttpConn) : Prop where
  time : conn'.lastRequestTime = conn.lastRequestTime
  queue : conn.requestQueue = [] → conn'.requestQueue = []

lemma Quiet.refl (conn : HttpConn) : Quiet conn conn := ⟨rfl, id⟩

lemma Quiet.trans {conn conn1 conn' : HttpConn} (h : Quiet conn conn1) (h' : Quiet conn1 conn') :
    Quiet conn conn' :=
  ⟨h'.time.trans h.time, fun e => h'.queue (h.queue e)⟩

lemma Shuts.quiet {conn : HttpConn} {drained : Prop} {r : HttpConn × Option Shutdown}
    (h : Shuts conn drained r) : Quiet conn r.1 := by
  obtain ⟨isOpen, exclusive, e, -⟩ := h
  rw [e]
  exact ⟨rfl, id⟩

lemma shutFor_quiet {c : Nat} {code : StateCode} (r : HttpConn × Option Shutdown) :
    Quiet r.1 (shutFor c code r).1 := by
  obtain ⟨conn, sh⟩ := r
  cases sh with
  | none => exact ⟨rfl, id⟩
  | some sh => exact .refl conn

lemma closeFor_quiet {c : Nat} (r : HttpConn × Option Shutdown) :
    Quiet r.1 (State.closeFor c r).1 := by
  obtain ⟨conn, sh⟩ := r
  cases sh with
  | none => exact ⟨rfl, id⟩
  | some sh => exact .refl conn

lemma refuse_quiet {conn : HttpConn} {c now : Nat} {code : StateCode} :
    Quiet conn (conn.refuse c now code).1 := by
  unfold HttpConn.refuse
  dsimp only
  split
  · have refused : Quiet conn { conn with refused := true } := ⟨rfl, id⟩
    exact (refused.trans safeShutdown_shuts.quiet).trans (shutFor_quiet _)
  · split
    · exact ⟨rfl, id⟩
    · exact ⟨rfl, id⟩

lemma update_quiet {conns : Nat → HttpConn} {c : Nat} {conn : HttpConn} (h : Quiet (conns c) conn)
    (d : Nat) : Quiet (conns d) (Function.update conns c conn d) := by
  by_cases e : d = c
  · subst e
    rw [Function.update_self]
    exact h
  · rw [Function.update_of_ne e]
    exact .refl _

section Steps
variable {cfg : Config} {m m' : State} {w c : Nat} {p : Parsed}

lemma InHand.quiet {conn : HttpConn} {list : List Nat} (h : InHand m w c conn list) :
    Quiet (m.conns c) conn := by
  cases h with
  | pick => exact ⟨rfl, id⟩
  | keep => exact ⟨rfl, id⟩

/-- A request worker sets the clock of a connection only when it has read a request from it, and leaves. -/
lemma RequestMove.clock (h : RequestMove cfg m w p m') (d : Nat) :
    Quiet (m.conns d) (m'.conns d) ∨
      (m.request w).conn = some d ∧ m'.request w = .head ∧ (m'.conns d).lastRequestTime = m.now := by
  cases h with
  | ended | scan | fault => exact .inl (.refl _)
  | @read c conn list a deadline hand _ _ =>
    have same : Quiet (m.conns c) { conn with sock := a } := hand.quiet.trans ⟨rfl, id⟩
    exact .inl (update_quiet same d)
  | raise hand _ => exact .inl (update_quiet hand.quiet d)
  | fail hand _ => exact .inl (update_quiet (hand.quiet.trans refuse_quiet) d)
  | @enqueue c deadline s state reading _ _ =>
    by_cases e : d = c
    · subst e
      refine .inr ⟨by rw [reading]; rfl, ?_, ?_⟩ <;>
        simp [State.enqueue, State.place, HttpConn.push]
    · left
      simp only [State.enqueue, State.place, Function.update_of_ne e]
      exact .refl _
  | shut h =>
    rcases h with ⟨ok, -, h⟩ | ⟨sh, -, h⟩
    · exact .inl (update_quiet (h.quiet.trans (shutFor_quiet _)) d)
    · exact .inl (update_quiet (h.quiet.trans (shutFor_quiet _)) d)

lemma ServeMove.quiet (h : ServeMove m c m') (d : Nat) : Quiet (m.conns d) (m'.conns d) := by
  cases h with
  | pause | raise | done => exact .refl _
  | @write σ rest b a _ _ _ =>
    have same : Quiet (m.conns c) { m.conns c with
        sock := a
        sent := (m.conns c).sent ++ [(some σ, writtenResponse (m.conns c).keepAlive b)] } := ⟨rfl, id⟩
    exact update_quiet same d
  | close _ _ shuts => exact update_quiet (shuts.quiet.trans (closeFor_quiet _)) d

lemma TurnsTo.quiet {m1 : State} (h : TurnsTo m c m1) {d : Nat}
    (other : m.response ≠ .writing d (some true)) : Quiet (m.conns d) (m1.conns d) := by
  cases h with
  | pick | paused => exact .refl _
  | written writing =>
    have ne : d ≠ c := by
      rintro rfl
      exact other writing
    simp only [State.written, State.settle, Function.update_of_ne ne]
    exact .refl _
  | dropped =>
    have lost : Quiet (m.conns c)
        { m.conns c with keepAlive := false, requestQueue := [], failed := true } := ⟨rfl, fun _ => rfl⟩
    exact update_quiet lost d

/-- The response worker sets the clock of a connection when it has written a response. -/
lemma responseStep_clock (h : m.responseStep = some m') (d : Nat) :
    m.response ≠ .writing d (some true) ∧ Quiet (m.conns d) (m'.conns d) ∨
      m.response = .writing d (some true) ∧ (m'.conns d).lastRequestTime = m.now := by
  by_cases writing : m.response = .writing d (some true)
  · refine .inr ⟨writing, ?_⟩
    simp only [State.responseStep, writing, Option.some.injEq] at h
    subst h
    rw [(serve_move (m := m.written d) (c := d)).quiet d |>.time]
    simp [State.written, State.settle]
  · refine .inl ⟨writing, ?_⟩
    cases responseStep_move h with
    | ended | idle => exact .refl _
    | serve turns serves => exact (turns.quiet writing).trans (serves.quiet d)
    | shut _ shuts => exact update_quiet (shuts.quiet.trans (closeFor_quiet _)) d

lemma refuse_not_reading {conn : HttpConn} {c d now deadline : Nat} {code : StateCode}
    {state : Option ReadResult} : (conn.refuse c now code).2 ≠ .on d (.reading deadline state) := by
  intro reading
  have none : (conn.refuse c now code).2.reads = none := refuse_reads
  rw [reading] at none
  cases none

lemma readLoop_reading {conn : HttpConn} {c d now deadline deadline' : Nat} {state : Option ReadResult}
    (reading : (conn.readLoop c now deadline).2 = .on d (.reading deadline' state)) :
    d = c ∧ deadline' = deadline := by
  unfold HttpConn.readLoop at reading
  split at reading
  · exact absurd reading refuse_not_reading
  · split at reading
    · cases reading
      exact ⟨rfl, rfl⟩
    · cases reading

lemma shutFor_not_reading {c d deadline : Nat} {code : StateCode} {r : HttpConn × Option Shutdown}
    {state : Option ReadResult} : (shutFor c code r).2 ≠ .on d (.reading deadline state) := by
  intro reading
  have none : (shutFor c code r).2.reads = none := shutFor_reads
  rw [reading] at none
  cases none

/-- A worker that reads was reading before, until the same deadline, or has just taken the connection. -/
lemma requestStep_reading (h : m.requestStep cfg w p = some m') {c deadline : Nat}
    {state : Option ReadResult} (reading : m'.request w = .on c (.reading deadline state)) :
    (∃ state', m.request w = .on c (.reading deadline state')) ∨
      m.request w = .head ∧ m.stopped = false ∧
        (State.scanConns m.conns m.connList).2 = some c ∧
        deadline = (m.conns c).lastRequestTime + cfg.keepAliveTimeout := by
  unfold State.requestStep at h
  split at h
  · rename_i head
    split at h
    · cases h
      simp at reading
    · rename_i run
      split at h
      · cases h
        rw [head] at reading
        cases reading
      · rename_i list d scan
        cases h
        simp only [State.place, Function.update_self] at reading
        obtain ⟨rfl, rfl⟩ := readLoop_reading reading
        exact .inr ⟨head, Bool.eq_false_iff.mpr run, by rw [scan], rfl⟩
  · rename_i d deadline' state' before
    -- a worker that was reading goes on until the same deadline
    left
    split at h
    · cases h
    · cases h
      simp only [State.place, Function.update_self] at reading
      obtain ⟨rfl, rfl⟩ := readLoop_reading reading
      exact ⟨state', before⟩
    · cases h
      simp [State.enqueue, State.place] at reading
    · cases h
      simp only [State.place, Function.update_self] at reading
      exact absurd reading refuse_not_reading
    · split at h
      · cases h
      · cases h
        simp at reading
  · cases h
    simp only [State.place, Function.update_self] at reading
    exact absurd reading shutFor_not_reading
  · cases h
    simp only [State.place, Function.update_self] at reading
    exact absurd reading shutFor_not_reading
  · cases h

lemma requestStep_other (h : m.requestStep cfg w p = some m') {u : Nat} (ne : u ≠ w) :
    m'.request u = m.request u := by
  cases requestStep_move h with
  | scan => rfl
  | ended | read | raise | fail | enqueue | fault | shut => exact Function.update_of_ne ne _ _

lemma send_now {n : Nat} {job : Option Nat} : (m.send cfg w n job).now = m.now := by
  unfold State.send
  dsimp only
  split <;> rfl

/-- A dispatch worker takes no time, and sets no clock. -/
lemma DispatchMove.now (h : DispatchMove cfg m w m') : m'.now = m.now := by
  cases h with
  | go | giveUp => rfl
  | pick picks =>
    obtain ⟨list, ranks, rfl, -⟩ := picks
    rfl
  | send _ _ picks =>
    obtain ⟨list, ranks, rfl, -⟩ := picks
    exact send_now
  | depart _ picks _ _ =>
    obtain ⟨list, ranks, rfl, -⟩ := picks
    unfold State.depart
    split
    · exact send_now
    · rfl
  | receive _ _ =>
    unfold State.receive
    dsimp only
    split
    · rfl
    · split <;> rfl
  | retire _ =>
    unfold State.retire
    dsimp only
    split
    · rfl
    · split
      · split <;> rfl
      · rfl

lemma DispatchMove.quiet (h : DispatchMove cfg m w m') (d : Nat) : Quiet (m.conns d) (m'.conns d) := by
  rcases h.aside with a | ⟨c, -, -, a⟩
  · rw [a.conns]
    exact .refl _
  · rw [a.conns]
    have same : Quiet (m.conns c) { m.conns c with requestIdx := (m.conns c).requestIdx + 1 } := ⟨rfl, id⟩
    exact update_quiet same d

lemma DispatchMove.request (h : DispatchMove cfg m w m') : m'.request = m.request := by
  rcases h.aside with a | ⟨c, -, -, a⟩
  · exact a.request
  · exact a.request

end Steps

/-! ## The invariant -/

/-- The clock of a connection is no older than its last response. A read that no response has been written
during ends a whole window after the last one, and one that began with nothing outstanding is such. -/
structure Watched (cfg : Config) (s : State × Watch) : Prop where
  clock : ∀ c, s.2.writtenAt c ≤ (s.1.conns c).lastRequestTime
  past : ∀ c, (s.1.conns c).lastRequestTime ≤ s.1.now
  window : ∀ {w c deadline state}, s.1.request w = .on c (.reading deadline state) →
    s.2.fresh c = true → s.2.writtenAt c + cfg.keepAliveTimeout ≤ deadline
  idle : ∀ {w c deadline state}, s.1.request w = .on c (.reading deadline state) →
    s.2.idle c = true → (s.1.conns c).requestQueue = [] ∧ s.2.fresh c = true

namespace Watched
variable {cfg : Config} {m m' : State} {g : Watch}

lemma init : Watched cfg ({}, {}) where
  clock c := le_rfl
  past c := le_rfl
  window e := by cases e
  idle e := by cases e

/-- A step at which nothing is observed, and no read begins. -/
lemma quiet (x : Watched cfg (m, g)) (now : m.now ≤ m'.now)
    (conns : ∀ c, Quiet (m.conns c) (m'.conns c))
    (reads : ∀ {w c deadline state}, m'.request w = .on c (.reading deadline state) →
      ∃ state', m.request w = .on c (.reading deadline state')) : Watched cfg (m', g) where
  clock c := (x.clock c).trans (conns c).time.ge
  past c := ((conns c).time.le.trans (x.past c)).trans now
  window reading := by
    obtain ⟨state', before⟩ := reads reading
    exact x.window before
  idle reading e := by
    obtain ⟨state', before⟩ := reads reading
    obtain ⟨none, fresh⟩ := x.idle before e
    exact ⟨(conns _).queue none, fresh⟩

/-- A request worker takes a connection, which nobody else is on. -/
lemma pick {w c : Nat} {p : Parsed} (x : Watched cfg (m, g)) (r : Readers m)
    (st : m.requestStep cfg w p = some m') (head : m.request w = .head) (run : m.stopped = false)
    (scan : (State.scanConns m.conns m.connList).2 = some c) :
    Watched cfg (m', g.after m (.request w p)) := by
  have after : g.after m (.request w p) = { g with
      idle := Function.update g.idle c (m.conns c).requestQueue.isEmpty
      fresh := Function.update g.fresh c true } := by
    simp only [Watch.after, head, run, scan, and_self, if_true]
  have now : m'.now = m.now := by cases requestStep_move st <;> rfl
  have conns : ∀ d, Quiet (m.conns d) (m'.conns d) := by
    intro d
    rcases (requestStep_move st).clock d with same | ⟨on, -⟩
    · exact same
    · rw [head] at on
      cases on
  obtain ⟨list, taken⟩ : ∃ list, State.scanConns m.conns m.connList = (list, some c) :=
    ⟨_, Prod.ext rfl scan⟩
  have free := r.free ((State.scanConns_spec taken).2 c rfl).2.1
  -- nobody else reads from the connection, which was free
  have others : ∀ {u d deadline state}, u ≠ w → m'.request u = .on d (.reading deadline state) →
      m.request u = .on d (.reading deadline state) ∧ d ≠ c := by
    intro u d deadline state ne reading
    rw [requestStep_other st ne] at reading
    refine ⟨reading, ?_⟩
    rintro rfl
    exact free u (by rw [reading]; rfl)
  have mine : ∀ {d deadline state}, m'.request w = .on d (.reading deadline state) →
      d = c ∧ deadline = (m.conns c).lastRequestTime + cfg.keepAliveTimeout := by
    intro d deadline state reading
    rcases requestStep_reading st reading with ⟨state', before⟩ | ⟨-, -, scan', at_d⟩
    · rw [head] at before
      cases before
    · rw [scan, Option.some.injEq] at scan'
      subst scan'
      exact ⟨rfl, at_d⟩
  rw [after]
  refine ⟨fun d => (x.clock d).trans (conns d).time.ge, fun d => ?_, fun {u d deadline state} reading => ?_,
    fun {u d deadline state} reading => ?_⟩
  · exact ((conns d).time.le.trans (x.past d)).trans now.ge
  · intro fresh
    by_cases e : u = w
    · subst e
      obtain ⟨rfl, rfl⟩ := mine reading
      exact Nat.add_le_add_right (x.clock d) _
    · obtain ⟨before, ne⟩ := others e reading
      simp only [Function.update_of_ne ne] at fresh
      exact x.window before fresh
  · intro idle
    by_cases e : u = w
    · subst e
      obtain ⟨rfl, rfl⟩ := mine reading
      simp only [Function.update_self] at idle ⊢
      exact ⟨(conns d).queue (List.isEmpty_iff.mp idle), trivial⟩
    · obtain ⟨before, ne⟩ := others e reading
      simp only [Function.update_of_ne ne] at idle ⊢
      obtain ⟨none, fresh⟩ := x.idle before idle
      exact ⟨(conns d).queue none, fresh⟩

lemma request {w : Nat} {p : Parsed} (x : Watched cfg (m, g)) (r : Readers m)
    (st : m.requestStep cfg w p = some m') : Watched cfg (m', g.after m (.request w p)) := by
  by_cases picks : m.request w = .head ∧ m.stopped = false ∧
      ∃ c, (State.scanConns m.conns m.connList).2 = some c
  · obtain ⟨head, run, c, scan⟩ := picks
    exact x.pick r st head run scan
  · have after : g.after m (.request w p) = g := by
      unfold Watch.after
      dsimp only
      split
      · rename_i at_head
        split
        · rfl
        · rename_i c scan
          exact absurd ⟨at_head.1, at_head.2, c, scan⟩ picks
      · rfl
    have now : m'.now = m.now := by cases requestStep_move st <;> rfl
    have reads : ∀ {u c deadline state}, m'.request u = .on c (.reading deadline state) →
        ∃ state', m.request u = .on c (.reading deadline state') := by
      intro u c deadline state reading
      by_cases e : u = w
      · subst e
        rcases requestStep_reading st reading with before | ⟨head, run, scan, -⟩
        · exact before
        · exact absurd ⟨head, run, c, scan⟩ picks
      · rw [requestStep_other st e] at reading
        exact ⟨state, reading⟩
    rw [after]
    refine ⟨fun d => ?_, fun d => ?_, fun {u d deadline state} reading => ?_,
      fun {u d deadline state} reading idle => ?_⟩
    · rcases (requestStep_move st).clock d with same | ⟨-, -, time⟩
      · exact (x.clock d).trans same.time.ge
      · exact ((x.clock d).trans (x.past d)).trans time.ge
    · rcases (requestStep_move st).clock d with same | ⟨-, -, time⟩
      · exact (same.time.le.trans (x.past d)).trans now.ge
      · exact time.le.trans now.ge
    · obtain ⟨state', before⟩ := reads reading
      exact x.window before
    · obtain ⟨state', before⟩ := reads reading
      obtain ⟨none, fresh⟩ := x.idle before idle
      rcases (requestStep_move st).clock d with same | ⟨on, left, -⟩
      · exact ⟨same.queue none, fresh⟩
      · -- who has read a request from the connection was alone on it
        have alone := r.uniq (show (m.request u).conn = some d by rw [before]; rfl) on
        rw [alone, left] at reading
        cases reading

lemma response (x : Watched cfg (m, g)) (o : Order m) (st : m.responseStep = some m') :
    Watched cfg (m', g.after m .response) := by
  have same : m'.now = m.now ∧ m'.request = m.request := by
    cases responseStep_move st with
    | ended | idle | shut => exact ⟨rfl, rfl⟩
    | serve turns serves => cases turns <;> cases serves <;> exact ⟨rfl, rfl⟩
  obtain ⟨now, request⟩ := same
  -- the clock is set only behind a write that has succeeded
  by_cases writing : ∃ c, m.response = .writing c (some true)
  · obtain ⟨c, writing⟩ := writing
    have after : g.after m .response = { g with
        writtenAt := Function.update g.writtenAt c m.now
        fresh := Function.update g.fresh c false } := by
      simp only [Watch.after, writing]
    have other : ∀ {d}, d ≠ c → Quiet (m.conns d) (m'.conns d) := by
      intro d ne
      rcases responseStep_clock st d with ⟨-, quiet⟩ | ⟨here, -⟩
      · exact quiet
      · rw [writing] at here
        cases here
        exact absurd rfl ne
    have time : (m'.conns c).lastRequestTime = m.now := by
      rcases responseStep_clock st c with ⟨elsewhere, -⟩ | ⟨-, time⟩
      · exact absurd writing elsewhere
      · exact time
    have queued : (m.conns c).requestQueue ≠ [] := ((o.ordered_writing writing).front rfl).1
    rw [after]
    refine ⟨fun d => ?_, fun d => ?_, fun {u d deadline state} reading fresh => ?_,
      fun {u d deadline state} reading idle => ?_⟩
    · by_cases e : d = c
      · subst e
        simp only [Function.update_self, time, le_refl]
      · simp only [Function.update_of_ne e]
        exact (x.clock d).trans (other e).time.ge
    · by_cases e : d = c
      · subst e
        rw [time, now]
      · exact ((other e).time.le.trans (x.past d)).trans now.ge
    · by_cases e : d = c
      · subst e
        simp at fresh
      · simp only [Function.update_of_ne e] at fresh ⊢
        exact x.window (request ▸ reading) fresh
    · obtain ⟨none, fresh⟩ := x.idle (request ▸ reading) idle
      by_cases e : d = c
      · subst e
        exact absurd none queued
      · simp only [Function.update_of_ne e]
        exact ⟨(other e).queue none, fresh⟩
  · have after : g.after m .response = g := by
      unfold Watch.after
      dsimp only
      split
      · rename_i c here
        exact absurd ⟨c, here⟩ writing
      · rfl
    rw [after]
    refine x.quiet now.ge (fun d => ?_) fun {u c deadline state} reading => ⟨state, request ▸ reading⟩
    rcases responseStep_clock st d with ⟨-, quiet⟩ | ⟨here, -⟩
    · exact quiet
    · exact absurd ⟨d, here⟩ writing

lemma accept {ok : Bool} (x : Watched cfg (m, g)) (r : Readers m) (st : m.acceptStep cfg ok = some m') :
    Watched cfg (m', g.after m (.accept ok)) := by
  unfold State.acceptStep at st
  unfold Watch.after
  dsimp only
  split at st
  · rename_i head
    rw [if_neg (by simp [head])]
    split at st
    · cases st
      exact x.quiet le_rfl (fun _ => .refl _) fun reading => ⟨_, reading⟩
    · split at st
      · cases st
        exact x
      · cases st
        exact x.quiet le_rfl (fun _ => .refl _) fun reading => ⟨_, reading⟩
  · rename_i accepting
    split at st
    · rename_i accepted
      cases st
      rw [if_pos ⟨accepting, accepted⟩]
      have old : ∀ {u c deadline state}, m.request u = .on c (.reading deadline state) →
          c ≠ m.nextConn := fun reading => (r.bound (by rw [reading]; rfl)).ne
      refine ⟨fun d => ?_, fun d => ?_, fun {u d deadline state} reading fresh => ?_,
        fun {u d deadline state} reading idle => ?_⟩
      · by_cases e : d = m.nextConn
        · subst e
          simp
        · simp only [Function.update_of_ne e]
          exact x.clock d
      · by_cases e : d = m.nextConn
        · subst e
          simp
        · simp only [Function.update_of_ne e]
          exact x.past d
      · simp only [Function.update_of_ne (old reading)]
        exact x.window reading fresh
      · simp only [Function.update_of_ne (old reading)]
        exact x.idle reading idle
    · rename_i refused
      cases st
      rw [if_neg fun both => refused both.2]
      exact x.quiet le_rfl (fun _ => .refl _) fun reading => ⟨_, reading⟩
  · cases st

lemma step {a : Action} (x : Watched cfg (m, g)) (r : Readers m) (o : Order m)
    (st : m.next cfg a = some m') : Watched cfg (m', g.after m a) := by
  have place : ∀ {w c : Nat} {q : HttpConn × RequestPc}, Quiet (m.conns c) q.1 →
      (∀ {d deadline state}, q.2 = .on d (.reading deadline state) →
        ∃ state', m.request w = .on d (.reading deadline state')) →
      Watched cfg (m.place w c q, g) := by
    intro w c q same reads
    refine x.quiet le_rfl (update_quiet same) fun {u d deadline state} reading => ?_
    by_cases e : u = w
    · subst e
      simp only [State.place, Function.update_self] at reading
      exact reads reading
    · simp only [State.place, Function.update_of_ne e] at reading
      exact ⟨state, reading⟩
  cases a with
  | accept ok => exact x.accept r st
  | request w p => exact x.request r st
  | response => exact x.response o st
  | tick =>
    cases st
    exact x.quiet (Nat.le_succ _) (fun _ => .refl _) fun reading => ⟨_, reading⟩
  | stop =>
    cases st
    exact x.quiet le_rfl (fun _ => .refl _) fun reading => ⟨_, reading⟩
  | spawn result =>
    cases next_move st with
    | spawn | spawned => exact x.quiet le_rfl (fun _ => .refl _) fun reading => ⟨_, reading⟩
  | reply n frame =>
    cases next_move st with
    | reply => exact x.quiet le_rfl (fun _ => .refl _) fun reading => ⟨_, reading⟩
  | dispatch w result =>
    cases next_move st with
    | dispatch move => exact x.quiet move.now.ge move.quiet fun reading => ⟨_, move.request ▸ reading⟩
  | readDone w result =>
    cases next_move st with
    | readDone reading =>
      refine place ⟨rfl, id⟩ fun e => ?_
      cases e
      exact ⟨_, reading⟩
  | readLate c =>
    cases next_move st with
    | readLate given =>
      refine x.quiet le_rfl (fun d => update_quiet ?_ d) fun reading => ⟨_, reading⟩
      exact ⟨rfl, id⟩
  | refuseDone w ok =>
    cases next_move st with
    | refuseDone refusing => exact place ⟨rfl, id⟩ fun e => by cases e
  | responseDone ok =>
    cases next_move st with
    | responseDone writing =>
      refine x.quiet le_rfl (fun d => update_quiet ?_ d) fun reading => ⟨_, reading⟩
      exact ⟨rfl, id⟩

end Watched

lemma watched_next {cfg : Config} {s s' : State × Watch} {a : Action}
    (st : (watched cfg).next s a = some s') :
    s.1.next cfg a = some s'.1 ∧ s' = (s'.1, s.2.after s.1 a) := by
  obtain ⟨m', next, e⟩ := Option.map_eq_some_iff.mp st
  cases e
  exact ⟨next, rfl⟩

lemma watched_of_reachable {cfg : Config} {s : State × Watch} (run : (watched cfg).Reachable s) :
    Inv s.1 ∧ Watched cfg s := by
  refine run.invariant (I := fun s => Inv s.1 ∧ Watched cfg s) ?_ ?_
  · rintro _ rfl
    exact ⟨.init, .init⟩
  · rintro ⟨m, g⟩ a s' ⟨i, x⟩ st
    obtain ⟨next, e⟩ := watched_next st
    refine ⟨i.step (next_move next), ?_⟩
    rw [e]
    exact x.step i.readers i.order next

/-- The bytes that have come are never refused with 408. -/
lemma readNext_late {now deadline : Nat} {p : Parsed} {state : Option ReadResult}
    (h : readNext now deadline p state = some (.refuse .code408)) : deadline ≤ now := by
  cases state with
  | none =>
    simp only [readNext] at h
    split at h
    · assumption
    · cases h
  | some result =>
    cases result with
    | eof | error => simp [readNext] at h
    | ok =>
      cases p with
      | refuse code =>
        simp only [readNext] at h
        split at h
        · rename_i refusal
          cases h
          exact absurd refusal (by decide)
        · cases h
      | more | session | fault => simp [readNext] at h

/-- A read that is given up was under way until its deadline, or had its deadline behind it when the worker
took the connection. -/
lemma failing_late {cfg : Config} {m : State} {w c : Nat} {p : Parsed}
    (late : m.failing cfg w p = some (c, .code408)) :
    (∃ deadline state, m.request w = .on c (.reading deadline state) ∧ deadline ≤ m.now) ∨
      m.request w = .head ∧ m.stopped = false ∧ (State.scanConns m.conns m.connList).2 = some c ∧
        (m.conns c).lastRequestTime + cfg.keepAliveTimeout ≤ m.now := by
  unfold State.failing at late
  split at late
  · rename_i head
    split at late
    · cases late
    · rename_i run
      split at late
      · cases late
      · rename_i scan
        split at late
        · rename_i passed
          cases late
          exact .inr ⟨head, Bool.eq_false_iff.mpr run, scan, passed⟩
        · cases late
  · rename_i d deadline state reading
    split at late
    · split at late
      · rename_i passed
        cases late
        exact .inl ⟨deadline, state, reading, passed⟩
      · cases late
    · rename_i code next
      cases late
      exact .inl ⟨deadline, state, reading, readNext_late next⟩
    · cases late
  · cases late

/-- In a run whose reads are given up only if they began with no response outstanding (or after the write of
a response has failed), no response is outstanding on a connection that is given up, and the whole window
has passed since it was accepted and since its last response was written. -/
theorem idle_allowance (cfg : Config) (s s' : State × Watch)
    (run : ((watched cfg).restrict fun s a => timely cfg s a = true).Reachable s) (w c : Nat) (p : Parsed)
    (step : ((watched cfg).restrict fun s a => timely cfg s a = true).next s (.request w p) = some s')
    (late : s.1.failing cfg w p = some (c, .code408)) :
    (s.1.conns c).requestQueue = [] ∧ s.2.writtenAt c + cfg.keepAliveTimeout ≤ s.1.now := by
  obtain ⟨i, x⟩ := watched_of_reachable run.of_restrict
  obtain ⟨ok, st⟩ := System.restrict_next.mp step
  simp only [timely, late, Option.all_some, bne_self_eq_false, Bool.false_or, Bool.or_eq_true,
    Bool.and_eq_true] at ok
  -- the read was under way, or the worker has only just taken the connection
  rcases failing_late late with ⟨deadline, state, reading, passed⟩ | ⟨head, going, scan, passed⟩
  · have same : s.2.after s.1 (.request w p) = s.2 := by
      simp only [Watch.after, reading, reduceCtorEq, false_and, if_false]
    rw [same] at ok
    obtain ⟨none, fresh⟩ : (s.1.conns c).requestQueue = [] ∧ s.2.fresh c = true := by
      rcases ok with idle | ⟨failed, fresh⟩
      · exact x.idle reading idle
      · exact ⟨(i.readers.held (by rw [reading]; rfl)).late failed, fresh⟩
    exact ⟨none, (x.window reading fresh).trans passed⟩
  · obtain ⟨list, taken⟩ : ∃ list, State.scanConns s.1.conns s.1.connList = (list, some c) :=
      ⟨_, Prod.ext rfl scan⟩
    have keep := ((State.scanConns_spec taken).2 c rfl).2.2
    simp only [Watch.after, head, going, scan, and_self, if_true, Function.update_self] at ok
    refine ⟨?_, (Nat.add_le_add_right (x.clock c) _).trans passed⟩
    rcases ok with idle | ⟨failed, -⟩
    · exact List.isEmpty_iff.mp idle
    · exact absurd (keep.symm.trans (i.readers.broken c failed)) (by decide)

/-- A client that has its response and asks for nothing more is given up after its window. -/
theorem idle_allowance_page :
    ∃ s s' : State × Watch, (watched { keepAliveTimeout := 2 }).next s (.request 0 .more) = some s' ∧
      s.1.failing { keepAliveTimeout := 2 } 0 .more = some (0, .code408) ∧ s.2.writtenAt 0 = 1 ∧
      (s.1.conns 0).requestQueue = [] ∧ s.2.writtenAt 0 + 2 ≤ s.1.now := by
  obtain ⟨s, run, h⟩ := System.Reachable.exists_of_run
    (S := (watched { keepAliveTimeout := 2 }).restrict
      fun s a => timely { keepAliveTimeout := 2 } s a = true) (.init rfl)
    (opening ++ asks (page (bytes "keep-alive")) ++ answers (bytes "HTTP/1.1 200 OK") ++
      [.response, .responseDone true, .tick, .response, .request 0 .more, .tick, .tick])
    (fun s => (((watched { keepAliveTimeout := 2 }).restrict
        fun s a => timely { keepAliveTimeout := 2 } s a = true).next s (.request 0 .more)).isSome &&
      decide (s.1.failing { keepAliveTimeout := 2 } 0 .more = some (0, .code408)) &&
      decide (s.2.writtenAt 0 = 1)) (by decide +kernel)
  simp only [Bool.and_eq_true, Option.isSome_iff_exists] at h
  obtain ⟨⟨⟨s', step⟩, late⟩, written⟩ := h
  exact ⟨s, s', (System.restrict_next.mp step).2, of_decide_eq_true late, of_decide_eq_true written,
    idle_allowance _ s s' run 0 0 .more step (of_decide_eq_true late)⟩

/-- A client whose request is with the slave is given up while the slave works. -/
theorem read_given_up_early :
    ¬ ∀ (cfg : Config) (s s' : State × Watch), (watched cfg).Reachable s → ∀ (w c : Nat) (p : Parsed),
      (watched cfg).next s (.request w p) = some s' → s.1.failing cfg w p = some (c, .code408) →
        (s.1.conns c).requestQueue = [] ∧ s.2.writtenAt c + cfg.keepAliveTimeout ≤ s.1.now := by
  intro claim
  obtain ⟨s, run, h⟩ := System.Reachable.exists_of_run (S := watched { keepAliveTimeout := 2 }) (.init rfl)
    (opening ++ asks (page (bytes "keep-alive")) ++
      [.dispatch 0 .ok, .dispatch 0 .ok, .request 0 .more, .tick, .tick])
    (fun s => ((watched { keepAliveTimeout := 2 }).next s (.request 0 .more)).isSome &&
      decide (s.1.failing { keepAliveTimeout := 2 } 0 .more = some (0, .code408)) &&
      decide ((s.1.conns 0).requestQueue = [0])) (by decide +kernel)
  simp only [Bool.and_eq_true, Option.isSome_iff_exists] at h
  obtain ⟨⟨⟨s', step⟩, late⟩, queue⟩ := h
  have none := (claim _ s s' run 0 0 .more step (of_decide_eq_true late)).1
  rw [of_decide_eq_true queue] at none
  cases none

end CovNet.Master
