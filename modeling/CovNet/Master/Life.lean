import CovNet.Master.Moves

/-!
# The life of a connection

Whether a connection is closed and what its responses say about it is decided in different places: by
the slave or by `compose_response` when a response is made, by the request worker when it sees a session
that closes, and by the response worker when the last response is written. `Agrees` is the invariant
that keeps them together, for one connection at a time. It sees the connection, the sessions that wait
for their response to be written (whether they close the connection, and the response once it is there),
and where the workers are: whether the response worker attends to the connection or shuts it down,
whether a request worker reads from it or gives it up with an error response.

The lemmas say what the single operations on a connection do to the invariant.
-/

namespace CovNet.Master
open Lib Text Http Socket

/-- The header block says `Connection: close`. -/
def saysClose (b : Bytes) : Bool :=
  ((lines b).takeWhile fun l => !l.isEmpty).any fun l =>
    tolower (trim (l.takeWhile (· != ':'))) == bytes "connection" &&
      tolower (trim ((l.dropWhile (· != ':')).drop 1)) == bytes "close"

/-- Every error response says so, also after the rewrite. -/
lemma composeResponse_saysClose (keepAlive : Bool) (code : StateCode) :
    saysClose (writtenResponse keepAlive (composeResponse code.text)) = true := by
  cases keepAlive <;> cases code <;> decide +kernel

/-- The last response handed to `async.write` says so. -/
def HttpConn.Said (conn : HttpConn) : Prop := ∃ e ∈ conn.sent.getLast?, saysClose e.2 = true

/-- The life of a connection and the text of its responses agree. -/
structure Agrees (conn : HttpConn) (waiting : List (Bool × Option Bytes))
    (attended shuts reads refuses leaves : Prop) : Prop where
  /-- only the last response may say close -/
  quiet : ∀ e ∈ conn.sent.dropLast, saysClose e.2 = false
  /-- a response that waits says close if its session closes the connection -/
  stored : ∀ {closing b}, (closing, some b) ∈ waiting →
    saysClose (writtenResponse conn.keepAlive b) = closing
  /-- no session that waits closes a connection that stays open -/
  stays : conn.keepAlive = true → ∀ x ∈ waiting, x.1 = false
  /-- the last session that waits closes a connection that does not, and no other one -/
  last : conn.keepAlive = false → conn.failed = false → ∀ pre x, waiting = pre ++ [x] →
    x.1 = true ∧ ∀ y ∈ pre, y.1 = false
  /-- such a connection has said so when nothing waits any more -/
  used : conn.keepAlive = false → conn.failed = false → waiting = [] → conn.Said
  /-- nobody reads from a connection that has said so -/
  reading : reads → ¬ conn.Said ∧ (conn.keepAlive = true ∨ conn.failed = true)
  /-- nor takes it up -/
  fresh : conn.state = .established → conn.keepAlive = true → ¬ conn.Said
  /-- a connection that has said so is on its way to be closed -/
  said : conn.Said → waiting = [] ∧
    (conn.keepAlive = false ∧ (attended ∨ shuts) ∨ refuses ∨ conn.state = .close)
  /-- the response worker shuts down what is used up -/
  shutting : shuts → conn.keepAlive = false ∧ (conn.failed = false → waiting = [])
  /-- a request worker gives a connection up with an error response -/
  refusing : refuses → conn.Said
  /-- a request worker that leaves a connection has failed to read -/
  leaving : leaves → conn.refused = true
  /-- a connection is closed for one of three reasons -/
  closed : conn.state = .close → conn.failed = true ∨ conn.refused = true ∨ conn.Said

section Said
variable {conn conn' : HttpConn} {e : Option Nat × Bytes}

lemma HttpConn.Said.congr (h : conn'.sent = conn.sent) : conn'.Said ↔ conn.Said := by
  simp only [Said, h]

lemma HttpConn.said_append (h : conn'.sent = conn.sent ++ [e]) :
    conn'.Said ↔ saysClose e.2 = true := by
  simp [Said, h]

/-- A response more is handed over after one that does not say close. -/
lemma quiet_append (h : conn'.sent = conn.sent ++ [e]) (no : ¬ conn.Said)
    (quiet : ∀ e ∈ conn.sent.dropLast, saysClose e.2 = false) :
    ∀ e ∈ conn'.sent.dropLast, saysClose e.2 = false := by
  rw [h, List.dropLast_concat]
  intro x mem
  rcases List.eq_nil_or_concat conn.sent with empty | ⟨pre, y, eq⟩
  · rw [empty] at mem
    cases mem
  · rw [List.concat_eq_append] at eq
    rw [eq] at mem
    rcases List.mem_append.mp mem with old | last
    · exact quiet x (by rwa [eq, List.dropLast_concat])
    · rw [List.mem_singleton.mp last]
      have silent : ¬ saysClose y.2 = true := fun yes => no ⟨y, by simp [eq], yes⟩
      simpa using silent

end Said

namespace Agrees
variable {conn conn' : HttpConn} {waiting waiting' : List (Bool × Option Bytes)}
  {attended attended' shuts shuts' reads reads' refuses refuses' leaves leaves' : Prop}

/-- The workers move and the connection is not concerned, or only where it is closed. -/
lemma move (g : Agrees conn waiting attended shuts reads refuses leaves) (sent : conn'.sent = conn.sent)
    (keepAlive : conn'.keepAlive = conn.keepAlive) (failed : conn'.failed = conn.failed)
    (refused : conn.refused = true → conn'.refused = true)
    (reading : reads' → reads ∨ conn.state = .established ∧ conn.keepAlive = true)
    (fresh : conn'.state = .established → conn.state = .established)
    (goes : conn.Said → waiting = [] →
      conn.keepAlive = false ∧ (attended ∨ shuts) ∨ refuses ∨ conn.state = .close →
      conn.keepAlive = false ∧ (attended' ∨ shuts') ∨ refuses' ∨ conn'.state = .close)
    (shutting : shuts' → shuts ∨ conn.keepAlive = false ∧ (conn.failed = false → waiting = []))
    (refusing : refuses' → refuses) (leaving : leaves' → conn'.refused = true)
    (closed : conn'.state = .close → conn.state = .close ∨ conn'.refused = true ∨
      conn.keepAlive = false ∧ (conn.failed = false → waiting = [])) :
    Agrees conn' waiting attended' shuts' reads' refuses' leaves' := by
  have same := HttpConn.Said.congr sent
  refine ⟨?_, ?_, ?_, ?_, ?_, ?_, ?_, ?_, ?_, ?_, ?_, ?_⟩
  · rw [sent]
    exact g.quiet
  · rw [keepAlive]
    exact g.stored
  · rw [keepAlive]
    exact g.stays
  · rw [keepAlive, failed]
    exact g.last
  · rw [keepAlive, failed, same]
    exact g.used
  · rw [keepAlive, failed, same]
    intro yes
    rcases reading yes with old | ⟨est, keep⟩
    · exact g.reading old
    · exact ⟨g.fresh est keep, .inl keep⟩
  · rw [keepAlive, same]
    exact fun est => g.fresh (fresh est)
  · rw [keepAlive, same]
    intro said
    obtain ⟨none, going⟩ := g.said said
    exact ⟨none, goes said none going⟩
  · rw [keepAlive, failed]
    intro yes
    rcases shutting yes with old | new
    · exact g.shutting old
    · exact new
  · rw [same]
    exact fun yes => g.refusing (refusing yes)
  · exact leaving
  · rw [failed, same]
    intro shut
    rcases closed shut with old | read | ⟨keep, none⟩
    · rcases g.closed old with lost | read | said
      · exact .inl lost
      · exact .inr (.inl (refused read))
      · exact .inr (.inr said)
    · exact .inr (.inl read)
    · cases lost : conn.failed with
      | true => exact .inl rfl
      | false => exact .inr (.inr (g.used keep lost (none lost)))

/-- Nothing changes but where the workers are. -/
lemma mono (g : Agrees conn waiting attended shuts reads refuses leaves) (attends : attended → attended')
    (shut : shuts' ↔ shuts) (read : reads' → reads) (refuse : refuses' ↔ refuses)
    (leave : leaves' → leaves) :
    Agrees conn waiting attended' shuts' reads' refuses' leaves' := by
  refine g.move rfl rfl rfl id (fun yes => .inl (read yes)) id ?_ (fun yes => .inl (shut.mp yes))
    refuse.mp (fun yes => g.leaving (leave yes)) .inl
  rintro - - (⟨keep, att | shutting⟩ | refusing | closed)
  · exact .inl ⟨keep, .inl (attends att)⟩
  · exact .inl ⟨keep, .inr (shut.mpr shutting)⟩
  · exact .inr (.inl (refuse.mpr refusing))
  · exact .inr (.inr closed)

/-- A response is stored for a session that waits. -/
lemma store (g : Agrees conn waiting attended shuts reads refuses leaves)
    (same : waiting'.map Prod.fst = waiting.map Prod.fst)
    (fits : ∀ {closing b}, (closing, some b) ∈ waiting' → (closing, some b) ∈ waiting ∨
      saysClose (writtenResponse conn.keepAlive b) = closing) :
    Agrees conn waiting' attended shuts reads refuses leaves := by
  have empty : waiting' = [] ↔ waiting = [] := by
    rw [← List.map_eq_nil_iff (f := Prod.fst), same, List.map_eq_nil_iff]
  have closing : ∀ x ∈ waiting', ∃ y ∈ waiting, y.1 = x.1 := by
    intro x mem
    have mem' : x.1 ∈ waiting.map Prod.fst := same ▸ List.mem_map_of_mem mem
    obtain ⟨y, my, e⟩ := List.mem_map.mp mem'
    exact ⟨y, my, e⟩
  refine ⟨g.quiet, ?_, ?_, ?_, ?_, g.reading, g.fresh, ?_, ?_, g.refusing, g.leaving, g.closed⟩
  · intro closing b mem
    exact (fits mem).elim g.stored id
  · intro keep x mem
    obtain ⟨y, my, e⟩ := closing x mem
    rw [← e]
    exact g.stays keep y my
  · intro keep live pre x e
    -- the last one that waits is at the same place as before
    rcases List.eq_nil_or_concat waiting with none | ⟨pre0, x0, e0⟩
    · rw [empty.mpr none] at e
      simp at e
    · rw [List.concat_eq_append] at e0
      obtain ⟨yes, no⟩ := g.last keep live pre0 x0 e0
      rw [e, e0, List.map_append, List.map_append] at same
      obtain ⟨front, back⟩ := List.append_inj' same rfl
      simp only [List.map_cons, List.map_nil, List.cons.injEq, and_true] at back
      refine ⟨back.trans yes, ?_⟩
      intro y mem
      have mem' : y.1 ∈ pre0.map Prod.fst := front ▸ List.mem_map_of_mem mem
      obtain ⟨z, mz, ez⟩ := List.mem_map.mp mem'
      rw [← ez]
      exact no z mz
  · rw [empty]
    exact g.used
  · rw [empty]
    exact g.said
  · rw [empty]
    exact g.shutting

/-- A session is queued by the worker that has read it. -/
lemma enqueue {closing : Bool} (g : Agrees conn waiting attended shuts reads refuses leaves) (on : reads)
    (sent : conn'.sent = conn.sent) (failed : conn'.failed = conn.failed)
    (keepAlive : conn'.keepAlive = (conn.keepAlive && !closing))
    (refused : conn'.refused = conn.refused) (state : conn'.state = .established)
    (late : conn.failed = true → waiting = [])
    (fits : closing = true → conn.keepAlive = true → ∀ x b, (x, some b) ∈ waiting →
      saysClose (writtenResponse false b) = false) :
    Agrees conn' (waiting ++ [(closing, none)]) attended shuts False refuses leaves := by
  have same := HttpConn.Said.congr sent
  obtain ⟨silent, open'⟩ := g.reading on
  have old : ∀ {x b}, (x, some b) ∈ waiting ++ [(closing, none)] → (x, some b) ∈ waiting := by
    intro x b mem
    simpa using mem
  refine ⟨?_, ?_, ?_, ?_, ?_, ?_, ?_, ?_, ?_, ?_, ?_, ?_⟩
  · rw [sent]
    exact g.quiet
  · intro x b mem
    have here := old mem
    cases keep : conn.keepAlive with
    | false =>
      -- a connection that is read although it does not keep alive has failed
      have lost := open'.resolve_left (by simp [keep])
      rw [late lost] at here
      cases here
    | true =>
      have own := g.stored here
      have no : x = false := g.stays keep _ here
      cases close : closing with
      | false =>
        rw [keepAlive, keep, close]
        rwa [keep] at own
      | true =>
        rw [keepAlive, keep, close, no]
        exact fits close keep x b here
  · intro keep x mem
    rw [keepAlive, Bool.and_eq_true, Bool.not_eq_true'] at keep
    rcases List.mem_append.mp mem with here | new
    · exact g.stays keep.1 x here
    · rw [List.mem_singleton.mp new]
      exact keep.2
  · intro keep live pre x e
    obtain ⟨rfl, back⟩ := List.append_inj' e rfl
    cases back
    have keep' : conn.keepAlive = true := open'.resolve_right (by simp [← failed, live])
    rw [keepAlive, keep'] at keep
    exact ⟨by simpa using keep, g.stays keep'⟩
  · intro _ _ none
    simp at none
  · exact fun no => no.elim
  · rw [same]
    exact fun _ _ => silent
  · rw [same]
    exact fun said => absurd said silent
  · intro yes
    obtain ⟨keep, -⟩ := g.shutting yes
    have lost := open'.resolve_left (by simp [keep])
    rw [keepAlive, keep, failed, lost]
    exact ⟨rfl, fun no => by cases no⟩
  · exact fun yes => absurd (g.refusing yes) silent
  · rw [refused]
    exact g.leaving
  · rw [state]
    exact fun no => by cases no

/-- A worker whose read has failed answers with an error response, which says close. -/
lemma refuse {code : StateCode} (g : Agrees conn waiting attended shuts reads refuses leaves) (on : reads)
    (sent : conn'.sent = conn.sent ++ [(none, composeResponse code.text)])
    (keepAlive : conn'.keepAlive = conn.keepAlive) (failed : conn'.failed = conn.failed)
    (refused : conn'.refused = true) (state : conn'.state ≠ .established)
    (none : waiting = []) :
    Agrees conn' waiting attended shuts False True leaves' := by
  have said : conn'.Said := (HttpConn.said_append sent).mpr (composeResponse_saysClose true code)
  refine ⟨quiet_append sent (g.reading on).1 g.quiet, ?_, ?_, ?_, fun _ _ _ => said,
    fun no => no.elim, fun est => absurd est state, fun _ => ⟨none, .inr (.inl trivial)⟩, ?_,
    fun _ => said, fun _ => refused, fun _ => .inr (.inl refused)⟩
  · rw [keepAlive]
    exact g.stored
  · rw [keepAlive]
    exact g.stays
  · rw [keepAlive, failed]
    exact g.last
  · rw [keepAlive, failed]
    exact g.shutting

/-- The response of the front session is written. It says close exactly if this is the last one. -/
lemma issue {σ : Nat} {closing : Bool} {b : Bytes}
    (g : Agrees conn ((closing, some b) :: waiting) attended shuts reads refuses leaves)
    (live : conn.failed = false)
    (sent : conn'.sent = conn.sent ++ [(some σ, writtenResponse conn.keepAlive b)])
    (keepAlive : conn'.keepAlive = conn.keepAlive) (failed : conn'.failed = conn.failed)
    (refused : conn'.refused = conn.refused) (state : conn'.state = conn.state) :
    Agrees conn' waiting True shuts reads refuses leaves := by
  have text := g.stored List.mem_cons_self
  have silent : ¬ conn.Said := fun yes => by simpa using (g.said yes).1
  have said : conn'.Said ↔ closing = true := by
    rw [HttpConn.said_append sent, text]
  have stays : conn.keepAlive = true → closing = false := fun keep =>
    g.stays keep _ List.mem_cons_self
  have no : conn.keepAlive = true → ¬ conn'.Said := by
    intro keep
    rw [said, stays keep]
    decide
  have noShut : ¬ shuts := fun yes => by simpa using (g.shutting yes).2 live
  refine ⟨quiet_append sent silent g.quiet, ?_, ?_, ?_, ?_, ?_, ?_, ?_, ?_, ?_, ?_, ?_⟩
  · rw [keepAlive]
    exact fun mem => g.stored (List.mem_cons_of_mem _ mem)
  · rw [keepAlive]
    exact fun keep x mem => g.stays keep x (List.mem_cons_of_mem _ mem)
  · rw [keepAlive, failed]
    intro keep _ pre x e
    obtain ⟨yes, others⟩ := g.last keep live (_ :: pre) x (by rw [e]; rfl)
    exact ⟨yes, fun y mem => others y (List.mem_cons_of_mem _ mem)⟩
  · rw [keepAlive]
    intro keep _ none
    exact said.mpr (g.last keep live [] _ (by rw [none]; rfl)).1
  · rw [keepAlive, failed]
    intro yes
    have open' := (g.reading yes).2
    exact ⟨no (open'.resolve_right (by simp [live])), open'⟩
  · rw [keepAlive]
    exact fun _ => no
  · rw [keepAlive]
    intro yes
    have close := said.mp yes
    have keep : conn.keepAlive = false := by
      cases keep : conn.keepAlive with
      | false => rfl
      | true =>
        rw [stays keep] at close
        cases close
    refine ⟨?_, .inl ⟨keep, .inl trivial⟩⟩
    -- if another waited behind it, that one would be the one that closes
    rcases List.eq_nil_or_concat waiting with empty | ⟨pre, x, e⟩
    · exact empty
    · rw [List.concat_eq_append] at e
      have other := (g.last keep live (_ :: pre) x (by rw [e]; rfl)).2 _ List.mem_cons_self
      rw [close] at other
      cases other
  · exact fun yes => absurd yes noShut
  · exact fun yes => absurd (g.refusing yes) silent
  · rw [refused]
    exact g.leaving
  · rw [state, failed, refused]
    intro shut
    rcases g.closed shut with lost | read | yes
    · exact .inl lost
    · exact .inr (.inl read)
    · exact absurd yes silent

/-- The write of a response has failed, and the queue is dropped. -/
lemma drop (g : Agrees conn waiting attended shuts reads refuses leaves) (sent : conn'.sent = conn.sent)
    (keepAlive : conn'.keepAlive = false) (failed : conn'.failed = true)
    (refused : conn'.refused = conn.refused) (attends : attended') :
    Agrees conn' [] attended' shuts reads refuses leaves := by
  have same := HttpConn.Said.congr sent
  have lost : ∀ {p : Prop}, conn'.failed = false → p := fun no => by
    rw [failed] at no
    cases no
  refine ⟨?_, (fun mem => by cases mem), (fun _ x mem => by cases mem), fun _ live => lost live,
    fun _ live => lost live, ?_, ?_, fun _ => ⟨rfl, .inl ⟨keepAlive, .inl attends⟩⟩, ?_, ?_, ?_,
    fun _ => .inl failed⟩
  · rw [sent]
    exact g.quiet
  · rw [same]
    exact fun yes => ⟨(g.reading yes).1, .inr failed⟩
  · rw [keepAlive]
    exact fun _ no => by cases no
  · exact fun _ => ⟨keepAlive, fun live => lost live⟩
  · rw [same]
    exact g.refusing
  · rw [refused]
    exact g.leaving

end Agrees

end CovNet.Master
