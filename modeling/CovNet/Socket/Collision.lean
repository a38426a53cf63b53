import CovNet.Socket.Calls

/-!
# `safe_shutdown` against one exclusive operation

A `safe_shutdown` that meets a handshake, a connect or an accept waits until `async_jobs` is 0 and then
tries once more to set `exclusive_operation`. The other operation does not change the two together: it
sets `exclusive_operation` before it is counted, and clears it after it has been taken from the count. A
load of 0 in between ends the loop although the flag is still up. `retry_obtained_iff` says that nothing
else makes the second try fail, and that each of the two does.
-/

namespace CovNet.Socket
open CovNet.Lib

/-! ## The two calls -/

/-- The two calls. -/
inductive Side where
  | shutdown
  | rival
  deriving DecidableEq, Repr

/-- `safe_shutdown` and the operation `op`, on one socket. -/
def colliding (op : Operation) : Side → Job Unit
  | .shutdown => ⟨.safeShutdown, (), 0⟩
  | .rival => ⟨op, (), 0⟩

/-- How far an exclusive operation has come. -/
inductive Phase where
  /-- `exclusive_operation` is not set yet -/
  | ahead
  /-- between the two exchanges of `begin_exclusive_operation` -/
  | reserving
  /-- counted in `async_jobs`: the completion has not run -/
  | held
  /-- between the `fetch_sub` and the store of `end_exclusive_operation` -/
  | releasing
  /-- `exclusive_operation` is cleared -/
  | past
  deriving DecidableEq, Repr

/-- The phases in their order. -/
def Phase.rank : Phase → Nat
  | .ahead => 0
  | .reserving => 1
  | .held => 2
  | .releasing => 3
  | .past => 4

/-- The stages before the reservation. -/
def Stage.outside : Stage → Bool
  | .unstarted | .checking | .tlsCheck | .polling | .entering _ => true
  | _ => false

/-- The phase of a call. -/
def Call.phase {ι : Type*} (c : Call ι) : Phase :=
  match c.pc with
  | .exReserve | .exRefused => .reserving
  | .exHeld => .held
  | .exFinish => .releasing
  | _ => if c.stage.outside then .ahead else .past

/-- What is noted of a `safe_shutdown` that was refused. -/
structure Retry where
  /-- the phase of the other operation at the last load of `async_jobs` -/
  seen : Phase := .ahead
  /-- its phase at the second try -/
  met : Phase := .ahead
  /-- whether the second try was admitted -/
  obtained : Option Bool := none
  deriving DecidableEq, Repr

/-- What a step adds. -/
def Retry.after (g : Retry) (h : Host Side Unit) (a : Side × Choice) (h' : Host Side Unit) : Retry :=
  match a.1, (h.calls .shutdown).stage with
  | .shutdown, .polling => { g with seen := (h.calls .rival).phase }
  | .shutdown, .entering false =>
    { g with
      met := (h.calls .rival).phase
      obtained := some (decide ((h'.calls .shutdown).stage = .reserved)) }
  | _, _ => g

/-- One `safe_shutdown` and one other operation. -/
def collision (op : Operation) : System (Host Side Unit × Retry) (Side × Choice) :=
  (operations (colliding op) fun _ => .tcp).observe {} Retry.after

/-- The second try is not made before the completion has run, if the last load found it counted: only
the deadline ends the loop then. -/
def inTime (s : Host Side Unit × Retry) (a : Side × Choice) : Bool :=
  match a.1, (s.1.calls .shutdown).stage with
  | .shutdown, .entering false => s.2.seen ≠ .held ∨ (s.1.calls .rival).phase ≠ .held
  | _, _ => true

/-- The second try falls between the `fetch_sub` and the store of the other operation, or the load that
ended the loop fell between its two exchanges and it has not ended since. -/
def Retry.Missed (g : Retry) : Prop :=
  g.met = .releasing ∨ g.seen = .reserving ∧ g.met ≠ .past

/-! ## What the steps do -/

section Step
variable {ι : Type*} {code : Code} {me : ι} {a : Atomics} {tls : Tls ι} {st : StateType} {c : Call ι}
  {e : Effect ι}

/-- A call is outside when its stage says so. -/
lemma Call.phase_idle (idle : c.pc = .idle) : c.phase = if c.stage.outside then .ahead else .past := by
  unfold Call.phase
  rw [idle]

/-- Where a call with an exclusive reservation can be. -/
lemma Code.Placed.exclusive (pl : code.Placed c) (alone : code.reservation = .exclusive) :
    c.pc = .idle ∨ c.pc = .exReserve ∨ c.pc = .exRefused ∨ c.pc = .exHeld ∨ c.pc = .exFinish := by
  unfold Code.Placed at pl
  cases at_ : c.stage <;>
    simp only [at_, alone, Reservation.enters, Reservation.holds, Reservation.leaves,
      decide_eq_true_eq] at pl <;>
    tauto

/-- Where a call with a draining one can be. -/
lemma Code.Placed.draining (pl : code.Placed c) (drains : code.reservation = .draining) :
    c.pc = .idle ∨ c.pc = .draining ∨ c.pc = .drained := by
  unfold Code.Placed at pl
  cases at_ : c.stage <;>
    simp only [at_, drains, Reservation.enters, Reservation.holds, Reservation.leaves,
      decide_eq_true_eq] at pl <;>
    tauto

lemma Code.Placed.outside (pl : code.Placed c) (drains : code.reservation = .draining)
    (out : c.stage.outside = true) : c.pc = .idle := by
  unfold Code.Placed at pl
  cases at_ : c.stage <;> simp_all [Stage.outside, Reservation.enters]

/-- An exclusive operation owns `exclusive_operation` in between. -/
lemma Code.Placed.owns_iff (pl : code.Placed c) (alone : code.reservation = .exclusive) :
    c.pc.owns .exclusive ↔ c.phase ≠ .ahead ∧ c.phase ≠ .past := by
  rcases pl.exclusive alone with idle | at_ | at_ | at_ | at_
  · rw [Call.phase_idle idle, idle]
    split <;> simp [Pc.owns]
  all_goals simp [Call.phase, at_, Pc.owns]

/-- An exclusive operation goes through its phases in their order, and is not refused if nobody is
counted. -/
lemma Move.phase_le (mv : Move code me a tls st c e) (pl : code.Placed c)
    (alone : code.reservation = .exclusive) (admitted : c.pc ≠ .exRefused)
    (zero : c.pc = .exReserve → a.asyncJobs = 0) :
    c.phase.rank ≤ e.call.phase.rank ∧ e.call.pc ≠ .exRefused := by
  have out : c.stage.before = true → c.pc = .idle := by
    intro before
    unfold Code.Placed at pl
    cases at_ : c.stage <;> simp_all [Stage.before]
  have ahead : c.stage.before = true → c.phase.rank = 0 := by
    intro before
    rw [Call.phase_idle (out before), if_pos]
    · rfl
    · cases at_ : c.stage <;> simp_all [Stage.before, Stage.outside]
  -- the moves that stay where they are keep the phase
  have held : code.reservation.holds c.pc = true → ∀ s, ({ c with stage := s } : Call ι).phase = c.phase := by
    intro holds s
    simp only [alone, Reservation.holds, decide_eq_true_eq] at holds
    simp only [Call.phase, holds]
  cases mv with
  | pass before _ _ =>
    rw [ahead before]
    exact ⟨Nat.zero_le _, admitted⟩
  | giveUp before _ =>
    rw [ahead before]
    exact ⟨Nat.zero_le _, admitted⟩
  | @enter retry a' p at_ nx =>
    simp only [Code.Placed, at_, alone, Reservation.enters, decide_eq_true_eq] at pl
    rw [alone] at nx
    rcases pl with idle | reserve | refused
    · rw [Call.phase_idle idle, at_]
      rw [idle] at nx
      simp only [Reservation.access, Thread.next] at nx
      split at nx <;> cases nx <;> exact ⟨Nat.zero_le _, by rintro ⟨⟩⟩
    · simp only [reserve, Reservation.access, Thread.next, zero reserve, if_true] at nx
      cases nx
      simp [Call.phase, reserve, Phase.rank]
    · exact absurd refused admitted
  | drain at_ drains _ =>
    simp [Code.Placed, at_, alone, Reservation.holds, drains] at pl
  | fail at_ _ | plain at_ _ | enable at_ _ _ | clear at_ _ | initiate at_ _ | done at_ _ | undo at_
  | complete at_ =>
    simp only [Code.Placed, at_] at pl
    exact ⟨(congrArg Phase.rank (held pl _)).ge, admitted⟩
  | @leave o a' p at_ nx =>
    simp only [Code.Placed, at_, alone, Reservation.leaves, decide_eq_true_eq] at pl
    rw [alone] at nx
    rcases pl with holds | finish
    · rw [holds] at nx
      cases nx
      simp [Call.phase, holds, Phase.rank]
    · rw [finish] at nx
      cases nx
      have gone : (code.afterLeaving o).outside = false := by
        rcases code.afterLeaving_cases o with ⟨ec, e, -⟩ | ⟨e, -⟩ | ⟨e, -⟩ <;> rw [e] <;> rfl
      simp [Call.phase, finish, gone, Phase.rank]
  | restore at_ | store at_ =>
    simp only [Code.Placed, at_] at pl
    simp [Call.phase, pl, at_, Stage.outside]

/-- What a step of `safe_shutdown` makes of its stage, with the flag it finds. -/
inductive Shuts (flag : Bool) : Stage → Stage → Prop where
  | isOpen :
    Shuts flag .checking (.entering true)
  | closed :
    Shuts flag .checking (.finished .returned)
  | refused :
    flag = true →
    Shuts flag (.entering true) .polling
  | poll :
    Shuts flag .polling .polling
  | again :
    Shuts flag .polling (.entering false)
  | gaveUp :
    flag = true →
    Shuts flag (.entering false) (.finished .returned)
  | obtained {retry} :
    flag = false →
    Shuts flag (.entering retry) .reserved
  | inside {s s'} :
    s.outside = false → (∀ o, s ≠ .finished o) → s'.outside = false →
    Shuts flag s s'

/-- The work before the blocking call is done with the reservation. -/
lemma Code.prepare_inside {ok : Bool} (at_ : c.stage = .reserved)
    (h : code.prepare me a tls st c ok = some e) : e.call.stage.outside = false := by
  unfold Code.prepare at h
  split at h
  · split at h
    · obtain ⟨⟨a', p⟩, -, rfl⟩ := Option.map_eq_some_iff.mp h
      dsimp only
      rw [at_]
      rfl
    · cases h
      rfl
  · split at h
    · cases h
      rfl
    · split at h <;> cases h <;> rfl
    · cases h
      rfl

/-- Every step of `safe_shutdown` is one of these. -/
lemma safeShutdown_step {choice : Choice} (h : Tcp.safeShutdown.step me a tls st c choice = some e)
    (pl : Tcp.safeShutdown.Placed c) (tls' : c.stage ≠ .tlsCheck) :
    Shuts a.exclusiveOperation c.stage e.call.stage := by
  cases choice with
  | start => cases h
  | complete ec bytes buffer =>
    simp only [Code.step] at h
    split at h
    · rename_i at_
      cases h
      rw [at_]
      exact .inside rfl (fun _ e => by cases e) rfl
    · cases h
  | go ok =>
    simp only [Code.step, Code.go] at h
    split at h
    · rename_i at_
      cases h
      rw [at_]
      cases ok with
      | true => exact .isOpen
      | false => exact .closed
    · rename_i at_
      exact absurd at_ tls'
    · rename_i at_
      cases h
      rw [at_]
      dsimp only
      split
      · exact .again
      · split
        · exact .poll
        · exact .again
    · rename_i retry at_
      obtain ⟨⟨a', p⟩, nx, rfl⟩ := Option.map_eq_some_iff.mp h
      have idle := pl.outside rfl (by rw [at_]; rfl)
      rw [at_]
      simp only [idle, Tcp.safeShutdown, Reservation.access, Thread.next, reduceCtorEq, if_false] at nx
      split at nx
      · rename_i flag
        cases nx
        rw [flag]
        cases retry with
        | true => exact .refused rfl
        | false => exact .gaveUp rfl
      · rename_i flag
        cases nx
        rw [Bool.eq_false_iff.mpr flag]
        exact .obtained rfl
    · rename_i at_
      rw [at_]
      exact .inside rfl (fun _ e => by cases e) (Code.prepare_inside at_ h)
    · rename_i at_
      cases h
      rw [at_]
      refine .inside rfl (fun _ e => by cases e) ?_
      unfold Code.work
      split <;> rfl
    · rename_i o at_
      obtain ⟨⟨a', p⟩, nx, rfl⟩ := Option.map_eq_some_iff.mp h
      rw [at_]
      refine .inside rfl (fun _ e => by cases e) ?_
      dsimp only
      split
      · rcases Tcp.safeShutdown.afterLeaving_cases o with ⟨ec, e, -⟩ | ⟨e, -⟩ | ⟨e, -⟩ <;> rw [e] <;> rfl
      · rfl
    · rename_i at_
      cases h
      rw [at_]
      exact .inside rfl (fun _ e => by cases e) rfl
    · rename_i at_
      cases h
      rw [at_]
      exact .inside rfl (fun _ e => by cases e) rfl
    · cases h

end Step

/-! ## The two together -/

section Both
variable {op : Operation} {h : Host Side Unit} {g : Retry}

/-- The flag is up from the first exchange of the other operation to its store, while `safe_shutdown` is
outside. -/
lemma Under.flag_iff (un : Under (colliding op) (fun _ => .tcp) h) (alone : op.code.reservation = .exclusive)
    (out : (h.calls .shutdown).stage.outside = true) :
    (h.sockets ()).atomics.exclusiveOperation = true ↔
      (h.calls .rival).phase ≠ .ahead ∧ (h.calls .rival).phase ≠ .past := by
  have owned := (Reachable.inv (un.admitted ())).owned .exclusive
  have idle := (un.placed .shutdown).outside rfl out
  rw [← (un.placed .rival).owns_iff alone]
  constructor
  · intro up
    obtain ⟨t, owns⟩ := owned.flag.mp up
    cases t with
    | shutdown => simp [Host.threads, idle, Pc.owns] at owns
    | rival => exact owns
  · intro owns
    exact owned.flag.mpr ⟨.rival, owns⟩

/-- The other operation does not meet a job. -/
lemma Under.no_jobs (un : Under (colliding op) (fun _ => .tcp) h)
    (reserve : (h.calls .rival).pc = .exReserve) : (h.sockets ()).atomics.asyncJobs = 0 := by
  refine (Reachable.inv (un.admitted ())).jobs_eq_zero fun r t counts => ?_
  cases t with
  | shutdown =>
    have places := (un.placed .shutdown).draining rfl
    simp only [Host.threads, colliding, if_true] at counts
    rcases r with d | _ <;> rcases places with e | e | e <;> simp [e, Pc.counts] at counts
  | rival =>
    have at_ : (h.threads (colliding op) ()).pc .rival = .exReserve := reserve
    rw [at_] at counts
    rcases r with d | _ <;> simp [Pc.counts] at counts

/-- What holds of the two at every moment. -/
structure Collides (s : Host Side Unit × Retry) : Prop where
  admitted : (s.1.calls .rival).pc ≠ .exRefused
  tls : (s.1.calls .shutdown).stage ≠ .tlsCheck
  /-- a `safe_shutdown` that waits has met the other operation -/
  waits : (s.1.calls .shutdown).stage = .polling ∨ (s.1.calls .shutdown).stage = .entering false →
    1 ≤ (s.1.calls .rival).phase.rank
  /-- the phases go on between the last load and the second try -/
  seen : (s.1.calls .shutdown).stage = .entering false →
    1 ≤ s.2.seen.rank ∧ s.2.seen.rank ≤ (s.1.calls .rival).phase.rank
  fresh : (s.1.calls .shutdown).stage.outside = true → s.2.obtained = none
  tried : ∀ b, s.2.obtained = some b → (b = true ↔ ¬ s.2.Missed)
  gone : s.2.obtained = some false → (s.1.calls .shutdown).stage = .finished .returned

namespace Collides

/-- A step of the other operation. -/
lemma rival {h' : Host Side Unit} (x : Collides (h, g))
    (same : (h'.calls .shutdown).stage = (h.calls .shutdown).stage)
    (le : (h.calls .rival).phase.rank ≤ (h'.calls .rival).phase.rank)
    (admitted : (h'.calls .rival).pc ≠ .exRefused) : Collides (h', g) where
  admitted := admitted
  tls := by
    rw [same]
    exact x.tls
  waits at_ := by
    rw [same] at at_
    exact (x.waits at_).trans le
  seen at_ := by
    rw [same] at at_
    exact ⟨(x.seen at_).1, (x.seen at_).2.trans le⟩
  fresh out := by
    rw [same] at out
    exact x.fresh out
  tried := x.tried
  gone no := by
    rw [same]
    exact x.gone no

/-- A step of `safe_shutdown` of which nothing is noted. -/
lemma quiet {h' : Host Side Unit} (x : Collides (h, g)) (admitted : (h'.calls .rival).pc ≠ .exRefused)
    (running : ∀ o, (h.calls .shutdown).stage ≠ .finished o)
    (back : (h'.calls .shutdown).stage.outside = true → (h.calls .shutdown).stage.outside = true)
    (tls : (h'.calls .shutdown).stage ≠ .tlsCheck)
    (waits : (h'.calls .shutdown).stage = .polling → 1 ≤ (h'.calls .rival).phase.rank)
    (again : (h'.calls .shutdown).stage ≠ .entering false) : Collides (h', g) where
  admitted := admitted
  tls := tls
  waits at_ := waits (at_.resolve_right again)
  seen at_ := absurd at_ again
  fresh out := x.fresh (back out)
  tried := x.tried
  gone no := absurd (x.gone no) (running _)

/-- A load of `async_jobs`. -/
lemma load {h' : Host Side Unit} (x : Collides (h, g)) (admitted : (h'.calls .rival).pc ≠ .exRefused)
    (phase : (h'.calls .rival).phase = (h.calls .rival).phase)
    (at_ : (h.calls .shutdown).stage = .polling)
    (next : (h'.calls .shutdown).stage = .polling ∨ (h'.calls .shutdown).stage = .entering false) :
    Collides (h', { g with seen := (h.calls .rival).phase }) := by
  have met : 1 ≤ (h'.calls .rival).phase.rank := by
    rw [phase]
    exact x.waits (.inl at_)
  have fresh : g.obtained = none := x.fresh (by rw [at_]; rfl)
  refine ⟨admitted, ?_, fun _ => met, ?_, fun _ => fresh, ?_, ?_⟩
  · rcases next with e | e <;> rw [e] <;> nofun
  · intro _
    rw [phase] at met ⊢
    exact ⟨met, le_rfl⟩
  · intro b tried
    rw [fresh] at tried
    cases tried
  · intro no
    rw [fresh] at no
    cases no

/-- Between the phases at the last load and at the second try: the flag is still up in two cases. -/
lemma up_iff_missed {seen met : Phase} (waits : 1 ≤ seen.rank) (le : seen.rank ≤ met.rank)
    (time : seen ≠ .held ∨ met ≠ .held) :
    (met ≠ .ahead ∧ met ≠ .past) ↔ met = .releasing ∨ seen = .reserving ∧ met ≠ .past := by
  cases seen <;> cases met <;> simp_all [Phase.rank]

/-- The second try. -/
lemma retry {h' : Host Side Unit} {flag : Bool} (x : Collides (h, g))
    (admitted : (h'.calls .rival).pc ≠ .exRefused) (at_ : (h.calls .shutdown).stage = .entering false)
    (up : flag = true ↔ (h.calls .rival).phase ≠ .ahead ∧ (h.calls .rival).phase ≠ .past)
    (time : g.seen ≠ .held ∨ (h.calls .rival).phase ≠ .held)
    (next : (h'.calls .shutdown).stage = if flag then .finished .returned else .reserved) :
    Collides (h', { g with met := (h.calls .rival).phase, obtained := some !flag }) := by
  obtain ⟨waits, le⟩ := x.seen at_
  have missed := up.trans (up_iff_missed waits le time)
  have inside : (h'.calls .shutdown).stage.outside = false := by
    rw [next]
    split <;> rfl
  refine ⟨admitted, ?_, ?_, ?_, ?_, ?_, ?_⟩
  · rw [next]
    split <;> nofun
  · rintro (e | e) <;> rw [e] at inside <;> cases inside
  · intro e
    rw [e] at inside
    cases inside
  · intro out
    rw [inside] at out
    cases out
  · intro b tried
    cases tried
    unfold Retry.Missed
    rw [← missed, Bool.not_eq_true', Bool.not_eq_true]
  · intro no
    have set : flag = true := by simpa using no
    rw [next, set]
    rfl

/-- A step of `safe_shutdown`. -/
lemma shutdown {h' : Host Side Unit} {choice : Choice} {flag : Bool} (x : Collides (h, g))
    (pc : (h'.calls .rival).pc = (h.calls .rival).pc)
    (phase : (h'.calls .rival).phase = (h.calls .rival).phase)
    (up : (h.calls .shutdown).stage.outside = true →
      (flag = true ↔ (h.calls .rival).phase ≠ .ahead ∧ (h.calls .rival).phase ≠ .past))
    (shuts : Shuts flag (h.calls .shutdown).stage (h'.calls .shutdown).stage)
    (time : inTime (h, g) (.shutdown, choice) = true) :
    Collides (h', g.after h (.shutdown, choice) h') := by
  have admitted : (h'.calls .rival).pc ≠ .exRefused := by
    rw [pc]
    exact x.admitted
  unfold inTime at time
  unfold Retry.after
  generalize at_ : (h.calls .shutdown).stage = s at shuts up time
  generalize at' : (h'.calls .shutdown).stage = s' at shuts
  dsimp only at time
  cases shuts with
  | isOpen =>
    refine x.quiet admitted ?_ ?_ ?_ ?_ ?_ <;> simp [at_, at', Stage.outside]
  | closed =>
    refine x.quiet admitted ?_ ?_ ?_ ?_ ?_ <;> simp [at_, at', Stage.outside]
  | refused set =>
    -- the flag is the other operation's
    have met : 1 ≤ (h'.calls .rival).phase.rank := by
      rw [phase]
      obtain ⟨ahead, -⟩ := (up rfl).mp set
      cases e : (h.calls .rival).phase <;> simp_all [Phase.rank]
    refine x.quiet admitted ?_ ?_ ?_ (fun _ => met) ?_ <;> simp [at_, at', Stage.outside]
  | poll => exact x.load admitted phase at_ (.inl at')
  | again => exact x.load admitted phase at_ (.inr at')
  | gaveUp set =>
    have tried := x.retry admitted at_ (up rfl) (by simpa using time) (by rw [at', set]; rfl)
    rwa [set] at tried
  | @obtained retry clear =>
    cases retry with
    | true => refine x.quiet admitted ?_ ?_ ?_ ?_ ?_ <;> simp [at_, at', Stage.outside]
    | false =>
      have tried := x.retry admitted at_ (up rfl) (by simpa using time) (by rw [at', clear]; rfl)
      rwa [clear] at tried
  | inside out running out' =>
    split
    · cases out
    · cases out
    · rw [← at_] at running
      refine x.quiet admitted running ?_ ?_ ?_ ?_
      · intro back
        rw [at', out'] at back
        cases back
      all_goals
        rw [at']
        rintro rfl
        cases out'

lemma init {s : Host Side Unit × Retry} (h0 : (collision op).init s) : Collides s := by
  obtain ⟨h, g⟩ := s
  obtain ⟨⟨-, calls, -⟩, start⟩ := h0
  dsimp only at calls start
  cases start
  refine ⟨?_, ?_, ?_, ?_, ?_, ?_, ?_⟩ <;> simp [calls]

/-- A step of the two. -/
lemma step {s s' : Host Side Unit × Retry} {a : Side × Choice} (x : Collides s)
    (un : Under (colliding op) (fun _ => .tcp) s.1) (alone : op.code.reservation = .exclusive)
    (st : (collision op).next s a = some s') (time : inTime s a = true) : Collides s' := by
  obtain ⟨h, g⟩ := s
  obtain ⟨h', g'⟩ := s'
  obtain ⟨next, note⟩ := System.observe_next.mp st
  dsimp only at next note un
  subst note
  obtain ⟨t, choice⟩ := a
  obtain ⟨-, ⟨first, value, -, rfl⟩ | ⟨e, code, rfl⟩⟩ := operations_next next
  · cases t with
    | shutdown =>
      have note : g.after h (.shutdown, choice) (h.enter (colliding op) .shutdown value) = g := by
        simp only [Retry.after, first]
      rw [note]
      refine x.quiet x.admitted ?_ ?_ ?_ ?_ ?_ <;> simp [Host.enter, first, Stage.outside]
    | rival =>
      have idle := un.placed .rival
      simp only [Code.Placed, first] at idle
      refine x.rival rfl ?_ (by simp [Host.enter])
      rw [Call.phase_idle idle, first]
      exact Nat.zero_le _
  · cases t with
    | shutdown =>
      refine x.shutdown ?_ ?_ (un.flag_iff alone) ?_ time
      · rfl
      · rfl
      · rw [Host.apply_self]
        exact safeShutdown_step code (un.placed .shutdown) x.tls
    | rival =>
      have mv := (Code.step_move code).phase_le (un.placed .rival) alone x.admitted un.no_jobs
      have placed : (h.apply (colliding op) .rival e).calls .rival = e.call := Host.apply_self e
      rw [← placed] at mv
      exact x.rival rfl mv.1 mv.2

end Collides

/-- In every run of a `safe_shutdown` and one exclusive operation in which the completion runs before the
deadline: the second try is admitted if and only if it does not fall between the last two accesses of the
operation, nor did the last load between its first two; and if it is refused the call is over. -/
theorem retry_obtained_iff (op : Operation) (alone : op.code.reservation = .exclusive)
    (s : Host Side Unit × Retry) (run : ((collision op).restrict fun s a => inTime s a = true).Reachable s) :
    (∀ b, s.2.obtained = some b → (b = true ↔ ¬ s.2.Missed)) ∧
      (s.2.obtained = some false → (s.1.calls .shutdown).stage = .finished .returned) := by
  have x : Collides s := by
    induction run with
    | init h0 => exact .init h0
    | step r st ih =>
      obtain ⟨time, st⟩ := System.restrict_next.mp st
      exact ih.step (Under.reachable r.of_restrict.of_observe) alone st time
  exact ⟨x.tried, x.gone⟩

end Both

/-- Nothing has been called. -/
def collidingStart : Host Side Unit where
  sockets _ := {}
  states _ := none
  calls _ := {}

lemma collision_init (op : Operation) : (collision op).init (collidingStart, {}) :=
  ⟨⟨fun _ => rfl, fun _ => rfl, nofun⟩, rfl⟩

/-- A handshake is initiated, and `safe_shutdown` meets it. -/
def meeting : List (Side × Choice) :=
  [(.rival, .start), (.rival, .go true), (.rival, .go true), (.rival, .go true), (.rival, .go true),
    (.rival, .go true), (.rival, .go true),
    (.shutdown, .start), (.shutdown, .go true), (.shutdown, .go true)]

/-- The handler gives back both before `safe_shutdown` looks again. -/
theorem retry_obtained_behind :
    ∃ s, ((collision .asyncConnectSsl).restrict fun s a => inTime s a = true).Reachable s ∧
      s.2.obtained = some true ∧ ¬ s.2.Missed := by
  obtain ⟨s, run, h⟩ := System.Reachable.exists_of_run
    (S := (collision .asyncConnectSsl).restrict fun s a => inTime s a = true) (.init (collision_init _))
    (meeting ++ [(.rival, .complete (some .other) 0 []), (.rival, .go true), (.rival, .go true),
      (.shutdown, .go true), (.shutdown, .go true)])
    (fun s => s.2.obtained = some true) (by decide +kernel)
  have obtained := of_decide_eq_true h
  exact ⟨s, run, obtained, ((retry_obtained_iff _ rfl s run).1 true obtained).mp rfl⟩

/-- `safe_shutdown` looks at the counter and tries again between the two: it returns `false`, and then the
handler clears the flag. -/
theorem retry_missed :
    ∃ s, ((collision .asyncConnectSsl).restrict fun s a => inTime s a = true).Reachable s ∧
      s.2.obtained = some false ∧ (s.1.calls .shutdown).stage = .finished .returned ∧
      (s.1.calls .rival).stage = .finished (.completed (some .other)) := by
  obtain ⟨s, run, h⟩ := System.Reachable.exists_of_run
    (S := (collision .asyncConnectSsl).restrict fun s a => inTime s a = true) (.init (collision_init _))
    (meeting ++ [(.rival, .complete (some .other) 0 []), (.rival, .go true),
      (.shutdown, .go true), (.shutdown, .go true), (.rival, .go true), (.rival, .go true)])
    (fun s => decide (s.2.obtained = some false ∧ (s.1.calls .shutdown).stage = .finished .returned ∧
      (s.1.calls .rival).stage = .finished (.completed (some .other)))) (by decide +kernel)
  exact ⟨s, run, of_decide_eq_true h⟩

end CovNet.Socket
