import CovNet.Socket.Calls

/-!
# Reservations are given back

Whatever fails, an operation that has ended has given back what it reserved, and one that failed has
changed nothing (`operations_released`). TLS changes hands only under an exclusive reservation, which
one call holds at a time, so a `connect_ssl` can undo what it did (`Secured`). The fields of a
`state_type` are written by the one call that has it for itself: a `read_until` finds nobody else
with its state once it has passed its check, and what it puts back is what it had found (`Turns`).
-/

namespace CovNet.Socket
open CovNet.Lib CovNet.Text

variable {ι κ : Type*}

section Step
variable {code : Code} {me : ι} {a : Atomics} {tls : Tls ι} {st : StateType} {c : Call ι}
  {e : Effect ι}

/-! ## TLS -/

/-- The outcomes of an operation that failed. -/
def Outcome.failed : Outcome → Bool
  | .returned => false
  | .threw => true
  | .completed ec => ec.isSome

/-- What `connect_ssl` knows of the TLS state of its socket, from its start on. As long as it has not
turned TLS on, and when it has failed, the TLS state is what the other calls made of it. -/
def Code.Secure (code : Code) (me : ι) (tls : Tls ι) (c : Call ι) : Prop :=
  code.tls = .enable →
    match c.stage with
    | .unstarted => True
    | .checking | .tlsCheck | .polling | .entering _ | .restoring => tls = c.tlsElse
    | .reserved => tls = c.tlsElse ∧ tls = c.tlsAt
    | .working | .pending => tls = .on me ∧ c.tlsElse = .off ∧ c.tlsAt = .off
    | .leaving o => o.failed = true → tls = c.tlsElse ∧ tls = c.tlsAt
    | .storing ec => ec.isSome = true → tls = c.tlsElse
    | .finished o => o.failed = true → tls = c.tlsElse

/-- The stages at which a call has turned TLS on and has not failed. -/
def Stage.secured : Stage → Bool
  | .working | .pending => true
  | .leaving o | .finished o => !o.failed
  | .storing ec => !ec.isSome
  | _ => false

/-- A step leaves the TLS state as the stage of its call says. -/
lemma Move.secure (mv : Move code me a tls st c e) (h : code.Secure me tls c)
    (off : tls.stream = none → tls = .off) : code.Secure me (e.tls.getD tls) e.call := by
  intro en
  have h := h en
  cases mv with
  | @pass s before early _ =>
    have same : tls = c.tlsElse := by
      cases at_ : c.stage <;> simp_all [Stage.before]
    cases s <;> simp_all [Stage.early]
  | giveUp before _ =>
    have same : tls = c.tlsElse := by
      cases at_ : c.stage <;> simp_all [Stage.before]
    exact fun _ => same
  | @enter retry a' p at_ nx =>
    simp only [at_] at h
    by_cases idle : p = .idle
    · subst idle
      cases retry
      · exact fun _ => h
      · exact h
    · by_cases held : code.reservation.holds p = true
      · simp only [Code.entered, idle, held, if_true, if_false, Option.getD_none]
        exact ⟨h, trivial⟩
      · simp only [Code.entered, idle, held, if_false, Option.getD_none]
        exact h
  | drain at_ _ _ =>
    simp only [at_] at h ⊢
    exact h
  | fail at_ _ =>
    simp only [at_] at h
    exact fun _ => h
  | plain _ none => simp [none] at en
  | enable at_ _ absent =>
    simp only [at_] at h
    obtain ⟨same, found⟩ := h
    have clear := off absent
    exact ⟨rfl, same.symm.trans clear, found.symm.trans clear⟩
  | clear _ clear => simp [clear] at en
  | initiate at_ _ =>
    simp only [at_] at h
    exact h
  | done at_ _ => exact fun failed => by simp [Outcome.failed] at failed
  | undo at_ =>
    simp only [at_] at h
    simp only [en, if_true, Option.getD_some]
    exact fun _ => ⟨h.2.1.symm, h.2.2.symm⟩
  | @complete ec _ _ at_ =>
    simp only [at_] at h
    intro failed
    have some : ec.isSome = true := failed
    simp only [en, some, and_self, if_true, Option.getD_some]
    exact ⟨h.2.1.symm, h.2.2.symm⟩
  | @leave o a' p at_ nx =>
    simp only [at_] at h
    by_cases idle : p = .idle
    · subst idle
      simp only [if_true, Option.getD_none]
      rcases code.afterLeaving_cases o with ⟨ec, e, eo⟩ | ⟨e, eo, -⟩ | ⟨e, -⟩
      · rw [e]
        subst eo
        exact fun failed => (h failed).1
      · rw [e]
        subst eo
        exact (h rfl).1
      · rw [e]
        exact fun failed => (h failed).1
    · simp only [idle, if_false, Option.getD_none]
      exact h
  | restore at_ =>
    simp only [at_] at h
    exact fun _ => h
  | store at_ =>
    simp only [at_] at h
    exact h

/-- A step that writes the TLS state is one of an operation that uses TLS and holds its
reservation. -/
lemma Move.tls_written {x : Tls ι} (mv : Move code me a tls st c e) (w : e.tls = some x) :
    code.tls ≠ .none ∧ (c.stage = .reserved ∨ c.stage = .working ∨ c.stage = .pending) := by
  cases mv with
  | enable at_ en _ => exact ⟨by simp [en], .inl at_⟩
  | clear at_ cl => exact ⟨by simp [cl], .inl at_⟩
  | undo at_ =>
    refine ⟨?_, .inr (.inl at_)⟩
    intro no
    simp [no] at w
  | complete at_ =>
    refine ⟨?_, .inr (.inr at_)⟩
    intro no
    simp [no] at w
  | _ => cases w

/-- After a step TLS is off, or on by the call that made it, which has not failed. -/
lemma Move.creator (mv : Move code me a tls st c e) :
    (e.tls = none ∧ (code.tls = .enable → c.stage.secured = true → e.call.stage.secured = true)) ∨
      e.tls = some .off ∨
      (e.tls = some (.on me) ∧ code.tls = .enable ∧ e.call.stage.secured = true) := by
  cases mv with
  | @pass s before _ _ =>
    refine .inl ⟨rfl, fun _ sec => ?_⟩
    cases at_ : c.stage <;> simp_all [Stage.before, Stage.secured]
  | giveUp before _ =>
    refine .inl ⟨rfl, fun _ sec => ?_⟩
    cases at_ : c.stage <;> simp_all [Stage.before, Stage.secured]
  | enter at_ _ => exact .inl ⟨rfl, fun _ sec => by simp [at_, Stage.secured] at sec⟩
  | drain at_ _ _ => exact .inl ⟨rfl, fun _ sec => by simp [at_, Stage.secured] at sec⟩
  | fail at_ _ => exact .inl ⟨rfl, fun _ sec => by simp [at_, Stage.secured] at sec⟩
  | plain at_ _ => exact .inl ⟨rfl, fun _ sec => by simp [at_, Stage.secured] at sec⟩
  | enable _ en _ => exact .inr (.inr ⟨rfl, en, rfl⟩)
  | clear _ _ => exact .inr (.inl rfl)
  | initiate _ _ => exact .inl ⟨rfl, fun _ _ => rfl⟩
  | done _ _ => exact .inl ⟨rfl, fun _ _ => rfl⟩
  | undo _ =>
    by_cases en : code.tls = .enable
    · exact .inr (.inl (if_pos en))
    · exact .inl ⟨if_neg en, fun yes => absurd yes en⟩
  | @complete ec _ _ _ =>
    by_cases both : code.tls = .enable ∧ ec.isSome = true
    · exact .inr (.inl (if_pos both))
    · refine .inl ⟨if_neg both, fun en _ => ?_⟩
      have none : ec.isSome = false := by simpa [en] using both
      simp [Stage.secured, Outcome.failed, none]
  | @leave o a' p at_ _ =>
    refine .inl ⟨rfl, fun _ sec => ?_⟩
    have ok : o.failed = false := by simpa [at_, Stage.secured] using sec
    by_cases idle : p = .idle
    · simp only [idle, if_true]
      rcases code.afterLeaving_cases o with ⟨ec, e, eo⟩ | ⟨-, eo, -⟩ | ⟨e, -⟩
      · subst eo
        rw [e]
        simpa [Stage.secured, Outcome.failed] using ok
      · simp [eo, Outcome.failed] at ok
      · rw [e]
        simp [Stage.secured, ok]
    · simp only [idle, if_false]
      simp [Stage.secured, ok]
  | restore at_ => exact .inl ⟨rfl, fun _ sec => by simp [at_, Stage.secured] at sec⟩
  | store at_ =>
    refine .inl ⟨rfl, fun _ sec => ?_⟩
    simpa [at_, Stage.secured, Outcome.failed] using sec

/-! ## The state of an asynchronous operation -/

/-- The stages at which an asynchronous operation has its state for itself. -/
def Code.active (code : Code) : Stage → Bool
  | .unstarted | .finished _ => false
  | .checking => !code.again
  | _ => true

/-- Started and not done, as the script sees a state. -/
def StateType.Busy (st : StateType) : Prop := st.init = true ∧ st.hasDone = false

/-- What an asynchronous operation knows of its state. A `read_until` that has written nothing, or
has put back what it wrote, finds it as the other calls left it. -/
def Code.Tidy (code : Code) (st : StateType) (c : Call ι) : Prop :=
  code.async = true →
    match c.stage with
    | .unstarted => True
    | .checking | .tlsCheck | .polling | .entering _ | .reserved =>
      if code.again then st = c.stateElse else st.Busy
    | .working => st.Busy ∧ (code.again = true → c.previous.restore st = c.stateElse)
    | .pending | .leaving (.completed _) | .storing _ => st.Busy
    | .leaving _ | .restoring => code.again = true → c.previous.restore st = c.stateElse
    | .finished o => code.again = true → o = .threw → st = c.stateElse

/-- What `read_until` relies on to put back no more than it wrote. -/
structure Code.Reads (code : Code) : Prop where
  async : code.async = true
  reservation : code.reservation = .io .read
  tls : code.tls = .none
  failure : code.failure = .threw

/-- Putting back what was read before `beginRead` undoes it. -/
lemma StateType.restore_beginRead : st.restore st.beginRead = st := rfl

lemma StateType.beginRead_busy : st.beginRead.Busy := ⟨rfl, rfl⟩

/-- A handler leaves the state started and not done until its last store. -/
lemma StateType.Busy.handle {ec : Option Async.ErrorCode} {bytes : Nat} {buffer : Bytes}
    (h : st.Busy) : (code.handle ec bytes buffer st).Busy := by
  unfold Code.handle
  split <;> exact h

/-- A step leaves the state as the stage of its call says. -/
lemma Move.tidy (mv : Move code me a tls st c e) (placed : code.Placed c)
    (reads : code.again = true → code.Reads) (h : code.Tidy st c) :
    code.Tidy (e.write st) e.call := by
  intro async
  have h := h async
  cases mv with
  | @pass s before early _ =>
    have own : if code.again = true then st = c.stateElse else st.Busy := by
      cases at_ : c.stage <;> simp_all [Stage.before]
    cases s <;> simp_all [Stage.early]
  | giveUp before _ =>
    have own : if code.again = true then st = c.stateElse else st.Busy := by
      cases at_ : c.stage <;> simp_all [Stage.before]
    intro again _
    rw [if_pos again] at own
    exact own
  | @enter retry a' p at_ nx =>
    simp only [at_] at h
    by_cases idle : p = .idle
    · subst idle
      cases retry
      · intro again _
        rw [if_pos again] at h
        exact h
      · exact h
    · by_cases held : code.reservation.holds p = true
      · simp only [Code.entered, idle, held, if_true, if_false]
        exact h
      · simp only [Code.entered, idle, held, if_false]
        exact h
  | drain at_ _ _ =>
    simp only [at_] at h ⊢
    exact h
  | fail at_ other =>
    -- `read_until` cannot fail here: it neither drains nor turns TLS on
    have no : code.again = false := by
      by_contra yes
      have rd := reads (by simpa using yes)
      simp only [Code.Placed, at_, rd.reservation, Reservation.holds, decide_eq_true_eq] at placed
      rcases other with drains | en
      · simp [drains] at placed
      · simp [rd.tls] at en
    simp only [at_, no] at h
    cases ef : code.failure with
    | completed ec => exact h
    | returned => simp [no]
    | threw => simp [no]
  | plain at_ _ =>
    simp only [at_] at h
    cases again : code.again with
    | true =>
      simp only [again, if_true] at h ⊢
      exact ⟨StateType.beginRead_busy, fun _ => StateType.restore_beginRead.trans h⟩
    | false =>
      simp only [again] at h ⊢
      exact ⟨h, fun no => absurd no (by simp)⟩
  | enable at_ en _ =>
    have no : code.again = false := by
      by_contra yes
      simp [(reads (by simpa using yes)).tls] at en
    simp only [at_, no] at h
    exact ⟨h, fun yes => by simp [no] at yes⟩
  | clear at_ cl =>
    have no : code.again = false := by
      by_contra yes
      simp [(reads (by simpa using yes)).tls] at cl
    simp only [at_, no] at h
    exact ⟨h, fun yes => by simp [no] at yes⟩
  | initiate at_ _ =>
    simp only [at_] at h
    exact h.1
  | done at_ sync => simp [sync] at async
  | undo at_ =>
    simp only [at_] at h
    cases ef : code.failure with
    | completed ec => exact h.1
    | returned => exact h.2
    | threw => exact h.2
  | complete at_ =>
    simp only [at_] at h
    exact h.handle
  | @leave o a' p at_ nx =>
    simp only [at_] at h
    by_cases idle : p = .idle
    · subst idle
      simp only [if_true]
      rcases code.afterLeaving_cases o with ⟨ec, e, eo⟩ | ⟨e, eo, -⟩ | ⟨e, no, -⟩
      · subst eo
        rw [e]
        exact h
      · subst eo
        rw [e]
        exact h
      · rw [e]
        intro again threw
        rw [no threw] at again
        cases again
    · simp only [idle, if_false]
      cases o <;> exact h
  | restore at_ =>
    simp only [at_] at h
    exact fun again _ => h again
  | store at_ => exact fun _ no => by cases no

/-- Only a call that has its state for itself writes to it. -/
lemma Move.state_written (mv : Move code me a tls st c e) :
    e.write = id ∨ code.active c.stage = true := by
  cases mv with
  | plain at_ _ => exact .inr (by rw [at_]; rfl)
  | complete at_ => exact .inr (by rw [at_]; rfl)
  | restore at_ => exact .inr (by rw [at_]; rfl)
  | store at_ => exact .inr (by rw [at_]; rfl)
  | _ => exact .inl rfl

/-- A call gets its state for itself by a check of it. -/
lemma Move.active (mv : Move code me a tls st c e) (h : code.active e.call.stage = true) :
    code.active c.stage = true ∨
      (c.stage = .checking ∧ code.again = true ∧ (st.init = true → st.hasDone = true)) := by
  cases mv with
  | pass before _ ready =>
    cases at_ : c.stage <;> simp_all [Stage.before, Code.active]
    cases again : code.again <;> simp_all
  | giveUp _ _ => cases h
  | enter at_ _ => exact .inl (by rw [at_]; rfl)
  | drain at_ _ _ => exact .inl (by rw [at_]; rfl)
  | fail at_ _ => exact .inl (by rw [at_]; rfl)
  | plain at_ _ => exact .inl (by rw [at_]; rfl)
  | enable at_ _ _ => exact .inl (by rw [at_]; rfl)
  | clear at_ _ => exact .inl (by rw [at_]; rfl)
  | initiate at_ _ => exact .inl (by rw [at_]; rfl)
  | done at_ _ => exact .inl (by rw [at_]; rfl)
  | undo at_ => exact .inl (by rw [at_]; rfl)
  | complete at_ => exact .inl (by rw [at_]; rfl)
  | leave at_ _ => exact .inl (by rw [at_]; rfl)
  | restore at_ => exact .inl (by rw [at_]; rfl)
  | store at_ => exact .inl (by rw [at_]; rfl)

/-- A call that moves has started, and one that runs afterwards ran before. -/
lemma Move.running (mv : Move code me a tls st c e) :
    c.stage ≠ .unstarted ∧ (e.call.stage.running = true → c.stage.running = true) := by
  cases mv with
  | pass before _ _ => cases at_ : c.stage <;> simp_all [Stage.before, Stage.running]
  | giveUp before _ => cases at_ : c.stage <;> simp_all [Stage.before, Stage.running]
  | complete at_ => simp [at_, Stage.running]
  | store at_ => simp [at_, Stage.running]
  | @leave o a' p at_ _ =>
    refine ⟨by simp [at_], ?_⟩
    rw [at_]
    cases o with
    | completed ec =>
      by_cases idle : p = .idle <;> simp [idle, Code.afterLeaving, Stage.running]
    | returned => exact fun _ => rfl
    | threw => exact fun _ => rfl
  | drain at_ _ _ => simp [at_]
  | enter at_ _ => simp [at_, Stage.running]
  | fail at_ _ => simp [at_, Stage.running]
  | plain at_ _ => simp [at_, Stage.running]
  | enable at_ _ _ => simp [at_, Stage.running]
  | clear at_ _ => simp [at_, Stage.running]
  | initiate at_ _ => simp [at_, Stage.running]
  | done at_ _ => simp [at_, Stage.running]
  | undo at_ => simp [at_, Stage.running]
  | restore at_ => simp [at_, Stage.running]

/-- Between its return and its last store a handler keeps its state started and not done. -/
lemma Code.Tidy.busy (h : code.Tidy st c) (async : code.async = true)
    (active : code.active c.stage = true) (returned : c.stage.running = false) : st.Busy := by
  have h := h async
  cases at_ : c.stage with
  | leaving o => cases o <;> simp_all [Stage.running]
  | _ => simp_all [Stage.running, Code.active]

/-- What others write to its state does not disturb a call that has not got it for itself. -/
lemma Code.Tidy.follow {x : Tls ι} (h : code.Tidy st c) (f : StateType → StateType)
    (apart : f = id ∨ code.active c.stage = false) :
    code.Tidy (f st) { c with tlsElse := x, stateElse := f c.stateElse } := by
  rcases apart with rfl | passive
  · exact h
  · intro async
    have h := h async
    cases at_ : c.stage <;> simp_all [Code.active]

end Step

section Host
variable [DecidableEq ι] [DecidableEq κ] {job : ι → Job κ} {kind : κ → Kind} {h h' : Host ι κ}
  {t : ι} {choice : Choice}

/-! ## Any number of calls -/

/-- What holds of the TLS states. -/
structure Secured (job : ι → Job κ) (h : Host ι κ) : Prop where
  /-- TLS is off, or on by a `connect_ssl` that has not failed -/
  whole : ∀ k, (h.sockets k).tls = .off ∨ ∃ t, (h.sockets k).tls = .on t ∧ (job t).sock = k ∧
    (job t).code.tls = .enable ∧ (h.calls t).stage.secured = true
  /-- every `connect_ssl` finds it as its stage says -/
  secure : ∀ t, (job t).code.Secure t (h.sockets (job t).sock).tls (h.calls t)

lemma Secured.init (h0 : (operations job kind).init h) : Secured job h := by
  obtain ⟨sockets, calls, -⟩ := h0
  refine ⟨fun k => .inl (by rw [sockets]), fun t _ => ?_⟩
  rw [calls]
  trivial

omit [DecidableEq κ] in
/-- The start of a call writes nothing to a socket. -/
lemma Secured.enter (sec : Secured job h) (first : (h.calls t).stage = .unstarted)
    (value : StateType) : Secured job (h.enter job t value) := by
  refine ⟨?_, ?_⟩
  · intro k
    rcases sec.whole k with off | ⟨u, on, at_, en, yes⟩
    · exact .inl off
    · have ne : u ≠ t := by
        rintro rfl
        simp [first, Stage.secured] at yes
      refine .inr ⟨u, on, at_, en, ?_⟩
      simpa [Host.enter, Function.update_of_ne ne] using yes
  · intro u
    by_cases eu : u = t
    · subst eu
      intro _
      simp [Host.enter]
    · have old := sec.secure u
      simpa [Host.enter, Function.update_of_ne eu] using old

/-- A move keeps the TLS state of its socket in order. -/
lemma Secured.apply {e : Effect ι} (un : Under job kind h) (sec : Secured job h)
    (mv : Move (job t).code t (h.sockets (job t).sock).atomics (h.sockets (job t).sock).tls
      (h.value job t) (h.calls t) e) : Secured job (h.apply job t e) := by
  refine ⟨?_, ?_⟩
  · intro k
    by_cases ek : k = (job t).sock
    · subst ek
      simp only [Host.apply, Function.update_self]
      rcases mv.creator with ⟨none, keeps⟩ | off | ⟨on, en, yes⟩
      · rw [none, Option.getD_none]
        rcases sec.whole (job t).sock with off | ⟨u, on, at_, en, yes⟩
        · exact .inl off
        · refine .inr ⟨u, on, at_, en, ?_⟩
          by_cases eu : u = t
          · subst eu
            rw [if_pos rfl]
            exact keeps en yes
          · rw [if_neg eu]
            exact yes
      · exact .inl (by rw [off, Option.getD_some])
      · exact .inr ⟨t, by rw [on, Option.getD_some], rfl, en, by rw [if_pos rfl]; exact yes⟩
    · simp only [Host.apply, Function.update_of_ne ek]
      rcases sec.whole k with off | ⟨u, on, at_, en, yes⟩
      · exact .inl off
      · have ne : u ≠ t := by
          rintro rfl
          exact ek at_.symm
        exact .inr ⟨u, on, at_, en, by rw [if_neg ne]; exact yes⟩
  · intro u
    have old := sec.secure u
    by_cases eu : u = t
    · subst eu
      rw [Host.apply_self]
      simp only [Host.apply, Function.update_self]
      refine mv.secure old ?_
      intro absent
      rcases sec.whole (job u).sock with off | ⟨v, on, -⟩
      · exact off
      · simp [on, Tls.on] at absent
    · by_cases es : (job u).sock = (job t).sock
      · cases w : e.tls with
        | none =>
          simp only [Host.apply, if_neg eu, es, w, Option.getD_none, Function.update_self, if_true]
          rw [es] at old
          exact old
        | some x =>
          obtain ⟨uses, held⟩ := mv.tls_written w
          simp only [Host.apply, if_neg eu, es, w, Option.getD_some, Function.update_self, if_true]
          intro en
          have old := old en
          -- a call that holds its reservation would be the one that writes
          have apart : ¬ ((h.calls u).stage = .reserved ∨ (h.calls u).stage = .working ∨
              (h.calls u).stage = .pending ∨ ∃ o, (h.calls u).stage = .leaving o) := fun held' =>
            eu (un.alone es uses (by simp [en])
              (held.imp_right fun w => w.imp_right .inl) held')
          cases at_ : (h.calls u).stage <;> simp_all
      · simp only [Host.apply, if_neg eu, if_neg es, Function.update_of_ne es]
        exact old

lemma Secured.reachable (r : (operations job kind).Reachable h) : Secured job h := by
  induction r with
  | init h0 => exact .init h0
  | @step s e s' r st ih =>
    obtain ⟨u, choice⟩ := e
    obtain ⟨-, ⟨first, value, -, rfl⟩ | ⟨e, mv, rfl⟩⟩ := operations_step st
    · exact ih.enter first value
    · exact ih.apply (Under.reachable r) mv

/-- The operation that goes on with a state undoes what it wrote. -/
lemma Operation.reads (o : Operation) (h : o.code.again = true) : o.code.Reads := by
  cases o <;> first | exact ⟨rfl, rfl, rfl, rfl⟩ | cases h

/-- What holds of the states. -/
structure Turns (job : ι → Job κ) (h : Host ι κ) : Prop where
  /-- a state is there once its call has started, and in use until it has returned -/
  made : ∀ t, (job t).code.async = true → (h.calls t).stage ≠ .unstarted →
    ∃ cell, h.states (job t).state = some cell ∧
      ((h.calls t).stage.running = true → cell.inUse = true)
  /-- one call runs with a state at a time -/
  turn : ∀ t u, (job t).code.async = true → (job u).code.async = true →
    (job t).state = (job u).state → (h.calls t).stage.running = true →
    (h.calls u).stage.running = true → t = u
  /-- one call has a state for itself at a time -/
  alone : ∀ t u, (job t).code.async = true → (job u).code.async = true →
    (job t).state = (job u).state → (job t).code.active (h.calls t).stage = true →
    (job u).code.active (h.calls u).stage = true → t = u
  /-- every call finds its state as its stage says -/
  tidy : ∀ t, (job t).code.Tidy (h.value job t) (h.calls t)

lemma Turns.init (h0 : (operations job kind).init h) : Turns job h := by
  obtain ⟨-, calls, -⟩ := h0
  refine ⟨?_, ?_, ?_, ?_⟩
  · intro t _ started
    simp [calls] at started
  · intro t u _ _ _ running
    simp [calls, Stage.running] at running
  · intro t u _ _ _ active
    simp [calls, Code.active] at active
  · intro t _
    rw [calls]
    trivial

omit [DecidableEq κ] in
/-- A call that starts gets a state that no other call runs with; a new one is nobody else's. -/
lemma Turns.enter {value : StateType} (tu : Turns job h) (first : (h.calls t).stage = .unstarted)
    (starts : Starts job h t value) : Turns job (h.enter job t value) := by
  have self : (h.enter job t value).calls t =
      { stage := .checking, tlsElse := (h.sockets (job t).sock).tls, stateElse := value } := by
    simp [Host.enter]
  have other : ∀ u, u ≠ t → (h.enter job t value).calls u = h.calls u := by
    intro u ne
    simp [Host.enter, Function.update_of_ne ne]
  -- nobody else runs with the state
  have free : ∀ u, u ≠ t → (job t).code.async = true → (job u).code.async = true →
      (job t).state = (job u).state → (h.calls u).stage.running = false := by
    intro u ne async async' same
    by_contra run
    have running : (h.calls u).stage.running = true := by simpa using run
    obtain ⟨cell, there, used⟩ := tu.made u async' (by
      intro un
      simp [un, Stage.running] at running)
    cases starts with
    | sync sync => simp [sync] at async
    | fresh _ _ absent => simp [← same, absent] at there
    | again _ _ present =>
      rw [← same, present] at there
      cases there
      exact absurd (used running) (by simp)
  refine ⟨?_, ?_, ?_, ?_⟩
  · intro u async started
    by_cases eu : u = t
    · subst eu
      exact ⟨⟨value, true⟩, by simp [Host.enter, async], fun _ => rfl⟩
    · rw [other u eu] at started ⊢
      obtain ⟨cell, there, used⟩ := tu.made u async started
      by_cases es : (job t).code.async = true ∧ (job t).state = (job u).state
      · refine ⟨⟨value, true⟩, by simp [Host.enter, es.1, es.2], fun _ => rfl⟩
      · refine ⟨cell, ?_, used⟩
        by_cases async' : (job t).code.async = true
        · have ne : (job u).state ≠ (job t).state := fun e => es ⟨async', e.symm⟩
          simpa [Host.enter, async', Function.update_of_ne ne] using there
        · simpa [Host.enter, async'] using there
  · intro u v async async' same running running'
    by_cases eu : u = t <;> by_cases ev : v = t
    · rw [eu, ev]
    · subst eu
      rw [other v ev, free v ev async async' same] at running'
      cases running'
    · subst ev
      rw [other u eu, free u eu async' async same.symm] at running
      cases running
    · rw [other u eu] at running
      rw [other v ev] at running'
      exact tu.turn u v async async' same running running'
  · -- a new state is in the hands of the call that makes it
    have new : (job t).code.active .checking = true → ∀ v, v ≠ t → (job v).code.async = true →
        (job t).code.async = true → (job t).state = (job v).state →
        (job v).code.active (h.calls v).stage = false := by
      intro active v ne async' async same
      by_contra act
      obtain ⟨cell, there, -⟩ := tu.made v async' (by
        intro un
        simp [un, Code.active] at act)
      cases starts with
      | sync sync => simp [sync] at async
      | fresh _ _ absent => simp [← same, absent] at there
      | again _ again _ => simp [Code.active, again] at active
    intro u v async async' same active active'
    by_cases eu : u = t <;> by_cases ev : v = t
    · rw [eu, ev]
    · subst eu
      rw [self] at active
      rw [other v ev, new active v ev async' async same] at active'
      cases active'
    · subst ev
      rw [self] at active'
      rw [other u eu, new active' u eu async async' same.symm] at active
      cases active
    · rw [other u eu] at active
      rw [other v ev] at active'
      exact tu.alone u v async async' same active active'
  · intro u
    by_cases eu : u = t
    · subst eu
      rw [self]
      intro async
      cases starts with
      | sync sync => simp [sync] at async
      | fresh _ new _ =>
        simp only [Host.value, Host.enter, async, new, if_true, Function.update_self]
        exact ⟨rfl, rfl⟩
      | again _ again _ =>
        simp only [Host.value, Host.enter, async, again, if_true, Function.update_self]
    · rw [other u eu]
      intro async
      by_cases un : (h.calls u).stage = .unstarted
      · rw [un]
        trivial
      · obtain ⟨cell, there, -⟩ := tu.made u async un
        have same : (h.enter job t value).value job u = h.value job u := by
          by_cases es : (job t).code.async = true ∧ (job u).state = (job t).state
          · cases starts with
            | sync sync => simp [sync] at es
            | fresh _ _ absent => simp [es.2, absent] at there
            | again _ _ present => simp [Host.value, Host.enter, es.1, es.2, present]
          · by_cases async' : (job t).code.async = true
            · have ne : (job u).state ≠ (job t).state := fun e => es ⟨async', e⟩
              simp [Host.value, Host.enter, async', Function.update_of_ne ne]
            · simp [Host.value, Host.enter, async']
        rw [same]
        exact tu.tidy u async

/-- The state of a call after a move: written to if it is the state of the mover. -/
lemma Host.value_apply {e : Effect ι} {u : ι} (there : ∃ cell, h.states (job u).state = some cell) :
    (h.apply job t e).value job u =
      if (job t).code.async = true ∧ (job u).state = (job t).state then e.write (h.value job u)
      else h.value job u := by
  obtain ⟨cell, there⟩ := there
  by_cases async : (job t).code.async = true
  · by_cases es : (job u).state = (job t).state
    · rw [es] at there
      simp [Host.value, Host.apply, async, es, there, Cell.apply]
    · simp [Host.value, Host.apply, async, es]
  · simp [Host.value, Host.apply, async]

/-- A move keeps the states in the hands of one call each. -/
lemma Turns.apply {e : Effect ι} (un : Under job kind h) (tu : Turns job h)
    (mv : Move (job t).code t (h.sockets (job t).sock).atomics (h.sockets (job t).sock).tls
      (h.value job t) (h.calls t) e) : Turns job (h.apply job t e) := by
  obtain ⟨started, ran⟩ := mv.running
  have other : ∀ u, u ≠ t → ((h.apply job t e).calls u).stage = (h.calls u).stage := by
    intro u ne
    simp [Host.apply, ne]
  refine ⟨?_, ?_, ?_, ?_⟩
  · intro u async st
    have st' : (h.calls u).stage ≠ .unstarted := by
      by_cases eu : u = t
      · subst eu
        exact started
      · rwa [other u eu] at st
    obtain ⟨cell, there, used⟩ := tu.made u async st'
    by_cases es : (job t).code.async = true ∧ (job u).state = (job t).state
    · refine ⟨Cell.apply (h.calls t).stage e cell, ?_, ?_⟩
      · rw [es.2] at there
        simp [Host.apply, es.1, es.2, there]
      · intro running
        by_cases eu : u = t
        · subst eu
          rw [Host.apply_self] at running
          simp [Cell.apply, ran running, running]
        · rw [other u eu] at running
          have still : (h.calls t).stage.running = false := by
            by_contra run
            exact eu (tu.turn u t async es.1 es.2 running (by simpa using run))
          simp [Cell.apply, still, used running]
    · refine ⟨cell, ?_, ?_⟩
      · by_cases async' : (job t).code.async = true
        · have ne : (job u).state ≠ (job t).state := fun e => es ⟨async', e⟩
          simpa [Host.apply, async', Function.update_of_ne ne] using there
        · simpa [Host.apply, async'] using there
      · intro running
        by_cases eu : u = t
        · subst eu
          exact absurd ⟨async, rfl⟩ es
        · rw [other u eu] at running
          exact used running
  · have before : ∀ u, ((h.apply job t e).calls u).stage.running = true →
        (h.calls u).stage.running = true := by
      intro u running
      by_cases eu : u = t
      · subst eu
        rw [Host.apply_self] at running
        exact ran running
      · rwa [other u eu] at running
    intro u v async async' same running running'
    exact tu.turn u v async async' same (before u running) (before v running')
  · -- a call that gets its state for itself has found nobody else with it
    have gains : (job t).code.async = true → (job t).code.active e.call.stage = true →
        ∀ u, u ≠ t → (job u).code.async = true → (job t).state = (job u).state →
        (job u).code.active (h.calls u).stage = false := by
      intro async active u ne async' same
      by_contra act
      have act : (job u).code.active (h.calls u).stage = true := by simpa using act
      rcases mv.active active with was | ⟨checks, -, ready⟩
      · exact ne (tu.alone u t async' async same.symm act was)
      · cases running : (h.calls u).stage.running with
        | true =>
          exact ne (tu.turn u t async' async same.symm running (by rw [checks]; rfl))
        | false =>
          obtain ⟨init, undone⟩ := (tu.tidy u).busy async' act running
          have value : h.value job u = h.value job t := by simp [Host.value, same]
          rw [value] at init undone
          simp [ready init] at undone
    intro u v async async' same active active'
    by_cases eu : u = t <;> by_cases ev : v = t
    · rw [eu, ev]
    · subst eu
      rw [Host.apply_self] at active
      rw [other v ev, gains async active v ev async' same] at active'
      cases active'
    · subst ev
      rw [Host.apply_self] at active'
      rw [other u eu, gains async' active' u eu async same.symm] at active
      cases active
    · rw [other u eu] at active
      rw [other v ev] at active'
      exact tu.alone u v async async' same active active'
  · intro u async
    by_cases eu : u = t
    · subst eu
      obtain ⟨cell, there, -⟩ := tu.made u async started
      have value : (h.apply job u e).value job u = e.write (h.value job u) := by
        rw [Host.value_apply ⟨cell, there⟩, if_pos ⟨async, rfl⟩]
      rw [Host.apply_self, value]
      exact mv.tidy (un.placed u) (Operation.reads _) (tu.tidy u) async
    · by_cases first : (h.calls u).stage = .unstarted
      · rw [other u eu, first]
        trivial
      · obtain ⟨cell, there, -⟩ := tu.made u async first
        rw [Host.value_apply ⟨cell, there⟩]
        by_cases es : (job t).code.async = true ∧ (job u).state = (job t).state
        · simp only [Host.apply, if_neg eu, if_pos es]
          refine (tu.tidy u).follow (x := .off) e.write ?_ async
          -- two calls do not have the state for themselves
          refine mv.state_written.imp_right fun act => ?_
          by_contra act'
          exact eu (tu.alone u t async es.1 es.2 (by simpa using act') act)
        · simp only [Host.apply, if_neg eu, if_neg es]
          exact (tu.tidy u).follow (x := .off) id (.inl rfl) async

lemma Turns.reachable (r : (operations job kind).Reachable h) : Turns job h := by
  induction r with
  | init h0 => exact .init h0
  | @step s e s' r st ih =>
    obtain ⟨u, choice⟩ := e
    obtain ⟨-, ⟨first, value, starts, rfl⟩ | ⟨e, mv, rfl⟩⟩ := operations_step st
    · exact ih.enter first starts
    · exact ih.apply (Under.reachable r) mv

/-- However any number of calls interleave and wherever they fail, on any number of sockets: a socket
on which every call that was started has ended has its flags down and its counter at 0; a
`connect_ssl` that fails gives its reservation up with the TLS state it had found, and leaves the
state the other calls made, with no stream of its own; and a `read_until` that throws leaves its
state as the other calls made it. -/
theorem operations_released (r : (operations job kind).Reachable h) :
    (∀ k, (∀ t, (job t).sock = k →
        (h.calls t).stage = .unstarted ∨ ∃ o, (h.calls t).stage = .finished o) →
      (h.sockets k).atomics.exclusiveOperation = false ∧
        (h.sockets k).atomics.readOperation = false ∧
        (h.sockets k).atomics.writeOperation = false ∧ (h.sockets k).atomics.asyncJobs = 0) ∧
    (∀ t o, (job t).operation = .connectSsl ∨ (job t).operation = .asyncConnectSsl →
      o.failed = true →
        ((h.calls t).stage = .leaving o → (h.sockets (job t).sock).tls = (h.calls t).tlsAt) ∧
        ((h.calls t).stage = .finished o →
          (h.sockets (job t).sock).tls = (h.calls t).tlsElse ∧
            (h.sockets (job t).sock).tls.stream ≠ some t)) ∧
    (∀ t, (job t).operation = .asyncReadUntil → (h.calls t).stage = .finished .threw →
      h.value job t = (h.calls t).stateElse) := by
  have un := Under.reachable r
  have sec := Secured.reachable r
  refine ⟨?_, ?_, ?_⟩
  · intro k ended
    have idle : ∀ t, (h.threads job k).pc t = .idle := by
      intro t
      by_cases at_ : (job t).sock = k
      · have pl := un.placed t
        unfold Code.Placed at pl
        rcases ended t at_ with e | ⟨o, e⟩ <;> rw [e] at pl <;> simpa [Host.threads, at_] using pl
      · simp [Host.threads, at_]
    have clear : (h.sockets k).atomics = {} :=
      (Reachable.inv (un.admitted k)).released idle
    rw [clear]
    exact ⟨rfl, rfl, rfl, rfl⟩
  · intro t o which failed
    have en : (job t).code.tls = .enable := by
      rcases which with e | e <;> rw [Job.code, e] <;> rfl
    have se := sec.secure t en
    refine ⟨?_, ?_⟩
    · intro leaving
      rw [leaving] at se
      exact (se failed).2
    · intro finished
      rw [finished] at se
      refine ⟨se failed, ?_⟩
      intro own
      rcases sec.whole (job t).sock with off | ⟨u, on, -, -, yes⟩
      · rw [off] at own
        cases own
      · rw [on] at own
        cases own
        simp [finished, Stage.secured, failed] at yes
  · intro t which threw
    have again : (job t).code.again = true := by rw [Job.code, which]; rfl
    have ti := (Turns.reachable r).tidy t (Operation.reads _ again).async
    rw [threw] at ti
    exact ti again rfl

end Host

/-- A handshake, and two reads with one state. -/
def failing : Fin 3 → Job Unit
  | 0 => ⟨.asyncConnectSsl, (), 1⟩
  | 1 => ⟨.asyncReadUntil, (), 0⟩
  | 2 => ⟨.asyncReadUntil, (), 0⟩

/-- A state made with `create_async_state` and an unused socket. -/
def failingStart : Host (Fin 3) Unit where
  sockets _ := {}
  states n := if n = 0 then some ⟨.new, false⟩ else none
  calls _ := {}

/-- The first read meets the handshake and is refused, the handshake completes with an error, and the
second read is admitted but asio throws. -/
def failingRun : List (Fin 3 × Choice) :=
  [(0, .start), (0, .go true), (0, .go true), (0, .go true), (0, .go true), (0, .go true),
    (0, .go true),
    (1, .start), (1, .go true), (1, .go true), (1, .go true), (1, .go true),
    (0, .complete (some .other) 0 []), (0, .go true), (0, .go true), (0, .go true),
    (2, .start), (2, .go true), (2, .go true), (2, .go true), (2, .go true), (2, .go true),
    (2, .go true), (2, .go false), (2, .go true), (2, .go true), (2, .go true)]

/-- All three fail, and nothing of them is left. -/
theorem operations_released_failing :
    ∃ h, (operations failing fun _ => .tcp).Reachable h ∧
      (h.calls 0).stage = .finished (.completed (some .other)) ∧
      (∀ t, t ≠ 0 → (h.calls t).stage = .finished .threw) ∧
      (h.sockets ()).atomics.exclusiveOperation = false ∧
      (h.sockets ()).atomics.asyncJobs = 0 ∧
      (h.sockets ()).tls = (h.calls 0).tlsElse ∧
      ∀ t, t ≠ 0 → h.value failing t = (h.calls t).stateElse := by
  have start : (operations failing fun _ => .tcp).init failingStart := by
    refine ⟨fun _ => rfl, fun _ => rfl, ?_⟩
    intro n cell made
    simp only [failingStart, Option.ite_none_right_eq_some, Option.some.injEq] at made
    exact made.2.symm
  obtain ⟨h, reach, ends⟩ := System.Reachable.exists_of_run (.init start) failingRun
    (fun h => decide ((h.calls 0).stage = .finished (.completed (some .other)) ∧
      ∀ t, t ≠ 0 → (h.calls t).stage = .finished .threw)) (by decide +kernel)
  obtain ⟨first, others⟩ := of_decide_eq_true ends
  have reads : ∀ t, t ≠ 0 → (failing t).operation = .asyncReadUntil := by decide
  obtain ⟨free, tls, state⟩ := operations_released reach
  obtain ⟨exclusive, -, -, jobs⟩ := free () fun t _ => by
    by_cases e : t = 0
    · exact .inr ⟨_, e ▸ first⟩
    · exact .inr ⟨_, others t e⟩
  refine ⟨h, reach, first, others, exclusive, jobs, ?_, ?_⟩
  · exact ((tls 0 _ (.inr rfl) rfl).2 first).1
  · exact fun t ne => state t (reads t ne) (others t ne)

end CovNet.Socket
