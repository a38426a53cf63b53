import CovNet.Master.Correlation

/-!
# The dispatch index

`request_idx` splits the queue of a connection: the sessions below it have been handed to a dispatch worker,
those at it or above it have not. The dispatch workers raise it and the response worker lowers it with every
session it takes off the queue. Where the write of a response fails it drops the queue and leaves the index
as it is, so that the index is past every session that comes after (`index_after_failed_write`).

`index_sound_iff` says that this is the only way in which the index goes wrong: at every state of every run
it is sound for a connection if and only if no write of a response has failed there.
-/

namespace CovNet.Master
open Lib Text Http Socket

/-- The index is within the queue, the sessions below it are those that were handed out, and the others have
no response. -/
def IndexSound (m : State) (c : Nat) : Prop :=
  0 ≤ (m.conns c).requestIdx ∧ (m.conns c).requestIdx ≤ (m.conns c).requestQueue.length ∧
    ∀ (i σ : Nat), (m.conns c).requestQueue[i]? = some σ →
      ((i : Int) < (m.conns c).requestIdx ↔ σ ∈ m.handed) ∧
      ((m.conns c).requestIdx ≤ (i : Int) → (m.sessions σ).response = none)

/-- Who has been handed out. -/
structure Handed (m : State) : Prop where
  out : ∀ {c σ}, σ ∈ (m.conns c).line.out → σ ∈ m.handed
  waiting : ∀ {c σ}, σ ∈ (m.conns c).line.waiting → σ ∉ m.handed
  bound : ∀ c, (m.conns c).line.broken = false →
    (m.conns c).line.taken ≤ (m.conns c).line.queue.length
  known : ∀ {σ}, σ ∈ m.handed → σ < m.nextSession

namespace Handed
variable {cfg : Config} {m m' : State} {w c : Nat}

lemma init : Handed {} where
  out mem := by cases mem
  waiting mem := by cases mem
  bound c _ := le_rfl
  known mem := by cases mem

/-- One line changes, and nothing is handed out. -/
lemma reline {conn : HttpConn} (d : Handed m) (conns : m'.conns = Function.update m.conns c conn)
    (handed : m'.handed = m.handed) (next : m.nextSession ≤ m'.nextSession)
    (out : conn.line.out ⊆ (m.conns c).line.out)
    (waiting : ∀ σ ∈ conn.line.waiting, σ ∉ m.handed)
    (bound : conn.line.broken = false → conn.line.taken ≤ conn.line.queue.length) : Handed m' where
  out {e σ} mem := by
    rw [handed]
    rw [conns] at mem
    by_cases eq : e = c
    · subst eq
      rw [Function.update_self] at mem
      exact d.out (out mem)
    · rw [Function.update_of_ne eq] at mem
      exact d.out mem
  waiting {e σ} mem := by
    rw [handed]
    rw [conns] at mem
    by_cases eq : e = c
    · subst eq
      rw [Function.update_self] at mem
      exact waiting σ mem
    · rw [Function.update_of_ne eq] at mem
      exact d.waiting mem
  bound e := by
    rw [conns]
    by_cases eq : e = c
    · subst eq
      rwa [Function.update_self]
    · rw [Function.update_of_ne eq]
      exact d.bound e
  known mem := lt_of_lt_of_le (d.known (handed ▸ mem)) next

/-- The line of a connection stays as it is. -/
lemma touch {conn : HttpConn} (d : Handed m) (conns : m'.conns = Function.update m.conns c conn)
    (line : conn.line = (m.conns c).line) (handed : m'.handed = m.handed)
    (next : m'.nextSession = m.nextSession) : Handed m' := by
  refine d.reline conns handed next.ge ?_ (fun σ mem => ?_) ?_
  · rw [line]
    exact List.Subset.refl _
  · rw [line] at mem
    exact d.waiting mem
  · rw [line]
    exact d.bound c

lemma congr (d : Handed m) (conns : m'.conns = m.conns) (handed : m'.handed = m.handed)
    (next : m'.nextSession = m.nextSession) : Handed m' := by
  refine d.touch (c := 0) ?_ rfl handed next
  rw [conns, Function.update_eq_self]

lemma enqueue {s : Session} (d : Handed m) : Handed (m.enqueue cfg w c s) := by
  have line : ∀ now s', ((m.conns c).push now m.nextSession s').line =
      (m.conns c).line.enqueue m.nextSession := fun _ _ => rfl
  refine d.reline rfl rfl (Nat.le_succ _) ?_ (fun σ mem => ?_) (fun live => ?_)
  · rw [line, Pipeline.out_enqueue (d.bound c)]
    exact List.Subset.refl _
  · rw [line] at mem
    rcases Pipeline.mem_waiting_enqueue mem with old | rfl
    · exact d.waiting old
    · intro mem
      exact Nat.lt_irrefl _ (d.known mem)
  · rw [line] at live ⊢
    have bound := d.bound c live
    simp only [Pipeline.enqueue, List.length_append, List.length_singleton]
    omega

lemma request {p : Parsed} (d : Handed m) (r : Readers m) (h : RequestMove cfg m w p m') :
    Handed m' := by
  cases h with
  | ended _ | scan _ | fault _ => exact d.congr rfl rfl rfl
  | @read c conn list a deadline hand _ _ =>
    have same : Handled (m.conns c) { conn with sock := a } :=
      (r.inHand hand).2.2.2.2.trans ⟨rfl, rfl, rfl, rfl, rfl, rfl, rfl⟩
    exact d.touch rfl same.line rfl rfl
  | raise hand _ => exact d.touch rfl (r.inHand hand).2.2.2.2.line rfl rfl
  | fail hand _ =>
    exact d.touch rfl ((r.inHand hand).2.2.2.2.trans refuse_handles.handled).line rfl rfl
  | enqueue _ _ _ => exact d.enqueue
  | shut h =>
    rcases h with ⟨ok, -, h⟩ | ⟨sh, -, h⟩
    · exact d.touch rfl (shutFor_handles h).handled.line rfl rfl
    · exact d.touch rfl (shutFor_handles h).handled.line rfl rfl

lemma turnsTo {m1 : State} (d : Handed m) (o : Order m) (h : TurnsTo m c m1) : Handed m1 := by
  cases h with
  | pick _ _ _ => exact d
  | paused _ => exact d.congr rfl rfl rfl
  | written writing =>
    have ord := o.ordered_writing writing
    obtain ⟨-, pos⟩ := ord.front rfl
    -- the retired session was handed out, so the index moves along with the queue
    have line : ∀ now, ({ m.conns c with
        requestQueue := (m.conns c).requestQueue.tail
        requestIdx := (m.conns c).requestIdx - 1
        lastRequestTime := now } : HttpConn).line = (m.conns c).line.retire := by
      intro now
      simp only [HttpConn.line, HttpConn.responses, Pipeline.retire, Pipeline.mk.injEq, true_and, and_true]
      omega
    refine d.reline rfl rfl le_rfl ?_ (fun σ mem => ?_) (fun live => ?_)
    · rw [line]
      exact Pipeline.out_retire_subset
    · rw [line, Pipeline.waiting_retire ord.live_of_busy pos] at mem
      exact d.waiting mem
    · rw [line] at live ⊢
      have bound := d.bound c live
      simp only [Pipeline.retire, List.length_tail]
      omega
  | dropped writing =>
    refine d.reline rfl rfl le_rfl (List.nil_subset _) (fun σ mem => ?_) (fun live => ?_)
    · cases mem
    · cases live

lemma serve (d : Handed m) (h : ServeMove m c m') : Handed m' := by
  cases h with
  | pause _ _ | raise _ _ _ | done _ => exact d.congr rfl rfl rfl
  | write _ _ _ => exact d.reline rfl rfl le_rfl (List.Subset.refl _) (fun σ => d.waiting) (d.bound c)
  | close _ _ shuts => exact d.touch rfl (closeFor_spec shuts).1.line rfl rfl

lemma response (d : Handed m) (o : Order m) (h : ResponseMove m m') : Handed m' := by
  cases h with
  | ended _ => exact d.congr rfl rfl rfl
  | idle => exact d
  | serve turns serves => exact (d.turnsTo o turns).serve serves
  | shut _ shuts => exact d.touch rfl (closeFor_spec shuts).1.line rfl rfl

/-- The first session that waits is handed out. -/
lemma take (d : Handed m) (o : Order m) (lt : (m.conns c).requestIdx < (m.conns c).requestQueue.length) :
    Handed (m.take c) := by
  have idx := o.index c
  obtain ⟨σ, first⟩ : ∃ σ, (m.conns c).current = some σ := by
    unfold HttpConn.current
    rw [if_pos idx]
    exact ⟨_, List.getElem?_eq_getElem (by omega)⟩
  obtain ⟨at_idx, live, known⟩ := o.current first
  have line : ((m.take c).conns c).line = (m.conns c).line.take := by
    simp only [State.take, Function.update_self, HttpConn.line, HttpConn.responses, Pipeline.take,
      Pipeline.mk.injEq, true_and, and_true]
    omega
  have other : ∀ {e}, e ≠ c → ((m.take c).conns e).line = (m.conns e).line := by
    intro e ne
    simp only [State.take, Function.update_of_ne ne]
  have handed : (m.take c).handed = m.handed ++ [σ] := by
    simp only [State.take, first, Option.toList_some]
  refine ⟨fun {e τ} mem => ?_, fun {e τ} mem => ?_, fun e alive => ?_, fun {τ} mem => ?_⟩
  · rw [handed]
    by_cases eq : e = c
    · subst eq
      rw [line] at mem
      rcases Pipeline.mem_out_take live at_idx mem with old | rfl
      · exact List.mem_append_left _ (d.out old)
      · exact List.mem_append_right _ List.mem_cons_self
    · rw [other eq] at mem
      exact List.mem_append_left _ (d.out mem)
  · have out := o.sound.not_waiting_of_taken live at_idx e
    -- what still waits waited before, and is not the one handed out
    have old : τ ∈ (m.conns e).line.waiting ∧ τ ≠ σ := by
      by_cases eq : e = c
      · subst eq
        rw [Function.update_self] at out
        rw [line] at mem
        refine ⟨?_, fun same => out (same ▸ mem)⟩
        rw [Pipeline.waiting_eq_cons live at_idx]
        exact List.mem_cons_of_mem _ mem
      · rw [Function.update_of_ne eq] at out
        rw [other eq] at mem
        exact ⟨mem, fun same => out (same ▸ mem)⟩
    rw [handed]
    intro mem
    rcases List.mem_append.mp mem with before | now
    · exact d.waiting old.1 before
    · exact old.2 (List.mem_singleton.mp now)
  · by_cases eq : e = c
    · subst eq
      rw [line]
      show (m.conns e).requestIdx.toNat + 1 ≤ (m.conns e).requestQueue.length
      omega
    · rw [other eq] at alive ⊢
      exact d.bound e alive
  · rw [handed] at mem
    rcases List.mem_append.mp mem with before | now
    · exact d.known before
    · rw [List.mem_singleton.mp now]
      exact known

lemma dispatch (d : Handed m) (o : Order m) (h : DispatchMove cfg m w m') : Handed m' := by
  rcases h.aside with a | ⟨c, -, lt, a⟩
  · exact d.congr a.conns a.handed a.nextSession
  · exact (d.take o lt).congr a.conns a.handed a.nextSession

lemma step {a : Action} (d : Handed m) (r : Readers m) (o : Order m) (h : Move cfg m a m') :
    Handed m' := by
  cases h with
  | tick | stop | accept | spawn | spawned | reply => exact d.congr rfl rfl rfl
  | accepted =>
    refine d.touch rfl ?_ rfl rfl
    rw [r.fresh m.nextConn le_rfl]
    rfl
  | request move => exact d.request r move
  | response move => exact d.response o move
  | dispatch move => exact d.dispatch o move
  | readDone _ | readLate _ | refuseDone _ | responseDone _ => exact d.touch rfl rfl rfl rfl

end Handed

theorem handed_of_reachable {cfg : Config} {m : State} (h : (master cfg).Reachable m) :
    Inv m ∧ Handed m := by
  refine h.invariant (I := fun m => Inv m ∧ Handed m) ?_ ?_
  · rintro _ rfl
    exact ⟨.init, .init⟩
  intro m a m' ⟨i, d⟩ st
  exact ⟨i.step (next_move st), d.step i.readers i.order (next_move st)⟩

/-! ## The index -/

section Sound
variable {m : State} {c : Nat}

/-- The index of a connection that has lost no response splits its queue. -/
lemma index_sound_of_live (o : Order m) (d : Handed m) (live : (m.conns c).failed = false) :
    IndexSound m c := by
  have idx := o.index c
  have bound : (m.conns c).requestIdx.toNat ≤ (m.conns c).requestQueue.length := d.bound c live
  have waits : ∀ {i σ : Nat}, (m.conns c).requestQueue[i]? = some σ →
      (m.conns c).requestIdx ≤ (i : Int) → σ ∈ (m.conns c).line.waiting := by
    intro i σ at_i le
    simp only [Pipeline.waiting, HttpConn.line, live, Bool.false_eq_true, if_false]
    apply List.mem_iff_getElem?.mpr
    refine ⟨i - (m.conns c).requestIdx.toNat, ?_⟩
    rw [List.getElem?_drop, ← at_i]
    congr 1
    omega
  refine ⟨idx, by omega, fun i σ at_i => ⟨⟨fun lt => ?_, fun mem => ?_⟩, fun le => ?_⟩⟩
  · refine d.out (c := c) ?_
    simp only [Pipeline.out, HttpConn.line, live, Bool.false_eq_true, if_false]
    apply List.mem_iff_getElem?.mpr
    refine ⟨i, ?_⟩
    rw [List.getElem?_take_of_lt (by omega), at_i]
  · -- from the index on the sessions wait, and those have not been handed out
    by_contra ge
    exact d.waiting (waits at_i (by omega)) mem
  · exact o.sound.blank (waits at_i le)

/-- After a failed write the index is past every session of the queue, none of which is handed out. -/
lemma not_index_sound_of_failed (o : Order m) (d : Handed m) (lost : (m.conns c).failed = true) :
    ¬ IndexSound m c := by
  obtain ⟨-, -, pos, -, -⟩ := (o.ordered c).rest lost
  have one : 0 < (m.conns c).requestIdx.toNat := pos
  rintro ⟨-, bound, split⟩
  cases queue : (m.conns c).requestQueue with
  | nil =>
    rw [queue, List.length_nil] at bound
    omega
  | cons σ rest =>
    have first : (m.conns c).requestQueue[0]? = some σ := by rw [queue]; rfl
    have handed := (split 0 σ first).1.mp (by omega)
    refine d.waiting (c := c) ?_ handed
    simp [Pipeline.waiting, HttpConn.line, lost, queue]

end Sound

/-- In every state of every run the index of a connection is sound if and only if no write of a response
has failed there. -/
theorem index_sound_iff (cfg : Config) (m : State) (run : (master cfg).Reachable m) (c : Nat) :
    IndexSound m c ↔ (m.conns c).failed = false := by
  obtain ⟨i, d⟩ := handed_of_reachable run
  constructor
  · intro sound
    cases lost : (m.conns c).failed with
    | false => rfl
    | true => exact absurd sound (not_index_sound_of_failed i.order d lost)
  · exact index_sound_of_live i.order d

/-- Two requests are queued, and the first has been handed to a dispatch worker. -/
theorem index_sound_page :
    ∃ m, (master {}).Reachable m ∧ (m.conns 0).requestQueue = [0, 1] ∧ (m.conns 0).requestIdx = 1 ∧
      IndexSound m 0 := by
  obtain ⟨m, run, h⟩ := System.Reachable.exists_of_run (S := master {}) (.init rfl)
    (opening ++ asks (page (bytes "keep-alive")) ++ asks (page (bytes "keep-alive")) ++
      [.dispatch 0 .ok])
    (fun m => decide ((m.conns 0).requestQueue = [0, 1] ∧ (m.conns 0).requestIdx = 1 ∧
      (m.conns 0).failed = false)) (by decide +kernel)
  obtain ⟨queue, idx, live⟩ := of_decide_eq_true h
  exact ⟨m, run, queue, idx, (index_sound_iff {} m run 0).mpr live⟩

/-- The write of a response fails while the next request is being read: the index is past that request,
which is never handed out. -/
theorem index_after_failed_write :
    ¬ ∀ (cfg : Config) (m : State), (master cfg).Reachable m → ∀ c, IndexSound m c := by
  intro claim
  obtain ⟨m, run, h⟩ := System.Reachable.exists_of_run (S := master {}) (.init rfl)
    (opening ++ asks (page (bytes "keep-alive")) ++ answers (bytes "HTTP/1.1 200 OK") ++
      [.response, .request 0 .more, .responseDone false, .response, .readDone 0 .ok,
        .request 0 (.session (page (bytes "keep-alive")))])
    (fun m => decide ((m.conns 0).requestQueue = [1] ∧ (m.conns 0).requestIdx = 1 ∧ 1 ∉ m.handed))
    (by decide +kernel)
  obtain ⟨queue, idx, out⟩ := of_decide_eq_true h
  obtain ⟨-, -, split⟩ := claim {} m run 0
  refine out ((split 0 1 ?_).1.mp ?_)
  · rw [queue]
    rfl
  · rw [idx]
    decide

end CovNet.Master
