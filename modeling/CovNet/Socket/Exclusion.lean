import CovNet.Lib.Owner
import CovNet.Socket.Admission

/-!
# Admission is mutually exclusive

Every interleaving of the atomic accesses keeps the sections and jobs of a socket apart
(`admission_exclusive`). There are three resources: the two direction flags and
`exclusive_operation`. `Pc.owns` lists the places at which a thread has set a resource's flag and
not yet cleared it, `Pc.counts` those at which it has a share in `async_jobs`.

What one access can do is said once, by the relation `Access`; `Access.owner` and `Access.count`
read off it how the flags and the counter change. The invariant `Inv` then follows from the rules
for unique owners: every flag is set exactly while one thread owns it, the counter is the number of
counted threads (at most three), and no admitted job meets a held exclusive section or a drained
one. The last clause is the handshake of the source: a job is counted before it looks at
`exclusive_operation` again, and a section sets `exclusive_operation` before it looks at the
counter.
-/

namespace CovNet.Socket
open CovNet.Lib

/-- What a thread can own: a direction flag or `exclusive_operation`. -/
inductive Resource where
  | io (d : IoDirection)
  | exclusive
  deriving DecidableEq, Repr

/-- The flag of a resource. -/
def Atomics.flag (a : Atomics) : Resource → Bool
  | .io d => a.operation d
  | .exclusive => a.exclusiveOperation

/-- Set the flag of a resource. -/
def Atomics.setFlag (a : Atomics) (b : Bool) : Resource → Atomics
  | .io d => a.setOperation b d
  | .exclusive => a.setExclusive b

@[simp] lemma Atomics.flag_setFlag (a : Atomics) (b : Bool) (r r' : Resource) :
    (a.setFlag b r).flag r' = if r' = r then b else a.flag r' := by
  rcases r with (_ | _) | _ <;> rcases r' with (_ | _) | _ <;> rfl

@[simp] lemma Atomics.flag_addJob (a : Atomics) (r : Resource) : a.addJob.flag r = a.flag r := by
  rcases r with (_ | _) | _ <;> rfl

@[simp] lemma Atomics.flag_subJob (a : Atomics) (r : Resource) : a.subJob.flag r = a.flag r := by
  rcases r with (_ | _) | _ <;> rfl

@[simp] lemma Atomics.asyncJobs_setFlag (a : Atomics) (b : Bool) (r : Resource) :
    (a.setFlag b r).asyncJobs = a.asyncJobs := by
  rcases r with (_ | _) | _ <;> rfl

/-- The places at which a thread owns the flag of a resource. -/
def Pc.owns : Resource → Pc → Prop
  | .io d, p =>
    p = .ioLoad d ∨ p = .ioAdd d ∨ p = .ioRecheck d ∨ p = .ioUndo d ∨ p = .ioRefused d ∨
      p = .ioAdmitted d ∨ p = .ioFinish d
  | .exclusive, p =>
    p = .exReserve ∨ p = .exRefused ∨ p = .exHeld ∨ p = .exFinish ∨ p = .draining ∨ p = .drained

/-- The places at which a thread has a share in `async_jobs`. -/
def Pc.counts : Resource → Pc → Prop
  | .io d, p => p = .ioRecheck d ∨ p = .ioUndo d ∨ p = .ioAdmitted d
  | .exclusive, p => p = .exHeld

/-- The accesses that take one from `async_jobs`. -/
def Instr.subtracts : Instr → Bool
  | .undoJob | .finishJob | .releaseJobs => true
  | _ => false

/-- What one access can do, with the guard it has passed. -/
inductive Access : Atomics → Pc → Instr → Atomics → Pc → Prop where
  | busy {a i} :
    i.subtracts = false →
    Access a .idle i a .idle
  | beginIo {a d} :
    a.flag (.io d) = false →
    Access a .idle (.beginIo d) (a.setFlag true (.io d)) (.ioLoad d)
  | loadSet {a d} :
    Access a (.ioLoad d) .loadExclusive a (.ioRefused d)
  | loadClear {a d} :
    Access a (.ioLoad d) .loadExclusive a (.ioAdd d)
  | addJob {a d} :
    Access a (.ioAdd d) .addJob a.addJob (.ioRecheck d)
  | reloadSet {a d} :
    Access a (.ioRecheck d) .reloadExclusive a (.ioUndo d)
  | reloadClear {a d} :
    a.flag .exclusive = false →
    Access a (.ioRecheck d) .reloadExclusive a (.ioAdmitted d)
  | undoJob {a d} :
    Access a (.ioUndo d) .undoJob a.subJob (.ioRefused d)
  | dropOperation {a d} :
    Access a (.ioRefused d) .dropOperation (a.setFlag false (.io d)) .idle
  | finishJob {a d} :
    Access a (.ioAdmitted d) .finishJob a.subJob (.ioFinish d)
  | clearOperation {a d} :
    Access a (.ioFinish d) .clearOperation (a.setFlag false (.io d)) .idle
  | beginExclusive {a} :
    a.flag .exclusive = false →
    Access a .idle .beginExclusive (a.setFlag true .exclusive) .exReserve
  | reserveJobs {a} :
    a.asyncJobs = 0 →
    Access a .exReserve .reserveJobs a.addJob .exHeld
  | reserveBusy {a} :
    Access a .exReserve .reserveJobs a .exRefused
  | dropExclusive {a} :
    Access a .exRefused .dropExclusive (a.setFlag false .exclusive) .idle
  | releaseJobs {a} :
    Access a .exHeld .releaseJobs a.subJob .exFinish
  | clearExclusive {a} :
    Access a .exFinish .clearExclusive (a.setFlag false .exclusive) .idle
  | beginDraining {a} :
    a.flag .exclusive = false →
    Access a .idle .beginDraining (a.setFlag true .exclusive) .draining
  | pollZero {a} :
    a.asyncJobs = 0 →
    Access a .draining .pollJobs a .drained
  | pollBusy {a} :
    Access a .draining .pollJobs a .draining
  | giveUp {a} :
    Access a .draining .endDraining (a.setFlag false .exclusive) .idle
  | endDraining {a} :
    Access a .drained .endDraining (a.setFlag false .exclusive) .idle

section Next
variable {k : Kind} {a a' : Atomics} {p p' : Pc} {i : Instr}

/-- Every access of the source is one of the listed ones. -/
lemma Thread.next_access (st : Thread.next k a p i = some (a', p')) : Access a p i a' p' := by
  unfold Thread.next at st
  split at st
  case h_1 =>
    split at st <;> cases st
    · exact .busy rfl
    · exact .beginIo (Bool.eq_false_iff.mpr ‹_›)
  case h_2 =>
    split at st <;> cases st
    · exact .loadSet
    · exact .loadClear
  case h_3 => cases st; exact .addJob
  case h_4 =>
    split at st <;> cases st
    · exact .reloadSet
    · exact .reloadClear (Bool.eq_false_iff.mpr ‹_›)
  case h_5 => cases st; exact .undoJob
  case h_6 => cases st; exact .dropOperation
  case h_7 => cases st; exact .finishJob
  case h_8 => cases st; exact .clearOperation
  case h_9 =>
    split at st <;> cases st
    · exact .busy rfl
    · exact .beginExclusive (Bool.eq_false_iff.mpr ‹_›)
  case h_10 =>
    split at st <;> cases st
    · rename_i zero
      have e : a.addJob = { a with asyncJobs := 1 } := by simp [Atomics.addJob, zero]
      rw [← e]
      exact .reserveJobs zero
    · exact .reserveBusy
  case h_11 => cases st; exact .dropExclusive
  case h_12 => cases st; exact .releaseJobs
  case h_13 => cases st; exact .clearExclusive
  case h_14 =>
    split at st
    · cases st
    · split at st <;> cases st
      · exact .busy rfl
      · exact .beginDraining (Bool.eq_false_iff.mpr ‹_›)
  case h_15 =>
    split at st <;> cases st
    · exact .pollZero ‹_›
    · exact .pollBusy
  case h_16 => cases st; exact .giveUp
  case h_17 => cases st; exact .endDraining
  case h_18 => cases st

/-- What a move does to one resource: nothing, the mover takes it free, or it gives it back. -/
def OwnerMove (held held' : Bool) (own own' : Prop) : Prop :=
  (held' = held ∧ (own' ↔ own)) ∨ (held = false ∧ held' = true ∧ own') ∨
    (own ∧ held' = false ∧ ¬ own')

lemma OwnerMove.owned {ι P : Type*} [DecidableEq ι] {O : P → Prop} {b b' : Bool} {pc : ι → P}
    {t : ι} {p : P} (mv : OwnerMove b b' (O (pc t)) (O p)) (ow : Owned O b pc) :
    Owned O b' (Function.update pc t p) := by
  rcases mv with ⟨rfl, same⟩ | ⟨rfl, rfl, own'⟩ | ⟨own, rfl, no'⟩
  · exact ow.keep same
  · exact ow.acquire own'
  · exact ow.release own no'

/-- A flag changes only when its owner takes it or gives it back. -/
lemma Access.owner (ac : Access a p i a' p') (r : Resource) :
    OwnerMove (a.flag r) (a'.flag r) (p.owns r) (p'.owns r) := by
  unfold OwnerMove
  cases ac <;> rcases r with d' | _ <;> simp_all [Pc.owns] <;> grind

/-- The counter changes only together with one thread's share in it. -/
inductive CountMove (a : Atomics) (p : Pc) (i : Instr) (a' : Atomics) (p' : Pc) : Prop where
  | same :
    i.subtracts = false →
    a'.asyncJobs = a.asyncJobs →
    (∀ r, p'.counts r ↔ p.counts r) →
    CountMove a p i a' p'
  | add (r : Resource) :
    i.subtracts = false →
    a'.asyncJobs = a.addJob.asyncJobs →
    p.owns r → ¬ p.counts r → p'.counts r →
    (∀ r', r' ≠ r → (p'.counts r' ↔ p.counts r')) →
    CountMove a p i a' p'
  | sub (r : Resource) :
    a'.asyncJobs = a.subJob.asyncJobs →
    p.counts r → ¬ p'.counts r →
    (∀ r', r' ≠ r → (p'.counts r' ↔ p.counts r')) →
    CountMove a p i a' p'

lemma Access.count (ac : Access a p i a' p') : CountMove a p i a' p' := by
  cases ac
  case addJob d =>
    refine .add (.io d) rfl rfl (by simp [Pc.owns]) (by simp [Pc.counts]) (by simp [Pc.counts]) ?_
    rintro (d' | _) ne <;> simp_all [Pc.counts, eq_comm]
  case reserveJobs _ =>
    refine .add .exclusive rfl rfl (by simp [Pc.owns]) (by simp [Pc.counts]) (by simp [Pc.counts]) ?_
    rintro (d' | _) ne <;> simp_all [Pc.counts]
  case undoJob d =>
    refine .sub (.io d) rfl (by simp [Pc.counts]) (by simp [Pc.counts]) ?_
    rintro (d' | _) ne <;> simp_all [Pc.counts, eq_comm]
  case finishJob d =>
    refine .sub (.io d) rfl (by simp [Pc.counts]) (by simp [Pc.counts]) ?_
    rintro (d' | _) ne <;> simp_all [Pc.counts, eq_comm]
  case releaseJobs =>
    refine .sub .exclusive rfl (by simp [Pc.counts]) (by simp [Pc.counts]) ?_
    rintro (d' | _) ne <;> simp_all [Pc.counts]
  case busy sub => exact .same sub rfl fun _ => Iff.rfl
  all_goals
    refine .same rfl (by simp) ?_
    rintro (d' | _) <;> simp [Pc.counts]

/-- A job is admitted, a section held or drained, only past the handshake. -/
lemma Access.enter (ac : Access a p i a' p') :
    (∀ d, p' = .ioAdmitted d → p.counts (.io d) ∧ a.flag .exclusive = false) ∧
    (p' = .exHeld ∨ p' = .drained → a.asyncJobs = 0) := by
  cases ac <;> simp_all [Pc.counts]

end Next

/-- A counted thread owns the flag of what it is counted for. -/
lemma Pc.counts.owns {r : Resource} {p : Pc} (h : p.counts r) : p.owns r := by
  cases r with
  | io d => rcases h with rfl | rfl | rfl <;> simp [Pc.owns]
  | exclusive => cases h; simp [Pc.owns]

/-- The jobs that the counter stands for. -/
def jobCount (c : Resource → Bool) : Nat :=
  (c (.io .read)).toNat + (c (.io .write)).toNat + (c .exclusive).toNat

lemma jobCount_set {c : Resource → Bool} {r : Resource} {b : Bool} :
    jobCount (Function.update c r b) + (c r).toNat = jobCount c + b.toNat := by
  unfold jobCount
  rcases r with (_ | _) | _ <;> simp <;> omega

lemma jobCount_le (c : Resource → Bool) : jobCount c ≤ 3 := by
  have h := Bool.toNat_le (c (.io .read))
  have h' := Bool.toNat_le (c (.io .write))
  have h'' := Bool.toNat_le (c .exclusive)
  unfold jobCount
  omega

/-- What holds of a socket at every moment. -/
structure Inv {ι : Type*} (s : World ι) : Prop where
  /-- a flag is set exactly while one thread owns it -/
  owned : ∀ r, Owned (Pc.owns r) (s.atomics.flag r) s.pc
  /-- the counter is the number of counted threads -/
  counted : ∃ c, (∀ r, Owned (Pc.counts r) (c r) s.pc) ∧ s.atomics.asyncJobs = jobCount c
  /-- no admitted job meets a held or a drained section -/
  apart : ∀ t u d, s.pc t = .exHeld ∨ s.pc t = .drained → s.pc u ≠ .ioAdmitted d

section Run
variable {ι : Type*} [DecidableEq ι] {k : Kind} {s s' : World ι}

/-- Nothing is owned or counted at the start. -/
lemma Inv.init (h : (admission k ι).init s) : Inv s := by
  cases h
  refine ⟨?_, ⟨fun _ => false, ?_, rfl⟩, ?_⟩
  · rintro (d | _)
    · cases d <;> exact .init fun _ => by simp [Pc.owns]
    · exact .init fun _ => by simp [Pc.owns]
  · rintro (d | _) <;> exact .init fun _ => by simp [Pc.counts]
  · intro t u d h
    simp at h

omit [DecidableEq ι] in
/-- A counter of 0 leaves nobody counted. -/
lemma Inv.not_counts (inv : Inv s) (zero : s.atomics.asyncJobs = 0) (r : Resource) (t : ι) :
    ¬ (s.pc t).counts r := by
  intro h
  obtain ⟨c, own, e⟩ := inv.counted
  have set := (own r).of_holder h
  have le : (c r).toNat ≤ jobCount c := by
    unfold jobCount
    rcases r with (_ | _) | _ <;> omega
  simp only [set, Bool.toNat_true] at le
  omega

omit [DecidableEq ι] in
/-- The counter is 0 when nobody is counted. -/
lemma Inv.jobs_eq_zero (inv : Inv s) (nobody : ∀ r t, ¬ (s.pc t).counts r) : s.atomics.asyncJobs = 0 := by
  obtain ⟨c, own, e⟩ := inv.counted
  have free : ∀ r, c r = false := by
    intro r
    by_contra set
    obtain ⟨t, yes⟩ := (own r).flag.mp (by simpa using set)
    exact nobody r t yes
  simp [e, jobCount, free]

/-- The counter follows the shares of the moving thread. -/
lemma Inv.counted_step {t : ι} {i : Instr} {a' : Atomics} {p' : Pc} (inv : Inv s)
    (mv : CountMove s.atomics (s.pc t) i a' p') :
    ∃ c, (∀ r, Owned (Pc.counts r) (c r) (Function.update s.pc t p')) ∧
      a'.asyncJobs = jobCount c := by
  obtain ⟨c, own, e⟩ := inv.counted
  have le := jobCount_le c
  have others : ∀ {r : Resource} {b : Bool},
      Owned (Pc.counts r) b (Function.update s.pc t p') →
      (∀ r', r' ≠ r → (p'.counts r' ↔ (s.pc t).counts r')) →
      ∀ r', Owned (Pc.counts r') (Function.update c r b r') (Function.update s.pc t p') := by
    intro r b ow same r'
    by_cases er : r' = r
    · subst er
      simpa using ow
    · rw [Function.update_of_ne er]
      exact (own r').keep (same r' er)
  cases mv with
  | same _ ej same => exact ⟨c, fun r => (own r).keep (same r), ej.trans e⟩
  | add r _ ej owns no yes same =>
    -- nobody else is counted for `r`: that thread would own it too
    have free : c r = false := by
      by_contra set
      obtain ⟨u, hu⟩ := (own r).flag.mp (by simpa using set)
      have eu := (inv.owned r).uniq hu.owns owns
      subst eu
      exact no hu
    have ow : Owned (Pc.counts r) false s.pc := free ▸ own r
    refine ⟨Function.update c r true, others (ow.acquire yes) same, ?_⟩
    have set := jobCount_set (c := c) (r := r) (b := true)
    simp only [free, Bool.toNat_false, Bool.toNat_true] at set
    rw [ej, Atomics.addJob]
    simp only
    omega
  | sub r ej yes no same =>
    have set := (own r).of_holder yes
    refine ⟨Function.update c r false, others ((own r).release yes no) same, ?_⟩
    have cnt := jobCount_set (c := c) (r := r) (b := false)
    simp only [set, Bool.toNat_false, Bool.toNat_true] at cnt
    rw [ej, Atomics.subJob]
    simp only
    split <;> omega

/-- One access keeps the invariant. -/
lemma Inv.step {e : ι × Instr} (inv : Inv s) (st : (admission k ι).next s e = some s') :
    Inv s' := by
  obtain ⟨t, i⟩ := e
  obtain ⟨a', p', nx, rfl⟩ := admission_next.mp st
  have ac := Thread.next_access nx
  refine ⟨fun r => (ac.owner r).owned (inv.owned r), inv.counted_step ac.count, ?_⟩
  obtain ⟨jobs, enter⟩ := ac.enter
  intro u v d hu hv
  dsimp only at hu hv
  by_cases ev : v = t
  · -- the mover is admitted: it saw `exclusive_operation` clear, so no section is open
    subst ev
    rw [Function.update_self] at hv
    obtain ⟨cnt, clear⟩ := jobs d hv
    have ne : u ≠ v := by
      rintro rfl
      rw [Function.update_self, hv] at hu
      simp at hu
    rw [Function.update_of_ne ne] at hu
    have own : (s.pc u).owns .exclusive := by rcases hu with h | h <;> simp [h, Pc.owns]
    have set := (inv.owned .exclusive).of_holder own
    simp [clear] at set
  · rw [Function.update_of_ne ev] at hv
    by_cases eu : u = t
    · -- the mover enters its section: it saw the counter at 0, so no job is admitted
      subst eu
      rw [Function.update_self] at hu
      exact inv.not_counts (enter hu) (.io d) v (by simp [hv, Pc.counts])
    · rw [Function.update_of_ne eu] at hu
      exact inv.apart u v d hu hv

lemma Reachable.inv (r : (admission k ι).Reachable s) : Inv s :=
  r.invariant (fun _ => Inv.init) fun _ _ _ => Inv.step

/-- In every reachable state of a TCP or a UDP socket, however many threads use it: one exclusive
or draining section at most, one admitted job per direction at most, no admitted job together with
a held exclusive section or a drained one, and no `fetch_sub` on a counter at 0. -/
theorem admission_exclusive (r : (admission k ι).Reachable s) :
    (∀ t u, (s.pc t).owns .exclusive → (s.pc u).owns .exclusive → t = u) ∧
    (∀ d t u, s.pc t = .ioAdmitted d → s.pc u = .ioAdmitted d → t = u) ∧
    (∀ t u d, s.pc t = .exHeld ∨ s.pc t = .drained → s.pc u ≠ .ioAdmitted d) ∧
    (∀ t i a p, i.subtracts = true → Thread.next k s.atomics (s.pc t) i = some (a, p) →
      a.asyncJobs + 1 = s.atomics.asyncJobs) := by
  have inv := Reachable.inv r
  refine ⟨?_, ?_, inv.apart, ?_⟩
  · intro t u
    exact (inv.owned .exclusive).uniq
  · intro d t u ht hu
    exact (inv.owned (.io d)).uniq (by simp [ht, Pc.owns]) (by simp [hu, Pc.owns])
  · intro t i a p sub nx
    cases (Thread.next_access nx).count with
    | same no => simp [no] at sub
    | add _ no => simp [no] at sub
    | sub q ej yes =>
      have pos : s.atomics.asyncJobs ≠ 0 := fun zero => inv.not_counts zero q t yes
      rw [ej, Atomics.subJob]
      simp only [pos, if_false]
      omega

end Run

/-- Thread 0 has a write admitted, thread 1 has opened a draining section and seen it counted. -/
theorem admission_exclusive_draining :
    ∃ s : World Nat, (admission .tcp Nat).Reachable s ∧ s.pc 0 = .ioAdmitted .write ∧
      s.pc 1 = .draining ∧
      (∀ t u d, s.pc t = .exHeld ∨ s.pc t = .drained → s.pc u ≠ .ioAdmitted d) := by
  have reach : (admission .tcp Nat).Reachable _ :=
    System.Reachable.run (.init rfl)
      [(0, .beginIo .write), (0, .loadExclusive), (0, .addJob), (0, .reloadExclusive),
        (1, .beginDraining), (1, .pollJobs)] rfl
  exact ⟨_, reach, rfl, rfl, (admission_exclusive reach).2.2.1⟩

end CovNet.Socket
