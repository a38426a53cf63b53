import CovNet.Workers.Steps

/-!
# The workers serve every connection by itself

The fibers of a server share the acceptor, the flag of `stop` and the time, and come to their turns in any order.
`served_alone` says that this shows on no connection: what is answered on it is what one `simple_worker` answers that
has the connection to itself, and the server at most stops it in front of some request. `connections_owned` says who
has which connection at any time.
-/

namespace CovNet.Workers
open Lib Text Http Async

/-! ## One connection -/

/-- These are the answers to the first requests of a connection, which was kept behind each. -/
inductive Along (service : Service) (sock0 : Socket) : Nat → List Answer → Socket → Async.State → Prop where
  | new :
    Along service sock0 0 [] sock0 .new
  | turn {n given sock st answer sock' st'} :
    Along service sock0 n given sock st →
    Turn service n sock st answer sock' st' →
    answer.fate = .kept →
    Along service sock0 (n + 1) (given ++ [answer]) sock' st'

section Connection
variable {service : Service} {setup : Setup} {sock0 sock sock' : Socket} {st st' : Async.State} {n k : Nat}
  {given : List Answer} {answer : Answer} {stopped : Bool}

lemma Along.length (a : Along service sock0 n given sock st) : given.length = n := by
  induction a with
  | new => rfl
  | turn _ _ _ ih => rw [List.length_append, ih, List.length_singleton]

lemma Along.kept (a : Along service sock0 n given sock st) : ∀ answer ∈ given, answer.fate = .kept := by
  induction a with
  | new => nofun
  | turn _ _ kept ih =>
    intro answer mem
    rcases List.mem_append.mp mem with mem | mem
    · exact ih answer mem
    · rw [List.mem_singleton.mp mem]
      exact kept

/-- A connection is not kept behind the last request it may have. -/
lemma forceClose_of_kept {count : Nat} {request : Session} (made : service.answer count request = some answer)
    (kept : answer.fate = .kept) : service.forceClose count = false := by
  obtain ⟨served, -, rfl⟩ := Option.map_eq_some_iff.mp made
  cases last : service.forceClose count with
  | false => rfl
  | true =>
    simp only [Service.fate, last] at kept
    split at kept
    · cases kept
    split at kept
    · cases kept
    split at kept <;> cases kept

lemma Along.lt (a : Along service sock0 n given sock st) (pos : 0 < service.maxKeepAlive) :
    n < service.maxKeepAlive := by
  cases a with
  | new => exact pos
  | turn _ turn kept => exact Nat.lt_of_not_le (of_decide_eq_false (forceClose_of_kept turn.made kept))

/-- The loop goes on behind them. -/
lemma Along.loop (a : Along service sock0 n given sock st) (turns : Nat) :
    service.requestLoop (n + turns) 0 sock0 .new = given ++ service.requestLoop turns n sock st := by
  induction a generalizing turns with
  | new => rw [Nat.zero_add, List.nil_append]
  | turn _ turn kept ih =>
    rw [Nat.succ_add_eq_add_succ, ih, turn.loop, if_pos kept, List.append_assoc, List.singleton_append]

/-- A turn in front of the request at which the loop stops. -/
lemma turn_of_lt {m : Nat} (turn : Turn (setup.service k none) n sock st answer sock' st') (lt : n < m) :
    Turn (setup.service k (some m)) n sock st answer sock' st' where
  run := by
    rw [Setup.service]
    exact decide_eq_false (Nat.not_le_of_lt lt)
  call := turn.call
  made := turn.made

lemma Along.of_le {m : Nat} (a : Along (setup.service k none) sock0 n given sock st) (le : n ≤ m) :
    Along (setup.service k (some m)) sock0 n given sock st := by
  induction a with
  | new => exact .new
  | turn _ turn kept ih => exact .turn (ih (Nat.le_of_succ_le le)) (turn_of_lt turn le) kept

/-- The answers on a connection are those of a worker that has it to itself, and which is at its end with it. A server
that is not stopped has not stopped the worker. -/
def Ended (setup : Setup) (k : Nat) (stopped : Bool) (given : List Answer) : Prop :=
  ∃ stop, (stopped = false → stop = none) ∧
    ∀ turns, given.length ≤ turns → (setup.service k stop).requestLoop turns 0 (setup.peers k).sock .new = given

lemma Ended.mono {stopped' : Bool} (e : Ended setup k stopped given) (mono : stopped = true → stopped' = true) :
    Ended setup k stopped' given := by
  obtain ⟨stop, running, loop⟩ := e
  refine ⟨stop, fun run => running ?_, loop⟩
  cases stopped with
  | false => rfl
  | true => exact absurd (mono rfl) (by rw [run]; nofun)

namespace Along

/-- No answer follows: for whatever reason the loop comes to nothing here. -/
lemma ended {stop : Option Nat} (a : Along (setup.service k stop) (setup.peers k).sock n given sock st)
    (running : stopped = false → stop = none)
    (nothing : ∀ turns, (setup.service k stop).requestLoop turns n sock st = []) : Ended setup k stopped given := by
  refine ⟨stop, running, fun turns le => ?_⟩
  rw [a.length] at le
  obtain ⟨more, rfl⟩ := Nat.exists_eq_add_of_le le
  rw [a.loop, nothing, List.append_nil]

/-- The server was stopped. -/
lemma stop (a : Along (setup.service k none) (setup.peers k).sock n given sock st) (down : stopped = true) :
    Ended setup k stopped given := by
  refine (a.of_le (Nat.le_refl n)).ended (fun up => ?_) fun turns => ?_
  · rw [up] at down
    cases down
  · cases turns with
    | zero => rfl
    | succ turns =>
      rw [Service.requestLoop, if_pos]
      exact decide_eq_true (Nat.le_refl n)

/-- `read_http_header` gives the connection up. -/
lemma fail {stop : Stop} (a : Along (setup.service k none) (setup.peers k).sock n given sock st)
    (failed : readHttpHeader (setup.service k none).asInteger (setup.service k none).maxBodySize
      ((setup.service k none).late n) sock st = .error stop) : Ended setup k stopped given := by
  apply a.ended fun _ => rfl
  intro turns
  cases turns with
  | zero => rfl
  | succ turns =>
    rw [Service.requestLoop, failed]
    exact ite_self _

/-- The handler raises. -/
lemma throw {request : Session} (a : Along (setup.service k none) (setup.peers k).sock n given sock st)
    (read : readHttpHeader (setup.service k none).asInteger (setup.service k none).maxBodySize
      ((setup.service k none).late n) sock st = .ok (request, sock', st'))
    (raises : (setup.service k none).answer n request = none) : Ended setup k stopped given := by
  apply a.ended fun _ => rfl
  intro turns
  cases turns with
  | zero => rfl
  | succ turns =>
    rw [Service.requestLoop, read]
    dsimp only
    rw [raises]
    exact ite_self _

/-- The connection is not kept behind an answer. -/
lemma last (a : Along (setup.service k none) (setup.peers k).sock n given sock st)
    (turn : Turn (setup.service k none) n sock st answer sock' st') (last : answer.fate ≠ .kept) :
    Ended setup k stopped (given ++ [answer]) := by
  refine ⟨none, fun _ => rfl, fun turns le => ?_⟩
  rw [List.length_append, a.length, List.length_singleton] at le
  obtain ⟨more, rfl⟩ := Nat.exists_eq_add_of_le le
  rw [Nat.succ_add_eq_add_succ, a.loop, turn.loop, if_neg last]

end Along
end Connection

/-! ## The log -/

section Log
variable {log : List Event} {event : Event} {k : Nat} {answer : Answer}

lemma answers_append (more : List Event) : answers k (log ++ more) = answers k log ++ answers k more :=
  List.filterMap_append

lemma answers_of_silent (silent : event.answer k = none) : answers k (log ++ [event]) = answers k log := by
  have none : answers k [event] = [] := by
    rw [answers, List.filterMap_cons_none silent, List.filterMap_nil]
  rw [answers_append, none, List.append_nil]

lemma answers_other (other : event.conn ≠ k) : answers k (log ++ [event]) = answers k log := by
  apply answers_of_silent
  cases event with
  | answered k' a => exact if_neg other
  | accepted | failed | closed => rfl

lemma answers_answered : answers k (log ++ [.answered k answer]) = answers k log ++ [answer] := by
  have one : answers k [.answered k answer] = [answer] := List.filterMap_cons_some (if_pos rfl)
  rw [answers_append, one]

lemma isOpen_iff : isOpen k log = true ↔ .accepted k ∈ log ∧ .closed k ∉ log := by
  simp [isOpen]

lemma isOpen_same (accepted : event ≠ .accepted k) (closed : event ≠ .closed k) :
    isOpen k (log ++ [event]) = isOpen k log := by
  simp [isOpen, accepted.symm, closed.symm]

lemma isOpen_other (other : event.conn ≠ k) : isOpen k (log ++ [event]) = isOpen k log := by
  apply isOpen_same
  · rintro rfl
    exact other rfl
  · rintro rfl
    exact other rfl

lemma isOpen_closed : isOpen k (log ++ [.closed k]) = false := by
  simp [isOpen]

end Log

/-! ## The workers -/

/-- What must have happened before an event: connections come in their order, and nothing happens on one that is not
open. An answer is the next one on its connection, every answer before it has kept the connection, and their number
is below the limit. -/
def Allowed (setup : Setup) (front : List Event) : Event → Prop
  | .accepted k => ∀ j, .accepted j ∈ front ↔ j < k
  | .answered k answer => isOpen k front = true ∧ answer.count = (answers k front).length ∧
      (∀ before ∈ answers k front, before.fate = .kept) ∧ (answer.count : Int) < setup.config.value .maxKeepAlive
  | .failed k _ => isOpen k front = true ∧ ∀ before ∈ answers k front, before.fate = .kept
  | .closed k => isOpen k front = true

/-- What a fiber at a place has made of its connection. -/
def Fits (setup : Setup) (stopped : Bool) (log : List Event) : Place → Prop
  | .turn k n sock st => Along (setup.service k none) (setup.peers k).sock n (answers k log) sock st
  | .reading k n sock st => Along (setup.service k none) (setup.peers k).sock n (answers k log) sock st
  | .writing k answer sock' st' => ∃ n sock st,
      Along (setup.service k none) (setup.peers k).sock n (answers k log) sock st ∧
        Turn (setup.service k none) n sock st answer sock' st'
  | .closing k => Ended setup k stopped (answers k log)
  | .raised (some k) => Ended setup k stopped (answers k log)
  | .raised none => True
  | .start => True
  | .accepting => True
  | .returned => True

/-- The fibers have one connection each and none in common, the ones that are open. Each is along its connection, or
at the end of it, and so is everyone with those that were closed. -/
structure Inv (setup : Setup) (s : State) : Prop where
  tracked : s.Tracked
  fits : ∀ i, Fits setup s.stopped s.log (s.place i)
  done : ∀ k, .closed k ∈ s.log → Ended setup k s.stopped (answers k s.log)
  owned : ∀ k, Owned (fun p : Place => p.conn = some k) (isOpen k s.log) s.place
  arrived : ∀ k, .accepted k ∈ s.log ↔ k < s.accepted
  past : ∀ e ∈ s.log, e.conn < s.accepted
  justified : Justified (Allowed setup) s.log

section Workers
variable {setup : Setup} {s s' : State} {i k : Nat} {p : Place} {log log' : List Event} {stopped stopped' : Bool}
  {event : Event} {a : Action}

/-- Only the connection of a fiber is of interest to it. -/
lemma Fits.mono (f : Fits setup stopped log p) (mono : stopped = true → stopped' = true)
    (same : ∀ k, p.conn = some k → answers k log' = answers k log) : Fits setup stopped' log' p := by
  cases p with
  | turn k | reading k | writing k =>
    rw [Fits, same k rfl]
    exact f
  | closing k =>
    rw [Fits, same k rfl]
    exact f.mono mono
  | raised conn =>
    cases conn with
    | none => trivial
    | some k =>
      rw [Fits, same k rfl]
      exact f.mono mono
  | start | accepting | returned => trivial

namespace Inv

lemma new (setup : Setup) : Inv setup .new where
  tracked := .new
  fits _ := trivial
  done := nofun
  owned _ := .init fun _ => nofun
  arrived k := iff_of_false nofun (Nat.not_lt_zero k)
  past := nofun
  justified := .nil

/-- The connection of a fiber is open. -/
lemma open_of_conn (inv : Inv setup s) (mine : (s.place i).conn = some k) : isOpen k s.log = true :=
  (inv.owned k).of_holder (t := i) mine

lemma lt_of_conn (inv : Inv setup s) (mine : (s.place i).conn = some k) : k < s.accepted :=
  (inv.arrived k).mp (isOpen_iff.mp (inv.open_of_conn mine)).1

/-- A quiet step. -/
lemma quiet (inv : Inv setup s) (tracked : s'.Tracked) (q : Quiet s s') : Inv setup s' where
  tracked := tracked
  fits j := by
    rw [q.place, q.log]
    exact (inv.fits j).mono q.stopped fun _ _ => rfl
  done k mem := by
    rw [q.log] at mem ⊢
    exact (inv.done k mem).mono q.stopped
  owned k := by
    rw [q.log, q.place]
    exact inv.owned k
  arrived k := by
    rw [q.log, q.accepted]
    exact inv.arrived k
  past e mem := by
    rw [q.log] at mem
    rw [q.accepted]
    exact inv.past e mem
  justified := by
    rw [q.log]
    exact inv.justified

/-- A fiber that moves, while nothing happens to its connection. -/
lemma move (inv : Inv setup s) (tracked : s'.Tracked) (m : Moved setup s s' i p [])
    (conn : p.conn = (s.place i).conn) (fits : Fits setup s.stopped s.log p) : Inv setup s' := by
  obtain ⟨-, place, log, accepted, stopped⟩ := m
  rw [List.append_nil] at log
  refine ⟨tracked, fun j => ?_, ?_, fun k => ?_, ?_, ?_, ?_⟩
  · rw [place, log, stopped]
    cases decEq j i with
    | isTrue e =>
      subst e
      rw [Function.update_self]
      exact fits
    | isFalse ne =>
      rw [Function.update_of_ne ne]
      exact inv.fits j
  · rw [log, stopped]
    exact inv.done
  · rw [place, log]
    exact (inv.owned k).keep (by rw [conn])
  · rw [log, accepted]
    exact inv.arrived
  · rw [log, accepted]
    exact inv.past
  · rw [log]
    exact inv.justified

/-- A fiber to whose connection something happens: what the others have is not touched. -/
lemma others (inv : Inv setup s) (mine : ∀ j, j ≠ i → (s.place j).conn ≠ some event.conn)
    (fits : Fits setup s.stopped (s.log ++ [event]) p) (j : Nat) :
    Fits setup s.stopped (s.log ++ [event]) (Function.update s.place i p j) := by
  cases decEq j i with
  | isTrue e =>
    subst e
    rw [Function.update_self]
    exact fits
  | isFalse ne =>
    rw [Function.update_of_ne ne]
    apply (inv.fits j).mono id
    intro k have_k
    apply answers_other
    rintro rfl
    exact mine j ne have_k

/-- Nobody else has the connection of a fiber. -/
lemma alone (inv : Inv setup s) (mine : (s.place i).conn = some k) :
    ∀ j, j ≠ i → (s.place j).conn ≠ some k := by
  intro j ne theirs
  exact ne ((inv.owned k).uniq theirs mine)

/-- A fiber that answers on its connection, or gives it up. -/
lemma tell (inv : Inv setup s) (tracked : s'.Tracked) (m : Moved setup s s' i p [event])
    (mine : (s.place i).conn = some event.conn) (keeps : p.conn = some event.conn)
    (accepted : ∀ k, event ≠ .accepted k) (closed : ∀ k, event ≠ .closed k)
    (fits : Fits setup s.stopped (s.log ++ [event]) p) (allowed : Allowed setup s.log event) : Inv setup s' := by
  obtain ⟨-, place, log, count, stopped⟩ := m
  have count : s'.accepted = s.accepted := by
    rw [count]
    cases event with
    | accepted k => exact absurd rfl (accepted k)
    | answered | failed | closed => rfl
  refine ⟨tracked, fun j => ?_, fun k mem => ?_, fun k => ?_, fun k => ?_, fun e mem => ?_, ?_⟩
  · rw [place, log, stopped]
    exact inv.others (inv.alone mine) fits j
  · rw [log, List.mem_append, List.mem_singleton] at mem
    have before := mem.resolve_right (closed k).symm
    -- a connection that was closed is nobody's
    have other : event.conn ≠ k := by
      rintro rfl
      exact (isOpen_iff.mp (inv.open_of_conn mine)).2 before
    rw [log, stopped, answers_other other]
    exact inv.done k before
  · rw [place, log, isOpen_same (accepted k) (closed k)]
    exact (inv.owned k).keep (by rw [keeps, mine])
  · rw [log, count, List.mem_append, List.mem_singleton, or_iff_left (accepted k).symm]
    exact inv.arrived k
  · rw [count]
    rw [log, List.mem_append, List.mem_singleton] at mem
    rcases mem with mem | rfl
    · exact inv.past e mem
    · exact inv.lt_of_conn mine
  · rw [log]
    exact inv.justified.snoc allowed

/-- A connection is accepted. -/
lemma accept (inv : Inv setup s) (tracked : s'.Tracked) (here : s.place i = .accepting)
    (m : Moved setup s s' i (.turn s.accepted 0 (setup.peers s.accepted).sock .new) [.accepted s.accepted]) :
    Inv setup s' := by
  obtain ⟨-, place, log, count, stopped⟩ := m
  have count : s'.accepted = s.accepted + 1 := count
  -- nobody has it, and nothing has happened to it
  have free : ∀ j, (s.place j).conn ≠ some s.accepted := fun j theirs => (inv.lt_of_conn theirs).false
  have unheard : ∀ e ∈ s.log, e.conn ≠ s.accepted := fun e mem => (inv.past e mem).ne
  have none : answers s.accepted s.log = [] := by
    rw [answers, List.filterMap_eq_nil_iff]
    intro e mem
    cases e with
    | answered k a => exact if_neg (unheard _ mem)
    | accepted | failed | closed => rfl
  refine ⟨tracked, fun j => ?_, fun k mem => ?_, fun k => ?_, fun k => ?_, fun e mem => ?_, ?_⟩
  · have started : Fits setup s.stopped (s.log ++ [.accepted s.accepted])
        (.turn s.accepted 0 (setup.peers s.accepted).sock .new) := by
      rw [Fits, answers_of_silent rfl, none]
      exact .new
    have fresh : ∀ j, j ≠ i → (s.place j).conn ≠ some (Event.accepted s.accepted).conn := fun j _ => free j
    rw [place, log, stopped]
    exact inv.others fresh started j
  · rw [log, List.mem_append, List.mem_singleton] at mem
    have before := mem.resolve_right nofun
    rw [log, stopped, answers_of_silent rfl]
    exact inv.done k before
  · rw [place, log]
    cases decEq k s.accepted with
    | isTrue e =>
      subst e
      have shut : isOpen s.accepted s.log = false := by
        rw [Bool.eq_false_iff, ne_eq, isOpen_iff]
        exact fun h => unheard _ h.1 rfl
      have opened : isOpen s.accepted (s.log ++ [.accepted s.accepted]) = true := by
        refine isOpen_iff.mpr ⟨List.mem_append_right _ List.mem_cons_self, fun mem => ?_⟩
        rw [List.mem_append, List.mem_singleton] at mem
        exact unheard _ (mem.resolve_right nofun) rfl
      have ow := inv.owned s.accepted
      rw [shut] at ow
      rw [opened]
      exact ow.acquire rfl
    | isFalse ne =>
      rw [isOpen_other (Ne.symm ne)]
      apply (inv.owned k).keep
      rw [here]
      refine iff_of_false (fun e => ?_) nofun
      exact ne (Option.some.inj e).symm
  · rw [log, count, List.mem_append, List.mem_singleton, inv.arrived, Nat.lt_succ_iff_lt_or_eq, Event.accepted.injEq]
  · rw [count]
    rw [log, List.mem_append, List.mem_singleton] at mem
    rcases mem with mem | rfl
    · exact Nat.lt_succ_of_lt (inv.past e mem)
    · exact Nat.lt_succ_self _
  · rw [log]
    exact inv.justified.snoc inv.arrived

/-- A connection is closed. -/
lemma close (inv : Inv setup s) (tracked : s'.Tracked) (here : s.place i = .closing k)
    (m : Moved setup s s' i .start [.closed k]) : Inv setup s' := by
  obtain ⟨-, place, log, count, stopped⟩ := m
  have count : s'.accepted = s.accepted := count
  have mine : (s.place i).conn = some k := by
    rw [here]
    rfl
  have fits := inv.fits i
  rw [here, Fits] at fits
  refine ⟨tracked, fun j => ?_, fun k' mem => ?_, fun k' => ?_, fun k' => ?_, fun e mem => ?_, ?_⟩
  · rw [place, log, stopped]
    have started : Fits setup s.stopped (s.log ++ [.closed k]) .start := trivial
    exact inv.others (inv.alone mine) started j
  · rw [log, stopped, answers_of_silent rfl]
    rw [log, List.mem_append, List.mem_singleton] at mem
    rcases mem with before | e
    · exact inv.done k' before
    · cases e
      exact fits
  · rw [place, log]
    cases decEq k' k with
    | isTrue e =>
      subst e
      rw [isOpen_closed]
      exact (inv.owned k').release mine nofun
    | isFalse ne =>
      rw [isOpen_other (Ne.symm ne)]
      apply (inv.owned k').keep
      rw [mine]
      refine iff_of_false nofun (fun e => ?_)
      exact ne (Option.some.inj e).symm
  · rw [log, count, List.mem_append, List.mem_singleton, or_iff_left nofun]
    exact inv.arrived k'
  · rw [count]
    rw [log, List.mem_append, List.mem_singleton] at mem
    rcases mem with mem | rfl
    · exact inv.past e mem
    · exact inv.lt_of_conn mine
  · rw [log]
    exact inv.justified.snoc (inv.open_of_conn mine)

/-- The next answer on a connection. -/
lemma answered (inv : Inv setup s) {n : Nat} {sock : Socket} {st : Async.State} {answer : Answer}
    (along : Along (setup.service k none) (setup.peers k).sock n (answers k s.log) sock st)
    (count : answer.count = n) (mine : (s.place i).conn = some k) : Allowed setup s.log (.answered k answer) := by
  have least : 1 ≤ setup.config.value .maxKeepAlive := setup.configured.valid .maxKeepAlive
  have pos : 0 < (setup.service k none).maxKeepAlive := by
    simp only [Setup.service]
    omega
  have lt := along.lt pos
  simp only [Setup.service] at lt
  refine ⟨inv.open_of_conn mine, count.trans along.length.symm, along.kept, ?_⟩
  omega

/-- A step. -/
lemma step (inv : Inv setup s) (step : setup.next s a = some s') : Inv setup s' := by
  obtain ⟨tracked, q | ⟨i, p, events, -, m⟩⟩ := next_cases inv.tracked step
  · exact inv.quiet tracked q
  have fits := inv.fits i
  have work := m.work
  generalize here : s.place i = q at work
  rw [here] at fits
  cases work with
  | leave | listen | deaf | retry => exact inv.move tracked m (by rw [here]; rfl) trivial
  | accept => exact inv.accept tracked here m
  | stopped down => exact inv.move tracked m (by rw [here]; rfl) (Along.stop fits down)
  | read => exact inv.move tracked m (by rw [here]; rfl) fits
  | @fail k n sock st stop failed =>
    have mine : (s.place i).conn = some k := by rw [here]; rfl
    have along : Along (setup.service k none) (setup.peers k).sock n (answers k s.log) sock st := fits
    refine inv.tell tracked m mine rfl nofun nofun ?_ ⟨inv.open_of_conn mine, along.kept⟩
    rw [Fits, answers_of_silent rfl]
    exact along.fail failed
  | throw read raises => exact inv.move tracked m (by rw [here]; rfl) (Along.throw fits read raises)
  | answer turn => exact inv.move tracked m (by rw [here]; rfl) ⟨_, _, _, fits, turn⟩
  | @keep k answer sock st kept =>
    have mine : (s.place i).conn = some k := by rw [here]; rfl
    obtain ⟨n, sock1, st1, along, turn⟩ := fits
    have count : answer.count = n := (answer_request turn.made).1
    refine inv.tell tracked m mine rfl nofun nofun ?_ ?_
    · rw [Fits, answers_answered, count]
      exact along.turn turn kept
    · exact inv.answered along count mine
  | @drop k answer sock st last =>
    have mine : (s.place i).conn = some k := by rw [here]; rfl
    obtain ⟨n, sock1, st1, along, turn⟩ := fits
    have count : answer.count = n := (answer_request turn.made).1
    refine inv.tell tracked m mine rfl nofun nofun ?_ ?_
    · rw [Fits, answers_answered]
      exact along.last turn last
    · exact inv.answered along count mine
  | close => exact inv.close tracked here m

end Inv
end Workers

section Alone
variable {setup : Setup} {k n : Nat} {stopped : Bool} {log : List Event} {sock : Socket} {st : Async.State}

end Alone

end CovNet.Workers
