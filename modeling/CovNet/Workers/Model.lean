import CovNet.Http.Lifetime
import CovNet.Lib.Trace
import CovNet.Workers.Config

/-!
# The workers of a server

A server in a single process has a list of fibers that run `simple_worker` (`netutils.ecs`). A fiber gives the control
back only where it waits: for a connection, inside of `read_http_header`, for the write of a response, inside of
`safe_shutdown`. `poll` and `run` resume the fibers of the list one after the other, `stop` does so once more and
drops the list.

The caller of a server is in one method at a time. What is left of the call is a list of tasks, and a task that
resumes a fiber is under way until the fiber waits, ends or raises. What a fiber waits for may be there or not each
time it is resumed.
-/

namespace CovNet.Workers
open Lib Text Http Async

/-- A connection that the acceptor hands out: its socket, and what its requests meet, by their number: the handlers
and files, when the reads are late, the time, whether the write of the response succeeds, and whether the socket is
open behind it. -/
structure Peer where
  sock : Socket
  site : Site
  late : Nat → Nat → Bool
  now : Nat → UtcTime
  sent : Nat → Bool
  isOpen : Nat → Bool

/-- A server that is set up, with the connections in the order they are accepted. -/
structure Setup where
  asInteger : Bytes → Option Int
  config : Config
  configured : Configured config
  peers : Nat → Peer

/-- The loop of `simple_worker` finds the server stopped in front of this request, and of those behind it. -/
def stopsAt : Option Nat → Nat → Bool
  | none, _ => false
  | some m, n => m ≤ n

namespace Setup

/-- The number of fibers `init` makes. -/
def workerCount (setup : Setup) : Nat := (setup.config.value .workerCount).toNat

/-- The surroundings of a connection, when the server is stopped in front of some request. -/
def service (setup : Setup) (k : Nat) (stop : Option Nat) : Service where
  site := (setup.peers k).site
  asInteger := setup.asInteger
  maxBodySize := setup.config.value .maxBodySize
  maxKeepAlive := (setup.config.value .maxKeepAlive).toNat
  stopped := stopsAt stop
  late := (setup.peers k).late
  now := (setup.peers k).now
  sent := (setup.peers k).sent
  isOpen := (setup.peers k).isOpen

end Setup

/-- Where a fiber is in `simple_worker`. -/
inductive Place where
  /-- at the top of the loop -/
  | start
  /-- in the wait for a connection -/
  | accepting
  /-- at the top of the loop over the requests of a connection -/
  | turn (k count : Nat) (sock : Socket) (st : Async.State)
  /-- in `read_http_header` -/
  | reading (k count : Nat) (sock : Socket) (st : Async.State)
  /-- in the wait for the write of a response -/
  | writing (k : Nat) (answer : Answer) (sock : Socket) (st : Async.State)
  /-- in `safe_shutdown` -/
  | closing (k : Nat)
  | returned
  /-- behind an exception, perhaps with a connection -/
  | raised (k : Option Nat)
  deriving DecidableEq

namespace Place

/-- The connection of a fiber. -/
def conn : Place → Option Nat
  | start => none
  | accepting => none
  | turn k _ _ _ => some k
  | reading k _ _ _ => some k
  | writing k _ _ _ => some k
  | closing k => some k
  | returned => none
  | raised k => k

/-- The fiber may give the control back here. -/
def waits : Place → Bool
  | start => false
  | accepting => true
  | turn .. => false
  | reading .. => true
  | writing .. => true
  | closing _ => true
  | returned => false
  | raised _ => false

/-- The fiber is at its end. -/
def ended : Place → Bool
  | returned => true
  | raised _ => true
  | _ => false

end Place

/-- What happens to the connections. -/
inductive Event where
  | accepted (k : Nat)
  | answered (k : Nat) (answer : Answer)
  /-- `read_http_header` has given the connection up, perhaps behind an error response. -/
  | failed (k : Nat) (stop : Stop)
  /-- `safe_shutdown` has returned, whatever it says. -/
  | closed (k : Nat)
  deriving DecidableEq

namespace Event

def conn : Event → Nat
  | accepted k => k
  | answered k _ => k
  | failed k _ => k
  | closed k => k

/-- The number of connections that come with an event. -/
def arrivals : Event → Nat
  | accepted _ => 1
  | _ => 0

/-- The answer on a connection that an event is. -/
def answer (k : Nat) : Event → Option Answer
  | answered k' a => if k' = k then some a else none
  | _ => none

end Event

/-- The answers on a connection. -/
def answers (k : Nat) (log : List Event) : List Answer := log.filterMap (Event.answer k)

/-- A connection that was accepted and not closed. -/
def isOpen (k : Nat) (log : List Event) : Bool := Event.accepted k ∈ log && Event.closed k ∉ log

/-- What is left of a call. -/
inductive Task where
  /-- a turn of the loop of `init`: a fiber is made and resumed -/
  | add
  /-- the fiber is put into the list -/
  | push (i : Nat)
  /-- the fibers of the list are resumed in its order -/
  | pass
  | resume (i : Nat)
  /-- the loop of `run` -/
  | loop
  /-- the end of `stop` -/
  | release
  deriving DecidableEq

/-- A server: whether it was stopped, has an acceptor and its guard, its list of workers, the fibers that were made,
what is left of the call under way, the fiber that has the control, the number of connections that were accepted, and
what has happened to them. -/
structure State where
  stopped : Bool
  listening : Bool
  guard : Bool
  workerList : Option (List Nat)
  created : Nat
  place : Nat → Place
  agenda : List Task
  current : Option Nat
  accepted : Nat
  log : List Event

/-- What happens next. -/
inductive Action where
  | listen
  | poll
  | run
  | stop
  /-- the next task of the call -/
  | go
  /-- the fiber goes on: what it has waited for is there -/
  | ready
  /-- the wait for a connection has failed -/
  | failed
  /-- the fiber gives the control back -/
  | wait
  /-- the resume of a fiber at its end raises -/
  | abort
  deriving DecidableEq

namespace State

/-- A new server. -/
def new : State where
  stopped := false
  listening := false
  guard := false
  workerList := none
  created := 0
  place := fun _ => .start
  agenda := []
  current := none
  accepted := 0
  log := []

/-- A fiber comes to a place. -/
def goto (s : State) (i : Nat) (p : Place) : State := { s with place := Function.update s.place i p }

def note (s : State) (e : Event) : State := { s with log := s.log ++ [e] }

/-- The fiber gives the control back. -/
def yield (s : State) : State := { s with current := none }

/-- An exception leaves the fiber and the call. -/
def throw (s : State) : State := { s with current := none, agenda := [] }

/-- No call is under way. -/
def Free (s : State) : Prop := s.current = none ∧ s.agenda = []

instance (s : State) : Decidable s.Free := inferInstanceAs (Decidable (_ ∧ _))

/-- `init`, up to the loop over the workers. -/
def init (s : State) : State := { s with guard := true, workerList := some [] }

/-- A task of a call. -/
def perform (s : State) (rest : List Task) : Task → State
  | .add => { s with
      place := Function.update s.place s.created .start
      created := s.created + 1
      current := some s.created
      agenda := .push s.created :: rest }
  | .push i => { s with workerList := s.workerList.map (· ++ [i]), agenda := rest }
  | .pass => { s with agenda := (s.workerList.getD []).map .resume ++ rest }
  | .resume i => { s with current := some i, agenda := rest }
  | .loop => { s with agenda := if s.stopped then rest else .pass :: .loop :: rest }
  | .release => { s with guard := false, workerList := none, agenda := rest }

end State

namespace Setup

/-- A fiber goes on. -/
def work (setup : Setup) (s : State) (i : Nat) : Option State :=
  match s.place i with
  | .start =>
    if s.stopped then some (s.goto i .returned)
    else if s.listening then some (s.goto i .accepting)
    -- there is no acceptor to accept with
    else some (s.goto i (.raised none)).throw
  | .accepting =>
    some { (s.goto i (.turn s.accepted 0 (setup.peers s.accepted).sock .new)).note (.accepted s.accepted) with
      accepted := s.accepted + 1 }
  | .turn k count sock st => some (s.goto i (if s.stopped then .closing k else .reading k count sock st))
  | .reading k count sock st =>
    let service := setup.service k none
    match readHttpHeader service.asInteger service.maxBodySize (service.late count) sock st with
    | .error stop => some ((s.goto i (.closing k)).note (.failed k stop))
    | .ok (request, sock, st) =>
      match service.answer count request with
      | none => some (s.goto i (.raised (some k))).throw
      | some answer => some (s.goto i (.writing k answer sock st))
  | .writing k answer sock st =>
    some ((s.goto i (if answer.fate = .kept then .turn k (answer.count + 1) sock st else .closing k)).note
      (.answered k answer))
  | .closing k => some ((s.goto i .start).note (.closed k))
  | .returned => none
  | .raised _ => none

/-- One step of the server. -/
def next (setup : Setup) (s : State) : Action → Option State
  | .listen => if s.Free then some { s with listening := true } else none
  | .poll =>
    if ¬ s.Free then none
    else if s.stopped then some s
    else if s.guard then some { s with agenda := [.pass] }
    else some { s.init with agenda := List.replicate setup.workerCount .add ++ [.pass] }
  | .run =>
    if ¬ s.Free then none
    else if s.stopped then some s
    else some { s.init with agenda := List.replicate setup.workerCount .add ++ [.loop] }
  | .stop =>
    if ¬ s.Free then none
    else some { s with
      stopped := true
      listening := false
      agenda := (if s.workerList.isSome then [.pass] else []) ++ [.release] }
  | .go =>
    match s.current, s.agenda with
    | none, task :: rest => some (s.perform rest task)
    | _, _ => none
  | .ready => s.current.bind (setup.work s)
  | .failed =>
    match s.current with
    | some i => if s.place i = .accepting then some (s.goto i .start) else none
    | none => none
  | .wait =>
    match s.current with
    | some i => if (s.place i).waits || (s.place i).ended then some s.yield else none
    | none => none
  | .abort =>
    match s.current with
    | some i => if (s.place i).ended then some s.throw else none
    | none => none

/-- A server and its workers. -/
def server (setup : Setup) : System State Action := ⟨(· = .new), setup.next⟩

end Setup

end CovNet.Workers
