import CovNet.Master.Correlation
import CovNet.Slave.Conversation

/-!
# The cluster

A deployment of `http_server` with a master and its slaves (`netutils.ecs`). The master is the system of
`CovNet.Master.Model`, with the two things put in that are open there: its request workers read the sessions off
the bytes of the clients with `read_http_header`, and its slaves are `slave_worker`, which reads the messages off
the bytes of its connection, calls the handlers and sends the responses back. All of it goes through byte streams
that may be cut anywhere.

A byte that is written on the connection of a slave is there at once; when it is read is left to the slave, and a
slave that has died reads nothing more. So the failures of `CovNet.Master.Model` are all here: a send or a receive
may fail or come too late whatever the slave does.
-/

namespace CovNet.Cluster
open Lib Text Http Slave
open Master (Action Config HttpConn)

/-- A deployment: the settings, what the clients send on their connections, and the handlers and the clocks of the
slaves, which may be in a different state at every message. -/
structure Deployment where
  cfg : Config
  asInteger : Bytes → Option Int
  maxBodySize : Int
  codec : JsonCodec
  streams : Nat → Bytes
  serve : Nat → Session → Served
  now : Nat → UtcTime

/-- The state of the cluster: the master, what has not been read of the streams of the clients, and the two
directions of the connection of each slave. -/
structure State where
  master : Master.State := {}
  input : Nat → Bytes
  down : Nat → Bytes := fun _ => []
  up : Nat → Bytes := fun _ => []

/-- The steps. `cut` is how the stream arrives, `k` the state of a slave's handlers. -/
inductive Event where
  | master (a : Action)
  | session (w : Nat)
  | reply (n k : Nat) (cut : List Bytes)
  | receive (w : Nat) (cut : List Bytes)

/-- The message of a job. -/
def message (m : Master.State) : Option Nat → Slave.Message
  | none => .heartbeat
  | some σ => .session (m.sessions σ).session

/-- The steps of the master that bring something in from a stream. -/
def inward (m : Master.State) : Action → Bool
  | .request _ (.session _) => true
  | .reply _ _ => true
  | .dispatch w .ok =>
    match m.dispatch w with
    | .receiving _ _ _ => true
    | _ => false
  | _ => false

/-- The jobs a step has sent to a node. -/
def posted (m m' : Master.State) (n : Nat) : List (Option Nat) :=
  (m'.nodes n).outstanding.drop (m.nodes n).outstanding.length

namespace Deployment
variable (d : Deployment)

/-- The first request of a stream, and what follows it. -/
def parse (s : Bytes) : Option (Session × Bytes) := (parseRequest d.asInteger d.maxBodySize .silent s).toOption

/-- What follows the first `i` requests of a stream. -/
def behind (s : Bytes) : Nat → Option Bytes
  | 0 => some s
  | i + 1 => (behind s i).bind fun rest => (d.parse rest).map Prod.snd

/-- The request `i` on a connection, as the master queues it. -/
def request (c i : Nat) : Option Session :=
  ((d.behind (d.streams c) i).bind d.parse).map fun r => Master.State.limited d.cfg (i + 1) r.1

/-- What a job is on the wire. -/
def wire (m : Master.State) (job : Option Nat) : Bytes := ((message m job).wire d.codec).getD []

/-- The master has made a step, and what it has sent is on the wire. -/
def carry (s : State) (m : Master.State) : State :=
  { s with
    master := m
    down := fun n => s.down n ++ (posted s.master m n).flatMap (d.wire m) }

/-- One step of the cluster. -/
def next (s : State) : Event → Option State
  | .master a => if inward s.master a then none else (s.master.next d.cfg a).map (d.carry s)
  | .session w =>
    match s.master.request w with
    | .on c (.reading _ (some .ok)) =>
      match d.parse (s.input c) with
      | none => none
      | some (session, rest) =>
        (s.master.next d.cfg (.request w (.session session))).map fun m =>
          { s with master := m, input := Function.update s.input c rest }
    | _ => none
  | .reply n k cut =>
    if cut.flatten = s.down n then
      match receiveMessage d.codec (fun _ => false) ⟨cut, .silent⟩ with
      | none => none
      | some (message, sock) =>
        match sendContent (answer (d.serve k) (d.now k) message) with
        | none => none
        | some frame =>
          (s.master.next d.cfg (.reply n (answer (d.serve k) (d.now k) message))).map fun m =>
            { s with
              master := m
              down := Function.update s.down n sock.segments.flatten
              up := Function.update s.up n (s.up n ++ frame) }
    else none
  | .receive w cut =>
    match s.master.dispatch w with
    | .receiving n job _ =>
      if cut.flatten = s.up n then
        match receiveContentS (fun _ => false) ⟨cut, .silent⟩ with
        | (.ok content, sock) =>
          some { s with
            master := s.master.receive w n job content
            up := Function.update s.up n sock.segments.flatten }
        | _ => none
      else none
    | _ => none

/-- The cluster in operation. -/
def cluster : System State Event where
  init s := s = { input := d.streams }
  next := d.next

end Deployment

end CovNet.Cluster
