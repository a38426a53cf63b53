import CovNet.Http.Serialize
import CovNet.Master.Connection

/-!
# The master

The workers of `http_server` in master mode (`netutils.ecs`) as one transition system: the spawn and the
accept worker, any number of request workers, the response worker and any number of dispatch workers,
over the connections, the sessions and the slave nodes they share. A fiber is switched only where it
waits, yields or shuts a socket down, so a step of a worker runs from one such point to the next; the
head of a worker's loop is taken as one more, which only adds interleavings. The other steps are the
completion handlers of the jobs on client sockets, the replies of the slaves, the clock and `stop`.

What a client sends is left open: a read that has completed may turn out as any `Parsed`. So is what a
slave does: a send or a receive may fail at any time, and a slave answers the messages it was sent one
by one, each with one frame of its choice.

`handed`, `sends` and `returned` are the history of the sessions: those handed to a dispatch worker, the
messages sent for them with the node, and the frames the slaves returned for them.
-/

namespace CovNet.Master
open Lib Text Http Socket

/-- The settings of `http_server` the workers read. -/
structure Config where
  maxConnections : Nat := 100
  maxKeepAlive : Nat := 100
  keepAliveTimeout : Nat := 5000
  masterDispatchRetry : Nat := 2
  heartbeatInterval : Nat := 1000
  slaveSpawnTimeout : Nat := 1000
  slaveKeepAliveTimeout : Nat := 5000

/-- The master's side of a session. -/
structure MasterSession where
  session : Session := ⟨[], [], none, [], [], [], none, none, []⟩
  response : Option Bytes := none
  dispatchAttempts : Nat := 0
  deriving DecidableEq, Repr

/-- `slave_node.state`. -/
inductive NodeState where
  | error
  | ready
  | busy
  deriving DecidableEq, Repr

/-- `slave_node`, with its socket as two channels: the messages the slave has not answered yet and the
frames the master has not read yet. A message is the session it is about, none for a health query. -/
structure SlaveNode where
  rank : Nat := 0
  state : NodeState := .ready
  lastConnTime : Nat := 0
  outstanding : List (Option Nat) := []
  inbox : List (Option Nat × Bytes) := []
  deriving DecidableEq, Repr

/-- Where `master_accept_worker` is. -/
inductive AcceptPc where
  | head
  | accepting
  | ended
  deriving DecidableEq, Repr

/-- Where `master_spawn_worker` is. -/
inductive SpawnPc where
  | head
  | accepting
  | handshake (rank : Nat)
  | ended
  deriving DecidableEq, Repr

/-- Where `master_response_worker` is. -/
inductive ResponsePc where
  | head
  /-- waits for the write of the front response -/
  | writing (c : Nat) (state : Option Bool)
  /-- has yielded because the front session has no response -/
  | paused (c : Nat)
  | shutting (c : Nat) (sh : Shutdown)
  | raised
  | ended
  deriving DecidableEq, Repr

/-- Where `master_dispatch_worker` is. A job is a session, or none for a heartbeat. -/
inductive DispatchPc where
  | head
  | sending (n : Nat) (job : Option Nat) (timeout : Nat)
  | sendingBody (n : Nat) (σ : Nat) (timeout : Nat)
  | receiving (n : Nat) (job : Option Nat) (deadline : Nat)
  /-- in `safe_shutdown` of the node's socket -/
  | retiring (n : Nat) (job : Option Nat) (code : StateCode)
  /-- waits for another node to send the session to -/
  | awaiting (σ : Nat) (code : StateCode) (waitStart : Nat)
  | raised
  | ended
  deriving DecidableEq, Repr

/-- What an operation on a slave's socket came to. -/
inductive NodeResult where
  | ok
  | error
  | timeout
  deriving DecidableEq, Repr

/-- The state of the master. -/
structure State where
  now : Nat := 0
  stopped : Bool := false
  conns : Nat → HttpConn := fun _ => {}
  connList : List Nat := []
  nextConn : Nat := 0
  sessions : Nat → MasterSession := fun _ => {}
  nextSession : Nat := 0
  nodes : Nat → SlaveNode := fun _ => {}
  slaveList : List Nat := []
  deprecatedRank : List Nat := []
  nextNode : Nat := 0
  accept : AcceptPc := .head
  spawn : SpawnPc := .head
  request : Nat → RequestPc := fun _ => .head
  response : ResponsePc := .head
  dispatch : Nat → DispatchPc := fun _ => .head
  handed : List Nat := []
  sends : List (Nat × Nat) := []
  returned : List (Nat × Bytes) := []

/-- The steps: the fibers, the completion handlers and the surroundings. -/
inductive Action where
  | tick
  | stop
  | accept (ok : Bool)
  | spawn (r : Option Bytes)
  | request (w : Nat) (p : Parsed)
  | response
  | dispatch (w : Nat) (r : NodeResult)
  | readDone (w : Nat) (r : ReadResult)
  | readLate (c : Nat)
  | refuseDone (w : Nat) (ok : Bool)
  | responseDone (ok : Bool)
  | reply (n : Nat) (frame : Bytes)

namespace State

/-! ## The request workers -/

/-- The scan of `conn_list`: the connections it keeps, and the first one to read from, taken out. -/
def scanConns (conns : Nat → HttpConn) : List Nat → List Nat × Option Nat
  | [] => ([], none)
  | c :: list =>
    if (conns c).state = .close ∨ (conns c).isOpen = false then scanConns conns list
    else if (conns c).state = .established ∧ (conns c).keepAlive = true then (list, some c)
    else
      let (list, conn) := scanConns conns list
      (c :: list, conn)

/-- A worker moves, with what it did to its connection. -/
def place (m : State) (w c : Nat) (r : HttpConn × RequestPc) : State :=
  { m with
    conns := Function.update m.conns c r.1
    request := Function.update m.request w r.2 }

/-- The session as it is queued: the last one the connection may have says close. -/
def limited (cfg : Config) (count : Nat) (s : Session) : Session :=
  if cfg.maxKeepAlive ≤ count then { s with connection := bytes "close" } else s

/-- The session is pushed on the queue of its connection. -/
def enqueue (cfg : Config) (m : State) (w c : Nat) (s : Session) : State :=
  let s := limited cfg ((m.conns c).requestCount + 1) s
  { m.place w c ((m.conns c).push m.now m.nextSession s, .head) with
    sessions := Function.update m.sessions m.nextSession { session := s }
    nextSession := m.nextSession + 1 }

/-- `master_request_worker`, from one switch to the next. -/
def requestStep (cfg : Config) (m : State) (w : Nat) (p : Parsed) : Option State :=
  match m.request w with
  | .head =>
    if m.stopped then some { m with request := Function.update m.request w .ended }
    else
      match scanConns m.conns m.connList with
      | (list, none) => some { m with connList := list }
      | (list, some c) =>
        let conn := { m.conns c with state := .busy }
        some ({ m with connList := list ++ [c] }.place w c
          (conn.readLoop c m.now (conn.lastRequestTime + cfg.keepAliveTimeout)))
  | .on c (.reading deadline state) =>
    match readNext m.now deadline p state with
    | none => none
    | some .more => some (m.place w c ((m.conns c).readLoop c m.now deadline))
    | some (.session s) => some (m.enqueue cfg w c s)
    | some (.refuse code) =>
      let conn := { m.conns c with abandoned := (m.conns c).abandoned || state.isNone }
      some (m.place w c (conn.refuse c m.now code))
    | some .fault =>
      if (m.conns c).isOpen then none
      else some { m with request := Function.update m.request w (.raised .option) }
  | .on c (.refusing code (some _)) =>
    some (m.place w c (shutFor c code ((m.conns c).safeShutdown m.now)))
  | .on c (.shutting code sh) =>
    some (m.place w c (shutFor c code ((m.conns c).resume m.now sh)))
  | _ => none

/-! ## The response worker -/

/-- The response worker moves, with what it did to its connection. -/
def settle (m : State) (c : Nat) (r : HttpConn × ResponsePc) : State :=
  { m with conns := Function.update m.conns c r.1, response := r.2 }

/-- What is left to do once `safe_shutdown` has been entered for a connection that is used up. -/
def closeFor (c : Nat) : HttpConn × Option Shutdown → HttpConn × ResponsePc
  | (conn, some sh) => (conn, .shutting c sh)
  | (conn, none) => ({ conn with state := .close }, .head)

/-- The end of a round: a connection without requests and without keep-alive is closed. -/
def closeCheck (m : State) (c : Nat) : State :=
  let conn := m.conns c
  if conn.requestQueue = [] ∧ conn.keepAlive = false then
    m.settle c (closeFor c (conn.safeShutdown m.now))
  else { m with response := .head }

/-- `session.response = ..` -/
def answer (m : State) (σ : Nat) (b : Bytes) : State :=
  { m with sessions := Function.update m.sessions σ { m.sessions σ with response := some b } }

/-- The loop over the queue of a connection, up to its next switch. -/
def serve (m : State) (c : Nat) : State :=
  let conn := m.conns c
  match conn.requestQueue with
  | [] => m.closeCheck c
  | σ :: _ =>
    match (m.sessions σ).response with
    | none => { m with response := .paused c }
    | some b =>
      let b := writtenResponse conn.keepAlive b
      match beginIoJob .tcp .write conn.sock with
      | .error _ => { m.answer σ b with response := .raised }
      | .ok a =>
        (m.answer σ b).settle c
          ({ conn with sock := a, sent := conn.sent ++ [(some σ, b)] }, .writing c none)

/-- The front response is written: its session leaves the queue. -/
def written (m : State) (c : Nat) : State :=
  let conn := m.conns c
  m.settle c
    ({ conn with
        requestQueue := conn.requestQueue.tail
        requestIdx := conn.requestIdx - 1
        lastRequestTime := m.now },
      .head)

/-- The write of the front response has failed: the queue is dropped. -/
def dropped (m : State) (c : Nat) : State :=
  let conn := m.conns c
  m.settle c ({ conn with keepAlive := false, requestQueue := [], failed := true }, .head)

/-- `master_response_worker`, from one switch to the next. -/
def responseStep (m : State) : Option State :=
  match m.response with
  | .head =>
    if m.stopped then some { m with response := .ended }
    else
      match m.connList.find? fun c => !(m.conns c).requestQueue.isEmpty with
      | none => some m
      | some c => some (m.serve c)
  | .writing c (some true) => some ((m.written c).serve c)
  | .writing c (some false) => some ((m.dropped c).closeCheck c)
  | .paused c => some (m.closeCheck c)
  | .shutting c sh => some (m.settle c (closeFor c ((m.conns c).resume m.now sh)))
  | _ => none

/-! ## The dispatch workers -/

/-- The scan of `slave_list`: the nodes it keeps, the ranks of those it retires, and the first ready
one, taken out. -/
def scanNodes (nodes : Nat → SlaveNode) : List Nat → List Nat × List Nat × Option Nat
  | [] => ([], [], none)
  | n :: list =>
    match (nodes n).state with
    | .error =>
      let (list, ranks, node) := scanNodes nodes list
      (list, (nodes n).rank :: ranks, node)
    | .ready => (list, [], some n)
    | .busy =>
      let (list, ranks, node) := scanNodes nodes list
      (n :: list, ranks, node)

/-- `master_pick_slave`. -/
def pickSlave (m : State) : State × Option Nat :=
  let (list, ranks, node) := scanNodes m.nodes m.slaveList
  ({ m with slaveList := list ++ node.toList, deprecatedRank := m.deprecatedRank ++ ranks }, node)

/-- How long the node may take to answer. -/
def nodeTimeout (cfg : Config) (m : State) (n : Nat) : Nat :=
  let timeout := (m.nodes n).lastConnTime + cfg.slaveKeepAliveTimeout - m.now
  if timeout = 0 then cfg.slaveKeepAliveTimeout else timeout

/-- A dispatch worker moves. -/
def go (m : State) (w : Nat) (pc : DispatchPc) : State :=
  { m with dispatch := Function.update m.dispatch w pc }

/-- A dispatch worker moves, with what it did to its node. -/
def drive (m : State) (w n : Nat) (r : SlaveNode × DispatchPc) : State :=
  { m with
    nodes := Function.update m.nodes n r.1
    dispatch := Function.update m.dispatch w r.2 }

/-- The job goes to the node, which is busy from now on. The worker raises if the session cannot be
serialized. -/
def send (cfg : Config) (m : State) (w n : Nat) (job : Option Nat) : State :=
  let node := { m.nodes n with state := .busy }
  if job.any fun σ => (serialize (m.sessions σ).session).isNone then m.drive w n (node, .raised)
  else
    { m.drive w n ({ node with outstanding := node.outstanding ++ [job] },
        .sending n job (m.nodeTimeout cfg n)) with
      sends := m.sends ++ (job.map (·, n)).toList }

/-- `conn->request_idx++` -/
def take (m : State) (c : Nat) : State :=
  { m with
    conns := Function.update m.conns c
      { m.conns c with requestIdx := (m.conns c).requestIdx + 1 }
    handed := m.handed ++ (m.conns c).current.toList }

/-- `conn->request_queue[conn->request_idx++]`, and the session found there goes to the node. -/
def depart (cfg : Config) (m : State) (w n c : Nat) : State :=
  match (m.conns c).current with
  | some σ => (m.take c).send cfg w n (some σ)
  | none => (m.take c).drive w n ({ m.nodes n with state := .busy }, .raised)

/-- The request has a body that follows it. -/
def hasBody (s : Session) : Bool := s.contentLength.any (0 < ·)

/-- The methods that are dispatched again when a node dies. -/
def retriable (s : Session) : Bool :=
  s.method == bytes "GET" || s.method == bytes "HEAD" || s.method == bytes "OPTIONS"

/-- The session will not be dispatched again. -/
def giveUp (m : State) (w σ : Nat) (code : StateCode) : State :=
  (m.answer σ (composeResponse code.text)).go w .head

/-- A frame has arrived for the job. -/
def receive (m : State) (w n : Nat) (job : Option Nat) (frame : Bytes) : State :=
  let node := { m.nodes n with inbox := (m.nodes n).inbox.tail }
  let free := { node with state := .ready, lastConnTime := m.now }
  match job with
  | some σ => (m.answer σ frame).drive w n (free, .head)
  | none =>
    if frame = bytes "SLAVE_HEALTH_CONFIRM" then m.drive w n (free, .head)
    else m.drive w n (node, .retiring n none .code500)

/-- `++session.dispatch_attempts` -/
def attempt (m : State) (σ : Nat) : State :=
  { m with
    sessions := Function.update m.sessions σ
      { m.sessions σ with dispatchAttempts := (m.sessions σ).dispatchAttempts + 1 } }

/-- The node is given up; its session is dispatched again, or answered with the error. -/
def retire (cfg : Config) (m : State) (w n : Nat) (job : Option Nat) (code : StateCode) : State :=
  let m' := m.drive w n ({ m.nodes n with state := .error }, .head)
  match job with
  | none => m'
  | some σ =>
    if retriable (m.sessions σ).session then
      if cfg.masterDispatchRetry < (m.sessions σ).dispatchAttempts + 1 then
        (m'.attempt σ).giveUp w σ code
      else (m'.attempt σ).go w (.awaiting σ code m.now)
    else m'.giveUp w σ code

/-- `master_dispatch_worker`, from one switch to the next. -/
def dispatchStep (cfg : Config) (m : State) (w : Nat) (r : NodeResult) : Option State :=
  match m.dispatch w, r with
  | .head, _ =>
    if m.stopped then some (m.go w .ended)
    else
      match m.pickSlave with
      | (m', none) => some m'
      | (m', some n) =>
        match m.connList.find? fun c =>
          decide ((m.conns c).requestIdx < (m.conns c).requestQueue.length) with
        | some c => some (m'.depart cfg w n c)
        | none =>
          if cfg.heartbeatInterval ≤ m.now - (m.nodes n).lastConnTime then
            some (m'.send cfg w n none)
          else some m'
  | .sending n none timeout, _ =>
    some (m.go w (.receiving n none (m.now + timeout)))
  | .sending n (some σ) timeout, .ok =>
    if hasBody (m.sessions σ).session then
      some (m.go w (.sendingBody n σ timeout))
    else some (m.go w (.receiving n (some σ) (m.now + timeout)))
  | .sending n (some σ) _, .error =>
    some (m.go w (.retiring n (some σ) .code502))
  | .sendingBody n σ timeout, .ok =>
    some (m.go w (.receiving n (some σ) (m.now + timeout)))
  | .sendingBody n σ _, .error => some (m.go w (.retiring n (some σ) .code502))
  | .receiving n job _, .ok =>
    match (m.nodes n).inbox with
    | [] => none
    | (_, frame) :: _ =>
      -- a frame of another size is an error
      if 0 < frame.length ∧ frame.length ≤ httpMaxBodySize then some (m.receive w n job frame)
      else none
  | .receiving n job _, .error => some (m.go w (.retiring n job .code500))
  | .receiving n job deadline, .timeout =>
    if deadline ≤ m.now then some (m.go w (.retiring n job .code408)) else none
  | .retiring n job code, _ => some (m.retire cfg w n job code)
  | .awaiting σ code waitStart, _ =>
    if m.stopped ∨ cfg.slaveKeepAliveTimeout + cfg.slaveSpawnTimeout ≤ m.now - waitStart then
      some (m.giveUp w σ code)
    else
      match m.pickSlave with
      | (m', none) => some m'
      | (m', some n) => some (m'.send cfg w n (some σ))
  | _, _ => none

/-! ## The other workers and the surroundings -/

/-- `master_accept_worker`, from one switch to the next. -/
def acceptStep (cfg : Config) (m : State) (ok : Bool) : Option State :=
  match m.accept with
  | .head =>
    if m.stopped then some { m with accept := .ended }
    else if cfg.maxConnections ≤ m.connList.length then some m
    else some { m with accept := .accepting }
  | .accepting =>
    if ok then
      some { m with
        accept := .head
        conns := Function.update m.conns m.nextConn { lastRequestTime := m.now }
        connList := m.connList ++ [m.nextConn]
        nextConn := m.nextConn + 1 }
    else some { m with accept := .head }
  | .ended => none

/-- `master_spawn_worker`, from one switch to the next: none is a failed operation. -/
def spawnStep (m : State) (r : Option Bytes) : Option State :=
  match m.spawn with
  | .head => some { m with spawn := if m.stopped then .ended else .accepting }
  | .accepting =>
    match r, m.deprecatedRank with
    | none, _ => some { m with spawn := .head }
    | some _, rank :: ranks => some { m with spawn := .handshake rank, deprecatedRank := ranks }
    | some _, [] => some { m with spawn := .handshake m.slaveList.length }
  | .handshake rank =>
    if r.map (split ' ') = some [bytes "WORKER", serverVersion, decimal rank] then
      some { m with
        spawn := .head
        nodes := Function.update m.nodes m.nextNode { rank, lastConnTime := m.now }
        slaveList := m.slaveList ++ [m.nextNode]
        nextNode := m.nextNode + 1 }
    else some { m with spawn := .head }
  | .ended => none

/-- The completion handler of the read of a request worker. -/
def readDone (m : State) (w : Nat) (r : ReadResult) : Option State :=
  match m.request w with
  | .on c (.reading deadline none) =>
    some (m.place w c ((m.conns c).finish .read, .on c (.reading deadline (some r))))
  | _ => none

/-- The completion handler of a read that was given up. -/
def readLate (m : State) (c : Nat) : Option State :=
  if (m.conns c).abandoned then
    some { m with
      conns := Function.update m.conns c { (m.conns c).finish .read with abandoned := false } }
  else none

/-- The completion handler of the write of an error response. -/
def refuseDone (m : State) (w : Nat) (ok : Bool) : Option State :=
  match m.request w with
  | .on c (.refusing code none) =>
    some (m.place w c ((m.conns c).finish .write, .on c (.refusing code (some ok))))
  | _ => none

/-- The completion handler of the write of a response. -/
def responseDone (m : State) (ok : Bool) : Option State :=
  match m.response with
  | .writing c none => some (m.settle c ((m.conns c).finish .write, .writing c (some ok)))
  | _ => none

/-- A slave answers the first message it has. -/
def reply (m : State) (n : Nat) (frame : Bytes) : Option State :=
  let node := m.nodes n
  match node.outstanding with
  | [] => none
  | job :: rest =>
    some { m with
      nodes := Function.update m.nodes n
        { node with outstanding := rest, inbox := node.inbox ++ [(job, frame)] }
      returned := m.returned ++ (job.map (·, frame)).toList }

/-- One step of the master. -/
def next (cfg : Config) (m : State) : Action → Option State
  | .tick => some { m with now := m.now + 1 }
  | .stop => some { m with stopped := true }
  | .accept ok => m.acceptStep cfg ok
  | .spawn r => m.spawnStep r
  | .request w p => m.requestStep cfg w p
  | .response => m.responseStep
  | .dispatch w r => m.dispatchStep cfg w r
  | .readDone w r => m.readDone w r
  | .readLate c => m.readLate c
  | .refuseDone w ok => m.refuseDone w ok
  | .responseDone ok => m.responseDone ok
  | .reply n frame => m.reply n frame

end State

/-- The master in operation. -/
def master (cfg : Config) : System State Action where
  init m := m = {}
  next := State.next cfg

end CovNet.Master
