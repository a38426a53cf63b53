import CovNet.Async.State
import CovNet.Socket.Admission

/-!
# Socket operations

The operations of `tcp::socket`, `udp::socket` and `async` in `network.cpp` and
`include/network.hpp`, from the call to the last store of the completion handler. An operation
checks its arguments, reserves the socket, prepares and does its work, gives the reservation back
and ends; an asynchronous one returns in between and goes on in its handler. They differ in what
they reserve, in what may fail on the way, in what they do to the TLS state and in the `state_type`
they are given or make: a `Code` says this, and `Code.go` is the body they share.

`operations` is the system of any number of calls on any number of sockets. Its steps are the
single accesses to the atomics, so that calls and handlers of different threads interleave at every
point; the fields of `state_type` that are not atomic are written in one step. A state belongs to
one running call at a time, since two threads that pass it at once race on these fields.

Three fields of a call and the mark on `tls_stream` are not in the source. The mark is the call that
made the stream, `tlsAt` is what a call found when it had reserved the socket, and `tlsElse` and
`stateElse` are what the TLS state and the `state_type` would be without the writes of this one call.
-/

namespace CovNet.Socket
open CovNet.Lib CovNet.Text

/-! ## What an operation is -/

/-- What an operation reserves. -/
inductive Reservation where
  /-- `begin_io_job` / `finish_io_job` -/
  | io (d : IoDirection)
  /-- `begin_exclusive_operation` / `end_exclusive_operation` -/
  | exclusive
  /-- `begin_draining_exclusive` / `end_draining_exclusive` -/
  | draining
  deriving DecidableEq, Repr

/-- Whether an operation waits for the jobs of others outside its reservation. -/
inductive Polling where
  | never
  /-- before it reserves the socket (`safe_close`) -/
  | before
  /-- after a refusal, and then it tries once more (`safe_shutdown`) -/
  | retry
  deriving DecidableEq, Repr

/-- What an operation does to the TLS state. -/
inductive TlsUse where
  | none
  /-- `init_ssl`, and `clear_ssl` when the handshake fails -/
  | enable
  /-- `clear_ssl` -/
  | clear
  deriving DecidableEq, Repr

/-- How an operation ends. -/
inductive Outcome where
  | returned
  | threw
  /-- the handler has run with this error code -/
  | completed (ec : Option Async.ErrorCode)
  deriving DecidableEq, Repr

/-- What tells one operation from another. -/
structure Code where
  kind : Kind
  reservation : Reservation
  /-- the arguments may be refused -/
  checks : Bool := false
  polling : Polling := .never
  tls : TlsUse := .none
  async : Bool := false
  /-- goes on with a state that an earlier operation may have used -/
  again : Bool := false
  /-- `is_read` of the state -/
  isRead : Bool := false
  /-- how it ends when it is not admitted -/
  refusal : Outcome := .threw
  /-- how it ends when its work fails -/
  failure : Outcome := .threw
  deriving DecidableEq, Repr

/-- `async::accept`. -/
def Async.accept : Code := { kind := .tcp, reservation := .exclusive, async := true }

/-- `async::connect`. -/
def Async.connect : Code := { kind := .tcp, reservation := .exclusive, async := true }

/-- `async::connect_ssl`: `parse_ssl_options` may throw. -/
def Async.connectSsl : Code :=
  { kind := .tcp, reservation := .exclusive, checks := true, tls := .enable, async := true }

/-- `async::read_until`. -/
def Async.readUntil : Code :=
  { kind := .tcp, reservation := .io .read, async := true, again := true, isRead := true }

/-- `async::read`: `checked_io_buffer_size` may throw. -/
def Async.read : Code :=
  { kind := .tcp, reservation := .io .read, checks := true, async := true, isRead := true }

/-- `async::write`. -/
def Async.write : Code := { kind := .tcp, reservation := .io .write, async := true }

/-- `async::receive_from`. -/
def Async.receiveFrom : Code :=
  { kind := .udp, reservation := .io .read, checks := true, async := true, isRead := true }

/-- `async::send_to`. -/
def Async.sendTo : Code := { kind := .udp, reservation := .io .write, async := true }

/-- `tcp::socket::accept`. -/
def Tcp.accept : Code := { kind := .tcp, reservation := .exclusive }

/-- `tcp::socket::connect`. -/
def Tcp.connect : Code := { kind := .tcp, reservation := .exclusive }

/-- `tcp::socket::connect_ssl`. -/
def Tcp.connectSsl : Code :=
  { kind := .tcp, reservation := .exclusive, checks := true, tls := .enable }

/-- `tcp::socket::receive`. -/
def Tcp.receive : Code := { kind := .tcp, reservation := .io .read, checks := true }

/-- `tcp::socket::read`. -/
def Tcp.read : Code := { kind := .tcp, reservation := .io .read, checks := true }

/-- `tcp::socket::send`. -/
def Tcp.send : Code := { kind := .tcp, reservation := .io .write }

/-- `tcp::socket::write`. -/
def Tcp.write : Code := { kind := .tcp, reservation := .io .write }

/-- `tcp::socket::available`: 0 when the job is not admitted. -/
def Tcp.available : Code := { kind := .tcp, reservation := .io .read, refusal := .returned }

/-- `tcp::socket::peer_closed`: never throws. -/
def Tcp.peerClosed : Code :=
  { kind := .tcp, reservation := .io .read, refusal := .returned, failure := .returned }

/-- `tcp::socket::close`. -/
def Tcp.close : Code := { kind := .tcp, reservation := .exclusive, tls := .clear }

/-- `tcp::socket::shutdown`. -/
def Tcp.shutdown : Code := { kind := .tcp, reservation := .exclusive, tls := .clear }

/-- `tcp::socket::safe_shutdown`: it returns early from a closed socket. -/
def Tcp.safeShutdown : Code :=
  { kind := .tcp, reservation := .draining, checks := true, polling := .retry, tls := .clear,
    refusal := .returned, failure := .returned }

/-- `udp::socket::receive_from`. -/
def Udp.receiveFrom : Code := { kind := .udp, reservation := .io .read, checks := true }

/-- `udp::socket::send_to`. -/
def Udp.sendTo : Code := { kind := .udp, reservation := .io .write }

/-- `udp::socket::available`. -/
def Udp.available : Code := { kind := .udp, reservation := .io .read, refusal := .returned }

/-- `udp::socket::close`. -/
def Udp.close : Code := { kind := .udp, reservation := .exclusive }

/-- `udp::socket::safe_close`: it returns early from a closed socket, and the exception of `close`
becomes a `false`. -/
def Udp.safeClose : Code :=
  { kind := .udp, reservation := .exclusive, checks := true, polling := .before,
    refusal := .returned, failure := .returned }

/-- The operations on sockets. -/
inductive Operation where
  | asyncAccept | asyncConnect | asyncConnectSsl | asyncReadUntil | asyncRead | asyncWrite
  | asyncReceiveFrom | asyncSendTo
  | accept | connect | connectSsl | receive | read | send | write | available | peerClosed
  | close | shutdown | safeShutdown
  | udpReceiveFrom | udpSendTo | udpAvailable | udpClose | udpSafeClose
  deriving DecidableEq, Repr

/-- The code of an operation. -/
def Operation.code : Operation → Code
  | .asyncAccept => Async.accept
  | .asyncConnect => Async.connect
  | .asyncConnectSsl => Async.connectSsl
  | .asyncReadUntil => Async.readUntil
  | .asyncRead => Async.read
  | .asyncWrite => Async.write
  | .asyncReceiveFrom => Async.receiveFrom
  | .asyncSendTo => Async.sendTo
  | .accept => Tcp.accept
  | .connect => Tcp.connect
  | .connectSsl => Tcp.connectSsl
  | .receive => Tcp.receive
  | .read => Tcp.read
  | .send => Tcp.send
  | .write => Tcp.write
  | .available => Tcp.available
  | .peerClosed => Tcp.peerClosed
  | .close => Tcp.close
  | .shutdown => Tcp.shutdown
  | .safeShutdown => Tcp.safeShutdown
  | .udpReceiveFrom => Udp.receiveFrom
  | .udpSendTo => Udp.sendTo
  | .udpAvailable => Udp.available
  | .udpClose => Udp.close
  | .udpSafeClose => Udp.safeClose

/-! ## The body the operations share -/

/-- How far a call has come. -/
inductive Stage where
  | unstarted
  /-- before the check of the arguments, of the state or of `is_open` -/
  | checking
  /-- before the load of `tls_enabled` in `begin_tls_handshake` -/
  | tlsCheck
  /-- in a loop that waits for `async_jobs` outside any reservation -/
  | polling
  /-- in the admission functions; after a refusal there is one more try or none -/
  | entering (retry : Bool)
  /-- admitted -/
  | reserved
  /-- prepared: before the blocking call of asio, or before its initiating function -/
  | working
  /-- the initiating function has returned, the handler has not run -/
  | pending
  /-- the reservation is given back -/
  | leaving (o : Outcome)
  /-- `read_until` puts the fields of its state back -/
  | restoring
  /-- before `has_done.store(true)` of the handler -/
  | storing (ec : Option Async.ErrorCode)
  | finished (o : Outcome)
  deriving DecidableEq, Repr

/-- `state_type`. -/
structure StateType extends Async.State where
  init : Bool
  deriving DecidableEq, Repr

/-- `create_async_state`. -/
def StateType.new : StateType := ⟨Async.State.new, false⟩

/-- `tls_enabled` and `tls_stream`, which is marked with the call that made it. -/
structure Tls (ι : Type*) where
  enabled : Bool
  stream : Option ι
  deriving DecidableEq, Repr

/-- What `clear_ssl` leaves. -/
def Tls.off {ι : Type*} : Tls ι := ⟨false, none⟩

/-- What `init_ssl` leaves. -/
def Tls.on {ι : Type*} (me : ι) : Tls ι := ⟨true, some me⟩

/-- One call. -/
structure Call (ι : Type*) where
  stage : Stage := .unstarted
  pc : Pc := .idle
  /-- `previous_init`, `previous_is_read`, `previous_has_done` and `previous_ec` -/
  previous : StateType := .new
  tlsAt : Tls ι := .off
  tlsElse : Tls ι := .off
  stateElse : StateType := .new
  deriving DecidableEq, Repr

/-- What a step of a call does to its socket and its state. -/
structure Effect (ι : Type*) where
  call : Call ι
  atomics : Atomics
  tls : Option (Tls ι) := none
  write : StateType → StateType := id

/-- The choices that the code does not make: the start of a call, whether a step that may fail does,
and what asio hands to a handler and has left in the buffer. -/
inductive Choice where
  | start
  | go (ok : Bool)
  | complete (ec : Option Async.ErrorCode) (bytes : Nat) (buffer : Bytes)
  deriving DecidableEq, Repr

/-- The next access of a call that enters or leaves its reservation. -/
def Reservation.access : Reservation → Pc → Instr
  | .io d, .idle => .beginIo d
  | .exclusive, .idle => .beginExclusive
  | .draining, .idle => .beginDraining
  | _, .ioLoad _ => .loadExclusive
  | _, .ioAdd _ => .addJob
  | _, .ioRecheck _ => .reloadExclusive
  | _, .ioUndo _ => .undoJob
  | _, .ioRefused _ => .dropOperation
  | _, .ioAdmitted _ => .finishJob
  | _, .ioFinish _ => .clearOperation
  | _, .exReserve => .reserveJobs
  | _, .exRefused => .dropExclusive
  | _, .exHeld => .releaseJobs
  | _, .exFinish => .clearExclusive
  | _, .draining => .endDraining
  | _, .drained => .endDraining

/-- The places at which a reservation is held. -/
def Reservation.holds : Reservation → Pc → Bool
  | .io d, p => p = .ioAdmitted d
  | .exclusive, p => p = .exHeld
  | .draining, p => p = .draining ∨ p = .drained

/-- What `read_until` writes before it starts to read. -/
def StateType.beginRead (st : StateType) : StateType :=
  { st with init := true, isRead := true, hasDone := false, ec := none }

/-- What `read_until` writes when its initiating function throws. -/
def StateType.restore (previous st : StateType) : StateType :=
  { st with
    init := previous.init
    isRead := previous.isRead
    ec := previous.ec
    hasDone := previous.hasDone }

/-- The stage after the checks. -/
def Code.afterChecks (code : Code) : Stage :=
  if code.tls = .enable then .tlsCheck
  else if code.polling = .before then .polling
  else .entering (code.polling = .retry)

/-- The stage after the reservation is given back. -/
def Code.afterLeaving (code : Code) : Outcome → Stage
  | .completed ec => .storing ec
  | .threw => if code.again then .restoring else .finished .threw
  | .returned => .finished .returned

/-- The check before anything is reserved. -/
def Code.check (code : Code) (st : StateType) (ok : Bool) : Stage :=
  if code.again ∧ st.init ∧ ¬ st.hasDone then .finished .threw
  else if code.checks ∧ ¬ ok then .finished code.refusal
  else code.afterChecks

/-- The stage after an access to the atomics on the way in. -/
def Code.entered (code : Code) (retry : Bool) (p : Pc) : Stage :=
  if p = .idle then (if retry then .polling else .finished code.refusal)
  else if code.reservation.holds p then .reserved
  else .entering retry

/-- The work between the reservation and the blocking call or the initiating function. -/
def Code.prepare (code : Code) (me : ι) (a : Atomics) (tls : Tls ι) (st : StateType) (c : Call ι)
    (ok : Bool) : Option (Effect ι) :=
  -- `safe_shutdown` first waits for the jobs it meets, up to its deadline
  if c.pc = .draining then
    if ok then
      (Thread.next code.kind a c.pc .pollJobs).map fun (a', p) => ⟨{ c with pc := p }, a', none, id⟩
    else some ⟨{ c with stage := .leaving code.failure }, a, none, id⟩
  else
    match code.tls with
    | .none =>
      some ⟨{ c with stage := .working, previous := st }, a, none,
        if code.again then StateType.beginRead else id⟩
    | .enable =>
      if tls.stream.isSome ∨ ¬ ok then some ⟨{ c with stage := .leaving code.failure }, a, none, id⟩
      else some ⟨{ c with stage := .working }, a, some (.on me), id⟩
    | .clear => some ⟨{ c with stage := .working }, a, some .off, id⟩

/-- The blocking call or the initiating function. -/
def Code.work (code : Code) (a : Atomics) (c : Call ι) (ok : Bool) : Effect ι :=
  if ok then ⟨{ c with stage := if code.async then .pending else .leaving .returned }, a, none, id⟩
  else
    ⟨{ c with stage := .leaving code.failure }, a,
      if code.tls = .enable then some .off else none, id⟩

/-- One step of a call that is not pending. -/
def Code.go (code : Code) (me : ι) (a : Atomics) (tls : Tls ι) (st : StateType) (c : Call ι)
    (ok : Bool) : Option (Effect ι) :=
  match c.stage with
  | .checking => some ⟨{ c with stage := code.check st ok }, a, none, id⟩
  | .tlsCheck =>
    let stage := if tls.enabled then .finished .threw else .entering false
    some ⟨{ c with stage := stage }, a, none, id⟩
  | .polling =>
    let stage :=
      if a.asyncJobs = 0 then .entering false
      else if ok then .polling
      else if code.polling = .before then .finished code.refusal
      else .entering false
    some ⟨{ c with stage := stage }, a, none, id⟩
  | .entering retry =>
    (Thread.next code.kind a c.pc (code.reservation.access c.pc)).map fun (a', p) =>
      ⟨{ c with stage := code.entered retry p, pc := p, tlsAt := tls }, a', none, id⟩
  | .reserved => code.prepare me a tls st c ok
  | .working => some (code.work a c ok)
  | .leaving o =>
    (Thread.next code.kind a c.pc (code.reservation.access c.pc)).map fun (a', p) =>
      ⟨{ c with stage := if p = .idle then code.afterLeaving o else .leaving o, pc := p }, a',
        none, id⟩
  | .restoring =>
    some ⟨{ c with stage := .finished .threw }, a, none, StateType.restore c.previous⟩
  | .storing ec =>
    some ⟨{ c with stage := .finished (.completed ec) }, a, none,
      fun st => { st with hasDone := true }⟩
  | _ => none

/-- What a handler writes before it gives the reservation back. -/
def Code.handle (code : Code) (ec : Option Async.ErrorCode) (bytes : Nat) (buffer : Bytes)
    (st : StateType) : StateType :=
  match code.reservation with
  | .io _ => { st with ec := ec, bytesTransferred := bytes, buffer := buffer }
  | _ => { st with ec := ec }

/-- One step of a call that has started. -/
def Code.step (code : Code) (me : ι) (a : Atomics) (tls : Tls ι) (st : StateType) (c : Call ι) :
    Choice → Option (Effect ι)
  | .start => none
  | .go ok => code.go me a tls st c ok
  | .complete ec bytes buffer =>
    if c.stage = .pending then
      some ⟨{ c with stage := .leaving (.completed ec) }, a,
        if code.tls = .enable ∧ ec.isSome then some .off else none, code.handle ec bytes buffer⟩
    else none

/-! ## Any number of calls -/

/-- A `state_type`, and whether a call that was passed it has not returned yet. -/
structure Cell where
  value : StateType
  inUse : Bool
  deriving DecidableEq, Repr

/-- A socket. -/
structure SocketState (ι : Type*) where
  atomics : Atomics := {}
  tls : Tls ι := .off
  deriving DecidableEq, Repr

/-- What is called: an operation, on a socket, with a state or with the address of a new one. -/
structure Job (κ : Type*) where
  operation : Operation
  sock : κ
  state : Nat
  deriving DecidableEq, Repr

/-- The code of a call. -/
abbrev Job.code {κ : Type*} (j : Job κ) : Code := j.operation.code

/-- The sockets, the states and the calls of a process. -/
structure Host (ι κ : Type*) where
  sockets : κ → SocketState ι
  states : Nat → Option Cell
  calls : ι → Call ι

/-- The stages at which a call has not returned to its caller. -/
def Stage.running : Stage → Bool
  | .unstarted | .pending | .leaving (.completed _) | .storing _ | .finished _ => false
  | _ => true

section Host
variable {ι κ : Type*} [DecidableEq ι] [DecidableEq κ] (job : ι → Job κ)

/-- The call `t` begins, with this value of its state. -/
def Host.enter (h : Host ι κ) (t : ι) (value : StateType) : Host ι κ :=
  { h with
    states := if (job t).code.async then Function.update h.states (job t).state (some ⟨value, true⟩)
      else h.states
    calls := Function.update h.calls t
      { stage := .checking, tlsElse := (h.sockets (job t).sock).tls, stateElse := value } }

/-- The call `t` begins if it can: `read_until` with a state that is there and that no running call
uses, the other asynchronous operations with a new one. -/
def Host.start (h : Host ι κ) (t : ι) : Option (Host ι κ) :=
  let code := (job t).code
  if (h.calls t).stage ≠ .unstarted then none
  else if code.async then
    match h.states (job t).state with
    | none =>
      if code.again then none
      else some (h.enter job t { StateType.new with init := true, isRead := code.isRead })
    | some cell => if code.again ∧ ¬ cell.inUse then some (h.enter job t cell.value) else none
  else some (h.enter job t .new)

/-- The value of the state of `t`. -/
def Host.value (h : Host ι κ) (t : ι) : StateType :=
  match h.states (job t).state with
  | some cell => cell.value
  | none => .new

/-- What a step of `t` makes of a state. -/
def Cell.apply (stage : Stage) (e : Effect ι) (cell : Cell) : Cell where
  value := e.write cell.value
  inUse := if stage.running then e.call.stage.running else cell.inUse

/-- The step of `t` with this effect. The other calls see what it writes. -/
def Host.apply (h : Host ι κ) (t : ι) (e : Effect ι) : Host ι κ where
  sockets := Function.update h.sockets (job t).sock
    ⟨e.atomics, e.tls.getD (h.sockets (job t).sock).tls⟩
  states :=
    if (job t).code.async then
      Function.update h.states (job t).state
        ((h.states (job t).state).map (Cell.apply (h.calls t).stage e))
    else h.states
  calls u :=
    if u = t then e.call
    else
      { h.calls u with
        tlsElse := if (job u).sock = (job t).sock then e.tls.getD (h.calls u).tlsElse
          else (h.calls u).tlsElse
        stateElse := if (job t).code.async ∧ (job u).state = (job t).state then
            e.write (h.calls u).stateElse
          else (h.calls u).stateElse }

/-- The calls `job`, each made at some time or never, on sockets of the kinds `kind`. At the start
no socket has been used, and some states have been made with `create_async_state`. -/
def operations (kind : κ → Kind) : System (Host ι κ) (ι × Choice) where
  init h := (∀ k, h.sockets k = {}) ∧ (∀ t, h.calls t = {}) ∧
    ∀ n cell, h.states n = some cell → cell = ⟨.new, false⟩
  next h := fun (t, choice) =>
    if (job t).code.kind = kind (job t).sock then
      match choice with
      | .start => h.start job t
      | choice =>
        let sock := h.sockets (job t).sock
        ((job t).code.step t sock.atomics sock.tls (h.value job t) (h.calls t) choice).map
          (h.apply job t)
    else none

end Host

end CovNet.Socket
