import CovNet.Socket.Admission
import CovNet.Http.Response

/-!
# A client connection of the master

The record `http_conn` of `netutils.ecs` and what a worker does to it between two points at which its
fiber can be switched: the head of the loops of `read_http_header`, the way from a failed read through
`send_error_response` into `safe_shutdown`, and `safe_shutdown` itself (`network.cpp`), which holds the
draining reservation of the socket while it waits for the pending jobs.

`enqueued`, `sent`, `failed` and `refused` are the history of the connection. No function below reads
them: they say which sessions were pushed on the queue, what was handed to `async.write` and for whom
(none for an error response), whether the write of a response has failed, and whether a read has.
-/

namespace CovNet.Master
open Lib Text Http Socket

/-- `http_conn.state`. -/
inductive ConnState where
  | close
  | established
  | busy
  deriving DecidableEq, Repr

/-- `http_conn`. `abandoned` is a read that is still pending after `read_http_header` gave it up. -/
structure HttpConn where
  isOpen : Bool := true
  sock : Atomics := {}
  abandoned : Bool := false
  state : ConnState := .established
  keepAlive : Bool := true
  requestCount : Nat := 0
  lastRequestTime : Nat := 0
  requestIdx : Int := 0
  requestQueue : List Nat := []
  enqueued : List Nat := []
  sent : List (Option Nat × Bytes) := []
  failed : Bool := false
  refused : Bool := false
  deriving DecidableEq, Repr

/-- A job on the socket is over. -/
def HttpConn.finish (conn : HttpConn) (d : IoDirection) : HttpConn :=
  { conn with sock := finishIoJob d conn.sock }

/-- `conn->request_queue[conn->request_idx]`: none where the index is out of range. -/
def HttpConn.current (conn : HttpConn) : Option Nat :=
  if 0 ≤ conn.requestIdx then conn.requestQueue[conn.requestIdx.toNat]? else none

/-- `session.connection == "close"`. -/
def closes (s : Session) : Bool := s.connection == bytes "close"

/-- A session is pushed on the queue. -/
def HttpConn.push (conn : HttpConn) (now σ : Nat) (s : Session) : HttpConn :=
  { conn with
    requestCount := conn.requestCount + 1
    lastRequestTime := now
    keepAlive := conn.keepAlive && !closes s
    requestQueue := conn.requestQueue ++ [σ]
    state := .established
    enqueued := conn.enqueued ++ [σ] }

/-! ## safe_shutdown -/

/-- `NETWORK_SAFE_SHUTDOWN_TIMEOUT_MS`. -/
def safeShutdownTimeout : Nat := 200

/-- The loops of `safe_shutdown` that yield, each with its deadline. -/
inductive Shutdown where
  /-- the reservation is held, jobs are pending -/
  | draining (deadline : Nat)
  /-- another holds the reservation -/
  | retrying (deadline : Nat)
  deriving DecidableEq, Repr

/-- The drain loop, up to its next yield: none when `safe_shutdown` returns. -/
def HttpConn.drain (conn : HttpConn) (now deadline : Nat) : HttpConn × Option Shutdown :=
  if conn.sock.asyncJobs = 0 then
    ({ conn with isOpen := false, sock := endDrainingExclusive conn.sock }, none)
  else if deadline ≤ now then ({ conn with sock := endDrainingExclusive conn.sock }, none)
  else (conn, some (.draining deadline))

/-- The loop that waits for another exclusive operation, then the second attempt. -/
def HttpConn.retry (conn : HttpConn) (now deadline : Nat) : HttpConn × Option Shutdown :=
  if 0 < conn.sock.asyncJobs ∧ now < deadline then (conn, some (.retrying deadline))
  else
    match beginDrainingExclusive conn.sock with
    | .ok a => { conn with sock := a }.drain now (now + safeShutdownTimeout)
    | .error _ => (conn, none)

/-- `safe_shutdown`, up to its first yield. -/
def HttpConn.safeShutdown (conn : HttpConn) (now : Nat) : HttpConn × Option Shutdown :=
  if !conn.isOpen then (conn, none)
  else
    match beginDrainingExclusive conn.sock with
    | .ok a => { conn with sock := a }.drain now (now + safeShutdownTimeout)
    | .error _ => conn.retry now (now + safeShutdownTimeout)

/-- `safe_shutdown` after a yield. -/
def HttpConn.resume (conn : HttpConn) (now : Nat) : Shutdown → HttpConn × Option Shutdown
  | .draining deadline => conn.drain now deadline
  | .retrying deadline => conn.retry now deadline

/-! ## The request worker -/

/-- What an asynchronous read came to. -/
inductive ReadResult where
  | ok
  | eof
  | error
  deriving DecidableEq, Repr

/-- What `read_http_header` makes of the bytes it has: read on, return a session, refuse them, or raise
in `set_opt_keep_alive`, which a closed socket does not take. -/
inductive Parsed where
  | more
  | session (s : Session)
  | refuse (code : StateCode)
  | fault

/-- Where `master_request_worker` waits once it has a connection. -/
inductive Phase where
  /-- for a read, until the deadline; the result is there once the handler has run -/
  | reading (deadline : Nat) (state : Option ReadResult)
  /-- for the write of an error response -/
  | refusing (code : StateCode) (state : Option Bool)
  /-- in `safe_shutdown`, after a read that failed with the code -/
  | shutting (code : StateCode) (sh : Shutdown)
  deriving DecidableEq, Repr

/-- What a fiber has raised: a job that was not admitted, or an option of a closed socket. -/
inductive Raised where
  | io (d : IoDirection)
  | option
  deriving DecidableEq, Repr

/-- Where `master_request_worker` is. A fiber that raises is gone. -/
inductive RequestPc where
  | head
  | on (c : Nat) (phase : Phase)
  | raised (e : Raised)
  | ended
  deriving DecidableEq, Repr

/-- What is left of a failed read once `safe_shutdown` has been entered. -/
def shutFor (c : Nat) (code : StateCode) : HttpConn × Option Shutdown → HttpConn × RequestPc
  | (conn, some sh) => (conn, .on c (.shutting code sh))
  | (conn, none) => ({ conn with state := .close }, .head)

/-- A read fails: `send_error_response` unless the stream ended, then `safe_shutdown`. -/
def HttpConn.refuse (conn : HttpConn) (c now : Nat) (code : StateCode) : HttpConn × RequestPc :=
  let conn := { conn with refused := true }
  if code = .codeEof then shutFor c code (conn.safeShutdown now)
  else
    match beginIoJob .tcp .write conn.sock with
    | .ok a =>
      ({ conn with sock := a, sent := conn.sent ++ [(none, composeResponse code.text)] },
        .on c (.refusing code none))
    | .error _ => (conn, .raised (.io .write))

/-- The head of the loops of `read_http_header`: the deadline is checked before a read is started. -/
def HttpConn.readLoop (conn : HttpConn) (c now deadline : Nat) : HttpConn × RequestPc :=
  if deadline ≤ now then conn.refuse c now .code408
  else
    match beginIoJob .tcp .read conn.sock with
    | .ok a => ({ conn with sock := a }, .on c (.reading deadline none))
    | .error _ => (conn, .raised (.io .read))

/-- The codes with which `read_http_header` refuses the bytes it has read. -/
def refusals : List StateCode := [.code400, .code413, .code431]

/-- What `read_http_header` does when its fiber is switched to: none while it waits. -/
def readNext (now deadline : Nat) (p : Parsed) : Option ReadResult → Option Parsed
  | none => if deadline ≤ now then some (.refuse .code408) else none
  | some .eof => some (.refuse .codeEof)
  | some .error => some (.refuse .code500)
  | some .ok =>
    match p with
    | .refuse code => if code ∈ refusals then some p else none
    | p => some p

end CovNet.Master
