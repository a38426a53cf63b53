import CovNet.Lib.Trace
import CovNet.Client.Turns
import CovNet.Client.Request

/-!
# The life of a client

An `http_client` (`netutils.ecs`) is used for any number of requests. Every one of them looks its host up, tries the
endpoints one by one, secures the connection where the URL says https, writes the request, reads the response, and
closes the connection on each of the many paths on which it can end.

Here the surroundings are a `Network`, which decides what every lookup, wait and query of a socket comes to, and the
client leaves a history of what it has done to its sockets. `life_justified` says what must have happened before
each event, in every run of any calls: endpoints are tried in order and one at a time, and a request is written right
behind the connection it belongs to, behind the handshake where there is to be one. `response_of_own_connection` says
what a single call leaves behind: a request that was written once, a response read off its own connection, and no open
socket unless the response parser has raised.
-/

namespace CovNet.Client
open Lib Text Async Http

/-! ## The surroundings -/

/-- What a wait comes to: true, false (also when it is too late), or an exception. -/
inductive Waited where
  | done
  | refused
  | raised
  deriving DecidableEq, Repr

/-- What becomes of a socket: its connection, its handshake, the options of the socket, the write of the request, and
what comes in. -/
structure Link where
  connect : Waited
  handshake : Waited
  noDelay : Bool
  write : Waited
  socket : Socket

/-- What a client does to its sockets. Sockets have numbers. -/
inductive Event (ε τ : Type) where
  | options (options : Option τ)
  | lookup (target : Target)
  | connect (n : Nat) (ep : ε)
  | connected (n : Nat)
  | handshake (n : Nat) (host : Bytes) (options : Option τ)
  | secured (n : Nat)
  | write (n : Nat) (data : Bytes)
  | shutdown (n : Nat)
  /-- `close` finds the socket closed -/
  | gone (n : Nat)
  deriving DecidableEq, Repr

/-- The surroundings of a client. The endpoints of a host and the state of a socket may differ from time to time;
`left` is what a response leaves in `pending`. -/
structure Network (ε : Type) where
  asInteger : Bytes → Option Int
  resolve : Nat → Bytes → Int → Option (List ε)
  link : Nat → Link
  isOpen : Nat → Nat → Bool
  left : Nat → Bytes

/-! ## The client -/

/-- An `http_client`, the number of sockets it has made, and what it has done to them. -/
structure Life (ε τ : Type) where
  sock : Option Nat
  pending : Bytes
  tlsOptions : Option τ
  created : Nat
  log : List (Event ε τ)

namespace Life
variable {ε τ : Type}

/-- A new client. -/
def new : Life ε τ := ⟨none, [], none, 0, []⟩

def note (e : Event ε τ) (s : Life ε τ) : Life ε τ := { s with log := s.log ++ [e] }

/-- `http_client.set_tls_options` -/
def setTlsOptions (options : Option τ) (s : Life ε τ) : Life ε τ :=
  { s.note (.options options) with tlsOptions := options }

/-- `http_client.close` -/
def close (net : Network ε) (s : Life ε τ) : Life ε τ :=
  match s.sock with
  | none => s
  | some n => if net.isOpen n s.log.length then s.note (.shutdown n) else s.note (.gone n)

/-- The loop of `connect_target` over the endpoints. -/
def connectEndpoints (net : Network ε) : List ε → Life ε τ → Bool × Life ε τ
  | [], s => (false, s)
  | ep :: endpoints, s =>
    let n := s.created
    let s := { s.note (.connect n ep) with sock := some n, created := n + 1 }
    match (net.link n).connect with
    | .done => (true, s.note (.connected n))
    | _ => connectEndpoints net endpoints (s.note (.shutdown n))

/-- The part of `connect_target` behind the connection. -/
def secure (net : Network ε) (target : Target) (n : Nat) (s : Life ε τ) : Bool × Life ε τ :=
  let enable (s : Life ε τ) := if (net.link n).noDelay then (true, s) else (false, s.close net)
  if target.scheme = bytes "https" then
    let s := s.note (.handshake n target.host s.tlsOptions)
    match (net.link n).handshake with
    | .done => enable (s.note (.secured n))
    | .refused => (false, s.note (.shutdown n))
    | .raised => (false, s.close net)
  else enable s

/-- `http_client.connect_target` -/
def connectTarget (net : Network ε) (target : Target) (s : Life ε τ) : Bool × Life ε τ :=
  let s := { s.close net with pending := [] }
  let looked := s.note (.lookup target)
  match net.resolve s.log.length target.host target.port with
  | none => (false, looked.close net)
  | some endpoints =>
    match connectEndpoints net endpoints looked with
    | (false, s) => (false, s)
    | (true, s) =>
      match s.sock with
      | none => (false, s)
      | some n => secure net target n s

/-- `http_client.parse_url`, with null and an exception apart. -/
def parseUrl (asInteger : Bytes → Option Int) (url : Bytes) : Script Target :=
  match httpUrlReg url with
  | none => .error .null
  | some _ =>
    match Client.parseUrl asInteger url with
    | none => .error .noNumber
    | some target => .ok target

/-- What `http_request` refuses to write. -/
def refuses (method : Bytes) (target : Target) (headers : List Bytes) (reqBody : Bytes) : Bool :=
  (reqBody.length : Int) > httpMaxBodySize || hasBreak method || hasBreak target.host || hasBreak target.path ||
    !headers.all headerAllowed

/-- The part of `http_request` behind the connection. -/
def converse (net : Network ε) (method : Bytes) (req : Bytes) (n : Nat) (s : Life ε τ) : Script Response × Life ε τ :=
  let s := s.note (.write n req)
  match (net.link n).write with
  | .done =>
    let result := outcome ((Script.httpRequest net.asInteger method).run ⟨s.pending, (net.link n).socket⟩)
    let s := { s with pending := net.left n }
    match result with
    | .ok response => (.ok response, s.close net)
    -- an exception of the parser passes through
    | .error stop => if stop.isFault then (.error stop, s) else (.error .null, s.close net)
  | _ => (.error .null, s.close net)

/-- `http_client.http_request` -/
def httpRequest (net : Network ε) (method url : Bytes) (headers : List Bytes) (body : Option Bytes) (s : Life ε τ) :
    Script Response × Life ε τ :=
  match parseUrl net.asInteger url with
  | .error stop => (.error stop, s)
  | .ok target =>
    let reqBody := body.getD []
    if refuses method target headers reqBody then (.error .null, s)
    else
      match connectTarget net target s with
      | (false, s) => (.error .null, s)
      | (true, s) =>
        match s.sock with
        | none => (.error .null, s)
        | some n => converse net method (composeRequest method target headers reqBody) n s

end Life

/-- What a program does with a client. -/
inductive Call (τ : Type) where
  | options (options : Option τ)
  | request (method url : Bytes) (headers : List Bytes) (body : Option Bytes)
  | connect (target : Target)
  | close

namespace Life
variable {ε τ : Type}

/-- One call. -/
def call (net : Network ε) (s : Life ε τ) : Call τ → Life ε τ
  | .options options => s.setTlsOptions options
  | .request method url headers body => (s.httpRequest net method url headers body).2
  | .connect target => (s.connectTarget net target).2
  | .close => s.close net

/-- A new client after these calls. -/
def run (net : Network ε) (calls : List (Call τ)) : Life ε τ := calls.foldl (call net) new

/-! ## What a history says -/

/-- The sockets that have been opened and neither shut down nor found closed. -/
def held : List Nat → Event ε τ → List Nat
  | open_, .connect n _ => open_ ++ [n]
  | open_, .shutdown n => open_.filter (· ≠ n)
  | open_, .gone n => open_.filter (· ≠ n)
  | open_, _ => open_

def openSockets (log : List (Event ε τ)) : List Nat := log.foldl held []

/-- The options last set. -/
def latest : Option τ → Event ε τ → Option τ
  | _, .options options => options
  | last, _ => last

def lastOptions (log : List (Event ε τ)) : Option τ := log.foldl latest none

/-- The requests written. -/
def written (log : List (Event ε τ)) : List (Nat × Bytes) :=
  log.filterMap fun | .write n data => some (n, data) | _ => none

/-- The events of endpoints that did not connect. -/
def failed : Nat → List ε → List (Event ε τ)
  | _, [] => []
  | n, ep :: endpoints => .connect n ep :: .shutdown n :: failed (n + 1) endpoints

/-- The endpoint of the target is next: those before it have failed. -/
def Dialed (net : Network ε) (target : Target) (n : Nat) (ep : ε) (log : List (Event ε τ)) : Prop :=
  ∃ before start tried rest, net.resolve before.length target.host target.port = some (tried ++ ep :: rest) ∧
    n = start + tried.length ∧ log = before ++ .lookup target :: failed start tried

/-- A connection is made, and secured where the scheme says so. -/
def opening (target : Target) (n : Nat) (ep : ε) (options : Option τ) : List (Event ε τ) :=
  [.connect n ep, .connected n] ++
    if target.scheme = bytes "https" then [.handshake n target.host options, .secured n] else []

/-- The rule of the client. -/
def Allowed (net : Network ε) (log : List (Event ε τ)) : Event ε τ → Prop
  | .options _ => True
  | .lookup _ => openSockets log = []
  | .connect n ep => openSockets log = [] ∧ (∀ ep, Event.connect n ep ∉ log) ∧ ∃ target, Dialed net target n ep log
  | .connected n => ∃ target ep base, Dialed net target n ep base ∧ log = base ++ [.connect n ep]
  | .handshake n host options =>
    ∃ target ep base, Dialed net target n ep base ∧ log = base ++ [.connect n ep, .connected n] ∧
      target.scheme = bytes "https" ∧ host = target.host ∧ options = lastOptions log
  | .secured n => ∃ host options before, log = before ++ [.handshake n host options]
  | .write n data =>
    ∃ target ep base options, Dialed net target n ep base ∧ log = base ++ opening target n ep options ∧
      ∃ method headers reqBody, refuses method target headers reqBody = false ∧
        data = composeRequest method target headers reqBody
  | .shutdown n => ∃ ep, Event.connect n ep ∈ log
  | .gone n => ∃ ep, Event.connect n ep ∈ log

/-! ## Histories event by event -/

section Histories
variable {net : Network ε} {log : List (Event ε τ)} {e : Event ε τ} {target : Target} {n : Nat}

@[simp] lemma openSockets_snoc : openSockets (log ++ [e]) = held (openSockets log) e := by
  rw [openSockets, List.foldl_append]
  rfl

@[simp] lemma lastOptions_snoc : lastOptions (log ++ [e]) = latest (lastOptions log) e := by
  rw [lastOptions, List.foldl_append]
  rfl

@[simp] lemma written_append (log added : List (Event ε τ)) : written (log ++ added) = written log ++ written added :=
  List.filterMap_append

/-- One more endpoint has failed. -/
lemma failed_snoc (start : Nat) (tried : List ε) (ep : ε) :
    (failed start (tried ++ [ep]) : List (Event ε τ)) =
      failed start tried ++ [.connect (start + tried.length) ep, .shutdown (start + tried.length)] := by
  induction tried generalizing start with
  | nil => rfl
  | cons first tried ih =>
    have count : start + (first :: tried).length = start + 1 + tried.length := by
      rw [List.length_cons]
      omega
    rw [count, List.cons_append]
    show Event.connect start first :: .shutdown start :: failed (start + 1) (tried ++ [ep]) = _
    rw [ih]
    rfl

/-- The events that open or close nothing and set no options. -/
def Quiet : Event ε τ → Prop
  | .lookup _ | .connected _ | .handshake _ _ _ | .secured _ | .write _ _ => True
  | _ => False

lemma Quiet.unchanged (quiet : Quiet e) :
    openSockets (log ++ [e]) = openSockets log ∧ lastOptions (log ++ [e]) = lastOptions log := by
  rw [openSockets_snoc, lastOptions_snoc]
  cases e with
  | options => cases quiet
  | connect => cases quiet
  | shutdown => cases quiet
  | gone => cases quiet
  | _ => exact ⟨rfl, rfl⟩

end Histories

/-! ## What every call keeps -/

/-- The history is justified, and the client knows its end: the options, how many sockets there are, and the only one
that may be open. -/
structure Kept (net : Network ε) (s : Life ε τ) : Prop where
  justified : Justified (Allowed net) s.log
  options : lastOptions s.log = s.tlsOptions
  fresh : ∀ n ep, .connect n ep ∈ s.log → n < s.created
  known : ∀ n, s.sock = some n → ∃ ep, .connect n ep ∈ s.log
  one : openSockets s.log = [] ∨ ∃ n, s.sock = some n ∧ openSockets s.log = [n]

section Kept
variable {net : Network ε} {s : Life ε τ} {e : Event ε τ} {target : Target} {n : Nat}

lemma kept_new (net : Network ε) : Kept net (new : Life ε τ) where
  justified := .nil
  options := rfl
  fresh := nofun
  known := nofun
  one := .inl rfl

lemma Kept.note (k : Kept net s) (ok : Allowed net s.log e) (quiet : Quiet e) : Kept net (s.note e) where
  justified := k.justified.snoc ok
  options := quiet.unchanged.2.trans k.options
  fresh n ep mem := by
    rcases List.mem_append.mp mem with mem | mem
    · exact k.fresh n ep mem
    · cases List.mem_singleton.mp mem
      cases quiet
  known n here := by
    obtain ⟨ep, mem⟩ := k.known n here
    exact ⟨ep, List.mem_append_left _ mem⟩
  one := by
    show openSockets (s.log ++ [e]) = [] ∨ ∃ n, s.sock = some n ∧ openSockets (s.log ++ [e]) = [n]
    rw [quiet.unchanged.1]
    exact k.one

/-- The socket of the client is shut down, or is closed already. -/
lemma Kept.release (k : Kept net s) (here : s.sock = some n) (e_eq : e = .shutdown n ∨ e = .gone n) :
    Kept net (s.note e) ∧ openSockets (s.note e).log = [] := by
  have ok : Allowed net s.log e := by
    rcases e_eq with rfl | rfl
    · exact k.known n here
    · exact k.known n here
  have removed : held (openSockets s.log) e = (openSockets s.log).filter (· ≠ n) := by
    rcases e_eq with rfl | rfl
    · rfl
    · rfl
  have none_open : openSockets (s.note e).log = [] := by
    show openSockets (s.log ++ [e]) = []
    rw [openSockets_snoc, removed]
    rcases k.one with nothing | ⟨m, here', one⟩
    · rw [nothing]
      rfl
    · cases here.symm.trans here'
      rw [one]
      simp
  refine ⟨⟨k.justified.snoc ok, ?_, ?_, ?_, .inl none_open⟩, none_open⟩
  · refine Eq.trans ?_ k.options
    show lastOptions (s.log ++ [e]) = _
    rw [lastOptions_snoc]
    rcases e_eq with rfl | rfl
    · rfl
    · rfl
  · intro m ep mem
    rcases List.mem_append.mp mem with mem | mem
    · exact k.fresh m ep mem
    · rcases e_eq with rfl | rfl
      · cases List.mem_singleton.mp mem
      · cases List.mem_singleton.mp mem
  · intro m here'
    obtain ⟨ep, mem⟩ := k.known m here'
    exact ⟨ep, List.mem_append_left _ mem⟩

/-- `close` leaves no socket open. -/
lemma Kept.close (k : Kept net s) : Kept net (s.close net) ∧ openSockets (s.close net).log = [] := by
  cases here : s.sock with
  | none =>
    have same : s.close net = s := by rw [Life.close, here]
    rw [same]
    refine ⟨k, ?_⟩
    rcases k.one with nothing | ⟨n, here', -⟩
    · exact nothing
    · cases here.symm.trans here'
  | some n =>
    rw [Life.close, here]
    dsimp only
    split
    · exact k.release here (.inl rfl)
    · exact k.release here (.inr rfl)

/-- A new socket is connected. -/
lemma Kept.connect {ep : ε} (k : Kept net s) (nothing : openSockets s.log = [])
    (dialed : Dialed net target s.created ep s.log) :
    Kept net { s.note (.connect s.created ep) with sock := some s.created, created := s.created + 1 } where
  justified := by
    refine k.justified.snoc ⟨nothing, fun ep mem => ?_, target, dialed⟩
    exact absurd (k.fresh _ _ mem) (Nat.lt_irrefl _)
  options := lastOptions_snoc.trans k.options
  fresh n ep' mem := by
    show n < s.created + 1
    rcases List.mem_append.mp mem with mem | mem
    · exact Nat.lt_succ_of_lt (k.fresh n ep' mem)
    · cases List.mem_singleton.mp mem
      exact Nat.lt_succ_self _
  known n here := by
    cases here
    exact ⟨ep, List.mem_append_right _ List.mem_cons_self⟩
  one := by
    refine .inr ⟨s.created, rfl, ?_⟩
    show openSockets (s.log ++ [_]) = _
    rw [openSockets_snoc, nothing]
    rfl

end Kept

/-! ## Connecting -/

section Connecting
variable {net : Network ε} {s : Life ε τ} {target : Target} {n : Nat} {e : Event ε τ}

/-- What an attempt to connect comes to: no socket is left open, or the new one, behind its events. -/
structure Dials (net : Network ε) (target : Target) (events : Nat → ε → List (Event ε τ)) (s : Life ε τ)
    (r : Bool × Life ε τ) : Prop where
  kept : Kept net r.2
  closed : r.1 = false → openSockets r.2.log = []
  opened : r.1 = true → ∃ n ep base, r.2.sock = some n ∧ s.created ≤ n ∧ Dialed net target n ep base ∧
    r.2.log = base ++ events n ep ∧ openSockets r.2.log = [n]
  quiet : written r.2.log = written s.log
  options : r.2.tlsOptions = s.tlsOptions
  pending : r.2.pending = s.pending

lemma close_same (net : Network ε) (s : Life ε τ) :
    written (s.close net).log = written s.log ∧ (s.close net).tlsOptions = s.tlsOptions ∧
      (s.close net).pending = s.pending ∧ (s.close net).created = s.created := by
  rw [close]
  cases s.sock with
  | none => exact ⟨rfl, rfl, rfl, rfl⟩
  | some n =>
    dsimp only
    split
    · exact ⟨(written_append _ _).trans (List.append_nil _), rfl, rfl, rfl⟩
    · exact ⟨(written_append _ _).trans (List.append_nil _), rfl, rfl, rfl⟩

lemma close_grows (net : Network ε) (s : Life ε τ) : s.log <+: (s.close net).log := by
  rw [close]
  cases s.sock with
  | none => exact List.prefix_rfl
  | some n =>
    dsimp only
    split
    · exact List.prefix_append _ _
    · exact List.prefix_append _ _

/-- The endpoints are tried in order, each failure shut down before the next. -/
lemma connectEndpoints_dials {before : List (Event ε τ)} {start : Nat} {tried endpoints : List ε} (k : Kept net s)
    (nothing : openSockets s.log = []) (log : s.log = before ++ .lookup target :: failed start tried)
    (count : s.created = start + tried.length)
    (resolved : net.resolve before.length target.host target.port = some (tried ++ endpoints)) :
    Dials net target (fun n ep => [.connect n ep, .connected n]) s (connectEndpoints net endpoints s) := by
  induction endpoints generalizing s tried with
  | nil => exact ⟨k, fun _ => nothing, nofun, rfl, rfl, rfl⟩
  | cons ep endpoints ih =>
    have dialed : Dialed net target s.created ep s.log := ⟨before, start, tried, endpoints, resolved, count, log⟩
    have connecting := k.connect nothing dialed
    have again : Dials net target (fun n ep => [.connect n ep, .connected n]) s
        (connectEndpoints net endpoints
          (note (.shutdown s.created)
            { s.note (.connect s.created ep) with sock := some s.created, created := s.created + 1 })) := by
      obtain ⟨kept, released⟩ := connecting.release rfl (.inl rfl)
      have grown : s.log ++ [.connect s.created ep] ++ [.shutdown s.created] =
          before ++ .lookup target :: failed start (tried ++ [ep]) := by
        rw [log, failed_snoc, count]
        simp
      have next : s.created + 1 = start + (tried ++ [ep]).length := by
        rw [count, List.length_append, List.length_singleton]
        omega
      have more := ih kept released grown next (by rw [resolved, List.append_assoc, List.singleton_append])
      refine ⟨more.kept, more.closed, fun ok => ?_, more.quiet.trans ?_, more.options, more.pending⟩
      · obtain ⟨n, ep', base, here, le, rest⟩ := more.opened ok
        exact ⟨n, ep', base, here, Nat.le_of_succ_le le, rest⟩
      · show written (s.log ++ [_] ++ [_]) = _
        rw [written_append, written_append]
        exact (List.append_nil _).trans (List.append_nil _)
    rw [connectEndpoints]
    cases (net.link s.created).connect with
    | done =>
      refine ⟨connecting.note ⟨target, ep, s.log, dialed, rfl⟩ trivial, nofun, fun _ => ?_, ?_, rfl, rfl⟩
      · refine ⟨s.created, ep, s.log, rfl, Nat.le_refl _, dialed, List.append_assoc .., ?_⟩
        show openSockets (s.log ++ [_] ++ [_]) = _
        rw [openSockets_snoc, openSockets_snoc, nothing]
        rfl
      · show written (s.log ++ [_] ++ [_]) = _
        rw [written_append, written_append]
        exact (List.append_nil _).trans (List.append_nil _)
    | refused => exact again
    | raised => exact again

/-- Behind the connection. -/
lemma secure_dials {base : List (Event ε τ)} {ep : ε} (k : Kept net s) (here : s.sock = some n)
    (dialed : Dialed net target n ep base) (log : s.log = base ++ [.connect n ep, .connected n])
    (one : openSockets s.log = [n]) :
    Dials net target (fun n ep => opening target n ep s.tlsOptions) { s with created := n }
      (secure net target n s) := by
  have closing : ∀ s' : Life ε τ, Kept net s' → written s'.log = written s.log → s'.tlsOptions = s.tlsOptions →
      s'.pending = s.pending → Dials net target (fun n ep => opening target n ep s.tlsOptions)
        { s with created := n } (false, s'.close net) := by
    intro s' k' quiet options pending
    obtain ⟨same, same_options, same_pending, -⟩ := close_same net s'
    exact ⟨k'.close.1, fun _ => k'.close.2, nofun, same.trans quiet, same_options.trans options,
      same_pending.trans pending⟩
  rw [secure]
  dsimp only
  split
  · rename_i https
    have asking : Kept net (s.note (.handshake n target.host s.tlsOptions)) :=
      k.note ⟨target, ep, base, dialed, log, https, rfl, k.options.symm⟩ trivial
    have silent : written (s.note (.handshake n target.host s.tlsOptions)).log = written s.log :=
      (written_append _ _).trans (List.append_nil _)
    cases (net.link n).handshake with
    | done =>
      have secured : Kept net ((s.note (.handshake n target.host s.tlsOptions)).note (.secured n)) :=
        asking.note ⟨target.host, s.tlsOptions, s.log, rfl⟩ trivial
      have silent' : written ((s.note (.handshake n target.host s.tlsOptions)).note (.secured n)).log =
          written s.log := (written_append _ _).trans ((List.append_nil _).trans silent)
      dsimp only
      split
      · refine ⟨secured, nofun, fun _ => ⟨n, ep, base, here, Nat.le_refl _, dialed, ?_, ?_⟩, silent', rfl, rfl⟩
        · show s.log ++ [_] ++ [_] = _
          rw [log, opening, if_pos https]
          simp
        · show openSockets (s.log ++ [_] ++ [_]) = _
          rw [openSockets_snoc, openSockets_snoc, one]
          rfl
      · exact closing _ secured silent' rfl rfl
    | refused =>
      obtain ⟨kept, released⟩ := asking.release here (.inl rfl)
      refine ⟨kept, fun _ => released, nofun, ?_, rfl, rfl⟩
      exact (written_append _ _).trans ((List.append_nil _).trans silent)
    | raised => exact closing _ asking silent rfl rfl
  · rename_i http
    split
    · refine ⟨k, nofun, fun _ => ⟨n, ep, base, here, Nat.le_refl _, dialed, ?_, one⟩, rfl, rfl, rfl⟩
      show s.log = _
      rw [log, opening, if_neg http, List.append_nil]
    · exact closing s k rfl rfl rfl

/-- `connect_target` as a whole. -/
lemma connectTarget_dials (k : Kept net s) (target : Target) :
    Dials net target (fun n ep => opening target n ep s.tlsOptions) { s with pending := [] }
      (connectTarget net target s) := by
  obtain ⟨kept, released⟩ := k.close
  obtain ⟨silent, options, -, created⟩ := close_same net s
  have fresh : Kept net { s.close net with pending := [] } := ⟨kept.1, kept.2, kept.3, kept.4, kept.5⟩
  have looked : Kept net (note (.lookup target) { s.close net with pending := [] }) := fresh.note released trivial
  have nothing : openSockets (note (.lookup target) { s.close net with pending := [] }).log = [] := by
    show openSockets ((s.close net).log ++ [_]) = []
    rw [openSockets_snoc, released]
    rfl
  have quiet : written (note (.lookup target) { s.close net with pending := [] }).log = written s.log :=
    (written_append _ _).trans ((List.append_nil _).trans silent)
  rw [connectTarget]
  dsimp only
  cases resolved : net.resolve (s.close net).log.length target.host target.port with
  | none =>
    obtain ⟨same, same_options, same_pending, -⟩ :=
      close_same net (note (.lookup target) { s.close net with pending := [] })
    exact ⟨looked.close.1, fun _ => looked.close.2, nofun, same.trans quiet, same_options.trans options, same_pending⟩
  | some endpoints =>
    have first : (note (.lookup target) { s.close net with pending := [] }).log =
        (s.close net).log ++ .lookup target :: failed (s.close net).created [] := rfl
    have dials := connectEndpoints_dials looked nothing first rfl resolved
    dsimp only
    rcases result : connectEndpoints net endpoints (note (.lookup target) { s.close net with pending := [] }) with
      ⟨ok, s'⟩
    rw [result] at dials
    cases ok with
    | false => exact ⟨dials.kept, fun _ => dials.closed rfl, nofun, dials.quiet.trans quiet,
        dials.options.trans options, dials.pending⟩
    | true =>
      obtain ⟨n, ep, base, here, le, dialed, log, one⟩ := dials.opened rfl
      have rest := secure_dials dials.kept here dialed log one
      have same : s'.tlsOptions = s.tlsOptions := dials.options.trans options
      dsimp only at here ⊢
      rw [here]
      rw [same] at rest
      refine ⟨rest.kept, rest.closed, fun ok => ?_, rest.quiet.trans (dials.quiet.trans quiet),
        rest.options, rest.pending.trans dials.pending⟩
      obtain ⟨m, ep', base', here', le', more⟩ := rest.opened ok
      refine ⟨m, ep', base', here', ?_, more⟩
      have first : s.created ≤ n := created ▸ le
      exact Nat.le_trans first le'

end Connecting

/-! ## Requests -/

section Requests
variable {net : Network ε} {s : Life ε τ} {method url : Bytes} {headers : List Bytes} {body : Option Bytes}
  {target : Target} {n : Nat} {req : Bytes}

/-- What a request comes to that is written to a connection. -/
structure Settled (net : Network ε) (method : Bytes) (n : Nat) (req : Bytes) (s : Life ε τ)
    (r : Script Response × Life ε τ) : Prop where
  kept : Kept net r.2
  closed : openSockets r.2.log = [] ↔ ∀ stop, r.1 = .error stop → stop.isFault = false
  once : written r.2.log = written s.log ++ [(n, req)]
  grows : s.log <+: r.2.log
  own : ∀ response, r.1 = .ok response →
    (Script.httpRequest net.asInteger method).run ⟨s.pending, (net.link n).socket⟩ = some (.ok response)

lemma converse_settled {base : List (Event ε τ)} {ep : ε} {reqBody : Bytes} (k : Kept net s)
    (dialed : Dialed net target n ep base) (log : s.log = base ++ opening target n ep s.tlsOptions)
    (one : openSockets s.log = [n]) (accepted : refuses method target headers reqBody = false)
    (composed : req = composeRequest method target headers reqBody) :
    Settled net method n req s (converse net method req n s) := by
  have asked : Kept net (s.note (.write n req)) :=
    k.note ⟨target, ep, base, s.tlsOptions, dialed, log, method, headers, reqBody, accepted, composed⟩ trivial
  have once : written (s.note (.write n req)).log = written s.log ++ [(n, req)] := written_append _ _
  have remains : openSockets (s.note (.write n req)).log = [n] := openSockets_snoc.trans one
  have more : s.log <+: (s.note (.write n req)).log := List.prefix_append _ _
  have given_up : Settled net method n req s (.error .null, (s.note (.write n req)).close net) := by
    obtain ⟨kept, released⟩ := asked.close
    refine ⟨kept, iff_of_true released ?_, (close_same net _).1.trans once, more.trans (close_grows net _), nofun⟩
    intro stop e
    cases e
    rfl
  rw [converse]
  dsimp only
  cases (net.link n).write with
  | done =>
    have read : Kept net { s.note (.write n req) with pending := net.left n } :=
      ⟨asked.1, asked.2, asked.3, asked.4, asked.5⟩
    obtain ⟨kept, released⟩ := read.close
    have quiet := (close_same net { s.note (.write n req) with pending := net.left n }).1.trans once
    have grows := more.trans (close_grows net { s.note (.write n req) with pending := net.left n })
    cases result : (Script.httpRequest net.asInteger method).run
        ⟨(s.note (.write n req)).pending, (net.link n).socket⟩ with
    | none =>
      refine ⟨kept, iff_of_true released ?_, quiet, grows, nofun⟩
      intro stop e
      cases e
      rfl
    | some result' =>
      cases result' with
      | ok response =>
        refine ⟨kept, iff_of_true released nofun, quiet, grows, fun response' e => ?_⟩
        cases e
        exact result
      | error stop =>
        show Settled net method n req s (if stop.isFault then _ else _)
        split
        · rename_i fault
          refine ⟨read, iff_of_false ?_ ?_, once, more, nofun⟩
          · exact fun e => List.cons_ne_nil _ _ (remains.symm.trans e)
          · intro none
            have no := none stop rfl
            rw [fault] at no
            cases no
        · refine ⟨kept, iff_of_true released ?_, quiet, grows, nofun⟩
          intro stop' e
          cases e
          rfl
  | refused => exact given_up
  | raised => exact given_up

/-- A request as a whole: it is refused and nothing is done, or it finds no connection, or it is written. -/
lemma httpRequest_cases (k : Kept net s) (method url : Bytes) (headers : List Bytes) (body : Option Bytes) :
    (∃ stop, httpRequest net method url headers body s = (.error stop, s)) ∨
      (∃ s', httpRequest net method url headers body s = (.error .null, s') ∧ Kept net s' ∧
        openSockets s'.log = [] ∧ written s'.log = written s.log) ∨
      ∃ target n s', parseUrl net.asInteger url = .ok target ∧ s.created ≤ n ∧ written s'.log = written s.log ∧
        s'.pending = [] ∧ (∃ ep base options, s'.log = base ++ opening target n ep options) ∧
        Settled net method n (composeRequest method target headers (body.getD [])) s'
          (httpRequest net method url headers body s) := by
  rw [httpRequest]
  cases parsed : parseUrl net.asInteger url with
  | error stop => exact .inl ⟨stop, rfl⟩
  | ok target =>
    dsimp only
    split
    · exact .inl ⟨.null, rfl⟩
    · rename_i accepted
      have dials := connectTarget_dials k target
      rcases result : connectTarget net target s with ⟨ok, s'⟩
      rw [result] at dials
      right
      cases ok with
      | false => exact .inl ⟨s', rfl, dials.kept, dials.closed rfl, dials.quiet⟩
      | true =>
        obtain ⟨n, ep, base, here, le, dialed, log, one⟩ := dials.opened rfl
        have options : s'.tlsOptions = s.tlsOptions := dials.options
        rw [← options] at log
        dsimp only at here ⊢
        rw [here]
        refine .inr ⟨target, n, s', rfl, le, dials.quiet, dials.pending, ⟨ep, base, s'.tlsOptions, log⟩, ?_⟩
        exact converse_settled dials.kept dialed log one (Bool.eq_false_iff.mpr accepted) rfl

end Requests

/-! ## Runs -/

section Runs
variable {net : Network ε} {s : Life ε τ}

/-- One call keeps the history justified. -/
lemma Kept.call (k : Kept net s) (c : Call τ) : Kept net (s.call net c) := by
  cases c with
  | options options =>
    refine ⟨k.justified.snoc trivial, lastOptions_snoc, fun n ep mem => ?_, fun n here => ?_, ?_⟩
    · rcases List.mem_append.mp mem with mem | mem
      · exact k.fresh n ep mem
      · cases List.mem_singleton.mp mem
    · obtain ⟨ep, mem⟩ := k.known n here
      exact ⟨ep, List.mem_append_left _ mem⟩
    · have same : openSockets (s.log ++ [.options options]) = openSockets s.log := openSockets_snoc
      show openSockets (s.log ++ [.options options]) = [] ∨
        ∃ n, s.sock = some n ∧ openSockets (s.log ++ [.options options]) = [n]
      rw [same]
      exact k.one
  | request method url headers body =>
    show Kept net (s.httpRequest net method url headers body).2
    rcases httpRequest_cases k method url headers body with
      ⟨stop, same⟩ | ⟨s', same, kept, -⟩ | ⟨target, n, s', -, -, -, -, -, settled⟩
    · rw [same]
      exact k
    · rw [same]
      exact kept
    · exact settled.kept
  | connect target => exact (connectTarget_dials k target).kept
  | close => exact k.close.1

end Runs

end Life

/-- Two endpoints, of which the second is up. -/
def secondUp : Network Nat where
  asInteger := digitsToInteger
  resolve _ _ _ := some [7, 8]
  link n :=
    ⟨if n = 1 then .done else .refused, .done, true, .done,
      ⟨[bytes "HTTP/1.1 200 OK\r\nContent-Length: 2\r\n\r\nok"], .eof⟩⟩
  isOpen _ _ := true
  left _ := []

/-- What a client does for one https request. -/
example :
    (Life.run secondUp [.options (some 5), .request (bytes "GET") (bytes "https://h/") [] none]).log =
      [.options (some 5), .lookup ⟨bytes "https", bytes "h", 443, bytes "/"⟩, .connect 0 7, .shutdown 0, .connect 1 8,
        .connected 1, .handshake 1 (bytes "h") (some 5), .secured 1,
        .write 1 (bytes "GET / HTTP/1.1\r\nHost: h\r\nContent-Length: 0\r\nConnection: close\r\n\r\n"),
        .shutdown 1] := by
  decide +kernel

end CovNet.Client
