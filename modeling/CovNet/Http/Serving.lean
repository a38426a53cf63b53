import CovNet.Http.Framing

/-!
# Serving a connection

`simple_worker` (`netutils.ecs`) answers the requests of a connection one after the other, and every handler
writes its response with `send_response`: header lines and a body, whatever the method. A client that takes
no body behind a response to HEAD loses its place in the stream as soon as such a response has one.

`responses_recovered_iff` says for every run of the worker that the client recovers the responses, one for
each request, if and only if the responses to HEAD have no body.
-/

namespace CovNet.Http
open Lib Text Async

/-! ## The server -/

/-- What `call_http_handler` comes to: a handler or a file, the handler of an error, or an error without one.
The first two call `send_response` once. -/
inductive Served where
  | handled (code data type : Bytes)
  | errorHandled (code data type : Bytes)
  | refused (code : StateCode)
  deriving DecidableEq, Repr

/-- A request and the response to it. -/
structure Exchange where
  session : Session
  now : UtcTime
  code : Bytes
  data : Bytes
  type : Bytes
  deriving DecidableEq, Repr

/-- What `send_response` writes. -/
def Exchange.response (e : Exchange) : Bytes :=
  sendResponse e.now e.session.version e.session.connection e.code e.data e.type

/-- `call_http_handler`: the response, and whether a handler was invoked successfully. -/
def callHttpHandler (now : UtcTime) (session : Session) : Served → Exchange × Bool
  | .handled code data type => (⟨session, now, code, data, type⟩, true)
  | .errorHandled code data type => (⟨session, now, code, data, type⟩, false)
  | .refused code =>
    (⟨{ session with connection := bytes "close" }, now, code.text, [], bytes "text/html"⟩, false)

/-- A server, its handlers and its surroundings: by the number of the request, whether it has been stopped,
when the reads are late, the time, and what the handlers do. -/
structure Server where
  asInteger : Bytes → Option Int
  maxBodySize : Int
  maxKeepAlive : Nat
  stopped : Nat → Bool
  late : Nat → Nat → Bool
  now : Nat → UtcTime
  serve : Nat → Session → Served

/-- The answer to a session: the last one a connection may have says close. -/
def Server.answer (server : Server) (count : Nat) (session : Session) : Exchange × Bool :=
  let session :=
    if server.maxKeepAlive ≤ count + 1 then { session with connection := bytes "close" } else session
  callHttpHandler (server.now count) session (server.serve count session)

/-- The loop of `simple_worker` over the requests of a connection, of these many at most: what was answered,
and what `read_http_header` has written in the end. -/
def simpleWorker (server : Server) : Nat → Nat → Socket → State → List Exchange × Bytes
  | 0, _, _, _ => ([], [])
  | turns + 1, count, sock, st =>
    if server.stopped count then ([], [])
    else
      match readHttpHeader server.asInteger server.maxBodySize (server.late count) sock st with
      | .error (.failed code) => ([], (errorResponse code).getD [])
      | .error _ => ([], [])
      | .ok (session, sock, st) =>
        let (exchange, handlerOk) := server.answer count session
        let forceClose := server.maxKeepAlive ≤ count + 1
        if ¬ handlerOk ∨ forceClose ∨ exchange.session.connection = bytes "close" then ([exchange], [])
        else
          let (exchanges, written) := simpleWorker server turns (count + 1) sock st
          (exchange :: exchanges, written)

/-! ## The client -/

/-- The lines up to the first empty one, and what follows it. -/
def readBlock (line : Bytes) : Bytes → Option (List Bytes × Bytes)
  | '\r' :: '\n' :: s =>
    if line = [] then some ([], s) else (readBlock [] s).map fun r => (line :: r.1, r.2)
  | c :: s => readBlock (line ++ [c]) s
  | [] => none

/-- The value of a string of digits. -/
def decimalValue (s : Bytes) : Option Nat :=
  s.foldlM (fun v c => if c.isDigit then some (10 * v + (c.toNat - '0'.toNat)) else none) 0

/-- The length the header lines announce. -/
def announced (lines : List Bytes) : Option Nat :=
  match lines.tail.filter fun l => fieldName l = some (bytes "content-length") with
  | [l] => decimalValue (trim (fieldValue l))
  | _ => none

/-- The first response of a stream, and what follows it: there is no body behind a response to HEAD, and one
of the announced length behind any other. -/
def readResponse (toHead : Bool) (s : Bytes) : Option ((List Bytes × Bytes) × Bytes) :=
  match readBlock [] s with
  | none => none
  | some (lines, s) =>
    if toHead then some ((lines, []), s)
    else
      match announced lines with
      | none => none
      | some n => if n ≤ s.length then some ((lines, s.take n), s.drop n) else none

/-- The responses of a stream, by the requests they are to. -/
def readResponses : List Bool → Bytes → Option (List (List Bytes × Bytes) × Bytes)
  | [], s => some ([], s)
  | toHead :: requests, s =>
    match readResponse toHead s with
    | none => none
    | some (response, s) => (readResponses requests s).map fun r => (response :: r.1, r.2)

/-! ## The stream -/

/-- The request was a HEAD. -/
def Exchange.toHead (e : Exchange) : Bool := e.session.method = bytes "HEAD"

/-- The header lines of a response, the status line first. -/
def Exchange.lines (e : Exchange) : List Bytes :=
  sentLines e.now e.session.version e.session.connection e.code e.data e.type

/-- What a client is to recover. -/
def Exchange.seen (e : Exchange) : List Bytes × Bytes := (e.lines, if e.toHead then [] else e.data)

/-- The texts of a response are each on one line. -/
def Exchange.Plain (e : Exchange) : Prop :=
  NoBreak e.session.version ∧ NoBreak e.session.connection ∧ NoBreak e.code ∧ NoBreak e.type

section Digits

lemma digitChar_digit {d : Nat} (h : d < 10) :
    d.digitChar.isDigit = true ∧ d.digitChar.toNat - '0'.toNat = d := by
  have all : ∀ d : Fin 10, d.val.digitChar.isDigit = true ∧ d.val.digitChar.toNat - '0'.toNat = d.val := by
    decide
  exact all ⟨d, h⟩

/-- A number comes back from its digits. -/
lemma decimalValue_decimal (n : Nat) : decimalValue (decimal n) = some n := by
  induction n using Nat.strong_induction_on with
  | _ n ih =>
    unfold decimal
    by_cases small : n < 10
    · obtain ⟨digit, value⟩ := digitChar_digit small
      rw [Nat.toDigits_of_lt_base small]
      simp only [decimalValue, List.foldlM_cons, List.foldlM_nil, digit, if_true, value, Nat.mul_zero, Nat.zero_add,
        Option.bind_eq_bind, Option.bind_some, Option.pure_def]
    · obtain ⟨digit, value⟩ := digitChar_digit (Nat.mod_lt n (show 0 < 10 by decide))
      have front : (Nat.toDigits 10 (n / 10)).foldlM
          (fun v c => if c.isDigit then some (10 * v + (c.toNat - '0'.toNat)) else none) 0 =
            some (n / 10) := ih (n / 10) (by omega)
      rw [Nat.toDigits_of_base_le (by decide) (by omega), decimalValue, List.foldlM_append, front]
      simp only [Option.bind_eq_bind, Option.bind_some, List.foldlM_cons, List.foldlM_nil, digit, if_true,
        value, Option.pure_def, Option.some.injEq]
      omega

end Digits

section Blocks
variable {l rest s : Bytes} {ls : List Bytes}

lemma readBlock_cons {c : Char} (h : c ≠ '\r') (line s : Bytes) :
    readBlock line (c :: s) = readBlock (line ++ [c]) s := by
  rw [readBlock]
  exact fun _ e _ => absurd e h

/-- A line is read up to its break. -/
lemma readBlock_line (h : '\r' ∉ l) (line s : Bytes) : readBlock line (l ++ s) = readBlock (line ++ l) s := by
  induction l generalizing line with
  | nil => rw [List.nil_append, List.append_nil]
  | cons c l ih =>
    rw [List.mem_cons, not_or] at h
    obtain ⟨ne, rest⟩ := h
    rw [List.cons_append, readBlock_cons (Ne.symm ne), ih rest, List.append_assoc, List.singleton_append]

/-- A header block is read as its lines. -/
lemma readBlock_block (h : ∀ l ∈ ls, IsLine l) (s : Bytes) :
    readBlock [] (Message.block ls ++ s) = some (ls, s) := by
  induction ls with
  | nil => rfl
  | cons l ls ih =>
    rw [List.forall_mem_cons] at h
    obtain ⟨ne, noCr, -⟩ := h.1
    rw [Message.block_cons, List.append_assoc, List.append_assoc, readBlock_line noCr, List.nil_append]
    show (if l = [] then some ([], Message.block ls ++ s)
      else (readBlock [] (Message.block ls ++ s)).map fun r => (l :: r.1, r.2)) = _
    rw [if_neg ne, ih h.2]
    rfl

/-- What is read is a header block. -/
lemma readBlock_eq {line : Bytes} (h : readBlock line s = some (ls, rest)) :
    line ++ s = Message.block ls ++ rest := by
  fun_induction readBlock line s generalizing ls with
  | case1 s =>
    cases h
    rfl
  | case2 line s text ih =>
    obtain ⟨⟨ls', rest'⟩, read, e⟩ := Option.map_eq_some_iff.mp h
    cases e
    rw [Message.block_cons, List.append_assoc, ← ih read, List.nil_append, List.append_assoc, crlf]
    rfl
  | case3 line c s other ih =>
    rw [← ih h, List.append_assoc, List.singleton_append]
  | case4 line => cases h

end Blocks

/-! ## Reading the responses -/

section Responses
variable {e : Exchange} {es : List Exchange} {tail : Bytes}

/-- The bytes of a response. -/
lemma Exchange.response_eq (e : Exchange) : e.response = Message.block e.lines ++ e.data := sendResponse_eq

lemma Exchange.Plain.isLine (plain : e.Plain) : ∀ l ∈ e.lines, IsLine l :=
  sentLines_isLine e.now e.data plain.1 plain.2.1 plain.2.2.1 plain.2.2.2

lemma fieldName_of (name : Bytes) {value : Bytes} (h : ':' ∉ name) :
    fieldName (name ++ ':' :: value) = some (tolower (trim name)) := by
  have front : (name ++ ':' :: value).takeWhile (· != ':') = name :=
    (span_stop (fun c mem => by simpa using ne_of_mem_of_not_mem mem h) rfl value).1
  rw [fieldName, if_pos (by simp), front]

/-- The name of a line that starts with a text constant. -/
lemma fieldName_header {line lower : Bytes} (name : Bytes) (start : line = name ++ [':', ' ']) (solid : ':' ∉ name)
    (low : tolower (trim name) = lower) (value : Bytes) : fieldName (line ++ value) = some lower := by
  rw [start, List.append_assoc, ← low]
  exact fieldName_of name solid

/-- The names of the header lines. -/
lemma Exchange.lines_names (e : Exchange) :
    e.lines.tail.map fieldName =
      [some (bytes "date"), some (bytes "server"), some (bytes "connection"), some (bytes "content-length"),
        some (bytes "content-type")] := by
  have date : ∀ x, fieldName (bytes "Date: " ++ x) = some (bytes "date") :=
    fieldName_header (bytes "Date") (by decide) (by decide) (by decide)
  have server : ∀ x, fieldName (bytes "Server: " ++ x) = some (bytes "server") :=
    fieldName_header (bytes "Server") (by decide) (by decide) (by decide)
  have connection : ∀ x, fieldName (bytes "Connection: " ++ x) = some (bytes "connection") :=
    fieldName_header (bytes "Connection") (by decide) (by decide) (by decide)
  have length : ∀ x, fieldName (bytes "Content-Length: " ++ x) = some (bytes "content-length") :=
    fieldName_header (bytes "Content-Length") (by decide) (by decide) (by decide)
  have type : ∀ x, fieldName (bytes "Content-Type: " ++ x) = some (bytes "content-type") :=
    fieldName_header (bytes "Content-Type") (by decide) (by decide) (by decide)
  simp only [Exchange.lines, sentLines, List.tail_cons, List.map_cons, List.map_nil, List.append_assoc, date,
    server, connection, length, type]

/-- The announced length is that of the data. -/
lemma announced_lines (e : Exchange) : announced e.lines = some e.data.length := by
  have names := e.lines_names
  simp only [Exchange.lines, sentLines, List.tail_cons, List.map_cons, List.cons.injEq] at names
  obtain ⟨date, server, connection, length, type, -⟩ := names
  have value : ∀ x, fieldValue (bytes "Content-Length: " ++ x) = x := fun x => rfl
  have digits : trim (decimal e.data.length) = decimal e.data.length :=
    trim_eq_self fun c mem => isSpace_of_isDigit (isDigit_decimal mem)
  have one : (e.lines.tail.filter fun l => fieldName l = some (bytes "content-length")) =
      [bytes "Content-Length: " ++ decimal e.data.length] := by
    simp only [Exchange.lines, sentLines, List.tail_cons, List.filter_cons, date, server, connection, length,
      type, List.filter_nil]
    rfl
  rw [announced, one]
  dsimp only
  rw [value, digits, decimalValue_decimal]

/-- A response that has the body it should have is read, and no more. -/
lemma readResponse_response (plain : e.Plain) (fit : e.toHead = true → e.data = []) (s : Bytes) :
    readResponse e.toHead (e.response ++ s) = some (e.seen, s) := by
  rw [e.response_eq, List.append_assoc, readResponse, readBlock_block plain.isLine]
  dsimp only
  by_cases toHead : e.toHead = true
  · rw [if_pos toHead, fit toHead, Exchange.seen, if_pos toHead, List.nil_append]
  · rw [if_neg toHead, announced_lines, Exchange.seen, if_neg toHead]
    dsimp only
    rw [if_pos (by simp), List.take_left, List.drop_left]

lemma readResponses_append (plain : ∀ e ∈ es, e.Plain) (fit : ∀ e ∈ es, e.toHead = true → e.data = [])
    (tail : Bytes) :
    readResponses (es.map Exchange.toHead) (es.flatMap Exchange.response ++ tail) =
      some (es.map Exchange.seen, tail) := by
  induction es with
  | nil => rfl
  | cons e es ih =>
    rw [List.forall_mem_cons] at plain fit
    rw [List.map_cons, List.flatMap_cons, List.append_assoc, readResponses,
      readResponse_response plain.1 fit.1]
    dsimp only
    rw [ih plain.2 fit.2]
    rfl

/-- What is read is a front of the stream. -/
lemma readResponse_eq {toHead : Bool} {s rest : Bytes} {r : List Bytes × Bytes}
    (h : readResponse toHead s = some (r, rest)) : s = Message.block r.1 ++ r.2 ++ rest := by
  unfold readResponse at h
  split at h
  · cases h
  · rename_i lines s' read
    have block := readBlock_eq read
    rw [List.nil_append] at block
    split at h
    · cases h
      rw [block, List.append_nil]
    · split at h
      · cases h
      · split at h
        · cases h
          rw [block, List.append_assoc, List.take_append_drop]
        · cases h

lemma readResponses_eq {requests : List Bool} {s rest : Bytes} {rs : List (List Bytes × Bytes)}
    (h : readResponses requests s = some (rs, rest)) :
    s = rs.flatMap (fun r => Message.block r.1 ++ r.2) ++ rest := by
  induction requests generalizing s rs with
  | nil =>
    cases h
    rfl
  | cons toHead requests ih =>
    rw [readResponses] at h
    split at h
    · cases h
    · rename_i r s' read
      obtain ⟨⟨rs', rest'⟩, more, e⟩ := Option.map_eq_some_iff.mp h
      cases e
      rw [readResponse_eq read, ih more, List.flatMap_cons]
      simp only [List.append_assoc]

/-- A client loses no more than the bodies it does not take. -/
lemma length_seen_le (es : List Exchange) :
    ((es.map Exchange.seen).flatMap fun r => Message.block r.1 ++ r.2).length ≤
      (es.flatMap Exchange.response).length := by
  induction es with
  | nil => exact Nat.le_refl 0
  | cons e es ih =>
    have mine : e.seen.2.length ≤ e.data.length := by
      unfold Exchange.seen
      dsimp only
      split
      · exact Nat.zero_le _
      · exact Nat.le_refl _
    simp only [List.map_cons, List.flatMap_cons, List.length_append, e.response_eq] at ih ⊢
    have same : e.seen.1 = e.lines := rfl
    rw [same]
    omega

/-- If nothing is lost, no response to HEAD has a body. -/
lemma fit_of_seen (h : es.flatMap Exchange.response =
    (es.map Exchange.seen).flatMap fun r => Message.block r.1 ++ r.2) :
    ∀ e ∈ es, e.toHead = true → e.data = [] := by
  induction es with
  | nil => exact fun e mem => absurd mem List.not_mem_nil
  | cons e es ih =>
    have more := length_seen_le es
    have len := congrArg List.length h
    simp only [List.map_cons, List.flatMap_cons, e.response_eq, List.append_assoc] at h len
    have rest := List.append_cancel_left h
    have same : e.seen.1 = e.lines := rfl
    rw [same] at len
    simp only [List.length_append] at len
    refine List.forall_mem_cons.mpr ⟨fun toHead => ?_, ih ?_⟩
    · -- the two texts have the same length, so there is no room for a body that is not seen
      have none : e.seen.2 = [] := by rw [Exchange.seen, if_pos toHead]
      rw [none, List.length_nil] at len
      exact List.eq_nil_of_length_eq_zero (by omega)
    · have eq : e.seen.2 = e.data := by
        by_cases toHead : e.toHead = true
        · have none : e.seen.2 = [] := by rw [Exchange.seen, if_pos toHead]
          rw [none, List.length_nil] at len
          rw [none, List.eq_nil_of_length_eq_zero (l := e.data) (by omega)]
        · rw [Exchange.seen, if_neg toHead]
      rw [eq] at rest
      exact List.append_cancel_left rest

end Responses

section Run
variable {server : Server} {count : Nat} {sock : Socket} {st : State}

/-- The handlers give texts of one line each. -/
def Server.Plain (server : Server) : Prop :=
  ∀ count session code data type,
    server.serve count session = .handled code data type ∨
      server.serve count session = .errorHandled code data type → NoBreak code ∧ NoBreak type

lemma callHttpHandler_plain (plain : server.Plain) {now : UtcTime} {session : Session}
    (version : NoBreak session.version) (connection : NoBreak session.connection) :
    (callHttpHandler now session (server.serve count session)).1.Plain := by
  have texts : ∀ code : StateCode, NoBreak code.text := by
    intro code
    cases code <;> decide
  have close : NoBreak (bytes "close") ∧ NoBreak (bytes "text/html") := by decide
  cases served : server.serve count session with
  | handled code data type =>
    exact ⟨version, connection, plain count session code data type (.inl served)⟩
  | errorHandled code data type =>
    exact ⟨version, connection, plain count session code data type (.inr served)⟩
  | refused code => exact ⟨version, close.1, texts code, close.2⟩

lemma noBreak_of_version {version : Bytes} (h : version.all isVersionChar = true) : NoBreak version := by
  have no : ∀ c, isVersionChar c = false → c ∉ version := by
    intro c hc mem
    rw [List.all_eq_true.mp h c mem] at hc
    cases hc
  exact ⟨no _ rfl, no _ rfl⟩

/-- The answer to a session that was read is plain. -/
lemma answer_plain (plain : server.Plain) {late : Nat → Bool} {session : Session} {sock' : Socket}
    {st' : State}
    (call : readHttpHeader server.asInteger server.maxBodySize late sock st = .ok (session, sock', st')) :
    (server.answer count session).1.Plain := by
  obtain ⟨header, made, hm, eq, -⟩ := parseRequest_made (readHttpHeader_parses call)
  obtain ⟨version, connection, -⟩ := createHttpSession_text hm
  have ok : NoBreak session.version := by
    rw [eq]
    exact noBreak_of_version version
  have close : NoBreak (bytes "close") := by decide
  unfold Server.answer
  dsimp only
  split
  · exact callHttpHandler_plain plain ok close
  · refine callHttpHandler_plain plain ok ?_
    rw [eq]
    exact connection

lemma simpleWorker_plain (plain : server.Plain) (turns : Nat) :
    ∀ e ∈ (simpleWorker server turns count sock st).1, e.Plain := by
  induction turns generalizing count sock st with
  | zero => exact fun e mem => absurd mem List.not_mem_nil
  | succ turns ih =>
    rw [simpleWorker]
    split
    · exact fun e mem => absurd mem List.not_mem_nil
    split
    · exact fun e mem => absurd mem List.not_mem_nil
    · exact fun e mem => absurd mem List.not_mem_nil
    rename_i session sock' st' call
    have mine : (server.answer count session).1.Plain := answer_plain plain call
    dsimp only
    split
    · exact List.forall_mem_singleton.mpr mine
    · exact List.forall_mem_cons.mpr ⟨mine, ih⟩

end Run

/-- A client recovers from what the worker has written one response for each request it has answered, in
their order and with their header lines and bodies, and only what `read_http_header` wrote in the end stays
behind, if and only if the responses to HEAD have no body. -/
theorem responses_recovered_iff (server : Server) (plain : server.Plain) (turns : Nat) (sock : Socket) :
    let (exchanges, written) := simpleWorker server turns 0 sock State.new
    readResponses (exchanges.map Exchange.toHead) (exchanges.flatMap Exchange.response ++ written) =
        some (exchanges.map Exchange.seen, written) ↔
      ∀ e ∈ exchanges, e.toHead = true → e.data = [] := by
  have texts : ∀ e ∈ (simpleWorker server turns 0 sock State.new).1, e.Plain :=
    simpleWorker_plain plain turns
  generalize simpleWorker server turns 0 sock State.new = run at texts ⊢
  obtain ⟨exchanges, written⟩ := run
  constructor
  · intro h
    exact fit_of_seen (List.append_cancel_right (readResponses_eq h))
  · intro fit
    exact readResponses_append texts fit written

/-- A server that answers every request with the same page, but HEAD with the given body. -/
def pageServer (headBody : Bytes) : Server where
  asInteger := fun _ => none
  maxBodySize := 100
  maxKeepAlive := 100
  stopped := fun _ => false
  late := fun _ _ => false
  now := fun _ => epoch
  serve := fun _ session =>
    .handled (bytes "200 OK") (if session.method = bytes "HEAD" then headBody else bytes "hello")
      (bytes "text/plain")

/-- A client that asks for a page with HEAD first. -/
def headThenGet : Socket :=
  ⟨[bytes "HEAD / HTTP/1.1\r\nHost: h\r\n\r\nGET / HTTP/1.1\r\nHost: h\r\n\r\n"], .eof⟩

theorem responses_recovered_page :
    let (exchanges, written) := simpleWorker (pageServer []) 3 0 headThenGet State.new
    exchanges.map Exchange.toHead = [true, false] ∧
    readResponses (exchanges.map Exchange.toHead) (exchanges.flatMap Exchange.response ++ written) =
      some (exchanges.map Exchange.seen, written) := by
  refine ⟨by decide +kernel, (responses_recovered_iff (pageServer []) ?_ 3 headThenGet).mpr ?_⟩
  · intro count session code data type served
    rcases served with served | served
    · cases served
      decide
    · cases served
  · decide +kernel

/-- If the page answers the HEAD, too, the client does not find the second response. -/
theorem head_body_shifts :
    let (exchanges, written) := simpleWorker (pageServer (bytes "hello")) 3 0 headThenGet State.new
    exchanges.map Exchange.toHead = [true, false] ∧
    readResponses (exchanges.map Exchange.toHead) (exchanges.flatMap Exchange.response ++ written) ≠
      some (exchanges.map Exchange.seen, written) := by
  decide +kernel

end CovNet.Http
