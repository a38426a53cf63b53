import CovNet.Http.Routing
import CovNet.Http.Serialize

/-!
# The life of a connection

`simple_worker` (`netutils.ecs`) decides after each response whether the connection is closed. What the response
says about that has been written before, by the handler, from `session.connection`.

The two go apart where a handler is bound to the code of an error: its response says what the request asked
for, and the connection is closed all the same (`error_page_keeps_alive`). A request whose `Connection` is
`close` with white space around it is answered likewise, and the connection is kept. `connection_agrees_iff`
says that there is nothing else.
-/

namespace CovNet.Http
open Lib Text Async

/-! ## The loop -/

/-- A server and the surroundings of a connection, by the number of the request: whether the server has been
stopped, when the reads are late, the time, whether the write of the response succeeds, and whether the socket
is open behind it. -/
structure Service where
  site : Site
  asInteger : Bytes → Option Int
  maxBodySize : Int
  maxKeepAlive : Nat
  stopped : Nat → Bool
  late : Nat → Nat → Bool
  now : Nat → UtcTime
  sent : Nat → Bool
  isOpen : Nat → Bool

/-- What becomes of a connection behind a response. -/
inductive Fate where
  /-- the write has failed, or the socket is closed already -/
  | lost
  | closed
  | kept
  deriving DecidableEq, Repr

/-- A request, by its number, and what was made of it. -/
structure Answer where
  count : Nat
  request : Session
  exchange : Exchange
  fate : Fate
  deriving DecidableEq, Repr

namespace Service

/-- The request is the last one the connection may have: `force_close`. -/
def forceClose (service : Service) (count : Nat) : Bool := service.maxKeepAlive ≤ count + 1

/-- The session the handler is called with. -/
def session (service : Service) (count : Nat) (session : Session) : Session :=
  if service.forceClose count then { session with connection := bytes "close" } else session

/-- What follows the response. -/
def fate (service : Service) (count : Nat) (exchange : Exchange) (handlerOk : Bool) : Fate :=
  if !service.sent count then .lost
  else if !handlerOk then .closed
  else if !service.isOpen count then .lost
  else if service.forceClose count || exchange.session.connection = bytes "close" then .closed
  else .kept

/-- The answer to a request: none where `call_http_handler` raises. -/
def answer (service : Service) (count : Nat) (request : Session) : Option Answer :=
  (service.site.serve count (service.session count request)).map fun served =>
    let (exchange, handlerOk) := callHttpHandler (service.now count) (service.session count request) served
    ⟨count, request, exchange, service.fate count exchange handlerOk⟩

/-- The loop of `simple_worker` over the requests of a connection, of these many at most. -/
def requestLoop (service : Service) : Nat → Nat → Socket → State → List Answer
  | 0, _, _, _ => []
  | turns + 1, count, sock, st =>
    if service.stopped count then []
    else
      match readHttpHeader service.asInteger service.maxBodySize (service.late count) sock st with
      | .error _ => []
      | .ok (request, sock, st) =>
        match service.answer count request with
        | none => []
        | some answer =>
          if answer.fate = .kept then answer :: requestLoop service turns (count + 1) sock st else [answer]

/-- The connection behind these many requests. -/
def behind (service : Service) : Nat → Nat → Socket → State → Option (Socket × State)
  | 0, _, sock, st => some (sock, st)
  | requests + 1, count, sock, st =>
    match readHttpHeader service.asInteger service.maxBodySize (service.late count) sock st with
    | .error _ => none
    | .ok (_, sock, st) => service.behind requests (count + 1) sock st

/-- A request is there in time, it is well-formed, the server has not been stopped, and a handler answers. -/
def Asked (service : Service) (count : Nat) (sock : Socket) (st : State) : Prop :=
  service.stopped count = false ∧ ∃ request sock' st',
    readHttpHeader service.asInteger service.maxBodySize (service.late count) sock st = .ok (request, sock', st') ∧
      (service.answer count request).isSome = true

/-- The service as a server whose handlers do not raise. -/
def server (service : Service) (serve : Nat → Session → Served) : Server where
  asInteger := service.asInteger
  maxBodySize := service.maxBodySize
  maxKeepAlive := service.maxKeepAlive
  stopped := service.stopped
  late := service.late
  now := service.now
  serve := serve

end Service

/-! ## What a response says -/

/-- The response has a Connection header whose value is read as close. -/
def Answer.SaysClose (read : Bytes → Bytes) (answer : Answer) : Prop :=
  ∃ l ∈ answer.exchange.lines.tail, fieldName l = some (bytes "connection") ∧ read (fieldValue l) = bytes "close"

/-- The error of the static branch that a request comes to. -/
def Site.error (site : Site) (count : Nat) (url : Bytes) : Option StateCode :=
  match route (site.urlMap.map Prod.fst) url with
  | some none =>
    match Path.serveStatic (site.fs count) site.sep site.wwwroot url with
    | .ok _ => none
    | .error text => some (errorCode text)
  | _ => none

/-- The request is the last one the connection may have. Or it comes to an error, and its connection is close
if a handler is bound to that. Or it does not, and its connection is not close with something around it. -/
def Service.Honest (service : Service) (read : Bytes → Bytes) (count : Nat) (request : Session) : Prop :=
  service.forceClose count = true ∨
    match service.site.error count request.url with
    | some code => code.text ∈ service.site.urlMap.map Prod.fst → read request.connection = bytes "close"
    | none => read request.connection = bytes "close" → request.connection = bytes "close"

section Answers
variable {service : Service} {site : Site} {read : Bytes → Bytes} {count : Nat} {request session : Session}
  {answer : Answer} {served : Served}

/-- The one Connection header of a response has the connection of the session. -/
lemma saysClose_iff : answer.SaysClose read ↔ read answer.exchange.session.connection = bytes "close" := by
  have names := answer.exchange.lines_names
  simp only [Exchange.lines, sentLines, List.tail_cons, List.map_cons, List.cons.injEq] at names
  obtain ⟨date, server, connection, length, type, -⟩ := names
  have value : ∀ x, fieldValue (bytes "Connection: " ++ x) = x := fun x => rfl
  simp only [Answer.SaysClose, Exchange.lines, sentLines, List.tail_cons, List.mem_cons, List.not_mem_nil,
    or_false, exists_eq_or_imp, exists_eq_left, date, server, connection, length, type, value, true_and]
  simp [bytes]

/-- What a session is served says whether it comes to an error, and whether a handler is bound to that. -/
lemma serve_cases (h : site.serve count session = some served) :
    (∃ page : Page, served = .handled page.code page.data page.type ∧ site.error count session.url = none) ∨
    (∃ (page : Page) (code : StateCode), served = .errorHandled page.code page.data page.type ∧
      site.error count session.url = some code ∧ code.text ∈ site.urlMap.map Prod.fst) ∨
    ∃ code : StateCode, served = .refused code ∧ site.error count session.url = some code ∧
      code.text ∉ site.urlMap.map Prod.fst := by
  unfold Site.serve at h
  unfold Site.error
  split at h
  · cases h
  · rename_i key e
    obtain ⟨handler, -, rfl⟩ := Option.map_eq_some_iff.mp h
    exact .inl ⟨handler count session, rfl, by rw [e]⟩
  · rename_i e
    rw [e]
    -- only the static branch comes to an error
    cases file : Path.serveStatic (site.fs count) site.sep site.wwwroot session.url with
    | ok path =>
      simp only [file, Option.some.injEq] at h
      exact .inl ⟨⟨_, _, _⟩, h.symm, rfl⟩
    | error text =>
      simp only [file] at h ⊢
      right
      split at h
      · rename_i handler bound
        cases h
        refine .inl ⟨handler count session, errorCode text, rfl, rfl, ?_⟩
        by_contra free
        rw [lookup_eq_none.mpr free] at bound
        cases bound
      · rename_i free
        cases h
        exact .inr ⟨errorCode text, rfl, rfl, lookup_eq_none.mp free⟩

/-- Where the loop is left, unless something went wrong. -/
lemma fate_closed_iff {exchange : Exchange} {handlerOk : Bool}
    (alive : service.fate count exchange handlerOk ≠ .lost) :
    service.fate count exchange handlerOk = .closed ↔
      handlerOk = false ∨ service.forceClose count = true ∨ exchange.session.connection = bytes "close" := by
  unfold Service.fate at alive ⊢
  split at alive
  · exact absurd rfl alive
  · rename_i sent
    rw [if_neg sent]
    split at alive
    · rename_i failed
      simp_all
    · rename_i ok
      rw [if_neg ok]
      split at alive
      · exact absurd rfl alive
      · rename_i isOpen
        rw [if_neg isOpen]
        split <;> simp_all

lemma session_of_forced (forced : service.forceClose count = true) :
    service.session count request = { request with connection := bytes "close" } := if_pos forced

lemma session_of_free (free : service.forceClose count = false) : service.session count request = request :=
  if_neg (by rw [free]; decide)

/-- After one response: the connection is closed if and only if the response says so, exactly under the
condition. -/
lemma answer_agrees (close : read (bytes "close") = bytes "close")
    (h : service.answer count request = some answer) (alive : answer.fate ≠ .lost) :
    (answer.fate = .closed ↔ answer.SaysClose read) ↔ service.Honest read count request := by
  obtain ⟨served, e, rfl⟩ := Option.map_eq_some_iff.mp h
  rw [saysClose_iff, fate_closed_iff alive, Service.Honest]
  -- a forced close is in the session before the handler is called; otherwise the three kinds of answer differ
  cases force : service.forceClose count with
  | true =>
    have told (served : Served) : (callHttpHandler (service.now count) (service.session count request)
        served).1.session.connection = bytes "close" := by
      rw [session_of_forced force]
      cases served with
      | handled | errorHandled | refused => rfl
    simp [told, close]
  | false =>
    rw [session_of_free force] at e ⊢
    rcases serve_cases e with ⟨page, rfl, none⟩ | ⟨page, code, rfl, some, bound⟩ | ⟨code, rfl, some, free⟩
    · have same : request.connection = bytes "close" → read request.connection = bytes "close" :=
        fun c => (congrArg read c).trans close
      rw [none]
      simp only [callHttpHandler, Bool.true_eq_false, Bool.false_eq_true, false_or]
      exact ⟨fun agree => agree.mpr, fun h => ⟨same, h⟩⟩
    · rw [some]
      simp [callHttpHandler, bound]
    · rw [some]
      simp [callHttpHandler, free, close]

end Answers

/-! ## The whole connection -/

section Loop
variable {service : Service} {turns count i : Nat} {sock : Socket} {st : State} {answer : Answer}

/-- A turn that answers a request. -/
structure Turn (service : Service) (count : Nat) (sock : Socket) (st : State) (first : Answer)
    (sock' : Socket) (st' : State) : Prop where
  run : service.stopped count = false
  call : readHttpHeader service.asInteger service.maxBodySize (service.late count) sock st =
    .ok (first.request, sock', st')
  made : service.answer count first.request = some first

lemma answer_request {request : Session} (made : service.answer count request = some answer) :
    answer.count = count ∧ answer.request = request := by
  obtain ⟨served, -, rfl⟩ := Option.map_eq_some_iff.mp made
  exact ⟨rfl, rfl⟩

/-- What a turn adds. -/
lemma Turn.loop {first : Answer} {sock' : Socket} {st' : State}
    (turn : Turn service count sock st first sock' st') (turns : Nat) :
    service.requestLoop (turns + 1) count sock st =
      if first.fate = .kept then first :: service.requestLoop turns (count + 1) sock' st' else [first] := by
  simp [Service.requestLoop, turn.run, turn.call, turn.made]

/-- A loop that has answered has made a turn. -/
lemma requestLoop_turn (ne : service.requestLoop turns count sock st ≠ []) :
    ∃ rest first sock' st', turns = rest + 1 ∧ Turn service count sock st first sock' st' := by
  cases turns with
  | zero => exact absurd rfl ne
  | succ turns =>
    rw [Service.requestLoop] at ne
    split at ne
    · exact absurd rfl ne
    rename_i run
    split at ne
    · exact absurd rfl ne
    rename_i request sock' st' call
    split at ne
    · exact absurd rfl ne
    rename_i first made
    obtain ⟨-, rfl⟩ := answer_request made
    exact ⟨turns, first, sock', st', rfl, Bool.eq_false_iff.mpr run, call, made⟩

/-- Every answer is one to the request of its number. -/
lemma requestLoop_answers (mem : answer ∈ service.requestLoop turns count sock st) :
    service.answer answer.count answer.request = some answer := by
  induction turns generalizing count sock st with
  | zero => cases mem
  | succ turns ih =>
    obtain ⟨_, first, sock', st', -, turn⟩ := requestLoop_turn (List.ne_nil_of_mem mem)
    have mine : service.answer first.count first.request = some first := by
      rw [(answer_request turn.made).1]
      exact turn.made
    -- the turns behind the first are those of the loop that goes on
    rw [turn.loop] at mem
    split at mem
    · rcases List.mem_cons.mp mem with rfl | later
      · exact mine
      · exact ih later
    · rw [List.mem_singleton] at mem
      rw [mem]
      exact mine

/-- A connection is kept if and only if the next request on it is answered, when there is one. -/
theorem kept_iff_answered {sock' : Socket} {st' : State}
    (here : (service.requestLoop turns count sock st)[i]? = some answer) (more : i + 1 < turns)
    (reached : service.behind (i + 1) count sock st = some (sock', st'))
    (asked : service.Asked (count + i + 1) sock' st') :
    answer.fate = .kept ↔ ((service.requestLoop turns count sock st)[i + 1]?).isSome = true := by
  induction i generalizing turns count sock st with
  | zero =>
    have ne : service.requestLoop turns count sock st ≠ [] := by
      intro nil
      rw [nil] at here
      cases here
    obtain ⟨rest, first, sock1, st1, rfl, turn⟩ := requestLoop_turn ne
    obtain ⟨rest, rfl⟩ : ∃ n, rest = n + 1 := ⟨rest - 1, by omega⟩
    simp only [Service.behind, turn.call] at reached
    obtain ⟨rfl, rfl⟩ := Prod.mk.inj (Option.some.inj reached)
    obtain ⟨run, request, sock2, st2, call, some⟩ := asked
    obtain ⟨second, made⟩ := Option.isSome_iff_exists.mp some
    obtain ⟨-, rfl⟩ := answer_request made
    have next : Turn service (count + 1) sock1 st1 second sock2 st2 := ⟨run, call, made⟩
    -- the second turn is made if and only if the loop goes on
    rw [turn.loop] at here ⊢
    split at here
    · rename_i kept
      cases here
      rw [if_pos kept, next.loop]
      refine iff_of_true kept ?_
      split <;> rfl
    · rename_i closed
      cases here
      rw [if_neg closed]
      exact iff_of_false closed (by simp)
  | succ i ih =>
    have ne : service.requestLoop turns count sock st ≠ [] := by
      intro nil
      rw [nil] at here
      cases here
    obtain ⟨rest, first, sock1, st1, rfl, turn⟩ := requestLoop_turn ne
    rw [Service.behind, turn.call] at reached
    rw [turn.loop] at here ⊢
    split at here
    · rename_i kept
      rw [if_pos kept]
      have later : count + (i + 1) + 1 = count + 1 + i + 1 := by omega
      rw [later] at asked
      exact ih here (Nat.lt_of_succ_lt_succ more) reached asked
    · cases here

/-- The loop of `simple_worker` with its writes and the state of its socket is the one without, as long as
the writes succeed, the socket stays open and no handler raises. -/
theorem requestLoop_simpleWorker {serve : Nat → Session → Served}
    (served : ∀ count session, service.site.serve count session = some (serve count session))
    (sent : ∀ count, service.sent count = true) (isOpen : ∀ count, service.isOpen count = true) :
    (service.requestLoop turns count sock st).map Answer.exchange =
      (simpleWorker (service.server serve) turns count sock st).1 := by
  induction turns generalizing count sock st with
  | zero => rfl
  | succ turns ih =>
    rw [Service.requestLoop, simpleWorker]
    by_cases stopped : service.stopped count = true
    · have stopped' : (service.server serve).stopped count = true := stopped
      rw [if_pos stopped, if_pos stopped']
      rfl
    have run : ¬ (service.server serve).stopped count = true := stopped
    rw [if_neg stopped, if_neg run]
    have reads : readHttpHeader (service.server serve).asInteger (service.server serve).maxBodySize
        ((service.server serve).late count) sock st =
      readHttpHeader service.asInteger service.maxBodySize (service.late count) sock st := rfl
    rw [reads]
    cases readHttpHeader service.asInteger service.maxBodySize (service.late count) sock st with
    | error stop => cases stop <;> rfl
    | ok read =>
      obtain ⟨request, sock', st'⟩ := read
      have same : callHttpHandler (service.now count) (service.session count request)
          (serve count (service.session count request)) = (service.server serve).answer count request := by
        by_cases last : service.maxKeepAlive ≤ count + 1
        · simp [Server.answer, Service.server, Service.session, Service.forceClose, last]
        · simp [Server.answer, Service.server, Service.session, Service.forceClose, last]
      have made : service.answer count request = some ⟨count, request,
          ((service.server serve).answer count request).1,
          service.fate count ((service.server serve).answer count request).1
            ((service.server serve).answer count request).2⟩ := by
        rw [Service.answer, served, ← same]
        rfl
      dsimp only
      rw [made]
      have alive (e : Exchange) (ok : Bool) : service.fate count e ok = .kept ↔
          ¬ (¬ ok = true ∨ service.maxKeepAlive ≤ count + 1 ∨ e.session.connection = bytes "close") := by
        simp only [Service.fate, sent, isOpen, Service.forceClose]
        cases ok <;> simp
      dsimp only
      -- both loops are left for the same reasons when nothing goes wrong
      by_cases past : ¬ ((service.server serve).answer count request).2 = true ∨ service.maxKeepAlive ≤ count + 1 ∨
          ((service.server serve).answer count request).1.session.connection = bytes "close"
      · have closed := mt (alive _ _).mp (not_not.mpr past)
        rw [if_neg closed, if_pos (by exact past)]
        rfl
      · have kept := (alive _ _).mpr past
        rw [if_pos kept, if_neg (by exact past), List.map_cons, ih]

end Loop

/-- On every connection, behind every response that was written: whether the connection is closed is what its
Connection header says, to every reader that reads close as close, exactly under the condition. -/
theorem connection_agrees_iff (service : Service) (read : Bytes → Bytes) (close : read (bytes "close") = bytes "close")
    (turns : Nat) (sock : Socket) :
    ∀ answer ∈ service.requestLoop turns 0 sock State.new, answer.fate ≠ .lost →
      ((answer.fate = .closed ↔ answer.SaysClose read) ↔ service.Honest read answer.count answer.request) :=
  fun _ mem alive => answer_agrees close (requestLoop_answers mem) alive

/-- A directory without files, with a page for what is not found. -/
def emptySite : Site :=
  Site.bindCode
    { urlMap := [], sep := .slash, wwwroot := some (bytes "www"), readFile := fun _ _ => bytes "no such page",
      fs := fun _ => ⟨fun _ => false, fun _ => false, fun _ => false, fun _ => false⟩ }
    StateCode.code404.text (bytes "404.html")

/-- A service where nothing goes wrong. -/
def siteService (site : Site) : Service where
  site := site
  asInteger := fun _ => none
  maxBodySize := 100
  maxKeepAlive := 100
  stopped := fun _ => false
  late := fun _ _ => false
  now := fun _ => epoch
  sent := fun _ => true
  isOpen := fun _ => true

/-- A client that asks for a page twice. -/
def getTwice : Socket :=
  ⟨[bytes "GET / HTTP/1.1\r\nHost: h\r\n\r\nGET / HTTP/1.1\r\nConnection: Close\r\n\r\n"], .eof⟩

/-- The page is there: the connection is kept, and then closed, as the responses say. -/
theorem connection_agrees_page :
    let service := siteService (emptySite.bindFunc (bytes "/") fun _ _ => ⟨bytes "200 OK", [], bytes "text/plain"⟩)
    (service.requestLoop 3 0 getTwice State.new).map Answer.fate = [.kept, .closed] ∧
      ∀ answer ∈ service.requestLoop 3 0 getTwice State.new,
        answer.fate = .closed ↔ answer.SaysClose trim := by
  intro service
  have facts : ∀ answer ∈ service.requestLoop 3 0 getTwice State.new, answer.fate ≠ .lost ∧
      service.site.error answer.count answer.request.url = none ∧
      (trim answer.request.connection = bytes "close" → answer.request.connection = bytes "close") := by
    decide +kernel
  refine ⟨by decide +kernel, fun answer mem => ?_⟩
  obtain ⟨alive, found, plain⟩ := facts answer mem
  refine (connection_agrees_iff service trim rfl 3 getTwice answer mem alive).mpr (.inr ?_)
  rw [found]
  exact plain

/-- The page is not there: the response of the handler of 404 says keep-alive, and the connection is closed. -/
theorem error_page_keeps_alive :
    ¬ ∀ (service : Service) (turns : Nat) (sock : Socket),
      ∀ answer ∈ service.requestLoop turns 0 sock State.new, answer.fate ≠ .lost →
        (answer.fate = .closed ↔ answer.SaysClose id) := by
  intro claim
  have one : ∃ answer ∈ (siteService emptySite).requestLoop 3 0 getTwice State.new, answer.fate = .closed ∧
      answer.exchange.session.connection = bytes "keep-alive" := by
    decide +kernel
  obtain ⟨answer, mem, closed, connection⟩ := one
  have told := (claim _ 3 getTwice answer mem (by rw [closed]; decide)).mp closed
  rw [saysClose_iff, connection] at told
  cases told

end CovNet.Http
