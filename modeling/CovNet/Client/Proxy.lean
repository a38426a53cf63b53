import CovNet.Client.Request
import CovNet.Client.Response
import CovNet.Http.Routing
import CovNet.Http.Serialize

/-!
# Forwarded requests

The handler of `bind_proxy` (`netutils.ecs`) passes the headers of a request on to `http_request`, but for those
in `hop_by_hop`, and adds the address of the peer as X-Forwarded-For.

It compares the names as `create_http_session` has stored them, lower-cased but with the white space before the
colon; and the peer is that of `session.sock`, on a slave the master. `forwarded_sanitised_iff` says that these
are the two ways in which a backend can be misled.
-/

namespace CovNet.Client
open Lib Text Http Async

/-! ## The handler -/

/-- `hop_by_hop`. -/
def hopByHop : List Bytes :=
  [bytes "host", bytes "connection", bytes "content-length", bytes "transfer-encoding", bytes "keep-alive",
    bytes "proxy-connection", bytes "proxy-authenticate", bytes "proxy-authorization", bytes "te",
    bytes "trailer", bytes "upgrade", bytes "x-forwarded-for"]

/-- `status_code_map`. -/
def statusCodeMap : List (Nat × StateCode) :=
  [(200, .code200), (400, .code400), (403, .code403), (404, .code404), (408, .code408), (413, .code413),
    (429, .code429), (431, .code431), (500, .code500), (502, .code502), (503, .code503), (0, .codeEof)]

/-- The url a request is forwarded to. -/
def proxyUrl (target : Bytes) (session : Session) : Bytes :=
  let url := (if target.getLast? = some '/' then target.dropLast else target) ++ session.url
  if session.args.isEmpty then url else url ++ (bytes "?" ++ session.args)

/-- `req_headers`, where `address` is `session.sock.remote_endpoint().address()`. -/
def reqHeaders (address : Bytes) (session : Session) : List Bytes :=
  (session.requestHeaders.filter fun it => it.1 ∉ hopByHop).map headerString ++
    [bytes "X-Forwarded-For: " ++ address]

/-- The handler of `bind_proxy`. -/
def bindProxy (httpRequest : Bytes → Bytes → List Bytes → Bytes → Option Response) (target address : Bytes)
    (session : Session) : Page :=
  let data :=
    match session.contentLength with
    | some n => if 0 < n then session.postData.getD [] else []
    | none => []
  match httpRequest session.method (proxyUrl target session) (reqHeaders address session) data with
  | none =>
    ⟨StateCode.code503.text, bytes "\x7b\"error\": \"Backend unavailable\"\x7d", bytes "application/json"⟩
  | some resp =>
    let contentType := (resp.headers.lookup (bytes "content-type")).getD (bytes "application/json")
    let status :=
      match statusCodeMap.lookup resp.statusCode with
      | some code => code.text
      | none => decimal resp.statusCode ++ bytes " Unknown"
    ⟨status, resp.body, contentType⟩

/-! ## Where it runs -/

/-- The process that calls the handler. -/
inductive Deployment where
  | single
  | slave
  deriving DecidableEq, Repr

/-- The address of the peer of `session.sock`: `simple_worker` sets it to the connection of the client, and
`slave_worker` to that of the master. -/
def Deployment.address (client master : Bytes) : Deployment → Bytes
  | .single => client
  | .slave => master

/-- The session a handler is called with, of the one `read_http_header` has returned. The last one a connection
may have says close; and a slave has the session from its text. -/
inductive Deployment.Arrives (read : Session) : Deployment → Session → Prop
  | single {session : Session} :
    session = read ∨ session = { read with connection := bytes "close" } →
    Arrives read .single session
  | slave {sent received : Session} {v v' : JsonValue} :
    sent = read ∨ sent = { read with connection := bytes "close" } →
    serialize sent = some v →
    v.Same v' →
    deserialize v' = some received →
    Arrives read .slave received

/-- Among the header lines, one is about a single connection: an X-Forwarded-For with the address of the
client. -/
def Sanitised (client : Bytes) (lines : List Bytes) : Prop :=
  ∃ l, (lines.filter fun l => (fieldName l).any (· ∈ hopByHop)) = [l] ∧
    fieldName l = some (bytes "x-forwarded-for") ∧ fieldValue l = client

/-- In the header block, no line that is taken has white space between a name of `hop_by_hop` and its colon. -/
def Bare (s : Bytes) : Prop :=
  ∀ l ∈ fieldLines s, ∀ h ∈ header l, trim h.1 ∈ hopByHop → trim h.1 = h.1

instance (s : Bytes) : Decidable (Bare s) := inferInstanceAs (Decidable (∀ _ ∈ _, _))

/-! ## The names that are stored -/

section Stored
variable {asInteger : Bytes → Option Int} {line name : Bytes} {lines : List Bytes} {st st' : Session × Bool}
  {session : Session}

/-- A name is lower-cased, and ends before the colon. -/
lemma header_name {h : Bytes × Bytes} (e : header line = some h) : ':' ∉ h.1 ∧ tolower h.1 = h.1 := by
  obtain ⟨⟨raw, value⟩, reg, rfl⟩ := Option.map_eq_some_iff.mp e
  have before : raw = line.takeWhile (· != ':') := by
    unfold requestHeaderReg at reg
    split at reg
    · split at reg
      · cases reg
        rfl
      · cases reg
    · cases reg
  have solid : ':' ∉ raw := by
    rw [before]
    intro mem
    have ne := List.mem_takeWhile_imp mem
    simp at ne
  exact ⟨colon_notMem_tolower solid, tolower_tolower raw⟩

/-- A line stores its name, unless that is one the session has a field for. -/
lemma readHeader_stored (h : readHeader asInteger st line = some st') :
    name ∈ st'.1.requestHeaders.map Prod.fst ↔
      name ∈ st.1.requestHeaders.map Prod.fst ∨ managed name = false ∧ ∃ h ∈ header line, h.1 = name := by
  obtain ⟨session, has⟩ := st
  unfold readHeader at h
  cases e : requestHeaderReg line with
  | none =>
    simp only [e] at h
    cases h
    simp [header, e]
  | some nv =>
    obtain ⟨raw, value⟩ := nv
    simp only [e] at h
    have one : (∃ h ∈ header line, h.1 = name) ↔ tolower raw = name := by simp [header, e]
    rw [one]
    have taken (own : managed (tolower raw) = true) : ¬ (managed name = false ∧ tolower raw = name) := by
      rintro ⟨free, rfl⟩
      rw [own] at free
      cases free
    split at h
    · rename_i host
      cases h
      rw [or_iff_left (taken (by simp [managed, host]))]
    rename_i host
    split at h
    · rename_i connection
      cases h
      rw [or_iff_left (taken (by simp [managed, connection]))]
    rename_i connection
    split at h
    · rename_i length
      split at h
      · cases h
      split at h
      · cases h
      split at h
      · cases h
      cases h
      rw [or_iff_left (taken (by simp [managed, length]))]
    rename_i length
    split at h
    · cases h
    rename_i coding
    cases h
    have free : managed (tolower raw) = false := by simp [managed, host, connection, length, coding]
    -- an earlier header of the same name has made room for this one
    simp only [List.map_cons, List.mem_cons, List.mem_map, List.mem_filter, decide_eq_true_eq]
    constructor
    · rintro (rfl | ⟨it, ⟨mem, -⟩, rfl⟩)
      · exact .inr ⟨free, rfl⟩
      · exact .inl ⟨it, mem, rfl⟩
    · rintro (⟨it, mem, rfl⟩ | ⟨-, rfl⟩)
      · by_cases same : it.1 = tolower raw
        · exact .inl same
        · exact .inr ⟨it, ⟨mem, same⟩, rfl⟩
      · exact .inl rfl

lemma foldlM_readHeader_stored (h : lines.foldlM (readHeader asInteger) st = some st') :
    name ∈ st'.1.requestHeaders.map Prod.fst ↔
      name ∈ st.1.requestHeaders.map Prod.fst ∨
        managed name = false ∧ ∃ line ∈ lines, ∃ h ∈ header line, h.1 = name := by
  induction lines generalizing st with
  | nil =>
    cases h
    simp
  | cons line lines ih =>
    obtain ⟨mid, first, rest⟩ := Option.bind_eq_some_iff.mp h
    rw [ih rest, readHeader_stored first, or_assoc, ← and_or_left]
    simp only [List.mem_cons, exists_eq_or_imp]

/-- The names a session stores are those of its header lines, but for the ones it has fields for. -/
lemma createHttpSession_stored {requestLine : Bytes}
    (h : createHttpSession asInteger (requestLine :: lines) = some session) :
    name ∈ session.requestHeaders.map Prod.fst ↔
      managed name = false ∧ ∃ line ∈ lines, ∃ h ∈ header line, h.1 = name := by
  simp only [createHttpSession] at h
  split at h
  · cases h
  split at h
  · cases h
  rename_i session' has fold
  have same : session.requestHeaders = session'.requestHeaders := by
    split at h <;> cases h <;> rfl
  rw [same, foldlM_readHeader_stored fold]
  simp

/-- The headers of a session are stored under lower-cased names without a colon. -/
lemma createHttpSession_name {requestLine : Bytes}
    (h : createHttpSession asInteger (requestLine :: lines) = some session) :
    ∀ it ∈ session.requestHeaders, ':' ∉ it.1 ∧ tolower it.1 = it.1 := by
  intro it mem
  obtain ⟨-, line, -, field, e, same⟩ := (createHttpSession_stored h).mp (List.mem_map_of_mem mem)
  rw [← same]
  exact header_name e

end Stored

/-! ## What is forwarded -/

section Forward
variable {session : Session} {client address name : Bytes}

/-- The handler asks `http_request` once, with these header lines. -/
lemma bindProxy_congr {httpRequest httpRequest' : Bytes → Bytes → List Bytes → Bytes → Option Response}
    {target : Bytes}
    (same : ∀ data, httpRequest session.method (proxyUrl target session) (reqHeaders address session) data =
      httpRequest' session.method (proxyUrl target session) (reqHeaders address session) data) :
    bindProxy httpRequest target address session = bindProxy httpRequest' target address session := by
  unfold bindProxy
  simp only [same]

lemma fieldName_headerString {it : Bytes × Bytes} (solid : ':' ∉ it.1) (lower : tolower it.1 = it.1) :
    fieldName (headerString it) = some (trim it.1) := by
  have field : fieldName (it.1 ++ ':' :: ' ' :: it.2) = some (tolower (trim it.1)) := fieldName_of it.1 solid
  rw [tolower_trim, lower] at field
  rw [← field, headerString, List.append_assoc]
  rfl

/-- A name that is in the set without the white space around it is in the set. -/
def Plain (headers : List (Bytes × Bytes)) : Prop := ∀ it ∈ headers, trim it.1 ∈ hopByHop → it.1 ∈ hopByHop

/-- The handler drops what it should, if no stored name has white space around it. -/
lemma sanitised_iff (names : ∀ it ∈ session.requestHeaders, ':' ∉ it.1 ∧ tolower it.1 = it.1) :
    Sanitised client (reqHeaders address session) ↔ Plain session.requestHeaders ∧ address = client := by
  have last : fieldName (bytes "X-Forwarded-For: " ++ address) = some (bytes "x-forwarded-for") :=
    fieldName_header (bytes "X-Forwarded-For") (by decide) (by decide) (by decide) address
  have value : fieldValue (bytes "X-Forwarded-For: " ++ address) = address := rfl
  -- a header about a single connection is kept only if its name has white space around it
  have front : ((session.requestHeaders.filter fun it => it.1 ∉ hopByHop).map headerString).filter
      (fun l => (fieldName l).any (· ∈ hopByHop)) = [] ↔ Plain session.requestHeaders := by
    rw [List.filter_eq_nil_iff]
    constructor
    · intro none it mem listed
      by_contra free
      have kept : headerString it ∈
          (session.requestHeaders.filter fun it => it.1 ∉ hopByHop).map headerString :=
        List.mem_map_of_mem (List.mem_filter.mpr ⟨mem, decide_eq_true free⟩)
      refine none _ kept ?_
      rw [fieldName_headerString (names it mem).1 (names it mem).2]
      exact decide_eq_true listed
    · intro plain l mem listed
      obtain ⟨it, kept, rfl⟩ := List.mem_map.mp mem
      obtain ⟨mem, free⟩ := List.mem_filter.mp kept
      rw [fieldName_headerString (names it mem).1 (names it mem).2] at listed
      exact of_decide_eq_true free (plain it mem (of_decide_eq_true listed))
  have back : [bytes "X-Forwarded-For: " ++ address].filter (fun l => (fieldName l).any (· ∈ hopByHop)) =
      [bytes "X-Forwarded-For: " ++ address] := by
    rw [List.filter_singleton, last]
    rfl
  unfold Sanitised reqHeaders
  rw [List.filter_append, back]
  constructor
  · rintro ⟨l, one, -, own⟩
    rcases List.append_eq_singleton_iff.mp one with ⟨nil, e⟩ | ⟨-, e⟩
    · cases e
      exact ⟨front.mp nil, own⟩
    · cases e
  · rintro ⟨plain, rfl⟩
    exact ⟨_, by rw [front.mpr plain, List.nil_append], last, value⟩

end Forward

/-! ## The request as it came -/

section Arrive
variable {read session : Session} {deployment : Deployment} {requestLine s : Bytes} {lines : List Bytes}
  {asInteger : Bytes → Option Int}

/-- The headers arrive, in some order. -/
lemma arrives_headers (arrives : deployment.Arrives read session)
    (nodup : (read.requestHeaders.map Prod.fst).Nodup) : session.requestHeaders.Perm read.requestHeaders := by
  cases arrives with
  | single same =>
    rcases same with rfl | rfl
    · exact .refl _
    · exact .refl _
  | slave same written carried made =>
    have kept : ∀ {sent : Session}, sent = read ∨ sent = { read with connection := bytes "close" } →
        sent.requestHeaders = read.requestHeaders := by
      rintro _ (rfl | rfl)
      · rfl
      · rfl
    rw [← kept same] at nodup ⊢
    obtain ⟨headers, e, perm⟩ := deserialize_serialize written carried nodup
    rw [made] at e
    cases e
    exact perm

/-- The names of the set have no white space around them. -/
lemma trim_hopByHop {name : Bytes} (mem : name ∈ hopByHop) : trim name = name := by
  have all : ∀ name ∈ hopByHop, trim name = name := by decide
  exact all name mem

/-- A name the session has a field for is in the set. -/
lemma managed_hopByHop {name : Bytes} (own : managed name = true) : name ∈ hopByHop := by
  simp only [managed, Bool.or_eq_true, decide_eq_true_eq] at own
  rcases own with ((rfl | rfl) | rfl) | rfl <;> decide

lemma plain_iff (made : createHttpSession asInteger (requestLine :: lines) = some session) :
    Plain session.requestHeaders ↔
      ∀ l ∈ lines, ∀ h ∈ header l, trim h.1 ∈ hopByHop → trim h.1 = h.1 := by
  constructor
  · intro plain l mem h e listed
    -- a name the session has a field for is not stored
    cases own : managed h.1 with
    | true => exact trim_hopByHop (managed_hopByHop own)
    | false =>
      obtain ⟨it, stored, same⟩ := List.mem_map.mp
        ((createHttpSession_stored made).mpr ⟨own, l, mem, h, e, rfl⟩)
      rw [← same] at listed ⊢
      exact trim_hopByHop (plain it stored listed)
  · intro bare it stored listed
    obtain ⟨-, l, mem, h, e, same⟩ := (createHttpSession_stored made).mp (List.mem_map_of_mem stored)
    rw [← same] at listed ⊢
    rw [← bare l mem h e listed]
    exact listed

end Arrive

/-- A request is forwarded sanitised if and only if no header line of it has white space between a name of
`hop_by_hop` and its colon, and, on a slave, the client has the address of the master. -/
theorem forwarded_sanitised_iff (asInteger : Bytes → Option Int) (maxBodySize : Int) (late : Nat → Bool)
    (sock sock' : Socket) (st st' : State) (read session : Session)
    (call : readHttpHeader asInteger maxBodySize late sock st = .ok (read, sock', st'))
    (deployment : Deployment) (arrives : deployment.Arrives read session) (client master : Bytes) :
    Sanitised client (reqHeaders (deployment.address client master) session) ↔
      Bare (unread sock st) ∧ (deployment = .slave → master = client) := by
  obtain ⟨requestLine, ls, last, made, hm, eq, -, ht, -⟩ := parseRequest_spec (readHttpHeader_parses call)
  have fields : fieldLines (unread sock st) = ls.map trim := by
    rw [fieldLines, ht]
    rfl
  have same : read.requestHeaders = made.requestHeaders := by rw [eq]
  have perm : session.requestHeaders.Perm made.requestHeaders := by
    rw [← same]
    exact arrives_headers arrives (same ▸ createHttpSession_names hm)
  have names : ∀ it ∈ session.requestHeaders, ':' ∉ it.1 ∧ tolower it.1 = it.1 :=
    fun it mem => createHttpSession_name hm it (perm.mem_iff.mp mem)
  have plain : Plain session.requestHeaders ↔ Bare (unread sock st) := by
    rw [Bare, fields, ← plain_iff hm]
    exact forall_congr' fun it => by rw [perm.mem_iff]
  have peer : deployment.address client master = client ↔ (deployment = .slave → master = client) := by
    cases deployment with
    | single => simp [Deployment.address]
    | slave => simp [Deployment.address]
  rw [sanitised_iff names, plain, peer]

/-- A forged X-Forwarded-For is replaced. -/
theorem forwarded_sanitised_forged :
    ∃ read sock' st', readHttpHeader (fun _ => none) 100 (fun _ => false)
        ⟨[bytes "GET / HTTP/1.1\r\nX-Forwarded-For: 6.6.6.6\r\nTE: x\r\n\r\n"], .eof⟩ State.new =
          .ok (read, sock', st') ∧
      Sanitised (bytes "1.2.3.4") (reqHeaders (bytes "1.2.3.4") read) := by
  have call : ∃ read sock' st', readHttpHeader (fun _ => none) 100 (fun _ => false)
      ⟨[bytes "GET / HTTP/1.1\r\nX-Forwarded-For: 6.6.6.6\r\nTE: x\r\n\r\n"], .eof⟩ State.new =
        .ok (read, sock', st') := ⟨_, _, _, rfl⟩
  obtain ⟨read, sock', st', call⟩ := call
  refine ⟨read, sock', st', call, ?_⟩
  have bare : Bare (bytes "GET / HTTP/1.1\r\nX-Forwarded-For: 6.6.6.6\r\nTE: x\r\n\r\n") := by
    decide +kernel
  exact (forwarded_sanitised_iff (fun _ => none) 100 _ _ _ _ _ read read call .single (.single (.inl rfl))
    (bytes "1.2.3.4") (bytes "1.2.3.4")).mpr ⟨bare, nofun⟩

/-- With a space before its colon it is passed on. -/
theorem forged_address_passes :
    ¬ ∀ (asInteger : Bytes → Option Int) (maxBodySize : Int) (late : Nat → Bool) (sock sock' : Socket)
        (st st' : State) (read session : Session),
      readHttpHeader asInteger maxBodySize late sock st = .ok (read, sock', st') →
      ∀ deployment : Deployment, deployment.Arrives read session → ∀ client master,
        Sanitised client (reqHeaders (deployment.address client master) session) := by
  intro claim
  have call : ∃ read sock' st', readHttpHeader (fun _ => none) 100 (fun _ => false)
      ⟨[bytes "GET / HTTP/1.1\r\nX-Forwarded-For : 6.6.6.6\r\n\r\n"], .eof⟩ State.new =
        .ok (read, sock', st') ∧
      ((reqHeaders (bytes "1.2.3.4") read).filter fun l => (fieldName l).any (· ∈ hopByHop)) =
        [bytes "x-forwarded-for : 6.6.6.6", bytes "X-Forwarded-For: 1.2.3.4"] :=
    ⟨_, _, _, rfl, by decide +kernel⟩
  obtain ⟨read, sock', st', call, two⟩ := call
  obtain ⟨l, one, -⟩ :=
    claim _ _ _ _ _ _ _ read read call .single (.single (.inl rfl)) (bytes "1.2.3.4") (bytes "1.2.3.4")
  rw [Deployment.address, two] at one
  cases one

end CovNet.Client
