import CovNet.Http.Serving
import Mathlib.Data.List.DropRight

/-!
# The requests of the client

`http_client.http_request` (`netutils.ecs`) splits the URL, refuses what it cannot frame, connects, and writes
a request line, the header lines and the body. `read_http_header` reads requests with another grammar: it trims
lines, and takes a method, the two parts of the path and the names and values of headers off them.

`request_read_back` says that the two agree: what the client writes is read as one request with everything in
its place, and no byte is left over. The one thing the server does not see is white space at the end of the
host, which goes with its line.
-/

namespace CovNet.Client
open Lib Text Http Async

/-! ## The URL -/

/-- What `parse_url` returns. -/
structure Target where
  scheme : Bytes
  host : Bytes
  port : Int
  path : Bytes
  deriving DecidableEq, Repr

def defaultHttpPort : Int := 80

def defaultHttpsPort : Int := 443

/-- `http_url_reg`: scheme, host, port and path. -/
def httpUrlReg (url : Bytes) : Option (Bytes × Bytes × Bytes × Bytes) :=
  let scheme := if (bytes "https").isPrefixOf (tolower url) then url.take 5 else url.take 4
  if tolower scheme = bytes "https" ∨ tolower scheme = bytes "http" then
    match stripText (bytes "://") (url.drop scheme.length) with
    | none => none
    | some rest =>
      let host := rest.takeWhile fun c => c != '/' && c != ':'
      let (port, path) :=
        match rest.dropWhile fun c => c != '/' && c != ':' with
        | ':' :: rest =>
          if (rest.takeWhile Char.isDigit).isEmpty then ([], ':' :: rest)
          else (rest.takeWhile Char.isDigit, rest.dropWhile Char.isDigit)
        | rest => ([], rest)
      if !host.isEmpty && path.all (fun c => c != '\n' && c != '\r') then some (scheme, host, port, path)
      else none
  else none

/-- `parse_url`: none where it returns null or raises. -/
def parseUrl (asInteger : Bytes → Option Int) (url : Bytes) : Option Target := do
  let (scheme, host, portStr, path) ← httpUrlReg url
  let scheme := tolower scheme
  let port ←
    if portStr.isEmpty then some (if scheme = bytes "http" then defaultHttpPort else defaultHttpsPort)
    else asInteger portStr
  let path := if path.isEmpty then bytes "/" else path
  let path := path.takeWhile (· != '#')
  some ⟨scheme, host, port, if path.isEmpty then bytes "/" else path⟩

/-! ## The request -/

/-- A text with a line break. -/
def hasBreak (s : Bytes) : Bool := s.contains '\r' || s.contains '\n'

/-- The headers the client manages itself. -/
def managed (name : Bytes) : Bool :=
  name = bytes "host" || name = bytes "content-length" || name = bytes "transfer-encoding" ||
    name = bytes "connection"

/-- The checks `http_request` makes on a header string. -/
def headerAllowed (hdr : Bytes) : Bool :=
  !hasBreak hdr &&
    match find (bytes ":") hdr with
    | none => false
    | some colon => 0 < colon && !managed (tolower (trim (hdr.take colon)))

/-- The Host header of a target. -/
def hostHeader (target : Target) : Bytes :=
  if target.scheme = bytes "http" ∧ target.port ≠ defaultHttpPort ∨
      target.scheme = bytes "https" ∧ target.port ≠ defaultHttpsPort then
    target.host ++ bytes ":" ++ decimalInt target.port
  else target.host

/-- The request as `http_request` composes it. -/
def composeRequest (method : Bytes) (target : Target) (headers : List Bytes) (reqBody : Bytes) : Bytes :=
  (method ++ bytes " " ++ target.path ++ bytes " HTTP/1.1" ++ crlf) ++
    (bytes "Host: " ++ hostHeader target ++ crlf) ++
    headers.flatMap (· ++ crlf) ++
    (bytes "Content-Length: " ++ decimal reqBody.length ++ crlf) ++
    (bytes "Connection: close" ++ crlf) ++
    crlf ++
    reqBody

/-- `http_client.http_request` up to its write: the target and the bytes written, none where it returns
before. -/
def writeHttpRequest (asInteger : Bytes → Option Int) (connectTarget : Target → Bool) (method url : Bytes)
    (headers : List Bytes) (body : Option Bytes) : Option (Target × Bytes) :=
  match parseUrl asInteger url with
  | none => none
  | some target =>
    let reqBody := body.getD []
    if (reqBody.length : Int) > httpMaxBodySize || hasBreak method || hasBreak target.host ||
        hasBreak target.path then none
    else if !headers.all headerAllowed then none
    else if !connectTarget target then none
    else some (target, composeRequest method target headers reqBody)

/-! ## What is read back -/

/-- A header string. -/
def headerString (field : Bytes × Bytes) : Bytes := field.1 ++ bytes ": " ++ field.2

/-- The header lines of a request. -/
def requestLines (method : Bytes) (target : Target) (fields : List (Bytes × Bytes)) (reqBody : Bytes) :
    List Bytes :=
  (method ++ bytes " " ++ target.path ++ bytes " HTTP/1.1") ::
    (((bytes "Host", hostHeader target) :: fields) ++
      [(bytes "Content-Length", decimal reqBody.length), (bytes "Connection", bytes "close")]).map headerString

/-- The session of a request. -/
def requestSession (method : Bytes) (target : Target) (headers : List (Bytes × Bytes)) (reqBody : Bytes) :
    Session where
  url := target.path.takeWhile (· != '?')
  args := (target.path.dropWhile (· != '?')).tail
  host := some ((hostHeader target).rdropWhile isSpace)
  method := method
  version := bytes "1.1"
  connection := bytes "close"
  postData := if reqBody.isEmpty then none else some reqBody
  contentLength := some reqBody.length
  requestHeaders := headers

/-! ## Lines -/

section Lines

/-- A text without a carriage return is on one line. -/
lemma oneLine_of_notMem {l : Bytes} (h : '\r' ∉ l) : OneLine l := by
  apply find_of_first
  · rw [List.drop_left]
  · rw [List.length_append]
    exact Nat.le_add_right _ _
  · intro j lt pre
    rw [List.drop_append_of_le_length lt.le, List.drop_eq_getElem_cons lt, List.cons_append] at pre
    have e : '\r' = l[j] := (List.cons_prefix_cons.mp pre).1
    exact h (e ▸ List.getElem_mem lt)

lemma cut_line {l : Bytes} (h : '\r' ∉ l) (s : Bytes) : cut crlf (l ++ crlf ++ s) = some (l ++ crlf, s) :=
  (oneLine_of_notMem h).cut s

/-- The lines of a block are read, up to the empty one. -/
lemma parseLines_joinLines {ending : Ending} {ls : List Bytes} (text : ∀ l ∈ ls, '\r' ∉ l ∧ trim l ≠ [])
    (short : ∀ l ∈ ls, (l ++ crlf).length ≤ httpMaxHeaderLineSize) {headerSize : Nat}
    (small : headerSize + (joinLines ls ++ crlf).length ≤ httpMaxHeaderSize) (header : List Bytes)
    (rest : Bytes) :
    parseLines ending headerSize header (joinLines ls ++ crlf ++ rest) = .ok (header ++ ls.map trim, rest) := by
  induction ls generalizing headerSize header with
  | nil =>
    have first : cut crlf (joinLines [] ++ crlf ++ rest) = some (crlf, rest) := cut_line (l := []) (by simp) rest
    have fits : ¬ (crlf.length > httpMaxHeaderLineSize ∨ headerSize + crlf.length > httpMaxHeaderSize) := by
      have two : crlf.length ≤ httpMaxHeaderLineSize := by decide
      rw [joinLines_nil, List.nil_append] at small
      omega
    have blank : (trim crlf).isEmpty = true := by decide
    rw [parseLines_some first, if_neg fits, if_pos blank, List.map_nil, List.append_nil]
  | cons l ls ih =>
    rw [List.forall_mem_cons] at text short
    rw [joinLines_cons, List.append_assoc, List.length_append] at small
    have line : cut crlf (joinLines (l :: ls) ++ crlf ++ rest) =
        some (l ++ crlf, joinLines ls ++ crlf ++ rest) := by
      rw [joinLines_cons, List.append_assoc (l ++ crlf), List.append_assoc (l ++ crlf)]
      exact cut_line text.1.1 _
    have fits : ¬ ((l ++ crlf).length > httpMaxHeaderLineSize ∨
        headerSize + (l ++ crlf).length > httpMaxHeaderSize) := by
      have mine := short.1
      omega
    have some_text : ¬ (trim (l ++ crlf)).isEmpty = true := by
      rw [trim_append_crlf, List.isEmpty_iff]
      exact text.1.2
    rw [parseLines_some line, if_neg fits, if_neg some_text, trim_append_crlf,
      ih text.2 short.2 (by omega), List.append_assoc, List.map_cons, List.singleton_append]

end Lines

section Headers
variable {name value : Bytes}

/-- A name that a header line may have. -/
def IsName (name : Bytes) : Prop := name ≠ [] ∧ ':' ∉ name ∧ ∀ c ∈ name, isSpace c = false

lemma IsName.trim_headerString (h : IsName name) (value : Bytes) :
    trim (headerString (name, value)) = name ++ ':' :: (' ' :: value).rdropWhile isSpace := by
  obtain ⟨ne, -, solid⟩ := h
  obtain ⟨c, name, rfl⟩ := List.exists_cons_of_ne_nil ne
  have e : headerString (c :: name, value) = c :: (name ++ ':' :: ' ' :: value) := by
    simp [headerString, bytes]
  rw [e, trim_cons (solid c List.mem_cons_self), ← List.cons_append, rdropWhile_append_cons rfl]

lemma mem_rdropWhile {p : Char → Bool} {c : Char} (h : c ∈ value.rdropWhile p) : c ∈ value :=
  (List.rdropWhile_prefix p value).subset h

/-- One space is taken off the value, and those at its end. -/
lemma headerValue_rdropWhile (value : Bytes) :
    headerValue ((' ' :: value).rdropWhile isSpace) = value.rdropWhile isSpace := by
  by_cases blank : value.rdropWhile isSpace = []
  · have all : (' ' :: value).rdropWhile isSpace = [] := by
      rw [List.rdropWhile_eq_nil_iff] at blank ⊢
      exact List.forall_mem_cons.mpr ⟨rfl, blank⟩
    rw [all, blank]
    rfl
  · have some_text : ∃ a c b, value = a ++ c :: b ∧ isSpace c = false := by
      rw [List.rdropWhile_eq_nil_iff] at blank
      push Not at blank
      obtain ⟨c, mem, solid⟩ := blank
      obtain ⟨a, b, rfl⟩ := List.append_of_mem mem
      exact ⟨a, c, b, rfl, by simpa using solid⟩
    obtain ⟨a, c, b, rfl, solid⟩ := some_text
    rw [← List.cons_append, rdropWhile_append_cons solid, rdropWhile_append_cons solid]
    rfl

/-- A header line is read back as its name and its value. -/
lemma IsName.requestHeaderReg (h : IsName name) (line : NoBreak value) :
    requestHeaderReg (trim (headerString (name, value))) = some (name, value.rdropWhile isSpace) := by
  have colon : ∀ c ∈ name, (c != ':') = true := fun c mem => by
    simpa using ne_of_mem_of_not_mem mem h.2.1
  obtain ⟨front, back⟩ := span_stop colon (c := ':') rfl ((' ' :: value).rdropWhile isSpace)
  rw [h.trim_headerString, Http.requestHeaderReg, front, back]
  dsimp only
  rw [headerValue_rdropWhile, if_pos]
  rw [List.all_eq_true]
  intro c mem
  have inside := mem_rdropWhile mem
  have ne : c ≠ '\n' ∧ c ≠ '\r' :=
    ⟨fun e => line.2 (e ▸ inside), fun e => line.1 (e ▸ inside)⟩
  simp [ne.1, ne.2]

end Headers

section RequestLine
variable {method path : Bytes}

/-- The request line is read back as the method and the two parts of the path. -/
lemma requestLineReg_requestLine (upper : method ≠ [] ∧ method.all Char.isUpper = true)
    (slash : path.head? = some '/') (solid : ' ' ∉ path) :
    requestLineReg (method ++ bytes " " ++ path ++ bytes " HTTP/1.1") =
      some (method, path.takeWhile (· != '?'), (path.dropWhile (· != '?')).tail, bytes "1.1") := by
  have line : method ++ bytes " " ++ path ++ bytes " HTTP/1.1" =
      method ++ ' ' :: (path ++ ' ' :: bytes "HTTP/1.1") := by
    simp [bytes]
  obtain ⟨front, back⟩ := span_stop (List.all_eq_true.mp upper.2) (c := ' ') rfl
    (path ++ ' ' :: bytes "HTTP/1.1")
  have some_method : method.isEmpty = false := by simpa using upper.1
  have version : stripText (bytes " HTTP/") (' ' :: bytes "HTTP/1.1") = some (bytes "1.1") := by decide
  have sound : (!(bytes "1.1").isEmpty && (bytes "1.1").all isVersionChar) = true := by decide
  simp only [line, requestLineReg, front, back]
  by_cases mark : '?' ∈ path
  · -- the arguments follow the first question mark
    obtain ⟨url, args, rfl, first⟩ := List.eq_append_cons_of_mem mark
    have some_url : url.isEmpty = false := by
      cases url with
      | nil => cases slash
      | cons c url => rfl
    rw [List.mem_append, List.mem_cons, not_or, not_or] at solid
    have plain : ∀ c ∈ url, (c != '?') = true := fun c mem => by
      simpa using ne_of_mem_of_not_mem mem first
    have both : ∀ c ∈ url, (c != ' ' && c != '?') = true := fun c mem => by
      simpa using ⟨ne_of_mem_of_not_mem mem solid.1, ne_of_mem_of_not_mem mem first⟩
    have args_solid : ∀ c ∈ args, (c != ' ') = true := fun c mem => by
      simpa using ne_of_mem_of_not_mem mem solid.2.2
    obtain ⟨url1, args1⟩ := span_stop both (c := '?') rfl (args ++ ' ' :: bytes "HTTP/1.1")
    obtain ⟨args2, rest2⟩ := span_stop args_solid (c := ' ') rfl (bytes "HTTP/1.1")
    obtain ⟨url3, args3⟩ := span_stop plain (c := '?') rfl args
    rw [url3, args3]
    simp only [List.append_assoc, List.cons_append, url1, args1, args2, rest2, version, some_method,
      some_url, sound, Bool.not_false, Bool.true_and, List.tail_cons, if_true]
  · have whole : ∀ c ∈ path, (c != '?') = true := fun c mem => by
      simpa using ne_of_mem_of_not_mem mem mark
    have both : ∀ c ∈ path, (c != ' ' && c != '?') = true := fun c mem => by
      simpa using ⟨ne_of_mem_of_not_mem mem solid, ne_of_mem_of_not_mem mem mark⟩
    have some_url : path.isEmpty = false := by
      cases path with
      | nil => cases slash
      | cons c path => rfl
    obtain ⟨url1, rest1⟩ := span_stop both (c := ' ') rfl (bytes "HTTP/1.1")
    have all : path.takeWhile (· != '?') = path := List.takeWhile_eq_self_iff.mpr whole
    have none : path.dropWhile (· != '?') = [] := List.dropWhile_eq_nil_iff.mpr whole
    rw [all, none]
    simp only [url1, rest1, some_method, some_url, Bool.not_false, Bool.true_and, List.tail_nil]
    rfl

end RequestLine

section Fields
variable {asInteger : Bytes → Option Int} {name value : Bytes} {st : Session × Bool}

lemma noBreak_of_hasBreak {s : Bytes} (h : hasBreak s = false) : NoBreak s := by
  simpa [hasBreak, NoBreak] using h

/-- A header string that is let through is on one line, and its name is the caller's. -/
lemma IsName.allowed (h : IsName name) (allowed : headerAllowed (headerString (name, value)) = true) :
    NoBreak name ∧ NoBreak value ∧ managed (tolower name) = false := by
  have line : headerString (name, value) = name ++ ':' :: ' ' :: value := by simp [headerString, bytes]
  have colon : find (bytes ":") (headerString (name, value)) = some name.length := by
    rw [line]
    apply find_of_first
    · rw [List.drop_left]
      exact ⟨' ' :: value, rfl⟩
    · rw [List.length_append]
      exact Nat.le_add_right _ _
    · intro j lt pre
      rw [List.drop_append_of_le_length lt.le, List.drop_eq_getElem_cons lt, List.cons_append] at pre
      have e : ':' = name[j] := (List.cons_prefix_cons.mp pre).1
      exact h.2.1 (e ▸ List.getElem_mem lt)
  rw [headerAllowed, colon, Bool.and_eq_true, Bool.not_eq_true'] at allowed
  obtain ⟨one, mine⟩ := allowed
  have whole := noBreak_of_hasBreak one
  rw [line] at whole mine
  dsimp only at mine
  rw [List.take_left, trim_eq_self h.2.2, Bool.and_eq_true, Bool.not_eq_true'] at mine
  simp only [NoBreak, List.mem_append, List.mem_cons, not_or] at whole
  exact ⟨⟨whole.1.1, whole.2.1⟩, ⟨whole.1.2.2.2, whole.2.2.2.2⟩, mine.2⟩

/-- The name and the value a header is read back with. -/
def lowered (field : Bytes × Bytes) : Bytes × Bytes := (tolower field.1, field.2)

/-- A header of the caller is put with the others. -/
lemma readHeader_field (h : IsName name) (line : NoBreak value) (own : managed (tolower name) = false)
    (trimmed : trim value = value) (fresh : tolower name ∉ st.1.requestHeaders.map Prod.fst) :
    readHeader asInteger st (trim (headerString (name, value))) =
      some ({ st.1 with requestHeaders := lowered (name, value) :: st.1.requestHeaders }, st.2) := by
  have same : value.rdropWhile isSpace = value := by
    conv_lhs => rw [← trimmed]
    conv_rhs => rw [← trimmed]
    exact List.rdropWhile_idempotent isSpace (value.dropWhile isSpace)
  simp only [managed, Bool.or_eq_false_iff, decide_eq_false_iff_not] at own
  obtain ⟨⟨⟨host, length⟩, coding⟩, connection⟩ := own
  have others : st.1.requestHeaders.filter (fun h => decide (h.1 ≠ tolower name)) = st.1.requestHeaders := by
    rw [List.filter_eq_self]
    intro h mem
    exact decide_eq_true fun e => fresh (e ▸ List.mem_map_of_mem mem)
  obtain ⟨session, has⟩ := st
  rw [readHeader, h.requestHeaderReg line, same]
  dsimp only at others ⊢
  rw [if_neg host, if_neg connection, if_neg length, if_neg coding, others]
  rfl

/-- The headers of the caller are read back, the last one first. -/
lemma foldlM_fields {fields : List (Bytes × Bytes)}
    (ok : ∀ f ∈ fields, IsName f.1 ∧ NoBreak f.2 ∧ managed (tolower f.1) = false ∧ trim f.2 = f.2)
    (distinct : (fields.map fun f => tolower f.1).Nodup)
    (fresh : ∀ f ∈ fields, tolower f.1 ∉ st.1.requestHeaders.map Prod.fst) :
    (fields.map fun f => trim (headerString f)).foldlM (readHeader asInteger) st =
      some ({ st.1 with requestHeaders := (fields.map lowered).reverse ++ st.1.requestHeaders }, st.2) := by
  induction fields generalizing st with
  | nil => rfl
  | cons f fields ih =>
    rw [List.forall_mem_cons] at ok fresh
    rw [List.map_cons, List.nodup_cons] at distinct
    obtain ⟨name, line, own, trimmed⟩ := ok.1
    rw [List.map_cons, List.foldlM_cons, readHeader_field name line own trimmed fresh.1]
    refine (ih ok.2 distinct.2 fun g mem => ?_).trans ?_
    · rw [List.map_cons, List.mem_cons, not_or]
      refine ⟨fun e => distinct.1 ?_, fresh.2 g mem⟩
      rw [show tolower f.1 = tolower g.1 from e.symm]
      exact List.mem_map_of_mem mem
    · rw [List.map_cons, List.reverse_cons, List.append_assoc, List.singleton_append]

end Fields

/-! ## The request as a whole -/

/-- A request within the limits of the server. -/
structure Fits (maxBodySize : Int) (lines : List Bytes) (reqBody : Bytes) : Prop where
  line : ∀ l ∈ lines, (l ++ crlf).length ≤ httpMaxHeaderLineSize
  block : (joinLines lines ++ crlf).length ≤ httpMaxHeaderSize
  body : (reqBody.length : Int) ≤ maxBodySize

section Whole
variable {asInteger : Bytes → Option Int} {method url : Bytes} {fields : List (Bytes × Bytes)} {target : Target}
  {reqBody : Bytes}

/-- A request that is written has passed the checks. -/
lemma writeHttpRequest_spec {connectTarget : Target → Bool} {headers : List Bytes} {body : Option Bytes} {req : Bytes}
    (written : writeHttpRequest asInteger connectTarget method url headers body = some (target, req)) :
    ((body.getD []).length : Int) ≤ httpMaxBodySize ∧
      (NoBreak method ∧ NoBreak target.host ∧ NoBreak target.path) ∧
      (∀ hdr ∈ headers, headerAllowed hdr = true) ∧ connectTarget target = true ∧
      req = composeRequest method target headers (body.getD []) := by
  unfold writeHttpRequest at written
  split at written
  · cases written
  dsimp only at written
  split at written
  · cases written
  rename_i accepted
  split at written
  · cases written
  rename_i allowed
  split at written
  · cases written
  rename_i connected
  cases written
  simp only [Bool.or_eq_true, decide_eq_true_eq, not_or, Bool.not_eq_true] at accepted
  obtain ⟨⟨⟨size, noBreak⟩, hostLine⟩, pathLine⟩ := accepted
  refine ⟨by omega, ⟨noBreak_of_hasBreak noBreak, noBreak_of_hasBreak hostLine, noBreak_of_hasBreak pathLine⟩, ?_,
    by simpa using connected, rfl⟩
  rw [Bool.not_eq_true', Bool.not_eq_false, List.all_eq_true] at allowed
  exact allowed

/-- The bytes written are the lines, an empty one, and the body. -/
lemma composeRequest_eq : composeRequest method target (fields.map headerString) reqBody =
    joinLines (requestLines method target fields reqBody) ++ crlf ++ reqBody := by
  simp [composeRequest, requestLines, joinLines, headerString, List.flatMap_append, List.flatMap_map, bytes]

/-- The host is on one line if the URL's is. -/
lemma hostHeader_noBreak (h : NoBreak target.host) : NoBreak (hostHeader target) := by
  have port : NoBreak (bytes ":" ++ decimalInt target.port) := by
    refine NoBreak.append (by decide) ?_
    cases target.port with
    | ofNat n => exact noBreak_of_plain (decimal_plain n)
    | negSucc n => exact NoBreak.append (s := ['-']) (by decide) (noBreak_of_plain (decimal_plain (n + 1)))
  unfold hostHeader
  split
  · rw [List.append_assoc]
    exact h.append port
  · exact h

/-! The lines the client adds are taken for what they are. -/

lemma isName_own : IsName (bytes "Host") ∧ IsName (bytes "Content-Length") ∧ IsName (bytes "Connection") :=
  ⟨⟨by decide, by decide, solid_of_all (by decide)⟩, ⟨by decide, by decide, solid_of_all (by decide)⟩,
    ⟨by decide, by decide, solid_of_all (by decide)⟩⟩

lemma noBreak_own : NoBreak (bytes "Host") ∧ NoBreak (bytes "Content-Length") ∧ NoBreak (bytes "Connection") ∧
    NoBreak (bytes "close") := by
  decide

lemma readHeader_ownHost {st : Session × Bool} {host : Bytes} (line : NoBreak host) :
    readHeader asInteger st (trim (headerString (bytes "Host", host))) =
      some ({ st.1 with host := some (host.rdropWhile isSpace) }, st.2) := by
  rw [readHeader, isName_own.1.requestHeaderReg line]
  rfl

lemma readHeader_ownLength {session : Session}
    (digits : asInteger (decimal reqBody.length) = some (reqBody.length : Int))
    (size : (reqBody.length : Int) ≤ httpMaxBodySize) :
    readHeader asInteger (session, false) (trim (headerString (bytes "Content-Length", decimal reqBody.length))) =
      some ({ session with contentLength := some (reqBody.length : Int) }, true) := by
  have lower : tolower (bytes "Content-Length") = bytes "content-length" := by decide
  have number : (decimal reqBody.length).rdropWhile isSpace = decimal reqBody.length := by
    rw [List.rdropWhile_eq_self_iff]
    intro ne
    rw [isSpace_of_isDigit (isDigit_decimal (List.getLast_mem ne))]
    exact Bool.false_ne_true
  have range : ¬ ((reqBody.length : Int) < 0 ∨ (reqBody.length : Int) > httpMaxBodySize) := by omega
  rw [readHeader, isName_own.2.1.requestHeaderReg (noBreak_of_plain (decimal_plain _)), number]
  dsimp only
  rw [lower, if_neg (by decide), if_neg (by decide), if_pos rfl, if_neg (by decide), digits]
  dsimp only
  rw [if_neg range]

lemma readHeader_ownConnection {session : Session} :
    readHeader asInteger (session, true) (trim (headerString (bytes "Connection", bytes "close"))) =
      some ({ session with connection := bytes "close" }, true) := by
  rw [readHeader, isName_own.2.2.requestHeaderReg noBreak_own.2.2.2]
  rfl

/-- The request line is not trimmed. -/
lemma trim_requestLine (upper : method ≠ [] ∧ method.all Char.isUpper = true) (path : Bytes) :
    trim (method ++ bytes " " ++ path ++ bytes " HTTP/1.1") =
      method ++ bytes " " ++ path ++ bytes " HTTP/1.1" := by
  obtain ⟨ne, all⟩ := upper
  obtain ⟨c, method, rfl⟩ := List.exists_cons_of_ne_nil ne
  have solid : isSpace c = false := by
    rw [List.all_cons, Bool.and_eq_true] at all
    have up : c.val ≥ 65 ∧ c.val ≤ 90 := of_decide_eq_true all.1
    exact isSpace_of_le up.1
  have e : c :: method ++ bytes " " ++ path ++ bytes " HTTP/1.1" =
      c :: (method ++ bytes " " ++ path ++ bytes " HTTP/1.") ++ '1' :: [] := by
    simp [bytes]
  rw [e, List.cons_append, trim_cons solid, ← List.cons_append, rdropWhile_append_cons (by decide),
    List.rdropWhile_nil]

/-- The session `create_http_session` makes of the lines. -/
lemma createHttpSession_requestLines
    (digits : asInteger (decimal reqBody.length) = some (reqBody.length : Int))
    (size : (reqBody.length : Int) ≤ httpMaxBodySize)
    (upper : method ≠ [] ∧ method.all Char.isUpper = true)
    (slash : target.path.head? = some '/') (solid : ' ' ∉ target.path) (host : NoBreak target.host)
    (ok : ∀ f ∈ fields, IsName f.1 ∧ NoBreak f.2 ∧ managed (tolower f.1) = false ∧ trim f.2 = f.2)
    (distinct : (fields.map fun f => tolower f.1).Nodup) :
    createHttpSession asInteger ((requestLines method target fields reqBody).map trim) =
      some { requestSession method target (fields.map lowered).reverse reqBody with postData := none } := by
  have headers : (requestLines method target fields reqBody).map trim =
      (method ++ bytes " " ++ target.path ++ bytes " HTTP/1.1") ::
        (trim (headerString (bytes "Host", hostHeader target)) ::
          ((fields.map fun f => trim (headerString f)) ++
            [trim (headerString (bytes "Content-Length", decimal reqBody.length)),
              trim (headerString (bytes "Connection", bytes "close"))])) := by
    simp only [requestLines, List.map_cons, List.map_append, List.map_map, List.map_nil, List.cons_append,
      trim_requestLine upper, Function.comp_def]
  -- the host comes first, then the headers of the caller, then the two other lines
  have fold : (trim (headerString (bytes "Host", hostHeader target)) ::
      ((fields.map fun f => trim (headerString f)) ++
        [trim (headerString (bytes "Content-Length", decimal reqBody.length)),
          trim (headerString (bytes "Connection", bytes "close"))])).foldlM (readHeader asInteger)
      (⟨target.path.takeWhile (· != '?'), (target.path.dropWhile (· != '?')).tail, none, method, bytes "1.1", [],
        none, none, []⟩, false) =
      some ({ requestSession method target (fields.map lowered).reverse reqBody with postData := none }, true) := by
    rw [List.foldlM_cons, readHeader_ownHost (hostHeader_noBreak host), Option.bind_eq_bind, Option.bind_some,
      List.foldlM_append, foldlM_fields ok distinct fun f _ => List.not_mem_nil]
    simp only [Option.bind_eq_bind, Option.bind_some, List.foldlM_cons, List.foldlM_nil,
      readHeader_ownLength digits size, readHeader_ownConnection]
    simp only [List.append_nil]
    rfl
  rw [headers]
  simp only [createHttpSession, requestLineReg_requestLine upper slash solid, fold]
  rfl

/-- The lines of a request are one line each, with text on them. -/
lemma requestLines_text (upper : method ≠ [] ∧ method.all Char.isUpper = true)
    (breaks : NoBreak method ∧ NoBreak target.host ∧ NoBreak target.path)
    (ok : ∀ f ∈ fields, IsName f.1 ∧ NoBreak f.1 ∧ NoBreak f.2) :
    ∀ l ∈ requestLines method target fields reqBody, '\r' ∉ l ∧ trim l ≠ [] := by
  have header : ∀ f : Bytes × Bytes, IsName f.1 ∧ NoBreak f.1 ∧ NoBreak f.2 →
      '\r' ∉ headerString f ∧ trim (headerString f) ≠ [] := by
    rintro ⟨name, value⟩ ⟨isName, first, second⟩
    have colon : NoBreak (bytes ": ") := by decide
    refine ⟨((first.append colon).append second).1, ?_⟩
    rw [isName.trim_headerString]
    simp
  intro l mem
  rcases List.mem_cons.mp mem with rfl | mem
  · rw [trim_requestLine upper]
    have space : NoBreak (bytes " ") := by decide
    have version : NoBreak (bytes " HTTP/1.1") := by decide
    refine ⟨(((breaks.1.append space).append breaks.2.2).append version).1, ?_⟩
    simp [upper.1]
  · obtain ⟨f, hf, rfl⟩ := List.mem_map.mp mem
    apply header
    simp only [List.cons_append, List.mem_cons, List.mem_append, List.not_mem_nil, or_false] at hf
    rcases hf with rfl | hf | rfl | rfl
    · exact ⟨isName_own.1, noBreak_own.1, hostHeader_noBreak breaks.2.1⟩
    · exact ok f hf
    · exact ⟨isName_own.2.1, noBreak_own.2.1, noBreak_of_plain (decimal_plain _)⟩
    · exact ⟨isName_own.2.2, noBreak_own.2.2⟩

/-- The server's parser takes the request, and nothing is left. -/
lemma parseRequest_composeRequest {ending : Ending} {maxBodySize : Int}
    (digits : asInteger (decimal reqBody.length) = some (reqBody.length : Int))
    (size : (reqBody.length : Int) ≤ httpMaxBodySize)
    (upper : method ≠ [] ∧ method.all Char.isUpper = true)
    (slash : target.path.head? = some '/') (solid : ' ' ∉ target.path)
    (breaks : NoBreak method ∧ NoBreak target.host ∧ NoBreak target.path)
    (ok : ∀ f ∈ fields, IsName f.1 ∧ NoBreak f.1 ∧ NoBreak f.2 ∧ managed (tolower f.1) = false ∧ trim f.2 = f.2)
    (distinct : (fields.map fun f => tolower f.1).Nodup)
    (fits : Fits maxBodySize (requestLines method target fields reqBody) reqBody) :
    parseRequest asInteger maxBodySize ending
        (joinLines (requestLines method target fields reqBody) ++ crlf ++ reqBody) =
      .ok (requestSession method target (fields.map lowered).reverse reqBody, []) := by
  have text : ∀ l ∈ requestLines method target fields reqBody, '\r' ∉ l ∧ trim l ≠ [] :=
    requestLines_text upper breaks fun f mem => ⟨(ok f mem).1, (ok f mem).2.1, (ok f mem).2.2.1⟩
  have lines : parseLines ending 0 [] (joinLines (requestLines method target fields reqBody) ++ crlf ++ reqBody) =
      .ok ([] ++ (requestLines method target fields reqBody).map trim, reqBody) :=
    parseLines_joinLines text fits.line (by rw [Nat.zero_add]; exact fits.block) [] reqBody
  have made := createHttpSession_requestLines digits size upper slash solid breaks.2.1
    (fun f mem => ⟨(ok f mem).1, (ok f mem).2.2⟩) distinct
  have nonempty : ¬ ([] ++ (requestLines method target fields reqBody).map trim).isEmpty = true := by
    simp [requestLines]
  have small := fits.body
  rw [parseRequest, lines]
  dsimp only
  rw [if_neg nonempty, List.nil_append, made]
  dsimp only [requestSession]
  rw [if_neg (by omega)]
  by_cases empty : reqBody = []
  · subst empty
    rw [if_neg (by decide)]
    rfl
  · have pos : 0 < reqBody.length := List.length_pos_iff.mpr empty
    have body : parsePostData ending reqBody.length reqBody = .ok (reqBody, []) := by
      rw [parsePostData, if_pos (Nat.le_refl _), List.take_length, List.drop_length]
    rw [if_pos (by omega), Int.toNat_natCast, body]
    simp [empty]

end Whole

/-- The request the client writes is read by the server as one request, with the method, the path in two parts,
the body and its length, and the headers of the caller under their lower-cased names, wherever the stream is
cut; no byte is left over. The host is that of the Host header, without the white space at its end. -/
theorem request_read_back (asInteger : Bytes → Option Int)
    (digits : ∀ n : Nat, (n : Int) ≤ httpMaxBodySize → asInteger (decimal n) = some (n : Int))
    (connectTarget : Target → Bool) (method url : Bytes) (fields : List (Bytes × Bytes)) (body : Option Bytes)
    (target : Target) (req : Bytes)
    (written : writeHttpRequest asInteger connectTarget method url (fields.map headerString) body = some (target, req))
    (upper : method ≠ [] ∧ method.all Char.isUpper = true)
    (slash : target.path.head? = some '/') (solid : ' ' ∉ target.path)
    (names : ∀ f ∈ fields, IsName f.1 ∧ trim f.2 = f.2)
    (distinct : (fields.map fun f => tolower f.1).Nodup) (maxBodySize : Int)
    (fits : Fits maxBodySize (requestLines method target fields (body.getD [])) (body.getD [])) (sock : Socket)
    (stream : sock.segments.flatten = req) :
    ∃ headers sock' st', headers.Perm (fields.map lowered) ∧
      readHttpHeader asInteger maxBodySize (fun _ => false) sock State.new =
        .ok (requestSession method target headers (body.getD []), sock', st') ∧
      unread sock' st' = [] := by
  obtain ⟨small, breaks, allowed, -, rfl⟩ := writeHttpRequest_spec written
  have ok : ∀ f ∈ fields, IsName f.1 ∧ NoBreak f.1 ∧ NoBreak f.2 ∧ managed (tolower f.1) = false ∧ trim f.2 = f.2 := by
    intro f mem
    obtain ⟨name, trimmed⟩ := names f mem
    obtain ⟨first, second, own⟩ := name.allowed (allowed _ (List.mem_map_of_mem mem))
    exact ⟨name, first, second, own, trimmed⟩
  have parsed : parseRequest asInteger maxBodySize sock.ending _ = _ :=
    parseRequest_composeRequest (digits _ small) small upper slash solid breaks ok distinct fits
  rw [← composeRequest_eq, ← stream] at parsed
  have call := readHttpHeader_eq asInteger maxBodySize (⟨rfl, rfl⟩ : Left sock.ending _ sock State.new)
  have start : unread sock State.new = sock.segments.flatten := rfl
  rw [start, parsed] at call
  obtain ⟨sock', st', left, eq⟩ := call
  exact ⟨_, sock', st', List.reverse_perm _, eq, left.2⟩

/-- The conversion of digits. -/
def digitsToInteger (s : Bytes) : Option Int := (decimalValue s).map Int.ofNat

lemma digitsToInteger_decimal (n : Nat) (_ : (n : Int) ≤ httpMaxBodySize) :
    digitsToInteger (decimal n) = some (n : Int) := by
  rw [digitsToInteger, decimalValue_decimal]
  rfl

/-- A request with a header and a body that looks like a header line. -/
theorem request_read_back_post :
    ∃ headers sock' st', headers.Perm [(bytes "x-id", bytes "7: a")] ∧
      readHttpHeader digitsToInteger 100 (fun _ => false)
          ⟨[bytes "POST /a?b?c HTTP/1.1\r\nHost: h:8080\r\nX-Id: 7: a\r\nContent-Length: 6\r\nConnection: cl",
            bytes "ose\r\n\r\nHost: "], .silent⟩ State.new =
        .ok (requestSession (bytes "POST") ⟨bytes "http", bytes "h", 8080, bytes "/a?b?c"⟩ headers (bytes "Host: "),
          sock', st') ∧
      unread sock' st' = [] :=
  request_read_back digitsToInteger digitsToInteger_decimal (fun _ => true) (bytes "POST")
    (bytes "HTTP://h:8080/a?b?c#d") [(bytes "X-Id", bytes "7: a")] (some (bytes "Host: "))
    ⟨bytes "http", bytes "h", 8080, bytes "/a?b?c"⟩
    (bytes ("POST /a?b?c HTTP/1.1\r\nHost: h:8080\r\nX-Id: 7: a\r\nContent-Length: 6\r\nConnection: close\r\n\r\n" ++
      "Host: "))
    (by decide +kernel) (by decide) (by decide) (by decide)
    (List.forall_mem_singleton.mpr ⟨⟨by decide, by decide, solid_of_all (by decide)⟩, by decide⟩) (by decide) 100
    ⟨by decide +kernel, by decide +kernel, by decide +kernel⟩ _ (by decide +kernel)

/-- A host with a space behind it is written with it and read without. -/
theorem host_space_dropped :
    ∃ target req session sock' st',
      writeHttpRequest digitsToInteger (fun _ => true) (bytes "GET") (bytes "http://127.0.0.1 /") [] none =
        some (target, req) ∧
      readHttpHeader digitsToInteger 100 (fun _ => false) ⟨[req], .eof⟩ State.new = .ok (session, sock', st') ∧
      session.host ≠ some (hostHeader target) := by
  refine ⟨⟨bytes "http", bytes "127.0.0.1 ", 80, bytes "/"⟩,
    bytes "GET / HTTP/1.1\r\nHost: 127.0.0.1 \r\nContent-Length: 0\r\nConnection: close\r\n\r\n",
    ⟨bytes "/", [], some (bytes "127.0.0.1"), bytes "GET", bytes "1.1", bytes "close", none, some 0, []⟩,
    ⟨[], .eof⟩, ⟨true, true, 0, [], none⟩, ?_⟩
  decide +kernel

end CovNet.Client
