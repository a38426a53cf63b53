import CovNet.Client.Delivery

/-!
# One request is one request

`request_read_back` takes well-formed arguments. `http_request` (`netutils.ecs`) does not: it checks for line breaks,
for a colon in every header string and for the four names it manages itself, and writes whatever else it is given.
`request_never_split` says that this is enough. A server of the library that takes a session off what was written takes
all of it: the body, length, host and connection are those the client has meant, whatever the method, the path and the
header strings are, and no byte is left for a second request.
-/

namespace CovNet.Client
open Lib Text Http Async

/-! ## The lines that are written -/

/-- The lines of a request with any header strings. -/
def writtenLines (method : Bytes) (target : Target) (headers : List Bytes) (reqBody : Bytes) : List Bytes :=
  (method ++ bytes " " ++ target.path ++ bytes " HTTP/1.1") ::
    (headerString (bytes "Host", hostHeader target) :: headers ++
      [headerString (bytes "Content-Length", decimal reqBody.length),
        headerString (bytes "Connection", bytes "close")])

section Lines
variable {asInteger : Bytes → Option Int} {method reqBody s l hdr : Bytes} {target : Target}
  {headers ls : List Bytes}

lemma composeRequest_lines (method : Bytes) (target : Target) (headers : List Bytes) (reqBody : Bytes) :
    composeRequest method target headers reqBody =
      joinLines (writtenLines method target headers reqBody) ++ crlf ++ reqBody := by
  simp [composeRequest, writtenLines, joinLines, headerString, List.flatMap_append, bytes]

/-- Lines that were joined are found again. -/
lemma lines_joinLines (h : ∀ l ∈ ls, OneLine l) (s : Bytes) : lines (joinLines ls ++ s) = ls ++ lines s := by
  induction ls with
  | nil => rfl
  | cons l ls ih =>
    rw [List.forall_mem_cons] at h
    obtain ⟨l', raw, rest⟩ := lines_cut (h.1.cut (joinLines ls ++ s))
    obtain rfl := List.append_cancel_right raw
    rw [joinLines_cons, List.append_assoc, rest, ih h.2, List.cons_append]

/-- A text with something solid in it is not blank. -/
lemma nonblank_of_mem {c : Char} (mem : c ∈ l) (solid : isSpace c = false) : nonblank l = true := by
  obtain ⟨a, b, rfl⟩ := List.append_of_mem mem
  have some_left : trim (a ++ c :: b) ≠ [] := by
    intro none
    have all : ∀ d ∈ (a ++ c :: b).dropWhile isSpace, isSpace d = true := List.rdropWhile_eq_nil_iff.mp none
    have kept : c ∈ (a ++ c :: b).dropWhile isSpace := by
      rw [List.dropWhile_append]
      split
      · rw [List.dropWhile_cons_of_neg (by simp [solid])]
        exact List.mem_cons_self
      · exact List.mem_append_right _ List.mem_cons_self
    rw [all c kept] at solid
    cases solid
  simpa [nonblank] using some_left

/-- A colon that comes first. -/
lemma colon_first {colon : Nat} (found : find (bytes ":") hdr = some colon) :
    ∃ value, hdr = hdr.take colon ++ ':' :: value ∧ ':' ∉ hdr.take colon := by
  obtain ⟨⟨value, here⟩, before⟩ := find_spec found
  have whole : hdr.take colon ++ ':' :: value = hdr := by
    rw [show ':' :: value = hdr.drop colon from here, List.take_append_drop]
  refine ⟨value, whole.symm, fun mem => ?_⟩
  obtain ⟨j, lt, e⟩ := List.getElem_of_mem mem
  rw [List.length_take] at lt
  apply before j (by omega)
  rw [List.drop_eq_getElem_cons (show j < hdr.length by omega), ← List.getElem_take (h := by rwa [List.length_take]), e]
  exact ⟨_, rfl⟩

/-- The name of a header string is trimmed with its line. -/
lemma trim_colon (raw value : Bytes) :
    trim (raw ++ ':' :: value) = raw.dropWhile isSpace ++ ':' :: value.rdropWhile isSpace := by
  have front : (raw ++ ':' :: value).dropWhile isSpace = raw.dropWhile isSpace ++ ':' :: value := by
    rw [List.dropWhile_append]
    split
    · rename_i none
      rw [List.isEmpty_iff.mp none]
      rfl
    · rfl
  show ((raw ++ ':' :: value).dropWhile isSpace).rdropWhile isSpace = _
  rw [front, rdropWhile_append_cons (by decide)]

/-- A header string that is let through is on one line, is not blank, and has none of the names that are managed,
however it is taken. -/
lemma headerAllowed_line (allowed : headerAllowed hdr = true) :
    NoBreak hdr ∧ nonblank hdr = true ∧
      ∀ name value, requestHeaderReg (trim hdr) = some (name, value) → managed (tolower name) = false := by
  rw [headerAllowed, Bool.and_eq_true, Bool.not_eq_true'] at allowed
  obtain ⟨one, named⟩ := allowed
  cases found : find (bytes ":") hdr with
  | none =>
    rw [found] at named
    cases named
  | some colon =>
    rw [found] at named
    dsimp only at named
    rw [Bool.and_eq_true, Bool.not_eq_true'] at named
    obtain ⟨rest, whole, before⟩ := colon_first found
    refine ⟨noBreak_of_hasBreak one, ?_, fun name value reg => ?_⟩
    · apply nonblank_of_mem (c := ':') _ (by decide)
      rw [whole]
      exact List.mem_append_right _ List.mem_cons_self
    · have solid : ∀ c ∈ (hdr.take colon).dropWhile isSpace, (c != ':') = true := fun c mem => by
        simpa using ne_of_mem_of_not_mem ((List.dropWhile_sublist _).subset mem) before
      obtain ⟨front, back⟩ := span_stop solid (c := ':') rfl (rest.rdropWhile isSpace)
      rw [whole, trim_colon, requestHeaderReg, back] at reg
      dsimp only at reg
      rw [front] at reg
      split at reg
      · cases reg
        -- the spaces in front are gone already, and a name that is managed has none behind
        have same : tolower (trim (hdr.take colon)) = trim (tolower ((hdr.take colon).dropWhile isSpace)) := by
          rw [← tolower_trim, trim, trim, List.dropWhile_idempotent]
        rw [same] at named
        cases own : managed (tolower ((hdr.take colon).dropWhile isSpace)) with
        | false => rfl
        | true =>
          have kept : trim (tolower ((hdr.take colon).dropWhile isSpace)) =
              tolower ((hdr.take colon).dropWhile isSpace) := by
            simp only [managed, Bool.or_eq_true, decide_eq_true_eq] at own
            rcases own with ((e | e) | e) | e
            all_goals
              rw [e]
              decide
          rw [kept, own] at named
          cases named.2
      · cases reg

/-- The lines that are written are each on one line, and none of them ends the block. -/
lemma writtenLines_text (breaks : NoBreak method ∧ NoBreak target.host ∧ NoBreak target.path)
    (allowed : ∀ hdr ∈ headers, headerAllowed hdr = true) :
    ∀ l ∈ writtenLines method target headers reqBody, nonblank l = true ∧ OneLine l := by
  have own : ∀ {name value : Bytes} {c : Char}, c ∈ name → isSpace c = false → NoBreak name → NoBreak value →
      nonblank (headerString (name, value)) = true ∧ OneLine (headerString (name, value)) := by
    intro name value c mem solid named plain
    refine ⟨nonblank_of_mem (List.mem_append_left _ (List.mem_append_left _ mem)) solid, oneLine_of_notMem ?_⟩
    exact ((named.append (by decide)).append plain).1
  rw [writtenLines, List.forall_mem_cons]
  refine ⟨⟨?_, oneLine_of_notMem ?_⟩, ?_⟩
  · apply nonblank_of_mem (c := 'H') _ (by decide)
    exact List.mem_append_right _ (by decide)
  · exact (((breaks.1.append (by decide)).append breaks.2.2).append (by decide)).1
  · simp only [List.cons_append, List.forall_mem_cons, List.forall_mem_append]
    refine ⟨own (c := 'H') (by decide) (by decide) noBreak_own.1 (hostHeader_noBreak breaks.2.1), fun hdr mem => ?_,
      own (c := 'C') (by decide) (by decide) noBreak_own.2.1 (noBreak_of_plain (decimal_plain _)),
      own (c := 'C') (by decide) (by decide) noBreak_own.2.2.1 noBreak_own.2.2.2, nofun⟩
    obtain ⟨plain, some_left, -⟩ := headerAllowed_line (allowed hdr mem)
    exact ⟨some_left, oneLine_of_notMem plain.1⟩

/-- A block of such lines ends where it should, and the body is behind it. -/
lemma block_found {rest last : Bytes} {found : List Bytes} (text : ∀ l ∈ ls, nonblank l = true ∧ OneLine l)
    (front : (lines (joinLines ls ++ crlf ++ reqBody)).takeWhile nonblank = found)
    (blank : blankLine (joinLines ls ++ crlf ++ reqBody) = some last)
    (whole : joinLines ls ++ crlf ++ reqBody = joinLines found ++ last ++ crlf ++ rest) :
    found = ls ∧ rest = reqBody := by
  have split : lines (joinLines ls ++ crlf ++ reqBody) = ls ++ [] :: lines reqBody := by
    have one : ∀ l ∈ ls ++ [[]], OneLine l := by
      rw [List.forall_mem_append]
      exact ⟨fun l mem => (text l mem).2, List.forall_mem_singleton.mpr rfl⟩
    have joined : joinLines (ls ++ [[]]) = joinLines ls ++ crlf := by
      simp [joinLines]
    rw [← joined, lines_joinLines one, List.append_assoc]
    rfl
  have solid : ∀ l ∈ ls, nonblank l = true := fun l mem => (text l mem).1
  rw [split, List.takeWhile_append_of_pos solid, List.takeWhile_cons_of_neg (by decide), List.append_nil] at front
  rw [blankLine, split, List.dropWhile_append_of_pos solid, List.dropWhile_cons_of_neg (by decide),
    List.head?_cons, Option.some.injEq] at blank
  subst front blank
  rw [List.append_nil] at whole
  exact ⟨rfl, (List.append_cancel_left whole).symm⟩

end Lines

/-! ## What the server makes of them -/

section Session
variable {asInteger : Bytes → Option Int} {method reqBody line : Bytes} {target : Target} {headers : List Bytes}
  {st st' : Session × Bool} {made : Session}

/-- What the header strings of the caller leave alone. -/
structure Untouched (st st' : Session × Bool) : Prop where
  host : st'.1.host = st.1.host
  contentLength : st'.1.contentLength = st.1.contentLength
  flag : st'.2 = st.2

lemma readHeader_untouched
    (free : ∀ name value, requestHeaderReg line = some (name, value) → managed (tolower name) = false)
    (step : readHeader asInteger st line = some st') : Untouched st st' := by
  rcases readHeader_inv step with ⟨-, rfl⟩ | ⟨name, value, reg, taken⟩
  · exact ⟨rfl, rfl, rfl⟩
  · have own := free name value reg
    simp only [managed, Bool.or_eq_false_iff, decide_eq_false_iff_not] at own
    obtain ⟨⟨⟨host, length⟩, -⟩, connection⟩ := own
    rcases taken with ⟨e, -⟩ | ⟨e, -⟩ | ⟨e, -⟩ | ⟨-, -, rfl⟩
    · exact absurd e host
    · exact absurd e connection
    · exact absurd e length
    · exact ⟨rfl, rfl, rfl⟩

lemma foldlM_untouched (allowed : ∀ hdr ∈ headers, headerAllowed hdr = true)
    (fold : (headers.map trim).foldlM (readHeader asInteger) st = some st') : Untouched st st' := by
  induction headers generalizing st with
  | nil =>
    cases fold
    exact ⟨rfl, rfl, rfl⟩
  | cons hdr headers ih =>
    rw [List.forall_mem_cons] at allowed
    rw [List.map_cons, List.foldlM_cons] at fold
    obtain ⟨mid, step, rest⟩ := Option.bind_eq_some_iff.mp fold
    obtain ⟨host, length, flag⟩ := readHeader_untouched (headerAllowed_line allowed.1).2.2 step
    obtain ⟨host', length', flag'⟩ := ih allowed.2 rest
    exact ⟨host'.trans host, length'.trans length, flag'.trans flag⟩

/-- The header strings of the caller set no length and no host; the lines of the client do, and close the connection. -/
lemma createHttpSession_written (digits : asInteger (decimal reqBody.length) = some (reqBody.length : Int))
    (size : (reqBody.length : Int) ≤ httpMaxBodySize) (host : NoBreak (hostHeader target))
    (allowed : ∀ hdr ∈ headers, headerAllowed hdr = true)
    (h : createHttpSession asInteger ((writtenLines method target headers reqBody).map trim) = some made) :
    made.host = some ((hostHeader target).rdropWhile isSpace) ∧ made.contentLength = some (reqBody.length : Int) ∧
      made.connection = bytes "close" := by
  obtain ⟨line, header, method', url, args, version, mid, has, e, -, fold, last⟩ := createHttpSession_inv h
  cases e
  rw [List.cons_append, List.map_cons, List.foldlM_cons, readHeader_ownHost host, Option.bind_eq_bind,
    Option.bind_some, List.map_append, List.foldlM_append] at fold
  obtain ⟨⟨mine, flag⟩, callers, own⟩ := Option.bind_eq_some_iff.mp fold
  obtain ⟨kept, -, unset⟩ := foldlM_untouched allowed callers
  dsimp only at kept unset
  subst unset
  rw [List.map_cons, List.map_cons, List.map_nil, List.foldlM_cons, readHeader_ownLength digits size,
    Option.bind_eq_bind, Option.bind_some, List.foldlM_cons, readHeader_ownConnection] at own
  cases own
  rcases last with ⟨none, -⟩ | rfl
  · cases none
  · exact ⟨kept, rfl, rfl⟩

end Session

/-- What a client writes for any method, URL, header strings and body it does not refuse is one request: if a server of
the library takes a session off it, then with the body, length and host the client has meant and a connection to be
closed, and no byte is left over. So the server answers it once at most. -/
theorem request_never_split (asInteger : Bytes → Option Int)
    (digits : ∀ n : Nat, (n : Int) ≤ httpMaxBodySize → asInteger (decimal n) = some (n : Int))
    (connectTarget : Target → Bool) (method url : Bytes) (headers : List Bytes) (body : Option Bytes)
    (target : Target) (req : Bytes)
    (written : writeHttpRequest asInteger connectTarget method url headers body = some (target, req))
    (server : Server) (same : server.asInteger = asInteger) (sock : Socket) (stream : sock.segments.flatten = req) :
    (∀ late session sock' st',
      readHttpHeader asInteger server.maxBodySize late sock State.new = .ok (session, sock', st') →
        unread sock' st' = [] ∧ session.contentLength = some ((body.getD []).length : Int) ∧
          session.postData.getD [] = body.getD [] ∧
          session.host = some ((hostHeader target).rdropWhile isSpace) ∧ session.connection = bytes "close") ∧
      ∀ turns, (simpleWorker server turns 0 sock State.new).1.length ≤ 1 := by
  obtain ⟨small, breaks, allowed, -, rfl⟩ := writeHttpRequest_spec written
  have one : ∀ late session sock' st',
      readHttpHeader asInteger server.maxBodySize late sock State.new = .ok (session, sock', st') →
        unread sock' st' = [] ∧ session.contentLength = some ((body.getD []).length : Int) ∧
          session.postData.getD [] = body.getD [] ∧
          session.host = some ((hostHeader target).rdropWhile isSpace) ∧ session.connection = bytes "close" := by
    intro late session sock' st' call
    have parsed := readHttpHeader_parses call
    have start : unread sock State.new = sock.segments.flatten := rfl
    rw [start, stream, composeRequest_lines] at parsed
    obtain ⟨-, -, -, -, carried⟩ := parseRequest_made parsed
    obtain ⟨requestLine, ls, last, made, hm, eq, whole, front, blank, -, -⟩ := parseRequest_spec parsed
    obtain ⟨block, rest⟩ := block_found (writtenLines_text breaks allowed) front blank whole
    rw [block] at hm
    obtain ⟨host, length, close⟩ :=
      createHttpSession_written (digits _ small) small (hostHeader_noBreak breaks.2.1) allowed hm
    have length' : session.contentLength = some ((body.getD []).length : Int) := by
      rw [eq]
      exact length
    have size : (session.postData.getD []).length = (body.getD []).length := by
      rcases Nat.eq_zero_or_pos (body.getD []).length with zero | pos
      · have none : session.postData = none := carried.absent fun n e => by
          rw [length'] at e
          cases e
          omega
        rw [none, zero]
        rfl
      · obtain ⟨data, some_data, same⟩ := carried.present _ length' (by omega)
        rw [some_data]
        exact_mod_cast same
    have nothing : unread sock' st' = [] := by
      have total := congrArg List.length rest
      rw [List.length_append, size] at total
      exact List.eq_nil_of_length_eq_zero (by omega)
    rw [nothing, List.append_nil] at rest
    refine ⟨nothing, length', rest, ?_, ?_⟩
    · rw [eq]
      exact host
    · rw [eq]
      exact close
  refine ⟨one, fun turns => ?_⟩
  cases turns with
  | zero => exact Nat.zero_le _
  | succ turns =>
    cases stopped : server.stopped 0 with
    | true =>
      rw [simpleWorker, if_pos stopped]
      exact Nat.zero_le _
    | false =>
      cases call : readHttpHeader server.asInteger server.maxBodySize (server.late 0) sock State.new with
      | error stop =>
        rw [simpleWorker, stopped, if_neg Bool.false_ne_true, call]
        cases stop with
        | failed code => exact Nat.zero_le _
        | raised => exact Nat.zero_le _
        | hangs => exact Nat.zero_le _
      | ok result =>
        obtain ⟨session, sock', st'⟩ := result
        have close := (one _ _ _ _ (same ▸ call)).2.2.2.2
        rw [simpleWorker_once (Nat.succ_pos turns) stopped close call]
        exact Nat.le_refl 1

/-- A header string with spaces around its name, twice, and a method that is none. -/
theorem request_never_split_odd :
    (simpleWorker echoServer 2 0
      ⟨[bytes "get it / HTTP/1.1\r\nHost: h\r\n x : 1\r\n x : 2\r\nContent-Length: 4\r\nConnection: close\r\n\r\nGET "],
        .eof⟩ State.new).1.length ≤ 1 :=
  (request_never_split digitsToInteger digitsToInteger_decimal (fun _ => true) (bytes "get it") (bytes "http://h")
    [bytes " x : 1", bytes " x : 2"] (some (bytes "GET ")) ⟨bytes "http", bytes "h", 80, bytes "/"⟩
    (bytes ("get it / HTTP/1.1\r\nHost: h\r\n x : 1\r\n x : 2\r\nContent-Length: 4\r\nConnection: close\r\n\r\n" ++
      "GET ")) (by decide +kernel) echoServer rfl _ (by decide +kernel)).2 2

end CovNet.Client
