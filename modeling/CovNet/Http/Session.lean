import Mathlib.Data.List.Lex
import Mathlib.Data.Char
import CovNet.Lib.System
import CovNet.Text.Bytes

/-!
# Sessions

`create_http_session` (`netutils.ecs`): the request line and header lines of a request become an
`http_session`, or are rejected. The two regular expressions are full matches; `.` does not match a
line break, so a header line whose value has one inside does not match and is passed over.

`as integer` is a conversion of the language and enters as the parameter `asInteger`.
-/

namespace CovNet.Http
open Lib Text

def httpMaxBodySize : Int := 67108864

/-- The fields of `http_session` that a request sets. `connection` is empty where the source has
`null`, which it does not tell from an empty string. -/
structure Session where
  url : Bytes
  args : Bytes
  host : Option Bytes
  method : Bytes
  version : Bytes
  connection : Bytes
  postData : Option Bytes
  contentLength : Option Int
  requestHeaders : List (Bytes × Bytes)
  deriving DecidableEq, Repr

/-- A character of a version, `[0-9.]`. -/
def isVersionChar (c : Char) : Bool := c.isDigit || c == '.'

/-- The text after a prefix. -/
def stripText (text s : Bytes) : Option Bytes :=
  if text.isPrefixOf s then some (s.drop text.length) else none

lemma stripText_iff {text s rest : Bytes} : stripText text s = some rest ↔ s = text ++ rest := by
  rw [stripText]
  constructor
  · intro h
    split at h
    · rename_i pre
      obtain ⟨t, rfl⟩ := List.isPrefixOf_iff_prefix.mp pre
      cases h
      rw [List.drop_left]
    · cases h
  · rintro rfl
    rw [if_pos (List.isPrefixOf_iff_prefix.mpr (List.prefix_append _ _)), List.drop_left]

/-- `request_line_reg`: method, url, arguments and version. -/
def requestLineReg (line : Bytes) : Option (Bytes × Bytes × Bytes × Bytes) :=
  let method := line.takeWhile Char.isUpper
  match line.dropWhile Char.isUpper with
  | ' ' :: rest =>
    let url := rest.takeWhile fun c => c != ' ' && c != '?'
    let (args, rest) := match rest.dropWhile fun c => c != ' ' && c != '?' with
      | '?' :: rest => (rest.takeWhile (· != ' '), rest.dropWhile (· != ' '))
      | rest => ([], rest)
    match stripText (bytes " HTTP/") rest with
    | some version =>
      if !method.isEmpty && !url.isEmpty && !version.isEmpty && version.all isVersionChar then
        some (method, url, args, version)
      else none
    | none => none
  | _ => none

/-- The text behind a colon, without one space. -/
def headerValue : Bytes → Bytes
  | ' ' :: value => value
  | value => value

/-- `request_header_reg`: name and value. -/
def requestHeaderReg (line : Bytes) : Option (Bytes × Bytes) :=
  match line.dropWhile (· != ':') with
  | _ :: rest =>
    if (headerValue rest).all fun c => c != '\n' && c != '\r' then
      some (line.takeWhile (· != ':'), headerValue rest)
    else none
  | [] => none

/-- One turn of the loop over the header lines; the flag is `has_content_length`. -/
def readHeader (asInteger : Bytes → Option Int) (st : Session × Bool) (line : Bytes) :
    Option (Session × Bool) :=
  let (session, hasContentLength) := st
  match requestHeaderReg line with
  | none => some st
  | some (name, value) =>
    let headerName := tolower name
    if headerName = bytes "host" then some ({ session with host := some value }, hasContentLength)
    else if headerName = bytes "connection" then
      some ({ session with connection := tolower value }, hasContentLength)
    else if headerName = bytes "content-length" then
      if hasContentLength then none
      else
        match asInteger value with
        | none => none
        | some n =>
          if n < 0 ∨ n > httpMaxBodySize then none
          else some ({ session with contentLength := some n }, true)
    else if headerName = bytes "transfer-encoding" then none
    else
      some ({ session with
        requestHeaders := (headerName, value) :: session.requestHeaders.filter (·.1 ≠ headerName) },
        hasContentLength)

/-- The connection of a session that names none. -/
def defaultConnection (version : Bytes) : Bytes :=
  if version ≤ bytes "1.0" then bytes "close" else bytes "keep-alive"

/-- `create_http_session`. -/
def createHttpSession (asInteger : Bytes → Option Int) : List Bytes → Option Session
  | [] => none
  | requestLine :: header =>
    match requestLineReg requestLine with
    | none => none
    | some (method, url, args, version) =>
      let session : Session := ⟨url, args, none, method, version, [], none, none, []⟩
      match header.foldlM (readHeader asInteger) (session, false) with
      | none => none
      | some (session, _) =>
        if session.connection.isEmpty then
          some { session with connection := defaultConnection session.version }
        else some session

/-! ## What a session says -/

section Spec
variable {asInteger : Bytes → Option Int} {line : Bytes} {st st' : Session × Bool}

/-- The name a line is taken under, and its value. -/
def header (line : Bytes) : Option (Bytes × Bytes) :=
  (requestHeaderReg line).map fun (name, value) => (tolower name, value)

/-- The values of the lines taken as content lengths. -/
def contentLengths (lines : List Bytes) : List Bytes :=
  lines.filterMap fun line => (header line).bind fun (name, value) =>
    if name = bytes "content-length" then some value else none

/-- What a header line does: nothing, or it sets the field that its name stands for. -/
lemma readHeader_inv (h : readHeader asInteger st line = some st') :
    requestHeaderReg line = none ∧ st' = st ∨
    ∃ name value, requestHeaderReg line = some (name, value) ∧
      (tolower name = bytes "host" ∧ st' = ({ st.1 with host := some value }, st.2) ∨
        tolower name = bytes "connection" ∧ st' = ({ st.1 with connection := tolower value }, st.2) ∨
        tolower name = bytes "content-length" ∧ st.2 = false ∧
          (∃ n, asInteger value = some n ∧ 0 ≤ n ∧ n ≤ httpMaxBodySize ∧
            st' = ({ st.1 with contentLength := some n }, true)) ∨
        tolower name ≠ bytes "content-length" ∧ tolower name ≠ bytes "transfer-encoding" ∧
          st' = ({ st.1 with
            requestHeaders := (tolower name, value) :: st.1.requestHeaders.filter (·.1 ≠ tolower name) }, st.2)) := by
  obtain ⟨session, has⟩ := st
  unfold readHeader at h
  cases e : requestHeaderReg line with
  | none =>
    simp only [e] at h
    cases h
    exact .inl ⟨rfl, rfl⟩
  | some nv =>
    obtain ⟨name, value⟩ := nv
    simp only [e] at h
    refine .inr ⟨name, value, rfl, ?_⟩
    split at h
    · rename_i hn
      cases h
      exact .inl ⟨hn, rfl⟩
    split at h
    · rename_i hn
      cases h
      exact .inr (.inl ⟨hn, rfl⟩)
    split at h
    · rename_i hn
      split at h
      · cases h
      rename_i no
      split at h
      · cases h
      rename_i n hi
      split at h
      · cases h
      rename_i range
      cases h
      exact .inr (.inr (.inl ⟨hn, by simpa using no, n, hi, by omega, by omega, rfl⟩))
    rename_i nc
    split at h
    · cases h
    rename_i nt
    cases h
    exact .inr (.inr (.inr ⟨nc, nt, rfl⟩))

/-- A line that is taken is a content length, the first one, or leaves the length alone. -/
lemma readHeader_cases (h : readHeader asInteger st line = some st') :
    (∃ value n, header line = some (bytes "content-length", value) ∧ st.2 = false ∧
      asInteger value = some n ∧ 0 ≤ n ∧ n ≤ httpMaxBodySize ∧
      st' = ({ st.1 with contentLength := some n }, true)) ∨
    ((∀ value, header line ≠ some (bytes "content-length", value)) ∧
      (∀ value, header line ≠ some (bytes "transfer-encoding", value)) ∧
      st'.1.contentLength = st.1.contentLength ∧ st'.2 = st.2) := by
  unfold header
  rcases readHeader_inv h with ⟨e, rfl⟩ | ⟨name, value, e, hn⟩
  · simp [e]
  · rcases hn with ⟨hn, rfl⟩ | ⟨hn, rfl⟩ | ⟨hn, no, n, hi, h0, h1, rfl⟩ | ⟨nc, nt, rfl⟩
    · right
      simp [e, hn, bytes]
    · right
      simp [e, hn, bytes]
    · left
      exact ⟨value, n, by simp [e, hn], no, hi, h0, h1, rfl⟩
    · right
      simp [e, nc, nt]

/-- A session that is created has the parts of its request line, and what its header lines set; the connection of
the version, where they set none. -/
lemma createHttpSession_inv {lines : List Bytes} {session : Session}
    (h : createHttpSession asInteger lines = some session) :
    ∃ line header method url args version mid has, lines = line :: header ∧
      requestLineReg line = some (method, url, args, version) ∧
      header.foldlM (readHeader asInteger) (⟨url, args, none, method, version, [], none, none, []⟩, false) =
        some (mid, has) ∧
      (mid.connection = [] ∧ session = { mid with connection := defaultConnection mid.version } ∨ session = mid) := by
  cases lines with
  | nil => cases h
  | cons line header =>
    simp only [createHttpSession] at h
    split at h
    · cases h
    rename_i method url args version hreg
    split at h
    · cases h
    rename_i mid has hfold
    refine ⟨line, header, method, url, args, version, mid, has, rfl, hreg, hfold, ?_⟩
    split at h
    · rename_i blank
      cases h
      exact .inl ⟨List.isEmpty_iff.mp blank, rfl⟩
    · cases h
      exact .inr rfl

lemma contentLengths_cons_of_eq {value : Bytes} {lines : List Bytes}
    (h : header line = some (bytes "content-length", value)) :
    contentLengths (line :: lines) = value :: contentLengths lines := by
  simp [contentLengths, h]

lemma contentLengths_cons_of_ne {lines : List Bytes}
    (h : ∀ value, header line ≠ some (bytes "content-length", value)) :
    contentLengths (line :: lines) = contentLengths lines := by
  unfold contentLengths
  rw [List.filterMap_cons_none]
  cases e : header line with
  | none => rfl
  | some nv =>
    obtain ⟨name, value⟩ := nv
    have ne : name ≠ bytes "content-length" := by
      rintro rfl
      exact h value e
    simp [ne]

/-- A header that is taken has no transfer coding and at most one content length. -/
lemma foldlM_readHeader {lines : List Bytes}
    (h : lines.foldlM (readHeader asInteger) st = some st') :
    (∀ line ∈ lines, ∀ value, header line ≠ some (bytes "transfer-encoding", value)) ∧
    (contentLengths lines = [] ∧ st'.1.contentLength = st.1.contentLength ∧ st'.2 = st.2 ∨
      ∃ value n, st.2 = false ∧ contentLengths lines = [value] ∧ asInteger value = some n ∧
        0 ≤ n ∧ n ≤ httpMaxBodySize ∧ st'.1.contentLength = some n) := by
  induction lines generalizing st with
  | nil =>
    cases h
    exact ⟨by simp, .inl ⟨rfl, rfl, rfl⟩⟩
  | cons line lines ih =>
    rw [List.foldlM_cons] at h
    obtain ⟨mid, hstep, hrest⟩ := Option.bind_eq_some_iff.mp h
    obtain ⟨noTe, tail⟩ := ih hrest
    rcases readHeader_cases hstep with ⟨value, n, hl, has, hi, h0, h1, rfl⟩ | ⟨ncl, nte, ecl, ehas⟩
    · -- the first content length: no other one may follow
      refine ⟨?_, .inr ?_⟩
      · rw [List.forall_mem_cons]
        refine ⟨fun v e => ?_, noTe⟩
        rw [hl] at e
        simp [bytes] at e
      · rcases tail with ⟨nil, ecl, -⟩ | ⟨_, _, has', -⟩
        · exact ⟨value, n, has, by rw [contentLengths_cons_of_eq hl, nil], hi, h0, h1, ecl⟩
        · cases has'
    · refine ⟨List.forall_mem_cons.mpr ⟨nte, noTe⟩, ?_⟩
      rw [contentLengths_cons_of_ne ncl]
      rcases tail with ⟨nil, ecl', ehas'⟩ | ⟨value, n, has, tail⟩
      · exact .inl ⟨nil, ecl'.trans ecl, ehas'.trans ehas⟩
      · exact .inr ⟨value, n, ehas ▸ has, tail⟩

/-- What a session says about the framing of its body. -/
lemma createHttpSession_framing {requestLine : Bytes} {lines : List Bytes} {session : Session}
    (h : createHttpSession asInteger (requestLine :: lines) = some session) :
    (∀ line ∈ lines, ∀ value, header line ≠ some (bytes "transfer-encoding", value)) ∧
    (contentLengths lines = [] ∧ session.contentLength = none ∨
      ∃ value n, contentLengths lines = [value] ∧ asInteger value = some n ∧
        0 ≤ n ∧ n ≤ httpMaxBodySize ∧ session.contentLength = some n) := by
  obtain ⟨_, _, method, url, args, version, mid, has, e, -, hfold, eq⟩ := createHttpSession_inv h
  cases e
  obtain ⟨noTe, cl⟩ := foldlM_readHeader hfold
  have ecl : session.contentLength = mid.contentLength := by
    rcases eq with ⟨-, rfl⟩ | rfl <;> rfl
  refine ⟨noTe, ?_⟩
  rcases cl with ⟨nil, e, -⟩ | ⟨value, n, -, one, hi, h0, h1, e⟩
  · exact .inl ⟨nil, ecl.trans e⟩
  · exact .inr ⟨value, n, one, hi, h0, h1, ecl.trans e⟩

/-- The length a session announces is one that the operations accept. -/
lemma createHttpSession_length {lines : List Bytes} {session : Session} {n : Int}
    (h : createHttpSession asInteger lines = some session) (hn : session.contentLength = some n) :
    0 ≤ n ∧ n ≤ httpMaxBodySize := by
  cases lines with
  | nil => cases h
  | cons requestLine lines =>
    rcases (createHttpSession_framing h).2 with ⟨-, e⟩ | ⟨value, m, -, -, h0, h1, e⟩
    · simp [hn] at e
    · rw [hn, Option.some.injEq] at e
      exact e ▸ ⟨h0, h1⟩

/-- The value of a header line is on one line. -/
lemma header_value_noBreak {name value : Bytes} (h : requestHeaderReg line = some (name, value)) :
    NoBreak value := by
  unfold requestHeaderReg at h
  split at h
  · split at h
    · rename_i all
      cases h
      rw [List.all_eq_true] at all
      exact ⟨fun mem => by simpa using all _ mem, fun mem => by simpa using all _ mem⟩
    · cases h
  · cases h

/-- A header line leaves the request line and the body alone, and the connection on one line. -/
lemma readHeader_frame (h : readHeader asInteger st line = some st') :
    (NoBreak st.1.connection → NoBreak st'.1.connection) ∧ st'.1.url = st.1.url ∧ st'.1.args = st.1.args ∧
      st'.1.version = st.1.version ∧ st'.1.postData = st.1.postData := by
  rcases readHeader_inv h with ⟨-, rfl⟩ | ⟨name, value, e, hn⟩
  · exact ⟨id, rfl, rfl, rfl, rfl⟩
  · rcases hn with ⟨-, rfl⟩ | ⟨-, rfl⟩ | ⟨-, -, n, -, -, -, rfl⟩ | ⟨-, -, rfl⟩
    · exact ⟨id, rfl, rfl, rfl, rfl⟩
    · exact ⟨fun _ => (header_value_noBreak e).tolower, rfl, rfl, rfl, rfl⟩
    · exact ⟨id, rfl, rfl, rfl, rfl⟩
    · exact ⟨id, rfl, rfl, rfl, rfl⟩

/-- So do all of them. -/
lemma foldlM_readHeader_frame {lines : List Bytes} (h : lines.foldlM (readHeader asInteger) st = some st') :
    (NoBreak st.1.connection → NoBreak st'.1.connection) ∧ st'.1.url = st.1.url ∧ st'.1.args = st.1.args ∧
      st'.1.version = st.1.version ∧ st'.1.postData = st.1.postData := by
  refine foldlM_invariant (I := fun mid => (NoBreak st.1.connection → NoBreak mid.1.connection) ∧
    mid.1.url = st.1.url ∧ mid.1.args = st.1.args ∧ mid.1.version = st.1.version ∧
    mid.1.postData = st.1.postData) ?_ h ⟨id, rfl, rfl, rfl, rfl⟩
  rintro mid line mid' ⟨hc, eu, ea, ev, ep⟩ hstep
  obtain ⟨hc', eu', ea', ev', ep'⟩ := readHeader_frame hstep
  exact ⟨fun start => hc' (hc start), eu'.trans eu, ea'.trans ea, ev'.trans ev, ep'.trans ep⟩

/-- The version and the connection of a session are fit for a response line; its body is not read
yet. -/
lemma createHttpSession_text {lines : List Bytes} {session : Session}
    (h : createHttpSession asInteger lines = some session) :
    session.version.all isVersionChar = true ∧ NoBreak session.connection ∧
      session.postData = none := by
  have reg : ∀ {line method url args version : Bytes},
      requestLineReg line = some (method, url, args, version) →
      version.all isVersionChar = true := by
    intro line method url args version h
    simp only [requestLineReg] at h
    split at h
    · split at h
      · split at h
        · rename_i ok
          simp only [Option.some.injEq, Prod.mk.injEq] at h
          obtain ⟨-, -, -, rfl⟩ := h
          simp only [Bool.and_eq_true] at ok
          exact ok.2
        · cases h
      · cases h
    · cases h
  obtain ⟨line, lines, method, url, args, version, mid, has, rfl, hreg, hfold, eq⟩ := createHttpSession_inv h
  obtain ⟨hc, -, -, ev, ep⟩ := foldlM_readHeader_frame hfold
  have hv : mid.version.all isVersionChar = true := by
    rw [ev]
    exact reg hreg
  rcases eq with ⟨-, rfl⟩ | rfl
  · -- a request without a Connection header gets the default of its version
    refine ⟨hv, ?_, ep⟩
    simp only [defaultConnection]
    split <;> decide
  · exact ⟨hv, hc ⟨List.not_mem_nil, List.not_mem_nil⟩, ep⟩

/-- The url and the arguments of a session are those of its request line. -/
lemma createHttpSession_target {lines : List Bytes} {session : Session}
    (h : createHttpSession asInteger (line :: lines) = some session) :
    ∃ method version, requestLineReg line = some (method, session.url, session.args, version) := by
  obtain ⟨_, _, method, url, args, version, mid, has, e, hreg, hfold, eq⟩ := createHttpSession_inv h
  cases e
  obtain ⟨-, eu, ea, -⟩ := foldlM_readHeader_frame hfold
  refine ⟨method, version, ?_⟩
  rw [hreg]
  rcases eq with ⟨-, rfl⟩ | rfl
  · exact congrArg₂ (fun url args => some (method, url, args, version)) eu.symm ea.symm
  · exact congrArg₂ (fun url args => some (method, url, args, version)) eu.symm ea.symm

/-- A header line keeps the names of the headers distinct. -/
lemma readHeader_names (h : readHeader asInteger st line = some st')
    (nodup : (st.1.requestHeaders.map Prod.fst).Nodup) :
    (st'.1.requestHeaders.map Prod.fst).Nodup := by
  rcases readHeader_inv h with ⟨-, rfl⟩ | ⟨name, value, -, hn⟩
  · exact nodup
  · rcases hn with ⟨-, rfl⟩ | ⟨-, rfl⟩ | ⟨-, -, n, -, -, -, rfl⟩ | ⟨-, -, rfl⟩
    · exact nodup
    · exact nodup
    · exact nodup
    · -- an earlier header of the name has made room
      have sub := (List.filter_sublist (l := st.1.requestHeaders)
        (p := fun h => decide (h.1 ≠ tolower name))).map Prod.fst
      refine List.nodup_cons.mpr ⟨fun mem => ?_, nodup.sublist sub⟩
      obtain ⟨h, hmem, same⟩ := List.mem_map.mp mem
      have ne := (List.mem_filter.mp hmem).2
      exact of_decide_eq_true ne same

/-- The headers of a session have distinct names. -/
lemma createHttpSession_names {lines : List Bytes} {session : Session}
    (h : createHttpSession asInteger lines = some session) :
    (session.requestHeaders.map Prod.fst).Nodup := by
  obtain ⟨line, lines, method, url, args, version, mid, has, rfl, -, hfold, eq⟩ := createHttpSession_inv h
  have nodup := foldlM_invariant (I := fun st => (st.1.requestHeaders.map Prod.fst).Nodup)
    (fun _ _ _ nodup hstep => readHeader_names hstep nodup) hfold List.nodup_nil
  rcases eq with ⟨-, rfl⟩ | rfl
  · exact nodup
  · exact nodup

end Spec

end CovNet.Http
