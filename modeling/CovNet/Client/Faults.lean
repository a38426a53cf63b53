import CovNet.Client.Response

/-!
# Faults of the response parser

`parse_response_headers` (`netutils.ecs`) refuses a block by returning null, and `http_request` calls it outside
any `try`: an access to an element that is not there would leave the request with an exception. The functions
of `CovNet.Client.Response` have one result for both. Here they are written with the two apart, and with every
access and every conversion of the source.

The lines are only indexed below their number, and the status code is three digits. The last of the transfer
codings is another matter, since `split` drops empty pieces: `parse_faults_iff` says which blocks make the parser
fault, and that `http_request` raises exactly on those.
-/

namespace CovNet.Client
open Lib Text Async Http

/-- What ends a function of the script before its last line. -/
inductive Stop where
  /-- `return null` -/
  | null
  /-- `front`, `back` or an index where the array has no element -/
  | noElement
  /-- `as integer` of what is no number -/
  | noNumber
  deriving DecidableEq, Repr

/-- Anything but `return null`. -/
def Stop.isFault : Stop → Bool
  | .null => false
  | _ => true

/-- A function of the script that may stop. -/
abbrev Script (α : Type) := Except Stop α

namespace Script
variable {α β : Type}

/-- `return null` where there is no result. -/
def orNull : Option α → Script α
  | none => .error .null
  | some a => .ok a

/-- An index of an array. -/
def index (array : List α) (i : Nat) : Script α :=
  match array[i]? with
  | none => .error .noElement
  | some a => .ok a

/-- `array.back`. -/
def back (array : List α) : Script α :=
  match array.getLast? with
  | none => .error .noElement
  | some a => .ok a

/-- `as integer`, outside `try`. -/
def integer (asInteger : Bytes → Option Int) (s : Bytes) : Script Int :=
  match asInteger s with
  | none => .error .noNumber
  | some n => .ok n

/-- The loop of `parse_response_headers` over the indices of the lines. -/
def headerLines (lines : List Bytes) : Script (List (Bytes × Bytes)) :=
  (List.range lines.length).foldlM (fun headers i =>
    if i = 0 then .ok headers
    else do
      let line ← index lines i
      orNull (addHeader headers line)) []

/-- The transfer codings of a block. -/
def transferCodings (headers : List (Bytes × Bytes)) : Script Bool :=
  match headers.lookup (bytes "transfer-encoding") with
  | none => .ok false
  | some value => do
    let last ← back (split ',' value)
    if tolower (trim last) = bytes "chunked" then .ok true else .error .null

/-- `http_client.parse_response_headers`. The length is converted within a `try`. -/
def parseResponseHeaders (asInteger : Bytes → Option Int) (headersRaw : Bytes) : Script Meta := do
  let lines := split '\n' headersRaw
  if lines.isEmpty then .error .null
  else
    let statusLine ← index lines 0
    let code ← orNull (httpStatusLineReg (trim statusLine))
    let headers ← headerLines lines
    let contentLength ← orNull (announcedLength asInteger headers)
    let isChunked ← transferCodings headers
    if isChunked && (headers.lookup (bytes "content-length")).isSome then .error .null
    else
      let statusCode ← integer asInteger code
      .ok ⟨statusCode.toNat, headers, contentLength, isChunked⟩

/-- One turn of the loop of `http_request` over header blocks. A fault ends the reading. -/
def readHeaderBlock (asInteger : Bytes → Option Int) (more : Reading (Script Meta)) : Reading (Script Meta) :=
  .search .block fun headersRaw =>
    match parseResponseHeaders asInteger headersRaw with
    | .error stop => if stop.isFault then .pure (.error stop) else .fail
    | .ok m =>
      if 100 ≤ m.statusCode ∧ m.statusCode ≤ 199 then
        if m.statusCode = 101 then .fail else more
      else .pure (.ok m)

/-- The loop over header blocks, of which `interim` may be interim. -/
def readHeaders (asInteger : Bytes → Option Int) : Nat → Reading (Script Meta)
  | 0 => readHeaderBlock asInteger .fail
  | interim + 1 => readHeaderBlock asInteger (readHeaders asInteger interim)

/-- What `http_request` does behind the header blocks. -/
def respond (method : Bytes) : Script Meta → Reading (Script Response)
  | .error stop => .pure (.error stop)
  | .ok m =>
    if method = bytes "HEAD" ∨ m.statusCode = 204 ∨ m.statusCode = 304 then
      .pure (.ok ⟨m.statusCode, m.headers, []⟩)
    else (readBody m).bind fun body => .pure (.ok ⟨m.statusCode, m.headers, body⟩)

/-- The reading phase of `http_client.http_request`, with the exception it raises. -/
def httpRequest (asInteger : Bytes → Option Int) (method : Bytes) : Reading (Script Response) :=
  (readHeaders asInteger 10).bind (respond method)

end Script

/-- A block that passes every other check and has a Transfer-Encoding of commas only. -/
def CommasOnly (asInteger : Bytes → Option Int) (headersRaw : Bytes) : Prop :=
  ∃ statusLine ls headers value, split '\n' headersRaw = statusLine :: ls ∧
    (httpStatusLineReg (trim statusLine)).isSome = true ∧ ls.foldlM addHeader [] = some headers ∧
    (announcedLength asInteger headers).isSome = true ∧
    headers.lookup (bytes "transfer-encoding") = some value ∧ ∀ c ∈ value, c = ','

/-- The header blocks that `http_request` reads off a client, if `interim` of them may be interim. -/
inductive Reads (asInteger : Bytes → Option Int) : Nat → HttpClient → Bytes → Prop where
  | first {interim c headersRaw c'} :
    readUntilLimited Mark.block.delim Mark.block.max 2 c = some (headersRaw, c') →
    Reads asInteger interim c headersRaw
  | behind {interim c headersRaw c' m next} :
    readUntilLimited Mark.block.delim Mark.block.max 2 c = some (headersRaw, c') →
    parseResponseHeaders asInteger headersRaw = some m →
    100 ≤ m.statusCode → m.statusCode ≤ 199 → m.statusCode ≠ 101 →
    Reads asInteger interim c' next →
    Reads asInteger (interim + 1) c next

/-! ## The parser -/

namespace Script
variable {α β : Type} {asInteger : Bytes → Option Int}

@[simp] lemma ok_bind (a : α) (f : α → Script β) : (Except.ok a >>= f : Script β) = f a := rfl

@[simp] lemma error_bind (stop : Stop) (f : α → Script β) :
    (Except.error stop >>= f : Script β) = .error stop := rfl

/-- `return null` is no fault. -/
lemma orNull_error {o : Option α} {stop : Stop} (h : orNull o = .error stop) : stop = .null := by
  cases o with
  | none =>
    cases h
    rfl
  | some a => cases h

/-- The indices below the number of the elements lead to all of them. -/
lemma foldlM_index (array : List α) (f : β → α → Script β) (b : β) :
    (List.range array.length).foldlM (fun b i => index array i >>= f b) b = array.foldlM f b := by
  induction array generalizing b with
  | nil => rfl
  | cons a array ih =>
    rw [List.length_cons, List.range_succ_eq_map, List.foldlM_cons, List.foldlM_cons]
    have first : index (a :: array) 0 = .ok a := rfl
    rw [first, ok_bind]
    congr 1
    funext b
    rw [List.foldlM_map]
    exact ih b

/-- A loop whose turns may return null. -/
lemma foldlM_orNull (array : List α) (f : β → α → Option β) (b : β) :
    array.foldlM (fun b a => orNull (f b a)) b = orNull (array.foldlM f b) := by
  induction array generalizing b with
  | nil => rfl
  | cons a array ih =>
    rw [List.foldlM_cons, List.foldlM_cons]
    cases e : f b a with
    | none => rfl
    | some b' => exact ih b'

/-- The lines behind the first are taken in their order. -/
lemma headerLines_cons (statusLine : Bytes) (ls : List Bytes) :
    headerLines (statusLine :: ls) = orNull (ls.foldlM addHeader []) := by
  rw [← foldlM_orNull, ← foldlM_index]
  unfold headerLines
  rw [List.length_cons, List.range_succ_eq_map, List.foldlM_cons, if_pos rfl, ok_bind, List.foldlM_map]
  rfl

/-- The codings are commas only. -/
def Separators (headers : List (Bytes × Bytes)) : Prop :=
  ∃ value, headers.lookup (bytes "transfer-encoding") = some value ∧ ∀ c ∈ value, c = ','

lemma transferCodings_separators {headers : List (Bytes × Bytes)} (h : Separators headers) :
    transferCodings headers = .error .noElement := by
  obtain ⟨value, there, commas⟩ := h
  unfold transferCodings
  simp only [there, split_eq_nil.mpr commas]
  rfl

lemma transferCodings_eq {headers : List (Bytes × Bytes)} (h : ¬ Separators headers) :
    transferCodings headers = orNull (announcedChunks headers) := by
  unfold transferCodings announcedChunks
  cases there : headers.lookup (bytes "transfer-encoding") with
  | none => rfl
  | some value =>
    dsimp only
    cases last : (split ',' value).getLast? with
    | none => exact absurd ⟨value, there, split_eq_nil.mp (List.getLast?_eq_none_iff.mp last)⟩ h
    | some coding =>
      have found : back (split ',' value) = .ok coding := by
        rw [back, last]
      rw [found, ok_bind]
      dsimp only
      split <;> rfl

end Script

/-- The status code has three digits. -/
lemma httpStatusLineReg_digits {line code : Bytes} (h : httpStatusLineReg line = some code) :
    code.length = 3 ∧ code.all Char.isDigit = true := by
  unfold httpStatusLineReg at h
  split at h
  · cases h
  · split at h
    · cases h
    · split at h
      · split at h
        · rename_i a b c reason _ ok
          cases h
          simp only [Bool.and_eq_true] at ok
          refine ⟨rfl, ?_⟩
          simp [ok.1]
        · cases h
      · cases h

/-- The accesses and conversions of the source are inside their arrays and domains, but for `back`. -/
lemma Script.parseResponseHeaders_eq {asInteger : Bytes → Option Int}
    (digits : ∀ s : Bytes, s.length = 3 → s.all Char.isDigit = true → asInteger s = some (digitsValue s : Int))
    (headersRaw : Bytes) :
    (CommasOnly asInteger headersRaw → Script.parseResponseHeaders asInteger headersRaw = .error .noElement) ∧
    (¬ CommasOnly asInteger headersRaw → Script.parseResponseHeaders asInteger headersRaw =
      orNull (Client.parseResponseHeaders asInteger headersRaw)) := by
  unfold CommasOnly Script.parseResponseHeaders Client.parseResponseHeaders
  cases list : split '\n' headersRaw with
  | nil =>
    refine ⟨?_, fun _ => rfl⟩
    rintro ⟨_, _, _, _, e, -⟩
    cases e
  | cons statusLine ls =>
    have first : index (statusLine :: ls) 0 = .ok statusLine := rfl
    simp only [List.isEmpty_cons, Bool.false_eq_true, if_false, first, ok_bind, headerLines_cons]
    cases code : httpStatusLineReg (trim statusLine) with
    | none =>
      refine ⟨?_, fun _ => rfl⟩
      rintro ⟨_, _, _, _, e, isSome, -⟩
      cases e
      rw [code] at isSome
      cases isSome
    | some code' =>
      cases fold : ls.foldlM addHeader [] with
      | none =>
        refine ⟨?_, fun _ => rfl⟩
        rintro ⟨_, _, _, _, e, -, some, -⟩
        cases e
        rw [fold] at some
        cases some
      | some headers =>
        simp only [orNull, ok_bind, Option.bind_eq_bind, Option.bind_some]
        cases length : announcedLength asInteger headers with
        | none =>
          refine ⟨?_, fun _ => rfl⟩
          rintro ⟨_, _, _, _, e, -, some, isSome, -⟩
          cases e
          rw [fold] at some
          cases some
          rw [length] at isSome
          cases isSome
        | some contentLength =>
          simp only [ok_bind, Option.bind_some]
          -- only a block that passes the checks so far gets to `back`
          constructor
          · rintro ⟨_, _, _, value, e, -, some, -, there, commas⟩
            cases e
            rw [fold] at some
            cases some
            rw [transferCodings_separators ⟨value, there, commas⟩, error_bind]
          · intro no
            have some_code : ¬ Separators headers := by
              rintro ⟨value, there, commas⟩
              exact no ⟨_, _, _, value, rfl, by rw [code]; rfl, fold, by rw [length]; rfl, there, commas⟩
            rw [transferCodings_eq some_code]
            cases announcedChunks headers with
            | none => rfl
            | some isChunked =>
              simp only [orNull, ok_bind, Option.bind_some]
              split
              · rfl
              · obtain ⟨three, all⟩ := httpStatusLineReg_digits code
                rw [integer, digits code' three all]
                rfl

/-! ## The request -/

section Request
variable {asInteger : Bytes → Option Int} {α : Type} {f : Script Meta → Reading (Script α)}

/-- The program ends with an exception. -/
def Raises (p : Reading (Script α)) (c : HttpClient) : Prop := ∃ stop, p.run c = some (.error stop)

/-- A result that is passed on. -/
lemma run_map {β γ : Type} (p : Reading β) (g : β → γ) (c : HttpClient) :
    (p.bind fun b => .pure (g b)).run c = (p.run c).map g := by
  induction p generalizing c with
  | pure b => rfl
  | fail => rfl
  | search mark next ih =>
    simp only [Reading.bind, Reading.run]
    split
    · rfl
    · exact ih _ _
  | exact n next ih =>
    simp only [Reading.bind, Reading.run]
    split
    · rfl
    · exact ih _ _
  | drain next ih =>
    simp only [Reading.bind, Reading.run]
    split
    · rfl
    · exact ih _ _

/-- What follows a header block that is taken ends with a response or null. -/
lemma run_respond (method : Bytes) (m : Meta) (c : HttpClient) :
    (Script.respond method (.ok m)).run c =
      ((if method = bytes "HEAD" ∨ m.statusCode = 204 ∨ m.statusCode = 304 then
          Reading.pure ⟨m.statusCode, m.headers, []⟩
        else (readBody m).bind fun body => .pure ⟨m.statusCode, m.headers, body⟩).run c).map
          (Except.ok (ε := Stop)) := by
  simp only [Script.respond]
  split
  · rfl
  · rw [run_map, run_map, Option.map_map]
    rfl

variable (digits : ∀ s : Bytes, s.length = 3 → s.all Char.isDigit = true → asInteger s = some (digitsValue s : Int))
include digits

/-- One header block, with what follows it. -/
lemma raises_readHeaderBlock
    (passes : ∀ stop, f (.error stop) = .pure (.error stop)) (calm : ∀ m c, ¬ Raises (f (.ok m)) c)
    (more : Reading (Script Meta)) (c : HttpClient) :
    Raises ((Script.readHeaderBlock asInteger more).bind f) c ↔
      ∃ x c', readUntilLimited Mark.block.delim Mark.block.max 2 c = some (x, c') ∧
        (CommasOnly asInteger x ∨ ∃ m, parseResponseHeaders asInteger x = some m ∧ 100 ≤ m.statusCode ∧
          m.statusCode ≤ 199 ∧ m.statusCode ≠ 101 ∧ Raises (more.bind f) c') := by
  unfold Raises Script.readHeaderBlock
  simp only [Reading.bind, Reading.run]
  cases read : readUntilLimited Mark.block.delim Mark.block.max 2 c with
  | none =>
    refine iff_of_false ?_ ?_
    · rintro ⟨stop, e⟩
      cases e
    · rintro ⟨x, c', e, -⟩
      cases e
  | some found =>
    obtain ⟨x, c'⟩ := found
    obtain ⟨fault, fine⟩ := Script.parseResponseHeaders_eq digits x
    dsimp only
    by_cases commas : CommasOnly asInteger x
    · refine iff_of_true ?_ ⟨x, c', rfl, .inl commas⟩
      rw [fault commas]
      exact ⟨.noElement, by simp [Stop.isFault, Reading.bind, passes, Reading.run]⟩
    · rw [fine commas]
      have behind : (∃ y c'', some (x, c') = some (y, c'') ∧
          (CommasOnly asInteger y ∨ ∃ m, parseResponseHeaders asInteger y = some m ∧ 100 ≤ m.statusCode ∧
            m.statusCode ≤ 199 ∧ m.statusCode ≠ 101 ∧ ∃ stop, (more.bind f).run c'' = some (.error stop))) ↔
          ∃ m, parseResponseHeaders asInteger x = some m ∧ 100 ≤ m.statusCode ∧
            m.statusCode ≤ 199 ∧ m.statusCode ≠ 101 ∧ ∃ stop, (more.bind f).run c' = some (.error stop) := by
        constructor
        · rintro ⟨_, _, e, h⟩
          cases e
          exact h.resolve_left commas
        · intro h
          exact ⟨x, c', rfl, .inr h⟩
      rw [behind]
      cases parse : parseResponseHeaders asInteger x with
      | none =>
        refine iff_of_false ?_ ?_
        · rintro ⟨stop, e⟩
          cases e
        · rintro ⟨m, e, -⟩
          cases e
      | some m =>
        dsimp only [Script.orNull]
        constructor
        · rintro ⟨stop, e⟩
          split at e
          · rename_i interim
            split at e
            · cases e
            · rename_i ne
              exact ⟨m, rfl, interim.1, interim.2, ne, stop, e⟩
          · exact absurd ⟨stop, e⟩ (calm m c')
        · rintro ⟨_, e, low, high, ne, stop, raised⟩
          cases e
          rw [if_pos ⟨low, high⟩, if_neg ne]
          exact ⟨stop, raised⟩

/-- The loop over header blocks, with what follows it. -/
lemma raises_readHeaders
    (passes : ∀ stop, f (.error stop) = .pure (.error stop)) (calm : ∀ m c, ¬ Raises (f (.ok m)) c)
    (interim : Nat) (c : HttpClient) :
    Raises ((Script.readHeaders asInteger interim).bind f) c ↔
      ∃ x, Reads asInteger interim c x ∧ CommasOnly asInteger x := by
  induction interim generalizing c with
  | zero =>
    rw [Script.readHeaders, raises_readHeaderBlock digits passes calm]
    constructor
    · rintro ⟨x, c', read, commas | ⟨m, -, -, -, -, stop, e⟩⟩
      · exact ⟨x, .first read, commas⟩
      · cases e
    · rintro ⟨x, reads, commas⟩
      cases reads with
      | first read => exact ⟨x, _, read, .inl commas⟩
  | succ interim ih =>
    rw [Script.readHeaders, raises_readHeaderBlock digits passes calm]
    constructor
    · rintro ⟨x, c', read, commas | ⟨m, parse, low, high, ne, raised⟩⟩
      · exact ⟨x, .first read, commas⟩
      · obtain ⟨y, reads, commas⟩ := (ih c').mp raised
        exact ⟨y, .behind read parse low high ne reads, commas⟩
    · rintro ⟨x, reads, commas⟩
      cases reads with
      | first read => exact ⟨x, _, read, .inl commas⟩
      | behind read parse low high ne reads =>
        exact ⟨_, _, read, .inr ⟨_, parse, low, high, ne, (ih _).mpr ⟨x, reads, commas⟩⟩⟩

/-- A request raises on the blocks on which the parser faults. -/
lemma raises_httpRequest
    (method : Bytes) (c : HttpClient) :
    Raises (Script.httpRequest asInteger method) c ↔ ∃ x, Reads asInteger 10 c x ∧ CommasOnly asInteger x := by
  refine raises_readHeaders (f := Script.respond method) digits (fun _ => rfl) (fun m c => ?_) 10 c
  rintro ⟨stop, e⟩
  rw [run_respond] at e
  obtain ⟨response, -, made⟩ := Option.map_eq_some_iff.mp e
  cases made

/-! ## The functions with one result for both -/

end Request

/-- A block makes `parse_response_headers` fault if and only if it passes every other check and has a
Transfer-Encoding of commas only; and a request raises if and only if such a block is among those it reads. -/
theorem parse_faults_iff (asInteger : Bytes → Option Int)
    (digits : ∀ s : Bytes, s.length = 3 → s.all Char.isDigit = true → asInteger s = some (digitsValue s : Int)) :
    (∀ headersRaw, (∀ stop, Script.parseResponseHeaders asInteger headersRaw = .error stop → stop = .null) ↔
      ¬ CommasOnly asInteger headersRaw) ∧
    ∀ method c, ¬ Raises (Script.httpRequest asInteger method) c ↔
      ∀ x, Reads asInteger 10 c x → ¬ CommasOnly asInteger x := by
  refine ⟨fun headersRaw => ?_, fun method c => ?_⟩
  · obtain ⟨fault, fine⟩ := Script.parseResponseHeaders_eq digits headersRaw
    constructor
    · intro calm commas
      cases calm _ (fault commas)
    · intro no stop e
      rw [fine no] at e
      exact Script.orNull_error e
  · rw [raises_httpRequest digits, not_exists]
    exact forall_congr' fun x => not_and

/-- A response whose transfer coding is the last of a list. -/
def codingLast : Bytes := bytes "HTTP/1.1 200 OK\r\nTransfer-Encoding: , chunked\r\n\r\n"

/-- A response with a Transfer-Encoding and nothing behind it. -/
def codingNone : Bytes := bytes "HTTP/1.1 200 OK\r\nTransfer-Encoding:\r\n\r\n"

lemma unsignedInteger_digits (s : Bytes) (three : s.length = 3) (all : s.all Char.isDigit = true) :
    unsignedInteger s = some (digitsValue s : Int) := by
  cases s with
  | nil => cases three
  | cons c s => simp [unsignedInteger, all]

/-- The parser takes it. -/
theorem parse_faults_last :
    ¬ CommasOnly unsignedInteger codingLast ∧
      ∀ x, Reads unsignedInteger 10 ⟨[], ⟨[codingLast], .eof⟩⟩ x → ¬ CommasOnly unsignedInteger x := by
  obtain ⟨parser, request⟩ := parse_faults_iff unsignedInteger unsignedInteger_digits
  refine ⟨(parser codingLast).mp ?_, (request (bytes "HEAD") _).mp ?_⟩
  · have taken : Script.parseResponseHeaders unsignedInteger codingLast =
        .ok ⟨200, [(bytes "transfer-encoding", bytes ", chunked")], -1, true⟩ := by decide
    intro stop e
    rw [taken] at e
    cases e
  · have answered : (Script.httpRequest unsignedInteger (bytes "HEAD")).run ⟨[], ⟨[codingLast], .eof⟩⟩ =
        some (.ok ⟨200, [(bytes "transfer-encoding", bytes ", chunked")], []⟩) := by decide
    rintro ⟨stop, e⟩
    rw [answered] at e
    cases e

/-- The parser faults on it, and the request raises. -/
theorem parse_faults_none :
    Script.parseResponseHeaders unsignedInteger codingNone = .error .noElement ∧
      Raises (Script.httpRequest unsignedInteger (bytes "GET")) ⟨[], ⟨[codingNone], .eof⟩⟩ :=
  ⟨by decide, .noElement, by decide⟩

end CovNet.Client
