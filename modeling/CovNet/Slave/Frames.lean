import Mathlib.Algebra.Group.Nat.Defs
import Mathlib.Algebra.Group.Int.Defs
import CovNet.Async.State
import CovNet.Http.Response

/-!
# Frames

Master and slave exchange framed messages: the size of the content as a fixed number of hexadecimal digits,
then the content. `to_fixed_hex` and `from_fixed_hex` are from `network.cpp`; `send_content`,
`receive_content` and `receive_content_s` are from `netutils.ecs`.

The sender frames every content, also the empty one and those past the buffer limit, which the receivers
refuse: `frame_received_iff` says that what was sent is received if and only if its size is between 1 and
`http_max_body_size`.
-/

namespace CovNet.Slave
open Lib Text Http Async

/-! ## Fixed hexadecimal numbers -/

/-- `NETWORK_FIXED_HEX_SIZE` and `framing_hex_size`. -/
def framingHexSize : Nat := 16

/-- The digits `%X` writes. -/
def hexDigits : Bytes := bytes "0123456789ABCDEF"

/-- A digit. -/
def hexDigit (d : Nat) : Char := hexDigits.getD d '0'

/-- The last `k` digits of a number, as `%0*llX` pads them. -/
def fixedHex : Nat → Nat → Bytes
  | 0, _ => []
  | k + 1, n => fixedHex k (n / 16) ++ [hexDigit (n % 16)]

/-- `to_fixed_hex`: none where it throws. A number past 64 bits has more digits than fit. -/
def toFixedHex (n : Int) : Option Bytes :=
  if n < 0 then none
  else if 2 ^ 64 ≤ n then none
  else some (fixedHex framingHexSize n.toNat)

/-- The value of a digit to `stoull`, in both cases. -/
def digitValue (c : Char) : Option Nat :=
  if c.isDigit then some (c.toNat - '0'.toNat)
  else if 'A' ≤ c ∧ c ≤ 'F' then some (c.toNat - 'A'.toNat + 10)
  else if 'a' ≤ c ∧ c ≤ 'f' then some (c.toNat - 'a'.toNat + 10)
  else none

/-- The value of a string of digits. -/
def hexValue (s : Bytes) : Option Nat :=
  s.foldlM (fun v c => (digitValue c).map (16 * v + ·)) 0

/-- The sign `stoull` takes. -/
def takeSign : Bytes → Bool × Bytes
  | '-' :: s => (true, s)
  | '+' :: s => (false, s)
  | s => (false, s)

/-- The prefix `stoull` passes over when a digit follows. -/
def dropBase : Bytes → Bytes
  | '0' :: x :: c :: s =>
    if (x = 'x' ∨ x = 'X') ∧ (digitValue c).isSome then c :: s else '0' :: x :: c :: s
  | s => s

/-- `from_fixed_hex`: none where it throws. `stoull` skips spaces, takes a sign and a prefix, and wraps a
negative number. -/
def fromFixedHex (s : Bytes) : Option Nat :=
  if s.length ≠ framingHexSize then none
  else
    let (negative, s) := takeSign (s.dropWhile isSpace)
    let digits := dropBase s
    if digits.isEmpty then none
    else (hexValue digits).map fun v => if negative then (2 ^ 64 - v) % 2 ^ 64 else v

section Hex

lemma length_fixedHex (k n : Nat) : (fixedHex k n).length = k := by
  induction k generalizing n with
  | zero => rfl
  | succ k ih => rw [fixedHex, List.length_append, ih, List.length_singleton]

/-- The digits are read as what they stand for. -/
lemma digitValue_hexDigit {d : Nat} (h : d < 16) :
    digitValue (hexDigit d) = some d ∧ isSpace (hexDigit d) = false ∧ hexDigit d ≠ '-' ∧
      hexDigit d ≠ '+' ∧ hexDigit d ≠ 'x' ∧ hexDigit d ≠ 'X' := by
  have all : ∀ d : Fin 16, digitValue (hexDigit d) = some d.val ∧ isSpace (hexDigit d) = false ∧
      hexDigit d ≠ '-' ∧ hexDigit d ≠ '+' ∧ hexDigit d ≠ 'x' ∧ hexDigit d ≠ 'X' := by decide
  exact all ⟨d, h⟩

lemma mem_fixedHex {k n : Nat} {c : Char} (h : c ∈ fixedHex k n) : ∃ d < 16, c = hexDigit d := by
  induction k generalizing n with
  | zero => cases h
  | succ k ih =>
    rcases List.mem_append.mp h with front | last
    · exact ih front
    · exact ⟨n % 16, Nat.mod_lt n (by decide), List.mem_singleton.mp last⟩

lemma hexValue_fixedHex (k n : Nat) : hexValue (fixedHex k n) = some (n % 16 ^ k) := by
  induction k generalizing n with
  | zero => simp [fixedHex, hexValue, Nat.mod_one]
  | succ k ih =>
    have front : (fixedHex k (n / 16)).foldlM (fun v c => (digitValue c).map (16 * v + ·)) 0 =
        some (n / 16 % 16 ^ k) := ih (n / 16)
    have last := (digitValue_hexDigit (Nat.mod_lt n (show 0 < 16 by decide))).1
    rw [hexValue, fixedHex, List.foldlM_append, front]
    simp only [Option.bind_eq_bind, Option.bind_some, List.foldlM_cons, List.foldlM_nil, last,
      Option.map_some, Option.pure_def, Option.some.injEq]
    rw [Nat.pow_succ', Nat.mod_mul, Nat.add_comm]

/-- A 64-bit number comes back. -/
lemma fromFixedHex_fixedHex {n : Nat} (h : n < 2 ^ 64) :
    fromFixedHex (fixedHex framingHexSize n) = some n := by
  have len : (fixedHex framingHexSize n).length = framingHexSize := length_fixedHex _ _
  obtain ⟨c, x, y, s, e⟩ : ∃ c x y s, fixedHex framingHexSize n = c :: x :: y :: s := by
    match fixedHex framingHexSize n, len with
    | c :: x :: y :: s, _ => exact ⟨c, x, y, s, rfl⟩
  obtain ⟨d, hd, rfl⟩ := mem_fixedHex (show c ∈ fixedHex framingHexSize n by rw [e]; simp)
  obtain ⟨d', hd', rfl⟩ := mem_fixedHex (show x ∈ fixedHex framingHexSize n by rw [e]; simp)
  obtain ⟨-, space, minus, plus, -, -⟩ := digitValue_hexDigit hd
  obtain ⟨-, -, -, -, lower, upper⟩ := digitValue_hexDigit hd'
  -- the first digit is neither a space nor a sign, and no prefix follows it
  have whole : (fixedHex framingHexSize n).dropWhile isSpace = fixedHex framingHexSize n := by
    rw [e, List.dropWhile_cons_of_neg (by simp [space])]
  have sign : takeSign (fixedHex framingHexSize n) = (false, fixedHex framingHexSize n) := by
    rw [e]
    unfold takeSign
    split
    · rename_i h
      exact absurd (List.cons.inj h).1 minus
    · rename_i h
      exact absurd (List.cons.inj h).1 plus
    · rfl
  have base : dropBase (fixedHex framingHexSize n) = fixedHex framingHexSize n := by
    rw [e]
    unfold dropBase
    split
    · rename_i h
      simp only [List.cons.injEq] at h
      obtain ⟨zero, rfl, rfl, rfl⟩ := h
      rw [if_neg, zero]
      rintro ⟨l | u, -⟩
      · exact lower l
      · exact upper u
    · rfl
  have value := hexValue_fixedHex framingHexSize n
  rw [Nat.mod_eq_of_lt (by simpa [framingHexSize] using h)] at value
  unfold fromFixedHex
  rw [if_neg (not_not.mpr len), whole, sign]
  simp only [base, value, Option.map_some]
  rw [e]
  rfl

end Hex

/-! ## Contents -/

/-- `send_content`: the bytes of a frame, none where `to_fixed_hex` throws. -/
def sendContent (content : Bytes) : Option Bytes :=
  (toFixedHex content.length).map (· ++ content)

/-- `state.wait`: none where it does not return. -/
def wait (st : State) : Option Bool := if st.hasDone then some st.ec.isNone else none

/-- `receive_content`, with what is left of the socket: no content where it returns null, and none where it
does not return. What it throws it catches. -/
def receiveContent (sock : Socket) : Option (Option Bytes × Socket) :=
  match read sock framingHexSize with
  | none => some (none, sock)
  | some (sock, st) =>
    match wait st with
    | none => none
    | some false => some (none, sock)
    | some true =>
      let hexStr := (getResult st).1
      if hexStr.isEmpty then some (none, sock)
      else
        match fromFixedHex hexStr with
        | none => some (none, sock)
        | some size =>
          if size ≤ 0 ∨ (size : Int) > httpMaxBodySize then some (none, sock)
          else
            match read sock size with
            | none => some (none, sock)
            | some (sock, st) =>
              match wait st with
              | none => none
              | some false => some (none, sock)
              | some true => some (some (getResult st).1, sock)

/-- `state.wait_for` and `has_done`: the error code, none when the operation has succeeded in time. -/
def waitFor (late : Bool) (st : State) : Option StateCode :=
  if late || !st.hasDone then some .code408
  else if st.ec.isSome then some .code500
  else none

/-- `receive_content_s`, with what is left of the socket. `late` says whether the time is up at the first
wait, before the second one, and at the second one. -/
def receiveContentS (late : Nat → Bool) (sock : Socket) : Except StateCode Bytes × Socket :=
  match read sock framingHexSize with
  | none => (.error .code500, sock)
  | some (sock, st) =>
    match waitFor (late 0) st with
    | some code => (.error code, sock)
    | none =>
      let hexStr := (getResult st).1
      if hexStr.isEmpty then (.error .code500, sock)
      else
        match fromFixedHex hexStr with
        | none => (.error .code500, sock)
        | some size =>
          if size ≤ 0 ∨ (size : Int) > httpMaxBodySize then (.error .code500, sock)
          else
            match read sock size with
            | none => (.error .code500, sock)
            | some (sock, st) =>
              if late 1 then (.error .code408, sock)
              else
                match waitFor (late 2) st with
                | some code => (.error code, sock)
                | none => (.ok (getResult st).1, sock)

section Receive
variable {content frame rest : Bytes} {sock : Socket}

/-- The frame of a content: its size, and the content. -/
lemma sendContent_eq (h : sendContent content = some frame) :
    content.length < 2 ^ 64 ∧ frame = fixedHex framingHexSize content.length ++ content := by
  unfold sendContent toFixedHex at h
  split at h
  · cases h
  · split at h
    · cases h
    · rename_i fits
      simp only [Option.map_some, Option.some.injEq, Int.toNat_natCast] at h
      exact ⟨by omega, h.symm⟩

lemma framingHexSize_fits : 0 < framingHexSize ∧ framingHexSize ≤ maxIoBufferSize := by
  unfold framingHexSize maxIoBufferSize
  omega

/-- The size of a frame is read, wherever the stream is cut. -/
lemma read_size {hex tail : Bytes} (len : hex.length = framingHexSize)
    (stream : sock.segments.flatten = hex ++ tail) :
    ∃ sock' st, read sock framingHexSize = some (sock', st) ∧ st.hasDone = true ∧ st.ec = none ∧
      (getResult st).1 = hex ∧ sock'.ending = sock.ending ∧ sock'.segments.flatten = tail := by
  have enough : framingHexSize ≤ sock.segments.flatten.length := by
    rw [stream, List.length_append, len]
    exact Nat.le_add_right _ _
  obtain ⟨sock', st, r, done, ec, ending, got, -, left⟩ := read_enough sock (by decide) enough
  refine ⟨sock', st, r, done, ec, ?_, ending, ?_⟩
  · rw [got, stream, List.take_left' len]
  · rw [left, stream, List.drop_left' len]

/-- A content of a size the receivers take is received, and the stream goes on behind it. -/
lemma receive_fits (sent : sendContent content = some frame)
    (stream : sock.segments.flatten = frame ++ rest)
    (fits : 0 < content.length ∧ (content.length : Int) ≤ httpMaxBodySize) :
    ∃ sock', receiveContent sock = some (some content, sock') ∧
      receiveContentS (fun _ => false) sock = (.ok content, sock') ∧
      sock'.ending = sock.ending ∧ sock'.segments.flatten = rest := by
  obtain ⟨small, whole⟩ := sendContent_eq sent
  rw [whole, List.append_assoc] at stream
  obtain ⟨sock1, st1, r1, done1, ec1, got1, end1, left1⟩ := read_size (length_fixedHex _ _) stream
  have some_hex : ¬ (fixedHex framingHexSize content.length).isEmpty = true := by
    rw [List.isEmpty_iff_length_eq_zero, length_fixedHex]
    decide
  have size := fromFixedHex_fixedHex small
  -- both receivers look at the size before they read on
  have window : ¬ (content.length ≤ 0 ∨ (content.length : Int) > httpMaxBodySize) := by omega
  have limit : 0 < content.length ∧ content.length ≤ maxIoBufferSize := by
    have same : httpMaxBodySize = maxIoBufferSize := rfl
    omega
  have enough : content.length ≤ sock1.segments.flatten.length := by
    rw [left1, List.length_append]
    exact Nat.le_add_right _ _
  obtain ⟨sock2, st2, r2, done2, ec2, end2, got2, -, left2⟩ := read_enough sock1 limit enough
  have body : (getResult st2).1 = content := by
    rw [got2, left1, List.take_left]
  refine ⟨sock2, ?_, ?_, end2.trans end1, ?_⟩
  · simp only [receiveContent, r1, wait, done1, ec1, if_true, Option.isNone_none, got1, if_neg some_hex,
      size, if_neg window, r2, done2, ec2, body]
  · simp only [receiveContentS, r1, waitFor, done1, ec1, Bool.not_true, Bool.or_self, Bool.false_eq_true,
      if_false, Option.isSome_none, got1, if_neg some_hex, size, if_neg window, r2, done2, ec2, body]
  · rw [left2, left1, List.drop_left]

/-- A content of another size is refused, although it was sent. -/
lemma receive_refuses (sent : sendContent content = some frame)
    (stream : sock.segments.flatten = frame ++ rest)
    (out : ¬ (0 < content.length ∧ (content.length : Int) ≤ httpMaxBodySize)) :
    (∃ sock', receiveContent sock = some (none, sock')) ∧
      ∃ sock', receiveContentS (fun _ => false) sock = (.error .code500, sock') := by
  obtain ⟨small, whole⟩ := sendContent_eq sent
  rw [whole, List.append_assoc] at stream
  obtain ⟨sock1, st1, r1, done1, ec1, got1, -, -⟩ := read_size (length_fixedHex _ _) stream
  have some_hex : ¬ (fixedHex framingHexSize content.length).isEmpty = true := by
    rw [List.isEmpty_iff_length_eq_zero, length_fixedHex]
    decide
  have size := fromFixedHex_fixedHex small
  have window : content.length ≤ 0 ∨ (content.length : Int) > httpMaxBodySize := by omega
  refine ⟨⟨sock1, ?_⟩, ⟨sock1, ?_⟩⟩
  · simp only [receiveContent, r1, wait, done1, ec1, if_true, Option.isNone_none, got1, if_neg some_hex,
      size, if_pos window]
  · simp only [receiveContentS, r1, waitFor, done1, ec1, Bool.not_true, Bool.or_self, Bool.false_eq_true,
      if_false, Option.isSome_none, got1, if_neg some_hex, size, if_pos window]

end Receive

/-- A content that was sent is received, by both receivers and however the stream is cut, if and only if it
is not empty and not larger than `http_max_body_size`; in particular a response. -/
theorem frame_received_iff (content frame rest : Bytes) (sock : Socket)
    (sent : sendContent content = some frame) (stream : sock.segments.flatten = frame ++ rest) :
    ((∃ sock', receiveContent sock = some (some content, sock')) ↔
      0 < content.length ∧ (content.length : Int) ≤ httpMaxBodySize) ∧
    ((∃ sock', receiveContentS (fun _ => false) sock = (.ok content, sock')) ↔
      0 < content.length ∧ (content.length : Int) ≤ httpMaxBodySize) ∧
    ∀ tm version connection code data type,
      content = sendResponse tm version connection code data type →
      ((∃ sock', receiveContentS (fun _ => false) sock = (.ok content, sock')) ↔
        (content.length : Int) ≤ httpMaxBodySize) := by
  have both : ((∃ sock', receiveContent sock = some (some content, sock')) ↔
        0 < content.length ∧ (content.length : Int) ≤ httpMaxBodySize) ∧
      ((∃ sock', receiveContentS (fun _ => false) sock = (.ok content, sock')) ↔
        0 < content.length ∧ (content.length : Int) ≤ httpMaxBodySize) := by
    by_cases fits : 0 < content.length ∧ (content.length : Int) ≤ httpMaxBodySize
    · obtain ⟨sock', plain, timed, -, -⟩ := receive_fits sent stream fits
      exact ⟨iff_of_true ⟨sock', plain⟩ fits, iff_of_true ⟨sock', timed⟩ fits⟩
    · obtain ⟨⟨sock1, plain⟩, sock2, timed⟩ := receive_refuses sent stream fits
      refine ⟨iff_of_false ?_ fits, iff_of_false ?_ fits⟩
      · rintro ⟨sock', got⟩
        rw [plain] at got
        cases got
      · rintro ⟨sock', got⟩
        rw [timed] at got
        cases got
  refine ⟨both.1, both.2, fun tm version connection code data type response => ?_⟩
  have pos : 0 < content.length := by
    rw [response]
    simp only [sendResponse, List.length_append]
    have name : (bytes "HTTP/").length = 5 := rfl
    omega
  rw [both.2, and_iff_right pos]

theorem frame_received_hi :
    ∃ sock', receiveContentS (fun _ => false) ⟨[bytes "000000000", bytes "0000002hi00"], .silent⟩ =
      (.ok (bytes "hi"), sock') :=
  ((frame_received_iff (bytes "hi") (bytes "0000000000000002hi") (bytes "00")
    ⟨[bytes "000000000", bytes "0000002hi00"], .silent⟩ rfl rfl).2.1).mpr (by decide)

/-- A response with a body as large as a request may have. -/
def largeResponse : Bytes :=
  sendResponse epoch (bytes "1.1") (bytes "keep-alive") (bytes "200 OK")
    (List.replicate 67108864 'a') (bytes "text/plain")

/-- The empty content and the large response are sent, and received by nobody. -/
theorem frame_not_received :
    (sendContent [] = some (bytes "0000000000000000") ∧
      receiveContent ⟨[bytes "0000000000000000"], .silent⟩ = some (none, ⟨[[]], .silent⟩) ∧
      receiveContentS (fun _ => false) ⟨[bytes "0000000000000000"], .silent⟩ =
        (.error .code500, ⟨[[]], .silent⟩)) ∧
    ∃ frame, sendContent largeResponse = some frame ∧
      ∃ sock', receiveContentS (fun _ => false) ⟨[frame], .silent⟩ = (.error .code500, sock') := by
  refine ⟨by decide, fixedHex framingHexSize largeResponse.length ++ largeResponse, ?_⟩
  have large : 67108864 < largeResponse.length ∧ largeResponse.length < 67109864 := by
    simp only [largeResponse, sendResponse, List.length_append, List.length_replicate]
    decide +kernel
  have sent : sendContent largeResponse =
      some (fixedHex framingHexSize largeResponse.length ++ largeResponse) := by
    unfold sendContent toFixedHex
    rw [if_neg (by omega), if_neg (by omega), Option.map_some, Int.toNat_natCast]
  have out : ¬ (0 < largeResponse.length ∧ (largeResponse.length : Int) ≤ httpMaxBodySize) := by
    have limit : httpMaxBodySize = 67108864 := rfl
    omega
  have stream : [fixedHex framingHexSize largeResponse.length ++ largeResponse].flatten =
      (fixedHex framingHexSize largeResponse.length ++ largeResponse) ++ [] := by
    rw [List.flatten_singleton, List.append_nil]
  exact ⟨sent, (receive_refuses sent stream out).2⟩

end CovNet.Slave
