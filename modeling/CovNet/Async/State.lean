import CovNet.Lib.Stream
import CovNet.Text.Bytes

/-!
# Asynchronous reads

The reading side of `async` in `network.cpp`: the state of an operation, `read_until` on a state
that is used again, `read` with a state of its own, and `get_result` and `get_buffer` that take bytes
out of the buffer of a state. A socket delivers the stream of its peer in segments and then ends, or
stays silent for ever.

`async_read_until` appends what a segment brings to the buffer as a whole and reports the end of the
first delimiter, 0 with an error; `async_read` takes the number of bytes it was asked for and no more.
-/

namespace CovNet.Async
open Lib Text

/-- How the stream of a peer ends. `eof` stands for `connection_reset` too, which `state.eof` does
not tell from it; a peer that is silent neither sends nor closes. -/
inductive Ending where
  | eof
  | error
  | silent
  deriving DecidableEq, Repr

/-- The error codes the scripts tell apart. -/
inductive ErrorCode where
  | eof
  | other
  deriving DecidableEq, Repr

/-- What a socket still delivers. -/
structure Socket where
  segments : List Bytes
  ending : Ending
  deriving DecidableEq, Repr

/-- `state_type`. -/
structure State where
  isRead : Bool
  hasDone : Bool
  bytesTransferred : Nat
  buffer : Bytes
  ec : Option ErrorCode
  deriving DecidableEq, Repr

/-- `NETWORK_MAX_IO_BUFFER_SIZE`. -/
def maxIoBufferSize : Nat := 67108864

/-- `create_async_state`. -/
def State.new : State := ⟨false, false, 0, [], none⟩

/-- The bytes not yet handed to the script: those read ahead and those to come. -/
def unread (sock : Socket) (st : State) : Bytes := st.buffer ++ sock.segments.flatten

/-- An operation that came to the end of the stream. -/
def Ending.complete (ending : Ending) (bytes : Nat) (buffer : Bytes) : State :=
  match ending with
  | .eof => ⟨true, true, bytes, buffer, some .eof⟩
  | .error => ⟨true, true, bytes, buffer, some .other⟩
  | .silent => ⟨true, false, 0, buffer, none⟩

/-- `async.read_until`, with its completion. -/
def readUntil (sock : Socket) (st : State) (pattern : Bytes) : Socket × State :=
  let (buffer, segments) := fill pattern st.buffer sock.segments
  match find pattern buffer with
  | some i => (⟨segments, sock.ending⟩, ⟨true, true, i + pattern.length, buffer, none⟩)
  | none => (⟨segments, sock.ending⟩, sock.ending.complete 0 buffer)

/-- `async.read`, with its completion: none when the size is refused. -/
def read (sock : Socket) (n : Nat) : Option (Socket × State) :=
  if 0 < n ∧ n ≤ maxIoBufferSize then
    let (data, segments) := takeSegments n sock.segments
    if data.length = n then some (⟨segments, sock.ending⟩, ⟨true, true, n, data, none⟩)
    else some (⟨segments, sock.ending⟩, sock.ending.complete data.length data)
  else none

/-- `state.get_result`. -/
def getResult (st : State) : Bytes × State :=
  (st.buffer.take st.bytesTransferred,
    { st with buffer := st.buffer.drop st.bytesTransferred, bytesTransferred := 0 })

/-- `state.get_buffer`: none when the size is refused. -/
def getBuffer (st : State) (maxBytes : Nat) : Option (Bytes × State) :=
  if 0 < maxBytes ∧ maxBytes ≤ maxIoBufferSize then
    some (st.buffer.take maxBytes,
      { st with
        buffer := st.buffer.drop maxBytes
        bytesTransferred := st.bytesTransferred - min maxBytes st.buffer.length })
  else none

section Spec
variable {sock : Socket} {st : State} {pattern : Bytes}

/-- The unread bytes have the pattern: the line up to it is the result, the rest stays unread. -/
lemma readUntil_found {raw rest : Bytes} (h : cut pattern (unread sock st) = some (raw, rest)) :
    ∃ sock' st', readUntil sock st pattern = (sock', st') ∧ st'.hasDone = true ∧ st'.ec = none ∧
      sock'.ending = sock.ending ∧ (getResult st').1 = raw ∧
      unread sock' (getResult st').2 = rest := by
  unfold unread at h
  cases e : find pattern (fill pattern st.buffer sock.segments).1 with
  | none =>
    rw [(fill_none e).2] at h
    cases h
  | some i =>
    rw [fill_found e] at h
    cases h
    refine ⟨⟨(fill pattern st.buffer sock.segments).2, sock.ending⟩,
      ⟨true, true, i + pattern.length, (fill pattern st.buffer sock.segments).1, none⟩, ?_, rfl, rfl,
      rfl, rfl, rfl⟩
    simp [readUntil, e]

/-- They do not: the operation ends with the stream. -/
lemma readUntil_none (h : cut pattern (unread sock st) = none) :
    (readUntil sock st pattern).2 = sock.ending.complete 0 (unread sock st) := by
  unfold unread at h ⊢
  cases e : find pattern (fill pattern st.buffer sock.segments).1 with
  | some i =>
    rw [fill_found e] at h
    cases h
  | none =>
    have done := (fill_none e).1
    have all := fill_append pattern st.buffer sock.segments
    rw [done, List.flatten_nil, List.append_nil] at all
    rw [all] at e
    simp [readUntil, all, e]

/-- Enough bytes are to come: they are the result, and the rest is still to come. -/
lemma read_enough (sock : Socket) {n : Nat} (size : 0 < n ∧ n ≤ maxIoBufferSize)
    (enough : n ≤ sock.segments.flatten.length) :
    ∃ sock' st', read sock n = some (sock', st') ∧ st'.hasDone = true ∧ st'.ec = none ∧
      sock'.ending = sock.ending ∧ (getResult st').1 = sock.segments.flatten.take n ∧
      (getResult st').2.buffer = [] ∧ sock'.segments.flatten = sock.segments.flatten.drop n := by
  have got := takeSegments_eq n sock.segments
  have all := takeSegments_append n sock.segments
  have len : (takeSegments n sock.segments).1.length = n := by
    rw [got, List.length_take]
    omega
  refine ⟨⟨(takeSegments n sock.segments).2, sock.ending⟩,
    ⟨true, true, n, (takeSegments n sock.segments).1, none⟩, ?_, rfl, rfl, rfl, ?_, ?_, ?_⟩
  · simp [read, size, len]
  · rw [getResult, ← got]
    exact List.take_of_length_le len.le
  · exact List.drop_of_length_le len.le
  · exact (List.drop_left' len).symm.trans (congrArg (List.drop n) all)

/-- Too few are: the operation ends with the stream, and has taken what there was. -/
lemma read_short (sock : Socket) {n : Nat} (size : 0 < n ∧ n ≤ maxIoBufferSize)
    (short : sock.segments.flatten.length < n) :
    ∃ sock', read sock n = some (sock',
        sock.ending.complete sock.segments.flatten.length sock.segments.flatten) ∧
      sock'.ending = sock.ending ∧ sock'.segments.flatten = [] := by
  have got : (takeSegments n sock.segments).1 = sock.segments.flatten := by
    rw [takeSegments_eq, List.take_of_length_le short.le]
  have all := takeSegments_append n sock.segments
  rw [got, List.append_right_eq_self] at all
  refine ⟨⟨(takeSegments n sock.segments).2, sock.ending⟩, ?_, rfl, all⟩
  simp only [read, if_pos size, got, if_neg short.ne]

end Spec

end CovNet.Async
