import CovNet.Async.Ledger

/-!
# Partial data

An operation may fail when some bytes have come. They are in the buffer of the state: `get_buffer` hands
them out and `available` counts them. `get_result` hands out what the completion reported, and that is all
of them for a `read` and a `receive_from` and nothing for a `read_until`: `partial_data_iff`.
-/

namespace CovNet.Async
open Lib Text

/-- `get_result` gives all that is left of what came: a string of size `available`. -/
def Survives (st : State) : Prop :=
  ∃ s, (getResultCall st).1 = .text s ∧ s = st.buffer ∧ s.length = available st

/-- An operation on the state has completed. -/
structure Done (st : State) : Prop where
  isRead : st.isRead = true
  hasDone : st.hasDone = true

section Calls
variable {st : State}

lemma Done.available (done : Done st) : available st = st.buffer.length := by
  simp only [Async.available, done.isRead, done.hasDone, Bool.and_self, if_true]

/-- `get_buffer` on a completed state drops a front of the buffer and reduces the count by its length. -/
lemma Done.getBufferCall (done : Done st) (maxBytes : Nat) :
    Done (getBufferCall st maxBytes).2 ∧
      ∃ k, (getBufferCall st maxBytes).2.buffer = st.buffer.drop k ∧
        (getBufferCall st maxBytes).2.bytesTransferred = st.bytesTransferred - min k st.buffer.length := by
  unfold Async.getBufferCall getBuffer
  split
  · exact ⟨done, 0, rfl, by rw [Nat.zero_min, Nat.sub_zero]⟩
  · rename_i data after h
    split at h
    · cases h
      rw [if_neg (by simp [done.isRead]), if_neg (by simp [done.hasDone])]
      split
      · exact ⟨done, 0, rfl, by rw [Nat.zero_min, Nat.sub_zero]⟩
      · exact ⟨⟨done.isRead, done.hasDone⟩, maxBytes, rfl, rfl⟩
    · cases h

/-- The completion has reported all that is buffered. -/
lemma survives_of_all (done : Done st) (all : st.bytesTransferred = st.buffer.length) : Survives st := by
  refine ⟨st.buffer, ?_, rfl, done.available.symm⟩
  unfold getResultCall
  rw [if_neg (by simp [done.isRead]), if_neg (by simp [done.hasDone])]
  split
  · rename_i zero
    rw [all] at zero
    rw [List.eq_nil_of_length_eq_zero zero]
  · exact congrArg Reply.text (List.take_of_length_le all.ge)

/-- The completion has reported nothing. -/
lemma survives_of_none (done : Done st) (none : st.bytesTransferred = 0) :
    Survives st ↔ st.buffer = [] := by
  have reply : (getResultCall st).1 = .text [] := by
    unfold getResultCall
    rw [if_neg (by simp [done.isRead]), if_neg (by simp [done.hasDone]), if_pos none]
  constructor
  · rintro ⟨s, h, rfl, -⟩
    rw [reply] at h
    exact (Reply.text.inj h).symm
  · intro nil
    exact ⟨[], reply, nil.symm, by rw [done.available, nil]⟩

end Calls

namespace Ledger
variable {l l' : Ledger} {data : Bytes} {e : ErrorCode}

/-- A failed operation has completed, and reported all of the buffer if it has its state to itself, and
nothing otherwise. -/
lemma failed (ok : l.Ok) {p : Pending} (pending : l.pending = some p)
    (h : l.next (.transfer data (some e)) = some l') :
    Done l'.st ∧ l'.st.bytesTransferred = if p.ownState then l'.st.buffer.length else 0 := by
  have busy := ok.busy (by rw [pending]; rfl)
  unfold next at h
  rw [pending] at h
  cases p with
  | readUntil pattern position found =>
    simp only [transferUntil, Option.isSome_some, if_true] at h
    split at h
    · cases h
    · cases h
      exact ⟨⟨busy.1, rfl⟩, rfl⟩
  | read n area =>
    have none := ok.own _ pending rfl
    simp only [transferRead, Option.isSome_some, true_or, if_true] at h
    split at h
    · cases h
    · cases h
      refine ⟨⟨busy.1, rfl⟩, ?_⟩
      simp only [complete, none, List.nil_append]
      rfl
  | receiveFrom n =>
    have none := ok.own _ pending rfl
    simp only [transferFrom] at h
    split at h
    · cases h
    · cases h
      refine ⟨⟨busy.1, rfl⟩, ?_⟩
      simp only [complete, none, List.nil_append]
      rfl

/-- Whatever is taken with `get_buffer`, what was reported as a whole stays reported as a whole, and what
was not reported stays so. -/
lemma run_getBuffer {own : Bool} {sizes : List Nat} (done : Done l.st)
    (count : l.st.bytesTransferred = if own then l.st.buffer.length else 0)
    (h : ledger.run l (sizes.map .getBuffer) = some l') :
    Done l'.st ∧ l'.st.bytesTransferred = if own then l'.st.buffer.length else 0 := by
  induction sizes generalizing l with
  | nil =>
    cases h
    exact ⟨done, count⟩
  | cons maxBytes sizes ih =>
    obtain ⟨after, k, buffer, bytes⟩ := done.getBufferCall maxBytes
    refine ih (l := l.settle (getBufferCall l.st maxBytes)) after ?_ h
    simp only [settle, buffer, bytes, count, List.length_drop]
    cases own with
    | false => exact Nat.zero_sub _
    | true =>
      simp only [if_true]
      omega

end Ledger

/-- After an operation has failed, and any calls of `get_buffer`, `get_result` gives all that is left of
what came if and only if the operation is a `read` or a `receive_from`, or nothing is left. -/
theorem partial_data_iff (l l' l'' : Ledger) (p : Pending) (data : Bytes) (e : ErrorCode)
    (sizes : List Nat) (r : ledger.Reachable l) (pending : l.pending = some p)
    (failed : l.next (.transfer data (some e)) = some l')
    (calls : ledger.run l' (sizes.map .getBuffer) = some l'') :
    Survives l''.st ↔ p.ownState = true ∨ l''.st.buffer = [] := by
  obtain ⟨done, count⟩ := Ledger.failed (.reachable r) pending failed
  obtain ⟨done, count⟩ := Ledger.run_getBuffer done count calls
  cases own : p.ownState with
  | false =>
    rw [own] at count
    rw [survives_of_none done count]
    exact (or_iff_right Bool.false_ne_true).symm
  | true =>
    rw [own] at count
    exact iff_of_true (survives_of_all done count) (.inl rfl)

/-- A `read` that has got some bytes when the peer closes, one of which is taken with `get_buffer`. -/
theorem partial_data_read :
    Survives ⟨true, true, 2, bytes "yz", some .eof⟩ :=
  (partial_data_iff ⟨⟨true, false, 0, [], none⟩, some (.read 10 []), [], []⟩
    ⟨⟨true, true, 3, bytes "xyz", some .eof⟩, none, bytes "xyz", []⟩
    ⟨⟨true, true, 2, bytes "yz", some .eof⟩, none, bytes "xyz", bytes "x"⟩
    (.read 10 []) (bytes "xyz") .eof [1]
    (.init ⟨rfl, rfl, .inr ⟨10, by decide, by decide, rfl, .inl rfl⟩⟩) rfl (by decide) (by decide)).mpr (.inl rfl)

/-- A `read_until` that has got some bytes when the peer closes: `get_result` gives none of them. -/
theorem partial_data_lost :
    ∃ l, ledger.run .fresh [.readUntil (bytes "\n"), .transfer (bytes "ab") none, .transfer [] (some .eof)] =
        some l ∧
      available l.st = 2 ∧ (getResultCall l.st).1 = .text [] ∧ ¬ Survives l.st := by
  refine ⟨⟨⟨true, true, 0, bytes "ab", some .eof⟩, none, bytes "ab", []⟩, by decide, by decide, by decide, ?_⟩
  rintro ⟨s, h, rfl, -⟩
  cases h

end CovNet.Async
