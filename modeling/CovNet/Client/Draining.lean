import CovNet.Client.Response

/-!
# Bodies that end with their stream

The last branch of `read_body` (`netutils.ecs`) reads full chunks until a wait fails, takes what the
operation has got if it is done, and returns the body. It does not ask why the wait has failed: the end of
the stream, an error and a timeout all end the body, and the limit is checked for full chunks only.

`closing_complete_iff` says when the body is what it should be, for every stream and every way it ends.
-/

namespace CovNet.Client
open Lib Text Async Http

/-- Why no more bytes of a peer come: it has closed the connection, or reset it, another error, or they are
not there when the read times out. -/
inductive Closing where
  | eof
  | reset
  | error
  | timeout
  deriving DecidableEq, Repr

/-- How an operation sees it. -/
def Closing.ending : Closing → Ending
  | eof | reset => .eof
  | error => .error
  | timeout => .silent

/-- Whether the loop fails depends on what is to come, and not on how it ends. -/
lemma readToEnd_eq_none {turns : Nat} {bodyBuf : Bytes} {sock sock' : Socket}
    (same : sock.segments.flatten = sock'.segments.flatten) (h : readToEnd turns bodyBuf sock = none) :
    readToEnd turns bodyBuf sock' = none := by
  have size : 0 < httpClientReadChunk ∧ httpClientReadChunk ≤ maxIoBufferSize := by decide
  induction turns generalizing bodyBuf sock sock' with
  | zero => rfl
  | succ turns ih =>
    rw [readToEnd] at h ⊢
    by_cases full : httpClientReadChunk ≤ sock.segments.flatten.length
    · obtain ⟨s1, t1, hr, done, ec, -, data, -, left⟩ := read_enough sock size full
      obtain ⟨s2, t2, hr', done', ec', -, data', -, left'⟩ := read_enough sock' size (same ▸ full)
      simp only [hr, completed_done done ec, data] at h
      simp only [hr', completed_done done' ec', data', ← same]
      split at h
      · cases h
      · rename_i chunk
        rw [if_neg chunk]
        split at h
        · rename_i past
          rw [if_pos past]
        · rename_i fits
          rw [if_neg fits]
          exact ih (by rw [left, left', same]) h
    · obtain ⟨s1, hr, -⟩ := read_short sock size (not_le.mp full)
      simp only [hr, completed_complete] at h
      cases h

/-- A body that is refused is too long. -/
lemma Reading.Exceeds.lt {ahead total : Nat} (h : Exceeds ahead total) (le : ahead ≤ total) :
    httpMaxBodySize < total := by
  obtain ⟨-, past⟩ := h
  have chunks : httpClientReadChunk * ((total - ahead) / httpClientReadChunk) ≤ total - ahead :=
    Nat.mul_div_le _ _
  omega

/-- The body is refused exactly when a full chunk exceeds the limit. -/
lemma drain_eq_none {pending : Bytes} {segments : List Bytes} {ending : Ending} :
    drain ⟨pending, ⟨segments, ending⟩⟩ = none ↔
      Reading.Exceeds pending.length (pending ++ segments.flatten).length := by
  have same : ∀ e e' : Ending, drain ⟨pending, ⟨segments, e⟩⟩ = none →
      drain ⟨pending, ⟨segments, e'⟩⟩ = none := by
    intro e e' h
    unfold drain at h ⊢
    dsimp only at h ⊢
    split at h
    · rename_i failed
      rw [readToEnd_eq_none (show (⟨segments, e⟩ : Socket).segments.flatten = segments.flatten from rfl) failed]
    · cases h
  -- whether the loop fails can be seen on a stream that ends
  have ideal := drain_eq (c := ⟨pending, ⟨segments, .eof⟩⟩) (show Ending.eof ≠ Ending.silent by decide)
  rw [HttpClient.rest] at ideal
  dsimp only at ideal
  split at ideal
  · rename_i past
    exact ⟨fun _ => past, fun _ => same _ _ ideal⟩
  · rename_i fits
    obtain ⟨c', e, -⟩ := ideal
    refine ⟨fun failed => ?_, fun past => absurd past fits⟩
    rw [same _ .eof failed] at e
    cases e

/-- A body that ends with its stream is what it should be, all that came up to the end of the stream if
that is no more than allowed and nothing otherwise, exactly when the stream is such a one, or a full chunk
exceeds the limit. -/
theorem closing_complete_iff (m : Meta) (pending : Bytes) (segments : List Bytes) (closing : Closing)
    (chunked : m.isChunked = false) (length : m.contentLength < 0) :
    (readBody m).run ⟨pending, ⟨segments, closing.ending⟩⟩ =
        (if closing = .eof ∧ (pending ++ segments.flatten).length ≤ httpMaxBodySize then
          some (pending ++ segments.flatten)
        else none) ↔
      closing = .eof ∧ (pending ++ segments.flatten).length ≤ httpMaxBodySize ∨
        Reading.Exceeds pending.length (pending ++ segments.flatten).length := by
  have body : (readBody m).run ⟨pending, ⟨segments, closing.ending⟩⟩ =
      (drain ⟨pending, ⟨segments, closing.ending⟩⟩).map Prod.fst := by
    rw [readBody, chunked, if_neg (by decide), if_neg (by omega), if_neg (by omega), Reading.run]
    cases drain ⟨pending, ⟨segments, closing.ending⟩⟩ <;> rfl
  rw [body]
  -- where the claimed result is nothing, the body must have been refused
  by_cases ok : closing = .eof ∧ (pending ++ segments.flatten).length ≤ httpMaxBodySize
  · rw [if_pos ok]
    refine ⟨fun _ => .inl ok, fun _ => ?_⟩
    obtain ⟨rfl, le⟩ := ok
    have fits : ¬ Reading.Exceeds pending.length (pending ++ segments.flatten).length := fun past =>
      absurd (past.lt (by simp)) (Int.not_lt.mpr le)
    have all := drain_eq (c := ⟨pending, ⟨segments, .eof⟩⟩) (show Ending.eof ≠ Ending.silent by decide)
    rw [HttpClient.rest, if_neg fits] at all
    obtain ⟨c', e, -⟩ := all
    exact congrArg (Option.map Prod.fst) e
  · rw [if_neg ok, Option.map_eq_none_iff, drain_eq_none]
    exact ⟨.inr, fun h => h.resolve_left ok⟩

/-- A body that comes in two segments, and ends with its stream. -/
theorem closing_complete_page :
    (readBody ⟨200, [], -1, false⟩).run ⟨bytes "pa", ⟨[bytes "r", bytes "t"], .eof⟩⟩ = some (bytes "part") :=
  (closing_complete_iff ⟨200, [], -1, false⟩ (bytes "pa") [bytes "r", bytes "t"] .eof rfl (by decide)).mpr
    (.inl (by decide))

/-- A read that times out ends the body, and what has come for it is lost. -/
theorem closing_times_out :
    ¬ ∀ (m : Meta) (pending : Bytes) (segments : List Bytes) (closing : Closing) (body : Bytes),
      m.isChunked = false → m.contentLength < 0 →
        (readBody m).run ⟨pending, ⟨segments, closing.ending⟩⟩ = some body →
          closing = .eof ∧ body = pending ++ segments.flatten := by
  intro claim
  have short := claim ⟨200, [], -1, false⟩ (bytes "pa") [bytes "rt"] .timeout (bytes "pa") rfl (by decide)
    (by decide)
  exact absurd short.1 (by decide)

end CovNet.Client
