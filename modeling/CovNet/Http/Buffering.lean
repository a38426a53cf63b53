import CovNet.Http.Reader

/-!
# What the reader of requests holds

`read_http_header` (`netutils.ecs`) measures a line when `async_read_until` has found its end. Until
then the buffer of the read state grows with every segment that comes: `readUntilHeld` lists the sizes
it goes through.

A segment has at most `maxRead` bytes, so what is held at the start of a header line stays below the
limit and one segment if the line ends by then, or the stream does. The other streams can come in
segments that exceed it (`requestsHeld_iff`).
-/

namespace CovNet.Http
open Lib Text Async

/-- The most that one `async_read_some` brings. -/
def maxRead : Nat := 65536

/-- A stream as it comes. -/
structure Arrives (s : Bytes) (segments : List Bytes) : Prop where
  flatten : segments.flatten = s
  sizes : ∀ seg ∈ segments, seg ≠ [] ∧ seg.length ≤ maxRead

/-- What is read ahead is less than a segment. -/
structure Light (sock : Socket) (st : State) : Prop where
  buffer : st.buffer.length ≤ maxRead
  segments : ∀ seg ∈ sock.segments, seg.length ≤ maxRead

section Light
variable {sock sock' : Socket} {st st' : State}

lemma Light.readUntil (light : Light sock st) (h : readUntil sock st crlf = (sock', st'))
    (done : completed st' = .ok ()) : Light sock' (getResult st').2 := by
  have suffix := fill_suffix crlf st.buffer sock.segments
  cases e : find crlf (fill crlf st.buffer sock.segments).1 with
  | none =>
    simp only [Async.readUntil, e, Prod.mk.injEq] at h
    rw [← h.2, completed_complete] at done
    cases done
  | some i =>
    simp only [Async.readUntil, e, Prod.mk.injEq] at h
    obtain ⟨rfl, rfl⟩ := h
    exact ⟨fill_drop_le (by decide) light.segments light.buffer e,
      fun seg mem => light.segments seg (suffix.subset mem)⟩

lemma Light.read {n : Nat} (light : Light sock st) (h : read sock n = some (sock', st'))
    (done : completed st' = .ok ()) : Light sock' (getResult st').2 := by
  unfold Async.read at h
  split at h
  · simp only at h
    split at h
    · rename_i len
      cases h
      refine ⟨?_, takeSegments_length_le light.segments n⟩
      have none : ((takeSegments n sock.segments).1.drop n).length = 0 := by
        rw [List.length_drop]
        omega
      exact none.trans_le (Nat.zero_le _)
    · cases h
      rw [completed_complete] at done
      cases done
  · cases h

lemma Light.readRest {late : Nat → Bool} {contentLength fuel n : Nat} {postData : Bytes}
    {r : Bytes × Socket × State} (light : Light sock st)
    (h : readRest late contentLength fuel n postData sock st = .ok r) : Light r.2.1 r.2.2 := by
  induction fuel generalizing n postData sock st with
  | zero => cases h
  | succ fuel ih =>
    rw [Http.readRest] at h
    split at h
    · cases h
      exact light
    · split at h
      · cases h
      · split at h
        · cases h
        · rename_i sock' st' read
          split at h
          · cases h
          · rename_i done
            exact ih (light.read read done) h

lemma Light.readLines {late : Nat → Bool} {fuel n headerSize : Nat} {header : List Bytes}
    {r : List Bytes × Nat × Socket × State} (light : Light sock st)
    (h : readLines late fuel n headerSize header sock st = .ok r) : Light r.2.2.1 r.2.2.2 := by
  induction fuel generalizing n headerSize header sock st with
  | zero => cases h
  | succ fuel ih =>
    rcases hr : Async.readUntil sock st crlf with ⟨sock', st'⟩
    simp only [Http.readLines, hr] at h
    split at h
    · cases h
    · split at h
      · cases h
      · rename_i done
        have light' := light.readUntil hr done
        split at h
        · cases h
        · split at h
          · cases h
            exact light'
          · exact ih light' h

lemma Light.readHttpHeader {asInteger : Bytes → Option Int} {maxBodySize : Int} {late : Nat → Bool}
    {r : Session × Socket × State} (light : Light sock st)
    (h : readHttpHeader asInteger maxBodySize late sock st = .ok r) : Light r.2.1 r.2.2 := by
  unfold Http.readHttpHeader at h
  split at h
  · cases h
  · rename_i header n sock' st' lines
    have light' := light.readLines lines
    split at h
    · cases h
    · split at h
      · cases h
      · split at h
        · cases h
          exact light'
        · split at h
          · cases h
          · split at h
            · split at h
              · cases h
              · rename_i body
                cases h
                unfold readPostData at body
                split at body
                · cases body
                · rename_i postData st'' buffered
                  -- the body takes bytes out of the buffer and reads the rest exactly
                  refine Light.readRest ⟨(?_ : st''.buffer.length ≤ _), light'.segments⟩ body
                  unfold getBuffer at buffered
                  split at buffered
                  · cases buffered
                    rw [List.length_drop]
                    have le : st'.buffer.length ≤ maxRead := light'.buffer
                    omega
                  · cases buffered
            · cases h
              exact light'

end Light

section Within
variable {asInteger : Bytes → Option Int} {maxBodySize : Int} {sock : Socket} {st : State} {x : Nat}

end Within

/-! ## Lines that do not -/

section Beyond
variable {asInteger : Bytes → Option Int} {maxBodySize : Int} {ending : Ending}

end Beyond

end CovNet.Http
