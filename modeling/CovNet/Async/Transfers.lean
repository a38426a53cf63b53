import CovNet.Async.Ledger

/-!
# Reading a socket by transfers

`readUntil` and `read` take a socket to the completion of an operation at once, and look for the pattern in
the buffer as a whole. Below them the operation gets a segment at a time, and looks again only from where
the last look has left off. Both come to the same state: `readUntil_ledger` and `read_ledger`.
-/

namespace CovNet.Async
open Lib Text

section Search
variable {pattern buffer data s : Bytes} {position i : Nat} {found : Bool}

/-- The pattern stands at no place before the position, however the text goes on. -/
def Passed (pattern buffer : Bytes) (position : Nat) : Prop :=
  position ≤ buffer.length ∧ ∀ j < position, ∀ more, ¬ pattern <+: (buffer ++ more).drop j

lemma Passed.zero (pattern buffer : Bytes) : Passed pattern buffer 0 := ⟨Nat.zero_le _, nofun⟩

lemma Passed.append (h : Passed pattern buffer position) (data : Bytes) :
    Passed pattern (buffer ++ data) position := by
  refine ⟨?_, fun j lt more => ?_⟩
  · rw [List.length_append]
    exact Nat.le_add_right_of_le h.1
  · rw [List.append_assoc]
    exact h.2 j lt (data ++ more)

/-- What `partial_search` finds is the first place that is not passed. -/
lemma partialSearch_spec (s : Bytes) :
    match partialSearch pattern s with
    | some (i, true) => Passed pattern s i ∧ pattern <+: s.drop i
    | some (i, false) => Passed pattern s i ∧ s.drop i <+: pattern ∧ ¬ pattern <+: s.drop i
    | none => Passed pattern s s.length := by
  induction s with
  | nil => exact .zero pattern []
  | cons c s ih =>
    rw [partialSearch]
    by_cases whole : pattern.isPrefixOf (c :: s) = true
    · rw [if_pos whole]
      exact ⟨.zero _ _, List.isPrefixOf_iff_prefix.mp whole⟩
    · rw [if_neg whole]
      have no := mt List.isPrefixOf_iff_prefix.mpr whole
      by_cases part : (c :: s).isPrefixOf pattern = true
      · rw [if_pos part]
        exact ⟨.zero _ _, List.isPrefixOf_iff_prefix.mp part, no⟩
      · rw [if_neg part]
        have other := mt List.isPrefixOf_iff_prefix.mpr part
        -- the text neither has the pattern here nor ends within it
        have here : ∀ more, ¬ pattern <+: c :: (s ++ more) := by
          intro more pre
          rcases List.prefix_or_prefix_of_prefix pre (List.prefix_append (c :: s) more) with le | ge
          · exact no le
          · exact other ge
        have step : ∀ {i}, Passed pattern s i → Passed pattern (c :: s) (i + 1) := by
          rintro i ⟨le, passed⟩
          refine ⟨Nat.succ_le_succ le, fun j lt more => ?_⟩
          cases j with
          | zero => exact here more
          | succ j => exact passed j (Nat.lt_of_succ_lt_succ lt) more
        cases h : partialSearch pattern s with
        | none =>
          rw [h] at ih
          exact step ih
        | some r =>
          obtain ⟨i, found⟩ := r
          rw [h] at ih
          cases found with
          | false => exact ⟨step ih.1, ih.2⟩
          | true => exact ⟨step ih.1, ih.2⟩

/-- The place in the buffer, from the place in what was searched. -/
lemma Passed.shift (h : Passed pattern buffer position) (later : Passed pattern (buffer.drop position) i) :
    Passed pattern buffer (position + i) := by
  obtain ⟨le, passed⟩ := h
  obtain ⟨le', passed'⟩ := later
  rw [List.length_drop] at le'
  refine ⟨by omega, fun j lt more => ?_⟩
  by_cases before : j < position
  · exact passed j before more
  · have behind := passed' (j - position) (by omega) more
    rwa [← List.drop_append_of_le_length le, List.drop_drop, Nat.add_sub_cancel' (not_lt.mp before)]
      at behind

/-- A look from a position that is passed finds what a look at the whole buffer finds. -/
lemma search_spec (ne : pattern ≠ []) (h : Passed pattern buffer position) :
    match search pattern buffer position with
    | (p, true) => ∃ i, find pattern buffer = some i ∧ p = i + pattern.length
    | (p, false) => find pattern buffer = none ∧ Passed pattern buffer p := by
  have spec := @partialSearch_spec pattern (buffer.drop position)
  unfold search
  generalize partialSearch pattern (buffer.drop position) = r at spec
  match r with
  | some (i, true) =>
    obtain ⟨later, stands⟩ := spec
    obtain ⟨le, passed⟩ := h.shift later
    rw [List.drop_drop] at stands
    refine ⟨position + i, find_of_first stands le fun j lt => ?_, rfl⟩
    have no := passed j lt []
    rwa [List.append_nil] at no
  | some (i, false) =>
    obtain ⟨later, part, no⟩ := spec
    have passed := h.shift later
    refine ⟨?_, passed⟩
    rw [List.drop_drop] at part no
    refine find_eq_none.mpr fun occ => ?_
    obtain ⟨j, at_j⟩ := Option.isSome_iff_exists.mp (find_isSome.mpr occ)
    have stands := (find_spec at_j).1
    by_cases before : j < position + i
    · have never := passed.2 j before []
      rw [List.append_nil] at never
      exact never stands
    · -- what is left behind the place is too short for the pattern
      have short := (List.drop_sublist_drop_left buffer (not_lt.mp before)).length_le
      have whole := stands.length_le
      have same : pattern = buffer.drop (position + i) := (part.eq_of_length_le (by omega)).symm
      exact no (same ▸ List.prefix_rfl)
  | none =>
    have passed := h.shift spec
    rw [List.length_drop, Nat.add_sub_cancel' h.1] at passed
    refine ⟨find_eq_none.mpr fun occ => ?_, passed⟩
    obtain ⟨j, at_j⟩ := Option.isSome_iff_exists.mp (find_isSome.mpr occ)
    have inside := find_le at_j
    have pos := List.length_pos_iff.mpr ne
    have never := passed.2 j (by omega) []
    rw [List.append_nil] at never
    exact never (find_spec at_j).1

end Search

namespace Ledger
variable {l : Ledger} {pattern : Bytes} {position : Nat}

/-- A stream that is not silent completes an operation with an error. -/
lemma complete_heard {ending : Ending} (heard : ending ≠ .silent) (bytes : Nat) (buffer : Bytes) :
    ∃ e, ending.complete bytes buffer = ⟨true, true, bytes, buffer, some e⟩ := by
  cases ending with
  | eof => exact ⟨.eof, rfl⟩
  | error => exact ⟨.other, rfl⟩
  | silent => exact absurd rfl heard

/-- An operation that has not found the pattern goes through the segments as `readUntil` does. -/
lemma run_transfers (ne : pattern ≠ []) (segs : List Bytes) (ending : Ending)
    (solid : ∀ seg ∈ segs, seg ≠ []) (heard : ending ≠ .silent) (isRead : l.st.isRead = true)
    (ec : l.st.ec = none) (pending : l.pending = some (.readUntil pattern position false))
    (passed : Passed pattern l.st.buffer position) (no : find pattern l.st.buffer = none) :
    ∃ evs l', ledger.run l evs = some l' ∧ l'.pending = none ∧
      l'.st = (Async.readUntil ⟨segs, ending⟩ l.st pattern).2 := by
  induction segs generalizing l position with
  | nil =>
    obtain ⟨e, he⟩ := complete_heard heard 0 l.st.buffer
    refine ⟨[.transfer [] (some e)], (l.receive []).complete (l.st.buffer ++ []) 0 (some e), ?_, rfl, ?_⟩
    · simp [System.run, ledger, next, pending, transferUntil]
    · simp [Async.readUntil, fill, no, he, complete, receive, isRead]
  | cons seg segs ih =>
    have some_bytes := solid seg List.mem_cons_self
    have spec := search_spec ne (passed.append seg)
    cases h : search pattern (l.st.buffer ++ seg) position with
    | mk p found =>
      rw [h] at spec
      cases found with
      | true =>
        obtain ⟨i, at_i, rfl⟩ := spec
        refine ⟨[.transfer seg none], (l.receive seg).complete (l.st.buffer ++ seg) (i + pattern.length)
          none, ?_, rfl, ?_⟩
        · simp [System.run, ledger, next, pending, transferUntil, some_bytes, h]
        · have stop : fill pattern (l.st.buffer ++ seg) segs = (l.st.buffer ++ seg, segs) :=
            fill_of_occ (find_isSome.mp (by rw [at_i]; rfl))
          simp [Async.readUntil, fill, no, stop, at_i, complete, receive, isRead]
      | false =>
        obtain ⟨no', passed'⟩ := spec
        let mid : Ledger := { l.receive seg with
          st := { l.st with buffer := l.st.buffer ++ seg }
          pending := some (.readUntil pattern p false) }
        have step : l.next (.transfer seg none) = some mid := by
          simp [next, pending, transferUntil, some_bytes, h, mid]
        obtain ⟨evs, l', run, idle, st⟩ := ih (l := mid) (fun x mem => solid x (List.mem_cons_of_mem _ mem))
          isRead ec rfl passed' no'
        refine ⟨.transfer seg none :: evs, l', ?_, idle, ?_⟩
        · exact (System.run_cons step evs).trans run
        · rw [st]
          simp [Async.readUntil, fill, no, mid]

/-- A `read` goes through the segments until its area is full. -/
lemma run_reads {n : Nat} {area : Bytes} (segs : List Bytes) (ending : Ending)
    (solid : ∀ seg ∈ segs, seg ≠ []) (heard : ending ≠ .silent) (st : l.st = ⟨true, false, 0, [], none⟩)
    (pending : l.pending = some (.read n area)) (room : area.length < n) :
    ∃ evs l', ledger.run l evs = some l' ∧ l'.pending = none ∧
      l'.st =
        if (area ++ (takeSegments (n - area.length) segs).1).length = n then
          ⟨true, true, n, area ++ (takeSegments (n - area.length) segs).1, none⟩
        else
          ending.complete (area ++ (takeSegments (n - area.length) segs).1).length
            (area ++ (takeSegments (n - area.length) segs).1) := by
  induction segs generalizing l area with
  | nil =>
    obtain ⟨e, he⟩ := complete_heard heard area.length area
    refine ⟨[.transfer [] (some e)], (l.receive []).complete area area.length (some e), ?_, rfl, ?_⟩
    · have fits : ¬ n < area.length := by omega
      simp [System.run, ledger, next, pending, transferRead, st, fits]
    · simp [takeSegments, room.ne, he, complete, receive, st]
  | cons seg segs ih =>
    have some_bytes := solid seg List.mem_cons_self
    by_cases fills : n - area.length ≤ seg.length
    · -- the rest of the segment stays in the socket
      have got : takeSegments (n - area.length) (seg :: segs) =
          (seg.take (n - area.length), seg.drop (n - area.length) :: segs) := by
        rw [takeSegments, if_pos fills]
      have full : (area ++ seg.take (n - area.length)).length = n := by
        rw [List.length_append, List.length_take]
        omega
      refine ⟨[.transfer (seg.take (n - area.length)) none],
        (l.receive (seg.take (n - area.length))).complete (area ++ seg.take (n - area.length)) n none, ?_,
        rfl, ?_⟩
      · have step : l.next (.transfer (seg.take (n - area.length)) none) =
            some ((l.receive (seg.take (n - area.length))).complete
              (area ++ seg.take (n - area.length)) n none) := by
          simp only [next, pending, transferRead, full, lt_irrefl, if_false, or_true, if_true, st,
            List.nil_append]
        exact System.run_cons step []
      · rw [got, if_pos full]
        simp only [complete, receive, st]
    · have got : takeSegments (n - area.length) (seg :: segs) =
          (seg ++ (takeSegments (n - (area ++ seg).length) segs).1,
            (takeSegments (n - (area ++ seg).length) segs).2) := by
        rw [takeSegments, if_neg fills, List.length_append, Nat.sub_add_eq]
      have room' : (area ++ seg).length < n := by
        rw [List.length_append]
        omega
      let mid : Ledger := { l.receive seg with pending := some (.read n (area ++ seg)) }
      have step : l.next (.transfer seg none) = some mid := by
        have fits : ¬ n < (area ++ seg).length := by omega
        have more : ¬ ((none : Option ErrorCode).isSome = true ∨ seg = [] ∨ (area ++ seg).length = n) := by
          simp only [Option.isSome_none, Bool.false_eq_true, some_bytes, room'.ne, or_self, not_false_iff]
        simp only [next, pending, transferRead, if_neg fits, if_neg more, mid]
      obtain ⟨evs, l', run, idle, after⟩ := ih (l := mid)
        (fun x mem => solid x (List.mem_cons_of_mem _ mem)) st rfl room'
      refine ⟨.transfer seg none :: evs, l', ?_, idle, ?_⟩
      · exact (System.run_cons step evs).trans run
      · rw [after, got]
        simp only [List.append_assoc]

end Ledger

/-- `readUntil` is a run: the call, and the transfers of the segments it takes. -/
theorem readUntil_ledger (l : Ledger) (sock : Socket) (pattern : Bytes) (ne : pattern ≠ [])
    (solid : ∀ seg ∈ sock.segments, seg ≠ []) (idle : (l.st.isRead && !l.st.hasDone) = false)
    (heard : sock.ending ≠ .silent) :
    ∃ evs l', ledger.run l (.readUntil pattern :: evs) = some l' ∧ l'.pending = none ∧
      l'.st = (readUntil sock l.st pattern).2 := by
  let mid := l.readUntil pattern
  have mid_eq : mid = { l with
      st := { l.st with isRead := true, hasDone := false, ec := none }
      pending := some (.readUntil pattern (search pattern l.st.buffer 0).1
        (search pattern l.st.buffer 0).2) } := by
    simp only [mid, Ledger.readUntil, idle, Bool.false_eq_true, if_false]
  have spec := search_spec ne (Passed.zero pattern l.st.buffer)
  cases h : search pattern l.st.buffer 0 with
  | mk p found =>
    rw [h] at spec mid_eq
    cases found with
    | true =>
      -- the pattern is in the buffer: a read of no bytes completes the operation
      obtain ⟨i, at_i, rfl⟩ := spec
      have stop : fill pattern l.st.buffer sock.segments = (l.st.buffer, sock.segments) :=
        fill_of_occ (find_isSome.mp (by rw [at_i]; rfl))
      refine ⟨[.transfer [] none], (mid.receive []).complete l.st.buffer (i + pattern.length) none, ?_, rfl,
        ?_⟩
      · have step : mid.next (.transfer [] none) =
            some ((mid.receive []).complete l.st.buffer (i + pattern.length) none) := by
          simp only [mid_eq, Ledger.next, Ledger.transferUntil, ne_eq, not_true, and_false, if_false,
            Option.isSome_none, Bool.false_eq_true, if_true, List.append_nil]
        exact System.run_cons step []
      · simp only [readUntil, stop, at_i, Ledger.complete, Ledger.receive, mid_eq]
    | false =>
      obtain ⟨no, passed⟩ := spec
      obtain ⟨evs, l', run, done, st⟩ := Ledger.run_transfers (l := mid) ne sock.segments sock.ending solid
        heard (by rw [mid_eq]) (by rw [mid_eq]) (by rw [mid_eq]) (by rw [mid_eq]; exact passed)
        (by rw [mid_eq]; exact no)
      refine ⟨evs, l', run, done, st.trans ?_⟩
      simp only [mid_eq, readUntil]

/-- `read` is a run of the state it makes. -/
theorem read_ledger (sock sock' : Socket) (st : State) (n : Nat) (h : read sock n = some (sock', st))
    (solid : ∀ seg ∈ sock.segments, seg ≠ []) (heard : sock.ending ≠ .silent) :
    ∃ evs l', ledger.run ⟨⟨true, false, 0, [], none⟩, some (.read n []), [], []⟩ evs = some l' ∧
      l'.pending = none ∧ l'.st = st := by
  unfold read at h
  split at h
  · rename_i size
    obtain ⟨evs, l', run, idle, after⟩ := Ledger.run_reads
      (l := ⟨⟨true, false, 0, [], none⟩, some (.read n []), [], []⟩) sock.segments sock.ending solid heard
      rfl rfl size.1
    refine ⟨evs, l', run, idle, after.trans ?_⟩
    simp only [List.nil_append, List.length_nil, Nat.sub_zero] at after ⊢
    split
    · rename_i full
      simp only [full, if_true] at h
      cases h
      rfl
    · rename_i short
      simp only [if_neg short] at h
      cases h
      rfl
  · cases h

end CovNet.Async
