import CovNet.Async.State
import CovNet.Lib.System

/-!
# The bytes of a state

What a state of `async` hands to the script, over its whole life: the state belongs to one `read` or
`receive_from`, or is used by any number of `read_until`s one after the other, and the script calls
`get_result`, `get_buffer` and `available` in between, and while an operation is pending.

The pending operation is driven by the completions of the reads below it (`transfer`), as
`async_read_until` and `async_read` of asio are; `received` and `returned` keep the account. `ledger` is the
transition system, `Ledger.Ok` its invariant. `readUntil_ledger` is the way back to `readUntil`, which reads
a socket to the completion at once.
-/

namespace CovNet.Async
open Lib Text

/-! ## Searching while reading -/

/-- `partial_search`: the first place where the pattern stands, or where the text ends within it. None
stands for the end of the text. -/
def partialSearch (pattern : Bytes) : Bytes → Option (Nat × Bool)
  | [] => none
  | c :: s =>
    if pattern.isPrefixOf (c :: s) then some (0, true)
    else if (c :: s).isPrefixOf pattern then some (0, false)
    else (partialSearch pattern s).map fun r => (r.1 + 1, r.2)

/-- `search_position_` after a look at the buffer, and whether it is behind the pattern. The buffer is
never full: `max_size` of a `streambuf` is that of the address space. -/
def search (pattern buffer : Bytes) (position : Nat) : Nat × Bool :=
  match partialSearch pattern (buffer.drop position) with
  | some (i, true) => (position + i + pattern.length, true)
  | some (i, false) => (position + i, false)
  | none => (buffer.length, false)

/-! ## The system -/

/-- An operation that has not completed. -/
inductive Pending where
  /-- with its `search_position_`, and whether it has found the pattern -/
  | readUntil (pattern : Bytes) (position : Nat) (found : Bool)
  /-- with what is written to the prepared area, which only the completion commits -/
  | read (n : Nat) (area : Bytes)
  | receiveFrom (n : Nat)
  deriving DecidableEq, Repr

/-- A `read` and a `receive_from` have a state of their own. -/
def Pending.ownState : Pending → Bool
  | .readUntil _ _ _ => false
  | .read _ _ => true
  | .receiveFrom _ => true

/-- What a call gives the script. -/
inductive Reply where
  | raises
  | null
  | text (s : Bytes)
  deriving DecidableEq, Repr

/-- The bytes a call returns. -/
def Reply.data : Reply → Bytes
  | .text s => s
  | _ => []

/-- `get_result` with its checks. -/
def getResultCall (st : State) : Reply × State :=
  if !st.isRead then (.raises, st)
  else if !st.hasDone then (.null, st)
  else if st.bytesTransferred = 0 then (.text [], st)
  else (.text (getResult st).1, (getResult st).2)

/-- `get_buffer` with its checks, that of the size first. -/
def getBufferCall (st : State) (maxBytes : Nat) : Reply × State :=
  match getBuffer st maxBytes with
  | none => (.raises, st)
  | some (data, after) =>
    if !st.isRead then (.raises, st)
    else if !st.hasDone then (.null, st)
    else if st.buffer.isEmpty then (.text [], st)
    else (.text data, after)

/-- `available`. -/
def available (st : State) : Nat := if st.isRead && st.hasDone then st.buffer.length else 0

/-- A state with the operation it is used by, and the account of its bytes. -/
structure Ledger where
  st : State
  pending : Option Pending
  received : Bytes
  returned : Bytes
  deriving DecidableEq, Repr

inductive Event where
  /-- the script calls `async.read_until` with the state -/
  | readUntil (pattern : Bytes)
  /-- a read on the socket completes for the pending operation -/
  | transfer (data : Bytes) (ec : Option ErrorCode)
  | getResult
  | getBuffer (maxBytes : Nat)
  | available
  deriving DecidableEq, Repr

namespace Ledger

/-- The bytes a pending `read` has not committed. -/
def area (l : Ledger) : Bytes :=
  match l.pending with
  | some (.read _ area) => area
  | _ => []

/-- What a call returns is entered. -/
def settle (l : Ledger) (r : Reply × State) : Ledger :=
  { l with st := r.2, returned := l.returned ++ r.1.data }

/-- The handler of an operation. -/
def complete (l : Ledger) (buffer : Bytes) (bytes : Nat) (ec : Option ErrorCode) : Ledger :=
  { l with
    st := { l.st with buffer, bytesTransferred := bytes, ec, hasDone := true }
    pending := none }

/-- `read_until`: refused while the last operation is pending. A state that is read from or was never used
is what `init` tells apart. -/
def readUntil (l : Ledger) (pattern : Bytes) : Ledger :=
  if l.st.isRead && !l.st.hasDone then l
  else
    let (position, found) := search pattern l.st.buffer 0
    { l with
      st := { l.st with isRead := true, hasDone := false, ec := none }
      pending := some (.readUntil pattern position found) }

/-- The operation gets some bytes. -/
def receive (l : Ledger) (data : Bytes) : Ledger := { l with received := l.received ++ data }

/-- A read below `async_read_until`: what it brings is committed, an error or the end of the search
completes the operation. When the pattern was in the buffer at the start, the read is one of no bytes. -/
def transferUntil (l : Ledger) (pattern : Bytes) (position : Nat) (found : Bool) (data : Bytes)
    (ec : Option ErrorCode) : Option Ledger :=
  if found ∧ data ≠ [] then none
  else if ec.isSome then some ((l.receive data).complete (l.st.buffer ++ data) 0 ec)
  else if data = [] then some ((l.receive data).complete (l.st.buffer ++ data) position ec)
  else
    let after := search pattern (l.st.buffer ++ data) position
    if after.2 then some ((l.receive data).complete (l.st.buffer ++ data) after.1 ec)
    else
      some { l.receive data with
        st := { l.st with buffer := l.st.buffer ++ data }
        pending := some (.readUntil pattern after.1 false) }

/-- A read below `async_read`: it goes on until the area is full, there is an error or nothing comes. -/
def transferRead (l : Ledger) (n : Nat) (area data : Bytes) (ec : Option ErrorCode) : Option Ledger :=
  if n < (area ++ data).length then none
  else if ec.isSome ∨ data = [] ∨ (area ++ data).length = n then
    some ((l.receive data).complete (l.st.buffer ++ (area ++ data)) (area ++ data).length ec)
  else some { l.receive data with pending := some (.read n (area ++ data)) }

/-- `async_receive_from`: one datagram. -/
def transferFrom (l : Ledger) (n : Nat) (data : Bytes) (ec : Option ErrorCode) : Option Ledger :=
  if n < data.length then none
  else some ((l.receive data).complete (l.st.buffer ++ data) data.length ec)

/-- One event; none where it cannot take place. -/
def next (l : Ledger) : Event → Option Ledger
  | .readUntil pattern => some (l.readUntil pattern)
  | .transfer data ec =>
    match l.pending with
    | none => none
    | some (.readUntil pattern position found) => l.transferUntil pattern position found data ec
    | some (.read n area) => l.transferRead n area data ec
    | some (.receiveFrom n) => l.transferFrom n data ec
  | .getResult => some (l.settle (getResultCall l.st))
  | .getBuffer maxBytes => some (l.settle (getBufferCall l.st maxBytes))
  | .available => some l

/-- A state at its creation: by the script, by `read` or by `receive_from`. -/
def Start (l : Ledger) : Prop :=
  l.received = [] ∧ l.returned = [] ∧
    ((l.st = .new ∧ l.pending = none) ∨
      ∃ n, 0 < n ∧ n ≤ maxIoBufferSize ∧ l.st = ⟨true, false, 0, [], none⟩ ∧
        (l.pending = some (.read n []) ∨ l.pending = some (.receiveFrom n)))

end Ledger

/-- The life of a state. -/
def ledger : System Ledger Event where
  init := Ledger.Start
  next := Ledger.next

/-! ## The account -/

section Search
variable {pattern buffer : Bytes} {position i : Nat} {found : Bool}

/-- A place that is found is within the text, and so is the pattern when it stands there as a whole. -/
lemma partialSearch_le {s : Bytes} (h : partialSearch pattern s = some (i, found)) :
    i ≤ s.length ∧ (found = true → i + pattern.length ≤ s.length) := by
  induction s generalizing i with
  | nil => cases h
  | cons c s ih =>
    unfold partialSearch at h
    split at h
    · rename_i whole
      cases h
      have le := (List.isPrefixOf_iff_prefix.mp whole).length_le
      exact ⟨Nat.zero_le _, fun _ => by omega⟩
    · split at h
      · cases h
        exact ⟨Nat.zero_le _, nofun⟩
      · obtain ⟨⟨j, f⟩, later, e⟩ := Option.map_eq_some_iff.mp h
        cases e
        obtain ⟨le, whole⟩ := ih later
        rw [List.length_cons]
        exact ⟨by omega, fun t => by have := whole t; omega⟩

/-- `search_position_` stays within the buffer. -/
lemma search_le (le : position ≤ buffer.length) : (search pattern buffer position).1 ≤ buffer.length := by
  unfold search
  split
  · rename_i i h
    have inside := (partialSearch_le h).2 rfl
    rw [List.length_drop] at inside
    simp only
    omega
  · rename_i i h
    have inside := (partialSearch_le h).1
    rw [List.length_drop] at inside
    simp only
    omega
  · exact le_rfl

end Search

section Calls
variable {st : State}

/-- What a call does to a state: it takes its reply off the front of the buffer, and nothing while an
operation is pending. -/
structure Takes (st : State) (r : Reply × State) : Prop where
  buffer : r.1.data ++ r.2.buffer = st.buffer
  transferred : r.2.bytesTransferred ≤ r.2.buffer.length
  isRead : r.2.isRead = st.isRead
  hasDone : r.2.hasDone = st.hasDone
  pending : st.hasDone = false → r.1.data = [] ∧ r.2 = st

/-- A call without an effect. -/
lemma Takes.same {reply : Reply} (le : st.bytesTransferred ≤ st.buffer.length) (none : reply.data = []) :
    Takes st (reply, st) :=
  ⟨by rw [none, List.nil_append], le, rfl, rfl, fun _ => ⟨none, rfl⟩⟩

lemma getResultCall_takes (le : st.bytesTransferred ≤ st.buffer.length) : Takes st (getResultCall st) := by
  unfold getResultCall
  split
  · exact .same le rfl
  · split
    · exact .same le rfl
    · rename_i done
      split
      · exact .same le rfl
      · exact ⟨List.take_append_drop _ _, Nat.zero_le _, rfl, rfl, fun h => absurd h (by simpa using done)⟩

lemma getBufferCall_takes (le : st.bytesTransferred ≤ st.buffer.length) (maxBytes : Nat) :
    Takes st (getBufferCall st maxBytes) := by
  unfold getBufferCall
  split
  · exact .same le rfl
  · rename_i data after h
    unfold getBuffer at h
    split at h
    · cases h
      split
      · exact .same le rfl
      · split
        · exact .same le rfl
        · rename_i done
          split
          · exact .same le rfl
          · refine ⟨List.take_append_drop _ _, ?_, rfl, rfl, fun h => absurd h (by simpa using done)⟩
            simp only [List.length_drop]
            omega
    · cases h

end Calls

namespace Ledger
variable {l l' : Ledger} {data : Bytes} {ec : Option ErrorCode}

/-- What holds of a state at every time. -/
structure Ok (l : Ledger) : Prop where
  transferred : l.st.bytesTransferred ≤ l.st.buffer.length
  account : l.received = l.returned ++ l.st.buffer ++ l.area
  busy : l.pending.isSome → l.st.isRead = true ∧ l.st.hasDone = false
  position : ∀ pattern position found, l.pending = some (.readUntil pattern position found) →
    position ≤ l.st.buffer.length
  own : ∀ p, l.pending = some p → p.ownState = true → l.st.buffer = []

/-- Without a pending operation there is no prepared area. -/
lemma area_of_none (h : l.pending = none) : l.area = [] := by
  rw [area, h]

lemma Ok.start (h : l.Start) : l.Ok := by
  obtain ⟨received, returned, ⟨st, pending⟩ | ⟨n, -, -, st, pending | pending⟩⟩ := h
  · refine ⟨by rw [st]; exact le_rfl, ?_, by rw [pending]; nofun, by rw [pending]; nofun,
      by rw [pending]; nofun⟩
    rw [received, returned, st, area_of_none pending]
    rfl
  · refine ⟨by rw [st]; exact le_rfl, ?_, by rw [st]; exact fun _ => ⟨rfl, rfl⟩,
      by rw [pending]; nofun, by rw [st]; exact fun _ _ _ => rfl⟩
    rw [received, returned, st, area, pending]
    rfl
  · refine ⟨by rw [st]; exact le_rfl, ?_, by rw [st]; exact fun _ => ⟨rfl, rfl⟩,
      by rw [pending]; nofun, by rw [st]; exact fun _ _ _ => rfl⟩
    rw [received, returned, st, area, pending]
    rfl

/-- The calls keep the account. -/
lemma Ok.settle (ok : l.Ok) {r : Reply × State} (takes : Takes l.st r) : (l.settle r).Ok := by
  have still : ∀ p, l.pending = some p → r.2 = l.st := by
    intro p h
    exact (takes.pending (ok.busy (by rw [h]; rfl)).2).2
  refine ⟨takes.transferred, ?_, ?_, ?_, ?_⟩
  · calc l.received = l.returned ++ l.st.buffer ++ l.area := ok.account
      _ = l.returned ++ (r.1.data ++ r.2.buffer) ++ l.area := by rw [takes.buffer]
      _ = (l.settle r).returned ++ (l.settle r).st.buffer ++ (l.settle r).area := by
        simp only [Ledger.settle, area, List.append_assoc]
  · intro h
    obtain ⟨isRead, hasDone⟩ := ok.busy h
    exact ⟨takes.isRead.trans isRead, takes.hasDone.trans hasDone⟩
  · intro pattern position found h
    have le := ok.position pattern position found h
    rw [← still _ h] at le
    exact le
  · intro p h own
    have none := ok.own p h own
    rw [← still _ h] at none
    exact none

/-- A completion accounts for what is in the buffer then. -/
lemma Ok.complete {buffer : Bytes} {bytes : Nat} (le : bytes ≤ buffer.length)
    (account : l.received = l.returned ++ buffer) : (l.complete buffer bytes ec).Ok := by
  refine ⟨le, ?_, nofun, nofun, nofun⟩
  rw [area_of_none rfl, List.append_nil]
  exact account

lemma Ok.readUntil (ok : l.Ok) (pattern : Bytes) : (l.readUntil pattern).Ok := by
  unfold Ledger.readUntil
  split
  · exact ok
  · rename_i free
    have idle : l.pending = none := by
      by_contra some
      obtain ⟨isRead, hasDone⟩ := ok.busy (Option.isSome_iff_ne_none.mpr some)
      rw [isRead, hasDone] at free
      exact free rfl
    refine ⟨ok.transferred, ?_, fun _ => ⟨rfl, rfl⟩, ?_, ?_⟩
    · have account := ok.account
      rw [area_of_none idle] at account
      exact account
    · rintro _ _ _ ⟨⟩
      exact search_le (Nat.zero_le _)
    · rintro _ ⟨⟩ own
      cases own

lemma Ok.transferUntil (ok : l.Ok) {pattern : Bytes} {position : Nat} {found : Bool}
    (pending : l.pending = some (.readUntil pattern position found))
    (h : l.transferUntil pattern position found data ec = some l') : l'.Ok := by
  have account : l.received ++ data = l.returned ++ (l.st.buffer ++ data) := by
    have before := ok.account
    rw [area, pending, List.append_nil] at before
    rw [before, List.append_assoc]
  have le : position ≤ (l.st.buffer ++ data).length := by
    have before := ok.position _ _ _ pending
    rw [List.length_append]
    omega
  unfold Ledger.transferUntil at h
  split at h
  · cases h
  · split at h
    · cases h
      exact .complete (Nat.zero_le _) account
    · split at h
      · cases h
        exact .complete le account
      · have inside : (search pattern (l.st.buffer ++ data) position).1 ≤ (l.st.buffer ++ data).length :=
          search_le le
        simp only at h
        split at h
        · cases h
          exact .complete inside account
        · cases h
          refine ⟨?_, ?_, fun _ => ok.busy (by rw [pending]; rfl), ?_, ?_⟩
          · have before := ok.transferred
            simp only [List.length_append]
            omega
          · simp only [area, List.append_nil]
            exact account
          · rintro _ _ _ ⟨⟩
            exact inside
          · rintro _ ⟨⟩ own
            cases own

lemma Ok.transferRead (ok : l.Ok) {n : Nat} {area : Bytes} (pending : l.pending = some (.read n area))
    (h : l.transferRead n area data ec = some l') : l'.Ok := by
  have none := ok.own _ pending rfl
  have account : l.received ++ data = l.returned ++ (l.st.buffer ++ (area ++ data)) := by
    have before := ok.account
    rw [Ledger.area, pending] at before
    rw [before, List.append_assoc, List.append_assoc]
  unfold Ledger.transferRead at h
  split at h
  · cases h
  · split at h
    · cases h
      exact .complete (List.suffix_append _ _).length_le account
    · cases h
      refine ⟨ok.transferred, ?_, fun _ => ok.busy (by rw [pending]; rfl), nofun, fun _ _ _ => none⟩
      simp only [Ledger.area, List.append_assoc]
      exact account

lemma Ok.transferFrom (ok : l.Ok) {n : Nat} (pending : l.pending = some (.receiveFrom n))
    (h : l.transferFrom n data ec = some l') : l'.Ok := by
  unfold Ledger.transferFrom at h
  split at h
  · cases h
  · cases h
    refine .complete (List.suffix_append _ _).length_le ?_
    have before := ok.account
    rw [area, pending, List.append_nil] at before
    simp only [receive, before, List.append_assoc]

/-- Every event keeps the account. -/
lemma Ok.next (ok : l.Ok) {ev : Event} (h : l.next ev = some l') : l'.Ok := by
  cases ev with
  | readUntil pattern =>
    cases h
    exact ok.readUntil pattern
  | transfer data ec =>
    unfold Ledger.next at h
    cases pending : l.pending with
    | none =>
      rw [pending] at h
      cases h
    | some p =>
      rw [pending] at h
      cases p with
      | readUntil pattern position found => exact ok.transferUntil pending h
      | read n area => exact ok.transferRead pending h
      | receiveFrom n => exact ok.transferFrom pending h
  | getResult =>
    cases h
    exact ok.settle (getResultCall_takes ok.transferred)
  | getBuffer maxBytes =>
    cases h
    exact ok.settle (getBufferCall_takes ok.transferred maxBytes)
  | available =>
    cases h
    exact ok

/-- The account is kept over the whole life of a state. -/
lemma Ok.reachable (r : ledger.Reachable l) : l.Ok :=
  r.invariant (fun _ h => .start h) fun _ _ _ ok h => ok.next h

end Ledger

/-- Whatever operations a state is used by and whatever the script calls in between: `bytes_transferred` is
at most what is buffered, so that `get_result` stays within the buffer, what was returned is the front of
what was received, and the rest is buffered, in the prepared area of a pending `read` or in the buffer. -/
theorem ledger_account (l : Ledger) (r : ledger.Reachable l) :
    l.st.bytesTransferred ≤ l.st.buffer.length ∧ l.returned <+: l.received ∧
      l.received = l.returned ++ l.st.buffer ++ l.area ∧
      (l.pending = none → l.received = l.returned ++ l.st.buffer) := by
  have ok := Ledger.Ok.reachable r
  refine ⟨ok.transferred, ?_, ok.account, fun idle => ?_⟩
  · rw [ok.account, List.append_assoc]
    exact List.prefix_append _ _
  · have account := ok.account
    rwa [Ledger.area_of_none idle, List.append_nil] at account

/-- A state of the script, not used yet. -/
def Ledger.fresh : Ledger := ⟨.new, none, [], []⟩

lemma Ledger.reachable_fresh : ledger.Reachable .fresh := .init ⟨rfl, rfl, .inl ⟨rfl, rfl⟩⟩

/-- A line is read, in part with `get_buffer`, and the bytes behind it stay. -/
theorem ledger_account_line :
    bytes "one\ntw" = bytes "one\n" ++ (⟨true, true, 0, bytes "tw", none⟩ : State).buffer :=
  (ledger_account ⟨⟨true, true, 0, bytes "tw", none⟩, none, bytes "one\ntw", bytes "one\n"⟩
    (Ledger.reachable_fresh.run
      [.readUntil (bytes "\n"), .transfer (bytes "on") none, .getResult, .transfer (bytes "e\ntw") none,
        .available, .getBuffer 1, .getResult, .getResult] (by decide))).2.2.2 rfl

end CovNet.Async
