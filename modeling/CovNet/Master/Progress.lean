import CovNet.Master.Correlation
import CovNet.Master.Writes

/-!
# The progress of the response worker

A pass of `master_response_worker` takes the first connection of `conn_list` that has requests, and only
then looks whether the front one has its response. If not, the pass yields, and the next one takes the same
connection, unless a request worker has moved it in between. `progress_iff` says which passes start to write
a response when there is one.
-/

namespace CovNet.Master
open Lib Text Http Socket

namespace State

/-- The front session of the connection has its response. -/
def Ready (m : State) (c : Nat) : Prop :=
  ∃ σ b, (m.conns c).requestQueue.head? = some σ ∧ (m.sessions σ).response = some b

/-- The pass starts to write the response of a ready connection. -/
def Writes (m : State) : Prop :=
  ∃ m' c, m.responseStep = some m' ∧ m'.response = .writing c none ∧ m.Ready c

/-- A pass writes when an open connection is ready. -/
def Progress (m : State) : Prop :=
  (∃ c ∈ m.connList, (m.conns c).isOpen = true ∧ m.Ready c) → m.Writes

/-- The first connection with requests is ready, and its socket takes a write: none is pending and no
operation has it to itself. -/
def FirstReady (m : State) : Prop :=
  ∃ before c after, m.connList = before ++ c :: after ∧ (∀ d ∈ before, (m.conns d).requestQueue = []) ∧
    m.Ready c ∧ (m.conns c).sock.writeOperation = false ∧ (m.conns c).sock.exclusiveOperation = false

end State

/-- A write is admitted if and only if nothing is in its way. -/
lemma beginIoJob_write_iff {a : Atomics} :
    (∃ b, beginIoJob .tcp .write a = .ok b) ↔ a.writeOperation = false ∧ a.exclusiveOperation = false := by
  constructor
  · rintro ⟨b, ok⟩
    unfold beginIoJob at ok
    split at ok
    · cases ok
    · rename_i free
      refine ⟨Bool.eq_false_iff.mpr free, ?_⟩
      split at ok
      · rename_i admitted
        unfold tryBeginJob at admitted
        split at admitted
        · cases admitted
        · rename_i shared
          exact Bool.eq_false_iff.mpr shared
      · cases ok
  · rintro ⟨free, shared⟩
    cases ok : beginIoJob .tcp .write a with
    | ok b => exact ⟨b, rfl⟩
    | error e =>
      rcases beginIoJob_write_error ok with set | set
      · rw [free] at set
        cases set
      · rw [shared] at set
        cases set

section Pass
variable {m m' : State} {c : Nat}

lemma State.Ready.nonempty (ready : m.Ready c) : (m.conns c).requestQueue ≠ [] := by
  obtain ⟨σ, b, front, -⟩ := ready
  intro nil
  rw [nil] at front
  cases front

/-- The first connection with requests. -/
lemma find_queue : m.connList.find? (fun c => !(m.conns c).requestQueue.isEmpty) = some c ↔
    ∃ before after, m.connList = before ++ c :: after ∧ (∀ d ∈ before, (m.conns d).requestQueue = []) ∧
      (m.conns c).requestQueue ≠ [] := by
  rw [List.find?_eq_some_iff_append]
  simp only [Bool.not_eq_true', Bool.not_not, List.isEmpty_iff]
  constructor
  · rintro ⟨some_queue, before, after, e, none⟩
    exact ⟨before, after, e, none, by simpa using some_queue⟩
  · rintro ⟨before, after, e, none, some_queue⟩
    exact ⟨by simpa using some_queue, before, after, e, none⟩

/-- What a pass over a connection with requests does: it writes if and only if the connection is ready and
its socket takes the write. -/
lemma serve_writing (some_queue : (m.conns c).requestQueue ≠ []) (d : Nat) :
    (m.serve c).response = .writing d none ↔
      d = c ∧ m.Ready c ∧ (m.conns c).sock.writeOperation = false ∧
        (m.conns c).sock.exclusiveOperation = false := by
  obtain ⟨σ, rest, queue⟩ := List.exists_cons_of_ne_nil some_queue
  rw [← beginIoJob_write_iff]
  unfold State.serve
  simp only [queue]
  cases response : (m.sessions σ).response with
  | none =>
    refine iff_of_false nofun ?_
    rintro ⟨-, ⟨σ', b, front, answered⟩, -⟩
    rw [queue] at front
    cases front
    rw [response] at answered
    cases answered
  | some b =>
    have ready : m.Ready c := ⟨σ, b, by rw [queue]; rfl, response⟩
    dsimp only
    cases admitted : beginIoJob .tcp .write (m.conns c).sock with
    | error e =>
      refine iff_of_false nofun ?_
      rintro ⟨-, -, a, ok⟩
      cases ok
    | ok a =>
      constructor
      · intro h
        cases h
        exact ⟨rfl, ready, a, rfl⟩
      · rintro ⟨rfl, -⟩
        rfl

end Pass

/-- In every state a pass starts to write whenever some open connection is ready, if and only if none is or
the first connection with requests is ready and takes the write. -/
theorem progress_iff (m : State) (head : m.response = .head) (running : m.stopped = false) :
    m.Progress ↔ ((∃ c ∈ m.connList, (m.conns c).isOpen = true ∧ m.Ready c) → m.FirstReady) := by
  refine imp_congr_right fun ⟨ready_conn, mem, _, ready⟩ => ?_
  -- the scan finds a connection with requests, if only the ready one
  obtain ⟨c, found⟩ : ∃ c, m.connList.find? (fun c => !(m.conns c).requestQueue.isEmpty) = some c := by
    refine Option.isSome_iff_exists.mp (List.find?_isSome.mpr ⟨ready_conn, mem, ?_⟩)
    simpa using ready.nonempty
  have pass : m.responseStep = some (m.serve c) := by
    simp only [State.responseStep, head, running, Bool.false_eq_true, if_false, found]
  obtain ⟨before, after, list, idle, some_queue⟩ := find_queue.mp found
  constructor
  · rintro ⟨m', d, step, writing, -⟩
    rw [pass] at step
    cases step
    obtain ⟨-, first, free, shared⟩ := (serve_writing some_queue d).mp writing
    exact ⟨before, c, after, list, idle, first, free, shared⟩
  · rintro ⟨before', c', after', list', idle', first, free, shared⟩
    have same : some c = some c' := found.symm.trans (find_queue.mpr ⟨before', after', list', idle', first.nonempty⟩)
    cases same
    exact ⟨m.serve c, c, pass, (serve_writing some_queue c).mpr ⟨rfl, first, free, shared⟩, first⟩

/-- Two slaves connect, and two clients, of which each asks for a page. -/
def twoClients : List Action :=
  [.accept true, .accept true, .accept true, .accept true, .spawn (some []), .spawn (some []),
    .spawn (some (bytes "WORKER 2.2 0")), .spawn (some []), .spawn (some []),
    .spawn (some (bytes "WORKER 2.2 1"))] ++
  asks (page (bytes "keep-alive")) ++ asks (page (bytes "keep-alive")) ++
  [.dispatch 0 .ok, .dispatch 0 .ok, .dispatch 1 .ok, .dispatch 1 .ok]

/-- The slave of the first client answers: the pass writes. -/
theorem progress_first :
    ∃ m, (master {}).Reachable m ∧ (∃ c ∈ m.connList, (m.conns c).isOpen = true ∧ m.Ready c) ∧ m.Writes := by
  obtain ⟨m, run, h⟩ := System.Reachable.exists_of_run (S := master {}) (.init rfl)
    (twoClients ++ [.reply 0 (bytes "HTTP/1.1 200 OK"), .dispatch 0 .ok])
    (fun m => decide (m.response = .head ∧ m.stopped = false ∧ m.connList = [0, 1] ∧
      (m.conns 0).isOpen = true ∧ (m.conns 0).requestQueue = [0] ∧
      (m.sessions 0).response = some (bytes "HTTP/1.1 200 OK") ∧
      (m.conns 0).sock.writeOperation = false ∧ (m.conns 0).sock.exclusiveOperation = false))
    (by decide +kernel)
  obtain ⟨head, running, list, opened, queue, response, free, shared⟩ := of_decide_eq_true h
  have ready : m.Ready 0 := ⟨0, _, by rw [queue]; rfl, response⟩
  have some_ready : ∃ c ∈ m.connList, (m.conns c).isOpen = true ∧ m.Ready c :=
    ⟨0, by rw [list]; decide, opened, ready⟩
  exact ⟨m, run, some_ready, (progress_iff m head running).mpr
    (fun _ => ⟨[], 0, [1], list, nofun, ready, free, shared⟩) some_ready⟩

/-- The slave of the second client answers: the pass yields, although that client could be served. -/
theorem progress_stalls :
    ∃ m m', (master {}).Reachable m ∧ m.responseStep = some m' ∧ m'.response = .paused 0 ∧ ¬ m.Progress := by
  obtain ⟨m, run, h⟩ := System.Reachable.exists_of_run (S := master {}) (.init rfl)
    (twoClients ++ [.reply 1 (bytes "HTTP/1.1 200 OK"), .dispatch 1 .ok])
    (fun m => decide (m.response = .head ∧ m.stopped = false ∧ m.connList = [0, 1] ∧
      (m.conns 0).requestQueue = [0] ∧ (m.sessions 0).response = none ∧ (m.conns 1).isOpen = true ∧
      (m.conns 1).requestQueue = [1] ∧ (m.sessions 1).response = some (bytes "HTTP/1.1 200 OK")))
    (by decide +kernel)
  obtain ⟨head, running, list, queue, unanswered, opened, queue1, response⟩ := of_decide_eq_true h
  have pass : m.responseStep = some { m with response := .paused 0 } := by
    simp [State.responseStep, head, running, list, queue, State.serve, unanswered]
  refine ⟨m, _, run, pass, rfl, fun progress => ?_⟩
  obtain ⟨m', d, step, writing, -⟩ :=
    progress ⟨1, by rw [list]; decide, opened, 1, _, by rw [queue1]; rfl, response⟩
  rw [pass] at step
  cases step
  cases writing

end CovNet.Master
