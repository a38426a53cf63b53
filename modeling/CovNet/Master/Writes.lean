import CovNet.Master.Overtaking

/-!
# Writes on a client socket

Two kinds of fibers write on a client socket, and both shut it down. The flags of the socket tell who is
at it: a write is pending only for the response worker or for a request worker that refuses a request, and
the draining reservation is held only by a worker inside `safe_shutdown` (`Flags`, in every run). A write
that meets either raises inside a fiber without a handler.

It happens: a response is being written when a read fails on the same connection (`writes_overlap`).
`serial` is the condition that excludes it: a read fails only when no response of the connection is to be
written and, unless the stream has ended, the response worker is not shutting the connection down. In
every run whose steps all meet it no write raises (`serial_writes`).
-/

namespace CovNet.Master
open Lib Text Http Socket

/-! ## The flags of a socket -/

lemma beginIoJob_flags {d : IoDirection} {a b : Atomics} (h : beginIoJob .tcp d a = .ok b) :
    b.exclusiveOperation = a.exclusiveOperation ∧
      (d = .read → b.writeOperation = a.writeOperation) := by
  unfold beginIoJob at h
  split at h
  · cases h
  · split at h
    · rename_i b' began
      cases h
      unfold tryBeginJob at began
      dsimp only at began
      split at began
      · cases began
      · split at began
        · cases began
        · cases began
          cases d with
          | read => exact ⟨rfl, fun _ => rfl⟩
          | write => exact ⟨rfl, fun e => by cases e⟩
    · cases h

/-- A write is refused only for one of two reasons. -/
lemma beginIoJob_write_error {a : Atomics} {e : String} (h : beginIoJob .tcp .write a = .error e) :
    a.writeOperation = true ∨ a.exclusiveOperation = true := by
  unfold beginIoJob at h
  split at h
  · rename_i set
    exact .inl set
  · split at h
    · cases h
    · rename_i refused
      unfold tryBeginJob at refused
      dsimp only at refused
      split at refused
      · rename_i set
        exact .inr set
      · split at refused
        · rename_i set
          exact .inr set
        · cases refused

/-- The connection on which a request worker has given up. -/
def RequestPc.refuses : RequestPc → Option Nat
  | .on c (.refusing _ _) | .on c (.shutting _ _) => some c
  | _ => none

lemma RequestPc.conn_of_refuses {pc : RequestPc} {c : Nat} (h : pc.refuses = some c) :
    pc.conn = some c := by
  cases pc with
  | on d phase =>
    cases phase with
    | reading deadline state => cases h
    | refusing | shutting => exact h
  | head | raised | ended => cases h

/-- `safe_shutdown` does not write, and the reservation it leaves is its own or was there before. -/
lemma Shuts.flags {conn : HttpConn} {drained : Prop} {r : HttpConn × Option Shutdown}
    (h : Shuts conn drained r) :
    r.1.sock.writeOperation = conn.sock.writeOperation ∧
      (r.1.sock.exclusiveOperation = true → (∃ deadline, r.2 = some (.draining deadline)) ∨
        ¬ drained ∧ conn.sock.exclusiveOperation = true) := by
  obtain ⟨isOpen, exclusive, e, reserved⟩ := h
  rw [e]
  exact ⟨rfl, reserved⟩

lemma shutFor_sock {c : Nat} {code : StateCode} {r : HttpConn × Option Shutdown} :
    (shutFor c code r).1.sock = r.1.sock := by
  obtain ⟨conn, sh⟩ := r
  cases sh with
  | none => rfl
  | some sh => rfl

lemma shutFor_refuses {c d : Nat} {code : StateCode} {r : HttpConn × Option Shutdown}
    (h : (shutFor c code r).2.refuses = some d) : d = c := by
  obtain ⟨conn, sh⟩ := r
  cases sh with
  | none => cases h
  | some sh =>
    cases h
    rfl

/-- A worker that has a connection in hand has not given up another one. -/
lemma InHand.off {m : State} {w c : Nat} {conn : HttpConn} {list : List Nat}
    (h : InHand m w c conn list) :
    (m.request w).refuses = none ∧ (∀ d, (m.request w).conn = some d → d = c) ∧
      conn.sock = (m.conns c).sock ∧ conn.refused = (m.conns c).refused := by
  cases h with
  | pick head _ _ _ _ =>
    rw [head]
    exact ⟨rfl, (fun d e => by cases e), rfl, rfl⟩
  | keep reading =>
    rw [reading]
    exact ⟨rfl, (fun d e => by cases e; rfl), rfl, rfl⟩

/-- A worker waits for a write on the connection. -/
def Writing (m : State) (c : Nat) : Prop :=
  m.response = .writing c none ∨ ∃ w code, m.request w = .on c (.refusing code none)

/-- A worker holds the draining reservation of the connection. -/
def Draining (m : State) (c : Nat) : Prop :=
  (∃ deadline, m.response = .shutting c (.draining deadline)) ∨
    ∃ w code deadline, m.request w = .on c (.shutting code (.draining deadline))

/-- The flags of a socket stand for workers. -/
structure Flags (m : State) : Prop where
  write : ∀ {c}, (m.conns c).sock.writeOperation = true → Writing m c
  exclusive : ∀ {c}, (m.conns c).sock.exclusiveOperation = true → Draining m c
  refused : ∀ {w c}, (m.request w).refuses = some c → (m.conns c).refused = true

namespace Flags
variable {cfg : Config} {m m' : State} {w c : Nat}

lemma init : Flags {} where
  write e := by cases e
  exclusive e := by cases e
  refused e := by cases e

lemma congr (f : Flags m) (conns : m'.conns = m.conns) (request : m'.request = m.request)
    (response : m'.response = m.response) : Flags m' where
  write := by
    unfold Writing
    rw [conns, request, response]
    exact f.write
  exclusive := by
    unfold Draining
    rw [conns, request, response]
    exact f.exclusive
  refused := by
    rw [conns, request]
    exact f.refused

/-- A connection changes where its flags are not concerned. -/
lemma touch {conn : HttpConn} (f : Flags m)
    (write : conn.sock.writeOperation = (m.conns c).sock.writeOperation)
    (exclusive : conn.sock.exclusiveOperation = (m.conns c).sock.exclusiveOperation)
    (refused : conn.refused = (m.conns c).refused) :
    Flags { m with conns := Function.update m.conns c conn } where
  write {d} e := by
    refine f.write (c := d) ?_
    by_cases eq : d = c
    · subst eq
      simpa only [Function.update_self, write] using e
    · simpa only [Function.update_of_ne eq] using e
  exclusive {d} e := by
    refine f.exclusive (c := d) ?_
    by_cases eq : d = c
    · subst eq
      simpa only [Function.update_self, exclusive] using e
    · simpa only [Function.update_of_ne eq] using e
  refused {u d} on := by
    have old := f.refused (w := u) on
    by_cases eq : d = c
    · subst eq
      simpa only [Function.update_self, refused] using old
    · simpa only [Function.update_of_ne eq] using old

/-- A request worker moves: the flags of its connection are as before, and not its own, or they are its
own. -/
lemma place {p : HttpConn × RequestPc} {list : List Nat} (f : Flags m)
    (mine : ∀ d, (m.request w).conn = some d → d = c)
    (write : p.1.sock.writeOperation = true →
      (∃ code, p.2 = .on c (.refusing code none)) ∨
        (m.conns c).sock.writeOperation = true ∧ ∀ code, m.request w ≠ .on c (.refusing code none))
    (exclusive : p.1.sock.exclusiveOperation = true →
      (∃ code deadline, p.2 = .on c (.shutting code (.draining deadline))) ∨
        (m.conns c).sock.exclusiveOperation = true ∧
          ∀ code deadline, m.request w ≠ .on c (.shutting code (.draining deadline)))
    (refused : ∀ d, p.2.refuses = some d → d = c ∧ p.1.refused = true)
    (kept : (m.conns c).refused = true → p.1.refused = true) :
    Flags ({ m with connList := list }.place w c p) := by
  refine ⟨fun {d} e => ?_, fun {d} e => ?_, fun {u d} on => ?_⟩
  · simp only [State.place] at e
    unfold Writing
    simp only [State.place]
    by_cases eq : d = c
    · subst eq
      rw [Function.update_self] at e
      -- the flag is one it has raised now, or was another's before
      rcases write e with ⟨code, here⟩ | ⟨old, not_mine⟩
      · exact .inr ⟨w, code, by rw [Function.update_self, here]⟩
      · refine (f.write old).imp id ?_
        rintro ⟨u, code, at_u⟩
        refine ⟨u, code, ?_⟩
        have ne : u ≠ w := by
          rintro rfl
          exact not_mine code at_u
        rw [Function.update_of_ne ne, at_u]
    · rw [Function.update_of_ne eq] at e
      refine (f.write e).imp id ?_
      rintro ⟨u, code, at_u⟩
      refine ⟨u, code, ?_⟩
      have ne : u ≠ w := by
        rintro rfl
        exact eq (mine d (by rw [at_u]; rfl))
      rw [Function.update_of_ne ne, at_u]
  · simp only [State.place] at e
    unfold Draining
    simp only [State.place]
    by_cases eq : d = c
    · subst eq
      rw [Function.update_self] at e
      rcases exclusive e with ⟨code, deadline, here⟩ | ⟨old, not_mine⟩
      · exact .inr ⟨w, code, deadline, by rw [Function.update_self, here]⟩
      · refine (f.exclusive old).imp id ?_
        rintro ⟨u, code, deadline, at_u⟩
        refine ⟨u, code, deadline, ?_⟩
        have ne : u ≠ w := by
          rintro rfl
          exact not_mine code deadline at_u
        rw [Function.update_of_ne ne, at_u]
    · rw [Function.update_of_ne eq] at e
      refine (f.exclusive e).imp id ?_
      rintro ⟨u, code, deadline, at_u⟩
      refine ⟨u, code, deadline, ?_⟩
      have ne : u ≠ w := by
        rintro rfl
        exact eq (mine d (by rw [at_u]; rfl))
      rw [Function.update_of_ne ne, at_u]
  · simp only [State.place] at on ⊢
    by_cases eu : u = w
    · subst eu
      rw [Function.update_self] at on
      obtain ⟨rfl, h⟩ := refused d on
      rwa [Function.update_self]
    · rw [Function.update_of_ne eu] at on
      have old := f.refused on
      by_cases eq : d = c
      · subst eq
        rw [Function.update_self]
        exact kept old
      · rwa [Function.update_of_ne eq]

/-- A request worker that has given nothing up moves, and the flags stay. -/
lemma keep {p : HttpConn × RequestPc} {list : List Nat} (f : Flags m)
    (mine : ∀ d, (m.request w).conn = some d → d = c) (off : (m.request w).refuses = none)
    (write : p.1.sock.writeOperation = (m.conns c).sock.writeOperation)
    (exclusive : p.1.sock.exclusiveOperation = (m.conns c).sock.exclusiveOperation)
    (refused : p.1.refused = (m.conns c).refused) (out : p.2.refuses = none) :
    Flags ({ m with connList := list }.place w c p) := by
  refine f.place mine (fun e => .inr ⟨write ▸ e, fun code at_w => ?_⟩)
    (fun e => .inr ⟨exclusive ▸ e, fun code deadline at_w => ?_⟩) (fun d e => ?_)
    (fun e => refused.trans e)
  · rw [at_w] at off
    cases off
  · rw [at_w] at off
    cases off
  · rw [out] at e
    cases e

/-- A request worker enters `safe_shutdown`, or goes on there. -/
lemma shut {conn : HttpConn} {list : List Nat} {r : HttpConn × Option Shutdown} {code : StateCode}
    {drained : Prop} (f : Flags m) (h : Shuts conn drained r)
    (mine : ∀ d, (m.request w).conn = some d → d = c)
    (sock : conn.sock = (m.conns c).sock) (refused : conn.refused = true)
    (idle : ∀ code, m.request w ≠ .on c (.refusing code none))
    (drains : ∀ code deadline,
      m.request w = .on c (.shutting code (.draining deadline)) → drained) :
    Flags ({ m with connList := list }.place w c (shutFor c code r)) := by
  obtain ⟨write, exclusive⟩ := h.flags
  rw [sock] at write exclusive
  refine f.place mine (fun e => ?_) (fun e => ?_) (fun d e => ?_) (fun _ => ?_)
  · rw [shutFor_sock, write] at e
    exact .inr ⟨e, idle⟩
  · rw [shutFor_sock] at e
    rcases exclusive e with ⟨deadline, here⟩ | ⟨other, old⟩
    · obtain ⟨conn', sh⟩ := r
      cases here
      exact .inl ⟨code, deadline, rfl⟩
    · exact .inr ⟨old, fun code deadline at_w => other (drains code deadline at_w)⟩
  · exact ⟨shutFor_refuses e, by rw [shutFor_refused, h.refused, refused]⟩
  · rw [shutFor_refused, h.refused, refused]

/-- A read fails. -/
lemma refuse {conn : HttpConn} {list : List Nat} {code : StateCode} (f : Flags m)
    (hand : InHand m w c conn list) :
    Flags ({ m with connList := list }.place w c (conn.refuse c m.now code)) := by
  obtain ⟨off, mine, sock, -⟩ := hand.off
  have idle : ∀ code, m.request w ≠ .on c (.refusing code none) := by
    intro code at_w
    rw [at_w] at off
    cases off
  have away : ∀ code deadline, m.request w ≠ .on c (.shutting code (.draining deadline)) := by
    intro code deadline at_w
    rw [at_w] at off
    cases off
  unfold HttpConn.refuse
  dsimp only
  split
  · have shuts : Shuts { conn with refused := true } False
        ({ conn with refused := true }.safeShutdown m.now) := safeShutdown_shuts
    exact f.shut shuts mine sock rfl idle fun code deadline at_w => away code deadline at_w
  · split
    · rename_i a began
      have exclusive : a.exclusiveOperation = conn.sock.exclusiveOperation := (beginIoJob_flags began).1
      rw [sock] at exclusive
      refine f.place mine (fun _ => .inl ⟨code, rfl⟩) (fun e => .inr ⟨?_, away⟩) (fun d e => ?_)
        (fun _ => rfl)
      · exact exclusive ▸ e
      · cases e
        exact ⟨rfl, rfl⟩
    · refine f.place mine (fun e => .inr ⟨?_, idle⟩) (fun e => .inr ⟨?_, away⟩) (fun d e => by cases e)
        (fun _ => rfl)
      · rw [← sock]
        exact e
      · rw [← sock]
        exact e

lemma request {p : Parsed} (f : Flags m) (h : RequestMove cfg m w p m') : Flags m' := by
  have leaves : ∀ {pc : RequestPc}, (m.request w).refuses = none → pc.refuses = none →
      Flags { m with request := Function.update m.request w pc } := by
    intro pc off out
    refine ⟨fun {d} e => (f.write e).imp id ?_, fun {d} e => (f.exclusive e).imp id ?_,
      fun {u d} on => ?_⟩
    · rintro ⟨u, code, at_u⟩
      refine ⟨u, code, ?_⟩
      have ne : u ≠ w := by
        rintro rfl
        rw [at_u] at off
        cases off
      simpa only [Function.update_of_ne ne] using at_u
    · rintro ⟨u, code, deadline, at_u⟩
      refine ⟨u, code, deadline, ?_⟩
      have ne : u ≠ w := by
        rintro rfl
        rw [at_u] at off
        cases off
      simpa only [Function.update_of_ne ne] using at_u
    · by_cases eu : u = w
      · subst eu
        simp only [Function.update_self, out] at on
        cases on
      · simp only [Function.update_of_ne eu] at on
        exact f.refused on
  cases h with
  | ended head => exact leaves (by rw [head]; rfl) rfl
  | scan _ => exact f.congr rfl rfl rfl
  | read hand _ began =>
    obtain ⟨off, mine, sock, refused⟩ := hand.off
    obtain ⟨exclusive, write⟩ := beginIoJob_flags began
    rw [sock] at exclusive write
    exact f.keep mine off (write rfl) exclusive refused rfl
  | raise hand _ =>
    obtain ⟨off, mine, sock, refused⟩ := hand.off
    exact f.keep mine off (by rw [sock]) (by rw [sock]) refused rfl
  | fail hand _ => exact f.refuse hand
  | @enqueue c deadline s state reading _ _ =>
    have hand : InHand m w c (m.conns c) m.connList := .keep reading
    obtain ⟨off, mine, -, -⟩ := hand.off
    have moved : Flags (m.place w c ((m.conns c).push m.now m.nextSession
        (State.limited cfg ((m.conns c).requestCount + 1) s), .head)) :=
      f.keep mine off rfl rfl rfl rfl
    exact moved.congr rfl rfl rfl
  | fault reading => exact leaves (by rw [reading]; rfl) rfl
  | @shut c code r h =>
    rcases h with ⟨ok, refusing, h⟩ | ⟨sh, shutting, h⟩
    · refine f.shut h (fun d e => ?_) rfl (f.refused (by rw [refusing]; rfl)) (fun code at_w => ?_)
        (fun code deadline at_w => ?_)
      · rw [refusing] at e
        cases e
        rfl
      · rw [refusing] at at_w
        cases at_w
      · rw [refusing] at at_w
        cases at_w
    · refine f.shut h (fun d e => ?_) rfl (f.refused (by rw [shutting]; rfl)) (fun code at_w => ?_)
        (fun code deadline at_w => ?_)
      · rw [shutting] at e
        cases e
        rfl
      · rw [shutting] at at_w
        cases at_w
      · rw [shutting] at at_w
        cases at_w
        exact ⟨deadline, rfl⟩

/-- The response worker moves: likewise. -/
lemma settle {p : HttpConn × ResponsePc} (f : Flags m)
    (mine : ∀ d, m.response.conn = some d → d = c)
    (write : p.1.sock.writeOperation = true →
      p.2 = .writing c none ∨
        (m.conns c).sock.writeOperation = true ∧ m.response ≠ .writing c none)
    (exclusive : p.1.sock.exclusiveOperation = true →
      (∃ deadline, p.2 = .shutting c (.draining deadline)) ∨
        (m.conns c).sock.exclusiveOperation = true ∧
          ∀ deadline, m.response ≠ .shutting c (.draining deadline))
    (kept : p.1.refused = (m.conns c).refused) : Flags (m.settle c p) := by
  refine ⟨fun {d} e => ?_, fun {d} e => ?_, fun {u d} on => ?_⟩
  · simp only [State.settle] at e
    by_cases eq : d = c
    · subst eq
      rw [Function.update_self] at e
      -- as for a request worker, the flag is its own or was another's before
      rcases write e with here | ⟨old, not_mine⟩
      · exact .inl here
      · exact .inr ((f.write old).resolve_left not_mine)
    · rw [Function.update_of_ne eq] at e
      exact .inr ((f.write e).resolve_left fun here => eq (mine d (by rw [here]; rfl)))
  · simp only [State.settle] at e
    by_cases eq : d = c
    · subst eq
      rw [Function.update_self] at e
      rcases exclusive e with here | ⟨old, not_mine⟩
      · exact .inl here
      · refine .inr ((f.exclusive old).resolve_left ?_)
        rintro ⟨deadline, here⟩
        exact not_mine deadline here
    · rw [Function.update_of_ne eq] at e
      refine .inr ((f.exclusive e).resolve_left ?_)
      rintro ⟨deadline, here⟩
      exact eq (mine d (by rw [here]; rfl))
  · have old := f.refused (w := u) on
    simp only [State.settle]
    by_cases eq : d = c
    · subst eq
      rwa [Function.update_self, kept]
    · rwa [Function.update_of_ne eq]

lemma moveTo {pc : ResponsePc} (f : Flags m) (head : m.response.conn = none) :
    Flags { m with response := pc } := by
  refine ⟨fun {d} e => .inr ((f.write e).resolve_left fun here => ?_),
    fun {d} e => .inr ((f.exclusive e).resolve_left fun ⟨deadline, here⟩ => ?_), f.refused⟩
  · rw [here] at head
    cases head
  · rw [here] at head
    cases head

lemma closeFor_settle {r : HttpConn × Option Shutdown} {drained : Prop} (f : Flags m)
    (mine : ∀ d, m.response.conn = some d → d = c) (idle : m.response ≠ .writing c none)
    (drains : ∀ deadline, m.response = .shutting c (.draining deadline) → drained)
    (h : Shuts (m.conns c) drained r) : Flags (m.settle c (State.closeFor c r)) := by
  obtain ⟨write, exclusive⟩ := h.flags
  have refused := h.refused
  have sock : (State.closeFor c r).1.sock = r.1.sock := by
    obtain ⟨conn, sh⟩ := r
    cases sh with
    | none => rfl
    | some sh => rfl
  refine f.settle mine (fun e => .inr ⟨?_, idle⟩) (fun e => ?_) (closeFor_spec h).2.1
  · rw [sock, write] at e
    exact e
  · rw [sock] at e
    rcases exclusive e with ⟨deadline, here⟩ | ⟨other, old⟩
    · obtain ⟨conn, sh⟩ := r
      cases here
      exact .inl ⟨deadline, rfl⟩
    · exact .inr ⟨old, fun deadline at_c => other (drains deadline at_c)⟩

lemma turnsTo {m1 : State} (f : Flags m) (h : TurnsTo m c m1) : Flags m1 := by
  have left : ∀ {conn : HttpConn} {done : Bool}, m.response = .writing c (some done) →
      conn.sock = (m.conns c).sock → conn.refused = (m.conns c).refused →
      Flags (m.settle c (conn, .head)) := by
    intro conn done writing sock refused
    refine f.settle (fun d e => ?_) (fun e => .inr ⟨sock ▸ e, ?_⟩) (fun e => .inr ⟨sock ▸ e, ?_⟩)
      refused
    · rw [writing] at e
      cases e
      rfl
    · rw [writing]
      simp
    · intro deadline
      rw [writing]
      simp
  cases h with
  | pick _ _ _ => exact f
  | written writing => exact left writing rfl rfl
  | dropped writing => exact left writing rfl rfl
  | paused paused =>
    refine ⟨fun {d} e => .inr ((f.write e).resolve_left fun here => ?_),
      fun {d} e => .inr ((f.exclusive e).resolve_left fun ⟨deadline, here⟩ => ?_), f.refused⟩
    · rw [here] at paused
      cases paused
    · rw [here] at paused
      cases paused

lemma serve (f : Flags m) (head : m.response = .head) (h : ServeMove m c m') : Flags m' := by
  have off : m.response.conn = none := by rw [head]; rfl
  have mine : ∀ d, m.response.conn = some d → d = c := by
    intro d e
    rw [off] at e
    cases e
  cases h with
  | pause _ _ | done _ => exact f.moveTo off
  | @raise σ rest b e _ _ _ =>
    have answered : Flags (m.answer σ (writtenResponse (m.conns c).keepAlive b)) :=
      f.congr rfl rfl rfl
    exact answered.moveTo off
  | @write σ rest b a _ _ began =>
    have answered : Flags (m.answer σ (writtenResponse (m.conns c).keepAlive b)) :=
      f.congr rfl rfl rfl
    have exclusive := (beginIoJob_flags began).1
    refine answered.settle mine (fun _ => .inl rfl) (fun e => .inr ⟨?_, fun deadline => ?_⟩) rfl
    · exact exclusive ▸ e
    · show m.response ≠ _
      rw [head]
      simp
  | close _ _ shuts =>
    refine f.closeFor_settle mine ?_ (fun deadline at_c => ?_) shuts
    · rw [head]
      simp
    · rw [head] at at_c
      cases at_c

lemma response (f : Flags m) (o : Order m) (h : ResponseMove m m') : Flags m' := by
  cases h with
  | ended head => exact f.moveTo (by rw [head]; rfl)
  | idle => exact f
  | serve turns serves => exact (f.turnsTo turns).serve (o.turnsTo turns).2 serves
  | shut shutting shuts =>
    refine f.closeFor_settle (fun d e => ?_) ?_ (fun deadline at_c => ?_) shuts
    · rw [shutting] at e
      cases e
      rfl
    · rw [shutting]
      simp
    · rw [shutting] at at_c
      cases at_c
      exact ⟨deadline, rfl⟩

lemma dispatch (f : Flags m) (h : DispatchMove cfg m w m') : Flags m' := by
  rcases h.aside with a | ⟨c, -, -, a⟩
  · exact f.congr a.conns a.request a.response
  · have taken : Flags { m with conns := (m.take c).conns } := f.touch rfl rfl rfl
    exact taken.congr a.conns a.request a.response

/-- The flags stand for workers after every step. -/
lemma step {a : Action} (f : Flags m) (r : Readers m) (o : Order m) (h : Move cfg m a m') :
    Flags m' := by
  cases h with
  | tick | stop | accept | spawn | spawned | reply => exact f.congr rfl rfl rfl
  | accepted =>
    have blank := r.fresh m.nextConn le_rfl
    have moved : Flags { m with
        conns := Function.update m.conns m.nextConn { lastRequestTime := m.now } } :=
      f.touch (by rw [blank]) (by rw [blank]) (by rw [blank])
    exact moved.congr rfl rfl rfl
  | request move => exact f.request move
  | response move => exact f.response o move
  | dispatch move => exact f.dispatch move
  | readDone reading =>
    refine f.keep (fun d e => ?_) (by rw [reading]; rfl) rfl rfl rfl rfl
    rw [reading] at e
    cases e
    rfl
  | readLate _ => exact f.touch rfl rfl rfl
  | @refuseDone w c code ok refusing =>
    refine f.place (fun d e => ?_) (fun e => ?_) (fun e => .inr ⟨e, fun code deadline at_w => ?_⟩)
      (fun d e => ?_) id
    · rw [refusing] at e
      cases e
      rfl
    · cases (show false = true from e)
    · rw [refusing] at at_w
      cases at_w
    · cases e
      exact ⟨rfl, f.refused (w := w) (by rw [refusing]; rfl)⟩
  | responseDone writing =>
    refine f.settle (fun d e => ?_) (fun e => ?_) (fun e => .inr ⟨e, fun deadline => ?_⟩) rfl
    · rw [writing] at e
      cases e
      rfl
    · cases (show false = true from e)
    · rw [writing]
      simp

end Flags

/-! ## One write at a time -/

/-- The connection whose socket the response worker drains. -/
def ResponsePc.drains : ResponsePc → Option Nat
  | .shutting c (.draining _) => some c
  | _ => none

/-- If the step is one at which a read fails, no response of the connection is to be written and, if an
error response is, the response worker does not drain the socket. -/
def serial (cfg : Config) (m : State) : Action → Bool
  | .request w p => (m.failing cfg w p).all fun f =>
      (m.unwritten f.1).isEmpty && (decide (f.2 = .codeEof) || decide (m.response.drains ≠ some f.1))
  | _ => true

lemma patient_of_serial {cfg : Config} {m : State} {a : Action} (h : serial cfg m a = true) :
    patient cfg m a = true := by
  cases a with
  | request w p =>
    simp only [serial, patient, Option.all_eq_true] at h ⊢
    exact fun f e => (Bool.and_eq_true_iff.mp (h f e)).1
  | _ => rfl

/-- No worker has raised in a write. -/
structure Unraised (m : State) : Prop where
  response : m.response ≠ .raised
  request : ∀ w, m.request w ≠ .raised (.io .write)

lemma shutFor_raised {c : Nat} {code : StateCode} {r : HttpConn × Option Shutdown} {e : Raised} :
    (shutFor c code r).2 ≠ .raised e := by
  obtain ⟨conn, sh⟩ := r
  cases sh with
  | none => simp [shutFor]
  | some sh => simp [shutFor]

lemma closeFor_raised {c : Nat} {r : HttpConn × Option Shutdown} :
    (State.closeFor c r).2 ≠ .raised := by
  obtain ⟨conn, sh⟩ := r
  cases sh with
  | none => simp [State.closeFor]
  | some sh => simp [State.closeFor]

/-- An error response raises only where it meets a write or a drain. -/
lemma refuse_raised {conn : HttpConn} {c now : Nat} {code : StateCode} {e : Raised}
    (h : (conn.refuse c now code).2 = .raised e) :
    code ≠ .codeEof ∧
      (conn.sock.writeOperation = true ∨ conn.sock.exclusiveOperation = true) := by
  unfold HttpConn.refuse at h
  dsimp only at h
  split at h
  · exact absurd h shutFor_raised
  · rename_i other
    split at h
    · cases h
    · exact ⟨other, beginIoJob_write_error ‹_›⟩

namespace Unraised
variable {cfg : Config} {m m' : State} {w c : Nat}

lemma init : Unraised {} := ⟨by simp, by simp⟩

lemma move {pc : RequestPc} (u : Unraised m) (out : pc ≠ .raised (.io .write))
    (request : m'.request = Function.update m.request w pc) (response : m'.response = m.response) :
    Unraised m' := by
  refine ⟨response ▸ u.response, fun v => ?_⟩
  rw [request]
  by_cases e : v = w
  · subst e
    rwa [Function.update_self]
  · rw [Function.update_of_ne e]
    exact u.request v

/-- A read that fails when the connection is left alone does not raise. -/
lemma refuse {conn : HttpConn} {list : List Nat} {code : StateCode} (r : Readers m) (o : Order m)
    (f : Flags m) (hand : InHand m w c conn list) (none : m.unwritten c = [])
    (free : code = .codeEof ∨ m.response.drains ≠ some c) {e : Raised} :
    (conn.refuse c m.now code).2 ≠ .raised e := by
  intro raised
  obtain ⟨off, -, sock, -⟩ := hand.off
  obtain ⟨-, -, alone, -, -⟩ := r.inHand hand
  -- another request worker would have to be on the same connection
  have nobody : ∀ u, (m.request u).refuses ≠ some c := by
    intro u on
    by_cases eq : u = w
    · subst eq
      rw [off] at on
      cases on
    · exact alone u eq (RequestPc.conn_of_refuses on)
  obtain ⟨other, set⟩ := refuse_raised raised
  rw [sock] at set
  rcases set with write | exclusive
  · rcases f.write write with writing | ⟨u, code', at_u⟩
    · have front := ((o.ordered_writing writing).front rfl).1
      unfold State.unwritten at none
      rw [writing] at none
      exact front none
    · exact nobody u (by rw [at_u]; rfl)
  · rcases f.exclusive exclusive with ⟨deadline, draining⟩ | ⟨u, code', deadline, at_u⟩
    · refine (free.resolve_left other) ?_
      rw [draining]
      rfl
    · exact nobody u (by rw [at_u]; rfl)

lemma requestMove {p : Parsed} (u : Unraised m) (r : Readers m) (o : Order m) (f : Flags m)
    (h : RequestMove cfg m w p m') (ok : serial cfg m (.request w p) = true) : Unraised m' := by
  cases h with
  | ended _ => exact u.move (by simp) rfl rfl
  | scan _ => exact ⟨u.response, u.request⟩
  | read _ _ _ => exact u.move (by simp) rfl rfl
  | raise _ _ => exact u.move (by simp) rfl rfl
  | fail hand failing =>
    simp only [serial, failing, Option.all_some, Bool.and_eq_true, Bool.or_eq_true,
      List.isEmpty_iff, decide_eq_true_eq] at ok
    exact u.move (refuse r o f hand ok.1 ok.2) rfl rfl
  | enqueue _ _ _ => exact u.move (by simp) rfl rfl
  | fault _ => exact u.move (by simp) rfl rfl
  | shut _ => exact u.move shutFor_raised rfl rfl

/-- A response that is written meets no other write and no drain. -/
lemma serve (u : Unraised m) (q : Patience m) (f : Flags m) (head : m.response = .head)
    (h : ServeMove m c m') : Unraised m' := by
  cases h with
  | pause _ _ => exact ⟨by simp, u.request⟩
  | write _ _ _ => exact ⟨by simp [State.settle], u.request⟩
  | close _ _ _ => exact ⟨closeFor_raised, u.request⟩
  | done _ => exact ⟨by simp, u.request⟩
  | raise front _ refused =>
    have nobody : ∀ u, (m.request u).refuses ≠ some c := by
      intro u on
      have none := q.unwritten (f.refused on)
      unfold State.unwritten at none
      rw [head] at none
      simp [ResponsePc.wrote, front] at none
    rcases beginIoJob_write_error refused with write | exclusive
    · rcases f.write write with writing | ⟨u, code, at_u⟩
      · rw [head] at writing
        cases writing
      · exact absurd (by rw [at_u]; rfl) (nobody u)
    · rcases f.exclusive exclusive with ⟨deadline, draining⟩ | ⟨u, code, deadline, at_u⟩
      · rw [head] at draining
        cases draining
      · exact absurd (by rw [at_u]; rfl) (nobody u)

lemma responseMove (u : Unraised m) (o : Order m) (q : Patience m) (f : Flags m)
    (h : ResponseMove m m') : Unraised m' := by
  cases h with
  | ended _ => exact ⟨by simp, u.request⟩
  | idle => exact u
  | serve turns serves =>
    have head := (o.turnsTo turns).2
    refine Unraised.serve ⟨by simp [head], ?_⟩ (q.turnsTo turns) (f.turnsTo turns) head serves
    cases turns <;> exact u.request
  | shut _ _ => exact ⟨closeFor_raised, u.request⟩

lemma step {a : Action} (u : Unraised m) (i : Inv m) (q : Patience m) (f : Flags m)
    (h : Move cfg m a m') (ok : serial cfg m a = true) : Unraised m' := by
  cases h with
  | tick | stop | accept | accepted | spawn | spawned | readLate _ | reply _ =>
    exact ⟨u.response, u.request⟩
  | request move => exact u.requestMove i.readers i.order f move ok
  | response move => exact u.responseMove i.order q f move
  | dispatch move =>
    rcases move.aside with a | ⟨c, -, -, a⟩
    · exact ⟨a.response ▸ u.response, a.request ▸ u.request⟩
    · exact ⟨a.response ▸ u.response, a.request ▸ u.request⟩
  | readDone _ => exact u.move (by simp) rfl rfl
  | refuseDone _ => exact u.move (by simp) rfl rfl
  | responseDone _ => exact ⟨by simp [State.settle], u.request⟩

end Unraised

/-- In a run whose reads fail only when no response of their connection is to be written and, if an error
response is, the response worker does not drain the socket, no write raises: neither in the response worker
nor in a request worker. -/
theorem serial_writes (cfg : Config) (m : State)
    (run : ((master cfg).restrict fun m a => serial cfg m a = true).Reachable m) :
    m.response ≠ .raised ∧ ∀ w, m.request w ≠ .raised (.io .write) := by
  have all : (Inv m ∧ Patience m) ∧ Flags m ∧ Unraised m := by
    refine run.invariant (I := fun m => (Inv m ∧ Patience m) ∧ Flags m ∧ Unraised m) ?_ ?_
    · rintro _ rfl
      exact ⟨⟨.init, .init⟩, .init, .init⟩
    intro m a m' ⟨⟨i, q⟩, f, u⟩ st
    obtain ⟨ok, st⟩ := System.restrict_next.mp st
    have move := next_move st
    exact ⟨⟨i.step move, q.step i.readers i.order move (patient_of_serial ok)⟩,
      f.step i.readers i.order move, u.step i q f move ok⟩
  exact ⟨all.2.2.response, all.2.2.request⟩

/-- A request is answered, and then the client sends a malformed one: both writes are issued. -/
theorem serial_writes_page :
    ∃ m, ((master {}).restrict fun m a => serial {} m a = true).Reachable m ∧
      (m.conns 0).sent.length = 2 ∧
      m.response ≠ .raised ∧ ∀ w, m.request w ≠ .raised (.io .write) := by
  obtain ⟨m, run, h⟩ := System.Reachable.exists_of_run
    (S := (master {}).restrict fun m a => serial {} m a = true) (.init rfl)
    (opening ++ asks (page (bytes "keep-alive")) ++ answers (bytes "HTTP/1.1 200 OK") ++
      [.response, .responseDone true, .response, .request 0 .more, .readDone 0 .ok,
        .request 0 (.refuse .code400)])
    (fun m => decide ((m.conns 0).sent.length = 2)) (by decide +kernel)
  exact ⟨m, run, of_decide_eq_true h, serial_writes {} m run⟩

/-- A response is being written when a malformed request arrives behind it: the error response raises. -/
theorem writes_overlap :
    ¬ ∀ (cfg : Config) (m : State), (master cfg).Reachable m →
      m.response ≠ .raised ∧ ∀ w, m.request w ≠ .raised (.io .write) := by
  intro claim
  obtain ⟨m, run, h⟩ := System.Reachable.exists_of_run (S := master {}) (.init rfl)
    (opening ++ asks (page (bytes "keep-alive")) ++ answers (bytes "HTTP/1.1 200 OK") ++
      [.response, .request 0 .more, .readDone 0 .ok, .request 0 (.refuse .code400)])
    (fun m => decide (m.response = .writing 0 none ∧ m.request 0 = .raised (.io .write)))
    (by decide +kernel)
  exact (claim {} m run).2 0 (of_decide_eq_true h).2

end CovNet.Master
