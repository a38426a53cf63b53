import CovNet.Cluster.Channels
import CovNet.Http.Lifetime

/-!
# The cluster answers like a single process

`Wired` ties the byte streams of the cluster to the queues of the master: a connection of a client stands behind
the requests that have been queued, and the two directions of the connection of a slave hold the messages it has not
answered and the frames the master has not read, whatever has failed in between. So every step of the cluster is one
of `CovNet.Master.Model` (`cluster_refines`), and what the slaves return are the answers of the handlers.

`cluster_answers` puts it together, from the bytes a client sends to the bytes it gets: the response in place `i` is
the answer of a handler to request `i` of its stream, or an error of the master. `cluster_simple_worker` compares
that with the mode without slaves.
-/

namespace CovNet.Cluster
open Lib Text Http Slave
open Master (Action Config HttpConn Move Rewritten Origin)

namespace Deployment

/-- A frame is the answer of a handler to a session, as a slave has received it. -/
def Answers (d : Deployment) (s : Session) (frame : Bytes) : Prop :=
  ∃ k got, (Message.session s).Received got ∧ frame = answer (d.serve k) (d.now k) got

/-- The codec carries the sessions of the clients. -/
def Carries (d : Deployment) : Prop := ∀ c i s, d.request c i = some s → (Message.session s).Fits d.codec

/-- The streams and the queues belong together. -/
structure Wired (d : Deployment) (s : State) : Prop where
  input : ∀ c, d.behind (d.streams c) (s.master.conns c).enqueued.length = some (s.input c)
  count : ∀ c, (s.master.conns c).requestCount = (s.master.conns c).enqueued.length
  asked : ∀ {c i σ}, (s.master.conns c).enqueued[i]? = some σ → d.request c i = some (s.master.sessions σ).session
  placed : ∀ {σ}, σ < s.master.nextSession → ∃ c, σ ∈ (s.master.conns c).enqueued
  sent : ∀ {n σ}, some σ ∈ (s.master.nodes n).outstanding →
    σ < s.master.nextSession ∧ (serialize (s.master.sessions σ).session).isSome = true
  down : ∀ n, s.down n = (s.master.nodes n).outstanding.flatMap (d.wire s.master)
  framed : ∀ {n e}, e ∈ (s.master.nodes n).inbox → 0 < e.2.length ∧ ∃ frame, sendContent e.2 = some frame
  up : ∀ n, s.up n = (s.master.nodes n).inbox.flatMap fun e => (sendContent e.2).getD []
  returned : ∀ {σ b}, (σ, b) ∈ s.master.returned →
    σ < s.master.nextSession ∧ d.Answers (s.master.sessions σ).session b

section Steps
variable {d : Deployment} {s s' : State} {m : Master.State} {w n : Nat} {job : Option Nat}

/-- What a job is on the wire depends on its session. -/
lemma wire_congr {m m' : Master.State} (same : ∀ σ, job = some σ → (m'.sessions σ).session = (m.sessions σ).session) :
    d.wire m' job = d.wire m job := by
  cases job with
  | none => rfl
  | some σ => simp only [wire, message, same σ rfl]

lemma wires_congr {m m' : Master.State} {jobs : List (Option Nat)}
    (same : ∀ σ, some σ ∈ jobs → (m'.sessions σ).session = (m.sessions σ).session) :
    jobs.flatMap (d.wire m') = jobs.flatMap (d.wire m) := by
  apply List.flatMap_congr
  intro job mem
  exact wire_congr fun σ e => same σ (e ▸ mem)

/-- A request that a slave can be sent has been accepted. -/
lemma request_accepted {c i : Nat} {session : Session} (h : d.request c i = some session)
    (host : session.host.isSome = true) : Accepted d.asInteger d.maxBodySize session := by
  obtain ⟨⟨read, rest⟩, found, eq⟩ := Option.map_eq_some_iff.mp h
  obtain ⟨stream, -, parsed⟩ := Option.bind_eq_some_iff.mp found
  have left : Left .silent stream ⟨[stream], .silent⟩ Async.State.new := ⟨rfl, List.append_nil stream⟩
  have call := readHttpHeader_eq d.asInteger d.maxBodySize left
  have ok : parseRequest d.asInteger d.maxBodySize .silent stream = .ok (read, rest) := by
    unfold parse at parsed
    cases e : parseRequest d.asInteger d.maxBodySize .silent stream with
    | error stop =>
      rw [e] at parsed
      cases parsed
    | ok p =>
      rw [e] at parsed
      exact congrArg Except.ok (Option.some.inj parsed)
  rw [ok] at call
  obtain ⟨sock', st', -, read_ok⟩ := call
  refine ⟨_, _, _, read, sock', st', read_ok, ?_, ?_⟩
  · rw [← eq] at host
    unfold Master.State.limited at host
    split at host
    · exact host
    · exact host
  · rw [← eq]
    unfold Master.State.limited
    split
    · exact .inr rfl
    · exact .inl rfl

namespace Wired

lemma init : Wired d { input := d.streams } where
  input _ := rfl
  count _ := rfl
  asked h := by cases h
  placed h := by cases h
  sent h := by cases h
  down _ := rfl
  framed h := by cases h
  up _ := rfl
  returned h := by cases h

/-- A step of the master that brings nothing in. -/
lemma carry (g : Wired d s) (out : Outward s.master m) : Wired d (d.carry s m) where
  input c := by
    show d.behind (d.streams c) (m.conns c).enqueued.length = _
    rw [out.enqueued]
    exact g.input c
  count c := by
    show (m.conns c).requestCount = (m.conns c).enqueued.length
    rw [out.count, out.enqueued]
    exact g.count c
  asked {c i σ} h := by
    show _ = some (m.sessions σ).session
    rw [out.session]
    exact g.asked (out.enqueued c ▸ h)
  placed {σ} h := by
    obtain ⟨c, mem⟩ := g.placed (out.known ▸ h)
    exact ⟨c, (out.enqueued c).symm ▸ mem⟩
  sent {n σ} h := by
    obtain ⟨jobs, eq, new⟩ := out.outstanding n
    show σ < m.nextSession ∧ (serialize (m.sessions σ).session).isSome = true
    rw [out.known, out.session]
    have mem : some σ ∈ (s.master.nodes n).outstanding ++ jobs := eq ▸ h
    rcases List.mem_append.mp mem with old | sent
    · exact g.sent old
    · exact new σ sent
  down n := by
    obtain ⟨jobs, eq, -⟩ := out.outstanding n
    show s.down n ++ (posted s.master m n).flatMap (d.wire m) = (m.nodes n).outstanding.flatMap (d.wire m)
    have posted : posted s.master m n = jobs := by rw [Cluster.posted, eq, List.drop_left]
    have same : ∀ jobs : List (Option Nat), jobs.flatMap (d.wire m) = jobs.flatMap (d.wire s.master) :=
      fun jobs => wires_congr fun σ _ => out.session σ
    rw [posted, eq, List.flatMap_append, g.down, same, same]
  framed {n e} h := by
    apply g.framed (n := n)
    rw [← out.inbox n]
    exact h
  up n := by
    show s.up n = (m.nodes n).inbox.flatMap _
    rw [out.inbox]
    exact g.up n
  returned {σ b} h := by
    show σ < m.nextSession ∧ d.Answers (m.sessions σ).session b
    rw [out.known, out.session]
    exact g.returned (out.returned ▸ h)

/-- The history of a connection on which a session is queued. -/
lemma enqueued {c : Nat} {session : Session} (e : Nat) :
    ((m.enqueue d.cfg w c session).conns e).enqueued =
      (m.conns e).enqueued ++ if e = c then [m.nextSession] else [] := by
  simp only [Master.State.enqueue, Master.State.place, Function.update_apply]
  split
  · rename_i here
    rw [here]
    rfl
  · rw [List.append_nil]

/-- A session has been read. -/
lemma session {c : Nat} {session : Session} {rest : Bytes} (g : Wired d s) (o : Master.Order s.master)
    (parsed : d.parse (s.input c) = some (session, rest)) :
    Wired d { s with
      master := s.master.enqueue d.cfg w c session
      input := Function.update s.input c rest } := by
  have old : ∀ {σ}, σ < s.master.nextSession →
      ((s.master.enqueue d.cfg w c session).sessions σ).session = (s.master.sessions σ).session := by
    intro σ lt
    simp only [Master.State.enqueue, Function.update_of_ne lt.ne]
  have new : d.request c (s.master.conns c).enqueued.length =
      some ((s.master.enqueue d.cfg w c session).sessions s.master.nextSession).session := by
    simp only [Master.State.enqueue, Function.update_self, request, g.input c, Option.bind_some, parsed,
      Option.map_some, g.count c]
  have stays : ∀ {n σ}, some σ ∈ (s.master.nodes n).outstanding →
      ((s.master.enqueue d.cfg w c session).sessions σ).session = (s.master.sessions σ).session :=
    fun mem => old (g.sent mem).1
  refine ⟨fun e => ?_, fun e => ?_, fun {e i σ} h => ?_, fun {σ} h => ?_, fun {n σ} h => ?_, fun n => ?_,
    g.framed, g.up, fun {σ b} h => ?_⟩
  · show d.behind (d.streams e) ((s.master.enqueue d.cfg w c session).conns e).enqueued.length =
      some (Function.update s.input c rest e)
    rw [enqueued, Function.update_apply]
    split
    · rename_i here
      subst here
      simp only [List.length_append, List.length_singleton, behind, g.input e, Option.bind_some, parsed,
        Option.map_some]
    · rw [List.append_nil]
      exact g.input e
  · show ((s.master.enqueue d.cfg w c session).conns e).requestCount = _
    simp only [Master.State.enqueue, Master.State.place, Function.update_apply]
    split
    · rename_i here
      subst here
      simp only [HttpConn.push, List.length_append, List.length_singleton, g.count e]
    · exact g.count e
  · show d.request e i = some ((s.master.enqueue d.cfg w c session).sessions σ).session
    have at_i : ((s.master.enqueue d.cfg w c session).conns e).enqueued[i]? = some σ := h
    rw [enqueued] at at_i
    by_cases before : i < (s.master.conns e).enqueued.length
    · rw [List.getElem?_append_left before] at at_i
      rw [old (o.known (List.mem_of_getElem? at_i))]
      exact g.asked at_i
    · rw [List.getElem?_append_right (Nat.le_of_not_lt before)] at at_i
      split at at_i
      · rename_i here
        subst here
        obtain ⟨lt, eq⟩ := List.getElem?_eq_some_iff.mp at_i
        have last : i = (s.master.conns e).enqueued.length := by
          have one : i - (s.master.conns e).enqueued.length < 1 := lt
          omega
        subst last
        simp only [Nat.sub_self, List.getElem_cons_zero] at eq
        subst eq
        exact new
      · cases at_i
  · show ∃ e, σ ∈ ((s.master.enqueue d.cfg w c session).conns e).enqueued
    rcases Nat.lt_succ_iff_lt_or_eq.mp h with lt | rfl
    · obtain ⟨e, mem⟩ := g.placed lt
      exact ⟨e, by rw [enqueued]; exact List.mem_append_left _ mem⟩
    · exact ⟨c, by rw [enqueued]; simp⟩
  · obtain ⟨lt, text⟩ := g.sent h
    refine ⟨Nat.lt_succ_of_lt lt, ?_⟩
    show (serialize ((s.master.enqueue d.cfg w c session).sessions σ).session).isSome = true
    rwa [old lt]
  · show s.down n = (s.master.nodes n).outstanding.flatMap (d.wire (s.master.enqueue d.cfg w c session))
    rw [g.down, wires_congr fun σ mem => stays mem]
  · obtain ⟨lt, answers⟩ := g.returned h
    refine ⟨Nat.lt_succ_of_lt lt, ?_⟩
    show d.Answers ((s.master.enqueue d.cfg w c session).sessions σ).session b
    rwa [old lt]

/-- A job that is on the wire is read by a slave as the message it is. -/
lemma received {cut : List Bytes} {rest : List (Option Nat)} {got : Slave.Message} {sock : Async.Socket}
    (carries : d.Carries) (g : Wired d s) (first : (s.master.nodes n).outstanding = job :: rest)
    (stream : cut.flatten = s.down n)
    (read : receiveMessage d.codec (fun _ => false) ⟨cut, .silent⟩ = some (got, sock)) :
    (message s.master job).Received got ∧ sock.segments.flatten = rest.flatMap (d.wire s.master) := by
  have known : ∀ session, message s.master job = .session session →
      Accepted d.asInteger d.maxBodySize session ∧ (Slave.Message.session session).Fits d.codec := by
    intro session is
    cases job with
    | none => cases is
    | some σ =>
      cases is
      obtain ⟨lt, text⟩ := g.sent (n := n) (first ▸ List.mem_cons_self)
      obtain ⟨c, mem⟩ := g.placed lt
      obtain ⟨i, at_i⟩ := List.getElem?_of_mem mem
      have asked := g.asked at_i
      exact ⟨request_accepted asked (serialize_isSome ▸ text), carries c i _ asked⟩
  have fits : (message s.master job).Fits d.codec := by
    cases is : message s.master job with
    | heartbeat => trivial
    | session session => exact (known session is).2
  have accepted := fun session is => (known session is).1
  obtain ⟨wire, sent⟩ := (message s.master job).wire_isSome accepted fits
  have here : d.wire s.master job = wire := by rw [Deployment.wire, sent, Option.getD_some]
  have front : (⟨cut, .silent⟩ : Async.Socket).segments.flatten = wire ++ rest.flatMap (d.wire s.master) := by
    rw [← here, ← List.flatMap_cons, ← first, ← g.down]
    exact stream
  obtain ⟨got', sock', again, same, left⟩ := message_received accepted fits sent front
  rw [read] at again
  cases again
  exact ⟨same, left⟩

/-- A slave has answered. -/
lemma reply {k : Nat} {cut : List Bytes} {got : Slave.Message} {sock : Async.Socket} {frame : Bytes}
    {rest : List (Option Nat)} (carries : d.Carries) (g : Wired d s)
    (first : (s.master.nodes n).outstanding = job :: rest) (stream : cut.flatten = s.down n)
    (read : receiveMessage d.codec (fun _ => false) ⟨cut, .silent⟩ = some (got, sock))
    (framed : sendContent (answer (d.serve k) (d.now k) got) = some frame) :
    Wired d { s with
      master := { s.master with
        nodes := Function.update s.master.nodes n
          { s.master.nodes n with
            outstanding := rest
            inbox := (s.master.nodes n).inbox ++ [(job, answer (d.serve k) (d.now k) got)] }
        returned := s.master.returned ++ (job.map (·, answer (d.serve k) (d.now k) got)).toList }
      down := Function.update s.down n sock.segments.flatten
      up := Function.update s.up n (s.up n ++ frame) } := by
  obtain ⟨same, left⟩ := g.received carries first stream read
  refine ⟨g.input, g.count, g.asked, g.placed, fun {e σ} h => ?_, fun e => ?_, fun {e b} h => ?_, fun e => ?_,
    fun {σ b} h => ?_⟩
  · simp only [Function.update_apply] at h
    split at h
    · rename_i here
      apply g.sent (n := e)
      rw [here, first]
      exact List.mem_cons_of_mem _ h
    · exact g.sent h
  · simp only [Function.update_apply]
    split
    · exact left
    · exact g.down e
  · simp only [Function.update_apply] at h
    split at h
    · rename_i here
      rcases List.mem_append.mp h with old | new
      · exact g.framed (here ▸ old)
      · rw [List.mem_singleton.mp new]
        exact ⟨answer_pos _ _, frame, framed⟩
    · exact g.framed h
  · simp only [Function.update_apply]
    split
    · rename_i here
      rw [List.flatMap_append, g.up n]
      simp only [List.flatMap_cons, List.flatMap_nil, List.append_nil, framed, Option.getD_some]
    · exact g.up e
  · rcases List.mem_append.mp h with old | new
    · exact g.returned old
    · cases job with
      | none => cases new
      | some τ =>
        cases List.mem_singleton.mp new
        refine ⟨(g.sent (n := n) (first ▸ List.mem_cons_self)).1, k, got, same, rfl⟩

/-- What the master reads off the connection of a slave is the first frame that has been returned. -/
lemma head {cut : List Bytes} {tag : Option Nat} {content b : Bytes} {sock : Async.Socket}
    {rest : List (Option Nat × Bytes)} (g : Wired d s) (inbox : (s.master.nodes n).inbox = (tag, b) :: rest)
    (stream : cut.flatten = s.up n)
    (read : receiveContentS (fun _ => false) ⟨cut, .silent⟩ = (.ok content, sock)) :
    content = b ∧ (0 < b.length ∧ (b.length : Int) ≤ httpMaxBodySize) ∧
      sock.segments.flatten = rest.flatMap fun e => (sendContent e.2).getD [] := by
  obtain ⟨pos, frame, framed⟩ := g.framed (n := n) (inbox ▸ List.mem_cons_self)
  have front : (⟨cut, .silent⟩ : Async.Socket).segments.flatten =
      frame ++ rest.flatMap fun e => (sendContent e.2).getD [] := by
    show cut.flatten = _
    rw [stream, g.up, inbox, List.flatMap_cons, framed, Option.getD_some]
  by_cases fits : (b.length : Int) ≤ httpMaxBodySize
  · obtain ⟨sock', -, timed, -, left⟩ := receive_fits framed front ⟨pos, fits⟩
    rw [read] at timed
    cases timed
    exact ⟨rfl, ⟨pos, fits⟩, left⟩
  · obtain ⟨-, sock', refused⟩ := receive_refuses framed front fun h => fits h.2
    rw [read] at refused
    cases refused

/-- Nothing can be read while nothing has been returned. -/
lemma head_exists {cut : List Bytes} {content : Bytes} {sock : Async.Socket} (g : Wired d s)
    (stream : cut.flatten = s.up n)
    (read : receiveContentS (fun _ => false) ⟨cut, .silent⟩ = (.ok content, sock)) :
    ∃ tag b rest, (s.master.nodes n).inbox = (tag, b) :: rest := by
  cases e : (s.master.nodes n).inbox with
  | cons head rest => exact ⟨head.1, head.2, rest, rfl⟩
  | nil =>
    have empty : cut.flatten = [] := by rw [stream, g.up, e, List.flatMap_nil]
    have short : (⟨cut, .silent⟩ : Async.Socket).segments.flatten.length < framingHexSize := by
      show cut.flatten.length < _
      rw [empty]
      decide
    obtain ⟨sock', hr, -⟩ := Async.read_short _ framingHexSize_fits short
    simp only [receiveContentS, hr] at read
    cases read

/-- The master has received a frame. -/
lemma receive {content : Bytes} {sock : Async.Socket} {tag : Option Nat} {b : Bytes}
    {rest : List (Option Nat × Bytes)} (g : Wired d s) (inbox : (s.master.nodes n).inbox = (tag, b) :: rest)
    (left : sock.segments.flatten = rest.flatMap fun e => (sendContent e.2).getD []) :
    Wired d { s with
      master := s.master.receive w n job content
      up := Function.update s.up n sock.segments.flatten } := by
  obtain ⟨returned, channels⟩ := receive_channels s.master w n job content
  have aside : Master.Aside s.master (s.master.receive w n job content) := Master.receive_aside
  refine ⟨fun c => ?_, fun c => ?_, fun {c i σ} h => ?_, fun {σ} h => ?_, fun {e σ} h => ?_, fun e => ?_,
    fun {e b} h => ?_, fun e => ?_, fun {σ b} h => ?_⟩
  · rw [aside.conns]
    exact g.input c
  · rw [aside.conns]
    exact g.count c
  · rw [aside.conns] at h
    rw [aside.session]
    exact g.asked h
  · rw [aside.nextSession] at h
    rw [aside.conns]
    exact g.placed h
  · rw [(channels e).1] at h
    rw [aside.nextSession, aside.session]
    exact g.sent h
  · rw [(channels e).1, wires_congr fun σ _ => aside.session σ]
    exact g.down e
  · rw [(channels e).2] at h
    split at h
    · rename_i here
      exact g.framed (List.mem_of_mem_tail h)
    · exact g.framed h
  · show Function.update s.up n sock.segments.flatten e = _
    rw [(channels e).2, Function.update_apply]
    split
    · rw [inbox]
      exact left
    · exact g.up e
  · rw [returned] at h
    rw [aside.nextSession, aside.session]
    exact g.returned h

/-- Every step is one of the master, and keeps the streams wired. -/
lemma step {e : Event} (carries : d.Carries) (g : Wired d s) (inv : Master.Inv s.master)
    (h : d.next s e = some s') : Wired d s' ∧ ∃ a, s.master.next d.cfg a = some s'.master := by
  cases e with
  | master a =>
    simp only [next] at h
    split at h
    · cases h
    · rename_i out
      obtain ⟨m, st, rfl⟩ := Option.map_eq_some_iff.mp h
      exact ⟨g.carry (outward inv st (by simpa using out)), a, st⟩
  | session w =>
    simp only [next] at h
    split at h
    · rename_i c deadline reading
      split at h
      · cases h
      · rename_i read rest parsed
        obtain ⟨m, st, rfl⟩ := Option.map_eq_some_iff.mp h
        refine ⟨?_, _, st⟩
        -- the read is over, so the session is queued
        simp only [Master.State.next, Master.State.requestStep, reading, Master.readNext, Option.some.injEq] at st
        rw [← st]
        exact g.session inv.order parsed
    · cases h
  | reply n k cut =>
    simp only [next] at h
    split at h
    · rename_i stream
      split at h
      · cases h
      · rename_i got sock read
        split at h
        · cases h
        · rename_i frame framed
          obtain ⟨m, st, rfl⟩ := Option.map_eq_some_iff.mp h
          refine ⟨?_, _, st⟩
          cases Master.next_move st with
          | reply first => exact g.reply carries first stream read framed
    · cases h
  | receive w cut =>
    simp only [next] at h
    split at h
    · rename_i n job deadline receiving
      split at h
      · rename_i stream
        split at h
        · rename_i content sock read
          cases h
          obtain ⟨tag, b, rest, inbox⟩ := g.head_exists stream read
          obtain ⟨rfl, fits, left⟩ := g.head inbox stream read
          refine ⟨g.receive inbox left, .dispatch w .ok, ?_⟩
          simp only [Master.State.next, Master.State.dispatchStep, receiving, inbox]
          rw [if_pos ⟨fits.1, by exact_mod_cast fits.2⟩]
        · cases h
      · cases h
    · cases h

end Wired

end Steps

/-- What holds of every run: the streams are wired, and the master makes a run of its own. -/
lemma wired_reachable {d : Deployment} {s : State} (carries : d.Carries) (run : d.cluster.Reachable s) :
    Wired d s ∧ (Master.master d.cfg).Reachable s.master := by
  refine run.simulate (I := Wired d) State.master ?_ fun s e s' g run st => ?_
  · rintro _ rfl
    exact ⟨.init, rfl⟩
  · exact g.step carries (Master.inv_of_reachable run) st

end Deployment

/-- However the bytes arrive and whatever fails, a run of the cluster is a run of the master: what is true of the
master in every run is true of it in the cluster. -/
theorem cluster_refines (d : Deployment) (carries : d.Carries) (s : State) (run : d.cluster.Reachable s) :
    (Master.master d.cfg).Reachable s.master := (d.wired_reachable carries run).2

/-! ## From the client to the client -/

/-- A response on a connection is for the request in its place. -/
theorem cluster_answers (d : Deployment) (carries : d.Carries) (s : State) (run : d.cluster.Reachable s) (c i σ : Nat)
    (b : Bytes) (written : (s.master.conns c).responses[i]? = some (σ, b)) :
    ∃ request, d.request c i = some request ∧ ∃ keepAlive frame, b = writtenResponse keepAlive frame ∧
      (d.Answers request frame ∨ ∃ code : StateCode, frame = composeResponse code.text) := by
  obtain ⟨g, below⟩ := d.wired_reachable carries run
  obtain ⟨-, -, order, origins⟩ := Master.inv_of_reachable below
  -- the sessions of the responses are the first of the queue, which are the first of the stream
  obtain ⟨more, queue⟩ : (s.master.conns c).responses.map Prod.fst <+: (s.master.conns c).enqueued :=
    (order.ordered c).issued_prefix_enqueued
  have queued : (s.master.conns c).enqueued[i]? = some σ := by
    rw [← queue, List.getElem?_append_left, List.getElem?_map, written, Option.map_some]
    rw [List.length_map]
    exact (List.getElem?_eq_some_iff.mp written).1
  obtain ⟨frame, keepAlive, origin, eq⟩ := origins.sent (List.mem_of_getElem? written)
  refine ⟨_, g.asked queued, keepAlive, frame, eq, ?_⟩
  rcases origin with returned | composed
  · exact .inl (g.returned returned).2
  · exact .inr composed

namespace Deployment

/-- The same deployment without slaves. -/
def single (d : Deployment) (stopped : Nat → Bool) (late : Nat → Nat → Bool) (now : Nat → UtcTime)
    (serve : Session → Served) : Server where
  asInteger := d.asInteger
  maxBodySize := d.maxBodySize
  maxKeepAlive := d.cfg.maxKeepAlive
  stopped := stopped
  late := late
  now := now
  serve _ := serve

section Single
variable {d : Deployment} {stopped : Nat → Bool} {late : Nat → Nat → Bool} {now : Nat → UtcTime}
  {serve : Session → Served}

/-- The exchange `i` of the simple worker is for the request `i` of its stream. -/
lemma simpleWorker_request {c : Nat} (turns : Nat) :
    ∀ {count i : Nat} {sock : Async.Socket} {st : Async.State} {e : Exchange},
      d.behind (d.streams c) count = some (Async.unread sock st) →
      (simpleWorker (d.single stopped late now serve) turns count sock st).1[i]? = some e →
      ∃ request, d.request c (count + i) = some request ∧
        e = (callHttpHandler (now (count + i)) request (serve request)).1 := by
  induction turns with
  | zero =>
    intro count i sock st e _ made
    cases made
  | succ turns ih =>
    intro count i sock st e here made
    rw [simpleWorker] at made
    split at made
    · cases made
    split at made
    · cases made
    · cases made
    rename_i session sock' st' read
    have parsed : d.parse (Async.unread sock st) = some (session, Async.unread sock' st') := by
      have ok := parseRequest_anyhow .silent (readHttpHeader_parses read)
      have same : parseRequest d.asInteger d.maxBodySize .silent (Async.unread sock st) =
        .ok (session, Async.unread sock' st') := ok
      rw [parse, same]
      rfl
    have first : d.request c count = some (Master.State.limited d.cfg (count + 1) session) := by
      simp only [request, here, Option.bind_some, parsed, Option.map_some]
    have answer : ((d.single stopped late now serve).answer count session).1 =
        (callHttpHandler (now count) (Master.State.limited d.cfg (count + 1) session)
          (serve (Master.State.limited d.cfg (count + 1) session))).1 := rfl
    dsimp only at made
    cases i with
    | zero =>
      refine ⟨_, first, ?_⟩
      rw [Nat.add_zero, ← answer]
      split at made
      · exact (Option.some.inj made).symm
      · exact (Option.some.inj made).symm
    | succ i =>
      split at made
      · cases made
      · have next : d.behind (d.streams c) (count + 1) = some (Async.unread sock' st') := by
          simp only [behind, here, Option.bind_some, parsed, Option.map_some]
        have later : count + (i + 1) = count + 1 + i := by omega
        rw [later]
        exact ih next made

/-- An answer to a message is the one to the session it was made for. -/
lemma answer_received {request : Session} {got : Slave.Message} {time : UtcTime} {serves : Session → Served}
    (received : (Slave.Message.session request).Received got)
    (same : ∀ s, got = .session s → serves s = serve request) :
    answer serves time got = (callHttpHandler time request (serve request)).1.response := by
  cases received with
  | session perm =>
    rw [answer, same _ rfl]
    cases serve request with
    | handled code data type => rfl
    | errorHandled code data type => rfl
    | refused code => rfl

end Single
end Deployment

/-- Where the handlers go by the request, the two modes answer alike: if the single process answers the request in
some place of a stream, then what the cluster writes in that place of the same stream is the same response up to
its date and to the rewrite of its Connection header, or an error of the master. -/
theorem cluster_simple_worker (d : Deployment) (carries : d.Carries) (serve : Session → Served)
    (same : ∀ k s got, (Slave.Message.session s).Received (.session got) → d.serve k got = serve s) (s : State)
    (run : d.cluster.Reachable s) (c i σ : Nat) (b : Bytes)
    (written : (s.master.conns c).responses[i]? = some (σ, b)) (stopped : Nat → Bool) (late : Nat → Nat → Bool)
    (now : Nat → UtcTime) (turns : Nat) (sock : Async.Socket) (stream : sock.segments.flatten = d.streams c)
    (e : Exchange)
    (made : (simpleWorker (d.single stopped late now serve) turns 0 sock Async.State.new).1[i]? = some e) :
    ∃ keepAlive, (∃ time, b = writtenResponse keepAlive { e with now := time }.response) ∨
      ∃ code : StateCode, b = writtenResponse keepAlive (composeResponse code.text) := by
  obtain ⟨request, asked, keepAlive, frame, rfl, origin⟩ := cluster_answers d carries s run c i σ b written
  have start : d.behind (d.streams c) 0 = some (Async.unread sock Async.State.new) := by
    rw [← stream]
    rfl
  obtain ⟨request', asked', rfl⟩ := d.simpleWorker_request turns start made
  rw [Nat.zero_add] at asked'
  obtain rfl : request = request' := Option.some.inj (asked.symm.trans asked')
  refine ⟨keepAlive, ?_⟩
  rcases origin with ⟨k, got, received, rfl⟩ | ⟨code, rfl⟩
  · refine .inl ⟨d.now k, ?_⟩
    rw [Deployment.answer_received received fun got' is => same k request got' (is ▸ received)]
    cases serve request with
    | handled code data type => rfl
    | errorHandled code data type => rfl
    | refused code => rfl
  · exact .inr ⟨code, rfl⟩

/-! ## A run -/

/-- One client, which sends one request, to slaves that send its body back. -/
def postDeployment : Deployment where
  cfg := {}
  asInteger := digitsValue
  maxBodySize := 100
  codec := postCodec
  streams c := if c = 0 then postRequest else []
  serve _ := echo
  now _ := epoch

/-- The request is read, sent to the slave, answered and written back. -/
def postEvents : List Event :=
  (Master.opening ++ [Action.request 0 .more, Action.readDone 0 .ok]).map Event.master ++
    [.session 0, .master (.dispatch 0 .ok), .master (.dispatch 0 .ok), .master (.dispatch 0 .ok),
      .reply 0 0 [fixedHex framingHexSize postText.length ++ postText, bytes "hello"],
      .receive 0 [(sendContent (answer echo epoch (.session postSession))).getD []],
      .master .response, .master (.responseDone true), .master .response]

/-- There is no request behind the last one. -/
lemma request_end {d : Deployment} {c k : Nat} {rest : Bytes} (here : d.behind (d.streams c) k = some rest)
    (last : d.parse rest = none) (j : Nat) : d.request c (k + j) = none := by
  have gone : ∀ j, d.behind (d.streams c) (k + 1 + j) = none := by
    intro j
    induction j with
    | zero => simp only [Deployment.behind, here, Option.bind_some, last, Option.map_none]
    | succ j ih => rw [← Nat.add_assoc, Deployment.behind, ih, Option.bind_none]
  cases j with
  | zero => simp only [Deployment.request, Nat.add_zero, here, Option.bind_some, last, Option.map_none]
  | succ j =>
    have later : k + (j + 1) = k + 1 + j := by omega
    rw [Deployment.request, later, gone, Option.bind_none, Option.map_none]

lemma postDeployment_request (c i : Nat) (s : Session) (h : postDeployment.request c i = some s) :
    s = postSession := by
  have empty : postDeployment.parse [] = none := by decide +kernel
  cases c with
  | zero =>
    cases i with
    | zero =>
      have first : postDeployment.request 0 0 = some postSession := by decide +kernel
      exact Option.some.inj (h.symm.trans first)
    | succ i =>
      have here : postDeployment.behind (postDeployment.streams 0) 1 = some [] := by decide +kernel
      rw [Nat.add_comm, request_end here empty] at h
      cases h
  | succ c =>
    have here : postDeployment.behind (postDeployment.streams (c + 1)) 0 = some [] := rfl
    rw [← Nat.zero_add i, request_end here empty] at h
    cases h

lemma postDeployment_carries : postDeployment.Carries := by
  intro c i s h
  obtain rfl := postDeployment_request c i s h
  exact postSession_fits

lemma postDeployment_run :
    ∃ s, postDeployment.cluster.Reachable s ∧
      (s.master.conns 0).responses = [(0, answer echo epoch (.session postSession))] := by
  obtain ⟨s, run, h⟩ := System.Reachable.exists_of_run (S := postDeployment.cluster) (.init rfl) postEvents
    (fun s => decide ((s.master.conns 0).responses = [(0, answer echo epoch (.session postSession))]))
    (by decide +kernel)
  exact ⟨s, run, of_decide_eq_true h⟩

theorem cluster_refines_post :
    ∃ m, (Master.master {}).Reachable m ∧
      (m.conns 0).responses = [(0, answer echo epoch (.session postSession))] := by
  obtain ⟨s, run, responses⟩ := postDeployment_run
  exact ⟨s.master, cluster_refines postDeployment postDeployment_carries s run, responses⟩

theorem cluster_answers_post :
    ∃ request, postDeployment.request 0 0 = some request ∧ ∃ keepAlive frame,
      answer echo epoch (.session postSession) = writtenResponse keepAlive frame ∧
      (postDeployment.Answers request frame ∨ ∃ code : StateCode, frame = composeResponse code.text) := by
  obtain ⟨s, run, responses⟩ := postDeployment_run
  exact cluster_answers postDeployment postDeployment_carries s run 0 0 0 _ (by rw [responses]; rfl)

theorem cluster_simple_worker_post :
    ∃ keepAlive, (∃ time, answer echo epoch (.session postSession) = writtenResponse keepAlive
        { (callHttpHandler epoch postSession (echo postSession)).1 with now := time }.response) ∨
      ∃ code : StateCode, answer echo epoch (.session postSession) =
        writtenResponse keepAlive (composeResponse code.text) := by
  obtain ⟨s, run, responses⟩ := postDeployment_run
  refine cluster_simple_worker postDeployment postDeployment_carries echo (fun _ s got same => ?_) s run 0 0 0 _
    (by rw [responses]; rfl) (fun _ => false) (fun _ _ => false) (fun _ => epoch) 1 ⟨[postRequest], .silent⟩ rfl _ ?_
  · cases same
    rfl
  · decide +kernel

end CovNet.Cluster
