import CovNet.Http.Serving
import CovNet.Slave.Messages

/-!
# The conversation of master and slave

A connection of a slave begins with a handshake: `master_spawn_worker` sends its version and a rank,
`slave_worker` checks the version, takes the rank and sends both back, and the master compares
(`netutils.ecs`). Then the slave answers every message with one frame, and the master reads a frame for every
message it has sent.

`conversation_agreed` is about the two byte streams of one connection as a whole, however they are cut. Both
ends have one rank, nothing of the handshake is left in front of the messages, and the frames come back one for
one in the order of the messages. So a slave may be taken for two queues of messages and frames, as
`CovNet.Master.Model` does.
-/

namespace CovNet.Slave
open Lib Text Http Async

/-! ## The handshake -/

/-- `{..}.join(" ")`. -/
def join (words : List Bytes) : Bytes := [' '].intercalate words

/-- The greeting of `master_spawn_worker`. -/
def serverGreeting (version : Bytes) (rank : Nat) : Bytes := join [bytes "SERVER", version, decimal rank]

/-- What becomes of the handshake in `slave_worker`: the connection is given up, the call does not return or
raises, or the rank is taken and the frame is written. -/
inductive Handshake where
  | refused
  | hangs
  | raised
  | accepted (rank : Int) (frame : Bytes) (sock : Socket)

/-- The handshake of `slave_worker`. -/
def workerHandshake (asInteger : Bytes → Option Int) (version : Bytes) (sock : Socket) : Handshake :=
  match receiveContent sock with
  | none => .hangs
  | some (none, _) => .refused
  | some (some handshakeData, sock) =>
    match split ' ' handshakeData with
    | [name, theirs, rank] =>
      if name ≠ bytes "SERVER" ∨ theirs ≠ version then .refused
      else
        match asInteger rank with
        | none => .raised
        | some n =>
          match sendContent (join [bytes "WORKER", version, rank]) with
          | none => .raised
          | some frame => .accepted n frame sock
    | _ => .refused

/-- The answer is waited for in `master_spawn_worker`: none where the connection is given up. -/
def spawnHandshake (version : Bytes) (rank : Nat) (late : Nat → Bool) (sock : Socket) : Option Socket :=
  match receiveContentS late sock with
  | (.error _, _) => none
  | (.ok response, sock) =>
    if split ' ' response = [bytes "WORKER", version, decimal rank] then some sock else none

/-! ## The messages -/

/-- The answer to a heartbeat. -/
def slaveHealthConfirm : Bytes := bytes "SLAVE_HEALTH_CONFIRM"

/-- What `slave_worker` sends for a message. `serve` is what `call_http_handler` comes to. -/
def answer (serve : Session → Served) (now : UtcTime) : Message → Bytes
  | .heartbeat => slaveHealthConfirm
  | .session s => (callHttpHandler now s (serve s)).1.response

/-- The message loop of `slave_worker`, of these many turns at most: the messages, with the frames that are
written for them. -/
def messageLoop (codec : JsonCodec) (serve : Session → Served) (now : Nat → UtcTime) :
    Nat → Nat → Socket → List (Message × Bytes)
  | 0, _, _ => []
  | turns + 1, count, sock =>
    match receiveMessage codec (fun _ => false) sock with
    | none => []
    | some (message, sock) =>
      match sendContent (answer serve (now count) message) with
      | none => []
      | some frame => (message, frame) :: messageLoop codec serve now turns (count + 1) sock

/-- The contents of so many calls of `receive_content_s`, up to the first that fails. -/
def receiveContents : Nat → Socket → List Bytes
  | 0, _ => []
  | calls + 1, sock =>
    match receiveContentS (fun _ => false) sock with
    | (.error _, _) => []
    | (.ok content, sock) => content :: receiveContents calls sock

/-! ## Words -/

/-- A text that `split` does not take apart. -/
def IsWord (s : Bytes) : Prop := s ≠ [] ∧ ' ' ∉ s

instance (s : Bytes) : Decidable (IsWord s) := inferInstanceAs (Decidable (_ ∧ _))

lemma split_join {words : List Bytes} (h : ∀ w ∈ words, IsWord w) : split ' ' (join words) = words := by
  unfold split join
  rw [pieces_intercalate fun w mem => (h w mem).2]
  apply List.filter_eq_self.mpr
  intro w mem
  simpa using (h w mem).1

lemma isWord_decimal (n : Nat) : IsWord (decimal n) := by
  constructor
  · exact Nat.toDigits_ne_nil
  · intro mem
    have digit := isDigit_decimal mem
    cases digit

section Conversation
variable {asInteger : Bytes → Option Int} {maxBodySize : Int} {codec : JsonCodec} {serve : Session → Served}
  {now : Nat → UtcTime} {version own frame rest content : Bytes} {rank : Nat} {sock : Socket}

/-- A content of an acceptable size is framed. -/
lemma sendContent_some (small : (content.length : Int) ≤ httpMaxBodySize) :
    ∃ frame, sendContent content = some frame := by
  have limit : httpMaxBodySize = 67108864 := rfl
  unfold sendContent toFixedHex
  rw [if_neg (by omega), if_neg (by omega)]
  exact ⟨_, rfl⟩

/-- The greeting is taken by a slave of the same version, and by no other. -/
lemma workerHandshake_greeting (own : Bytes) (digits : ∀ n : Nat, asInteger (decimal n) = some (n : Int))
    (word : IsWord version)
    (fits : ((serverGreeting version rank).length : Int) ≤ httpMaxBodySize)
    (sent : sendContent (serverGreeting version rank) = some frame) (stream : sock.segments.flatten = frame ++ rest) :
    (version ≠ own → workerHandshake asInteger own sock = .refused) ∧
      (version = own → ∃ reply sock', sendContent (join [bytes "WORKER", version, decimal rank]) = some reply ∧
        workerHandshake asInteger own sock = .accepted rank reply sock' ∧ sock'.segments.flatten = rest) := by
  have pos : 0 < (serverGreeting version rank).length := by
    simp [serverGreeting, join, bytes]
  obtain ⟨sock', plain, -, -, left⟩ := receive_fits sent stream ⟨pos, fits⟩
  have words : split ' ' (serverGreeting version rank) = [bytes "SERVER", version, decimal rank] := by
    apply split_join
    simp only [List.forall_mem_cons]
    exact ⟨by decide, word, isWord_decimal rank, List.forall_mem_nil _⟩
  refine ⟨fun other => ?_, fun same => ?_⟩
  · rw [workerHandshake, plain]
    dsimp only
    rw [words]
    dsimp only
    rw [if_pos (.inr other)]
  · subst same
    -- the answer is as long as the greeting
    have short : ((join [bytes "WORKER", version, decimal rank]).length : Int) ≤ httpMaxBodySize := by
      have len : (join [bytes "WORKER", version, decimal rank]).length = (serverGreeting version rank).length := by
        simp [serverGreeting, join, bytes]
      rwa [len]
    obtain ⟨reply, answered⟩ := sendContent_some short
    refine ⟨reply, sock', answered, ?_, left⟩
    rw [workerHandshake, plain]
    dsimp only
    rw [words]
    dsimp only
    rw [if_neg (by simp), digits]
    dsimp only
    rw [answered]

/-- The answer of such a slave is taken by the master. -/
lemma spawnHandshake_answer (word : IsWord version)
    (fits : ((join [bytes "WORKER", version, decimal rank]).length : Int) ≤ httpMaxBodySize)
    (sent : sendContent (join [bytes "WORKER", version, decimal rank]) = some frame)
    (stream : sock.segments.flatten = frame ++ rest) :
    ∃ sock', spawnHandshake version rank (fun _ => false) sock = some sock' ∧ sock'.segments.flatten = rest := by
  have pos : 0 < (join [bytes "WORKER", version, decimal rank]).length := by
    simp [join, bytes]
  obtain ⟨sock', -, timed, -, left⟩ := receive_fits sent stream ⟨pos, fits⟩
  have words : split ' ' (join [bytes "WORKER", version, decimal rank]) =
      [bytes "WORKER", version, decimal rank] := by
    apply split_join
    simp only [List.forall_mem_cons]
    exact ⟨by decide, word, isWord_decimal rank, List.forall_mem_nil _⟩
  refine ⟨sock', ?_, left⟩
  rw [spawnHandshake, timed]
  exact if_pos words

/-- No answer is empty. -/
lemma answer_pos (now : UtcTime) (message : Message) : 0 < (answer serve now message).length := by
  cases message with
  | heartbeat => show 0 < slaveHealthConfirm.length; decide
  | session s =>
    have name : (bytes "HTTP/").length = 5 := rfl
    simp only [answer, Exchange.response, sendResponse, List.length_append]
    omega

/-- The loop takes the messages one after the other, and writes a frame for each. -/
lemma messageLoop_spec (now : Nat → UtcTime) {messages : List Message}
    (accepted : ∀ s, .session s ∈ messages → Accepted asInteger maxBodySize s)
    (fits : ∀ message ∈ messages, message.Fits codec)
    (small : ∀ message ∈ messages, ∀ got, message.Received got → ∀ count,
      ((answer serve (now count) got).length : Int) ≤ httpMaxBodySize) :
    ∃ wires, messages.mapM (Message.wire codec) = some wires ∧
      ∀ sock : Socket, sock.segments.flatten = wires.flatten → ∀ turns, messages.length ≤ turns → ∀ count,
        List.Forall₂ Message.Received messages ((messageLoop codec serve now turns count sock).map Prod.fst) ∧
        ∀ up : Socket, up.segments.flatten = ((messageLoop codec serve now turns count sock).map Prod.snd).flatten →
          receiveContents messages.length up =
            ((messageLoop codec serve now turns count sock).map Prod.fst).mapIdx
              fun i message => answer serve (now (count + i)) message := by
  induction messages with
  | nil =>
    refine ⟨[], rfl, fun sock stream turns _ count => ?_⟩
    have none : messageLoop codec serve now turns count sock = [] := by
      cases turns with
      | zero => rfl
      | succ turns => simp only [messageLoop, receiveMessage_end stream]
    rw [none]
    exact ⟨.nil, fun _ _ => rfl⟩
  | cons message messages ih =>
    rw [List.forall_mem_cons] at fits small
    have mine : ∀ s, message = .session s → Accepted asInteger maxBodySize s := by
      rintro s rfl
      exact accepted s List.mem_cons_self
    obtain ⟨w, sent⟩ := message.wire_isSome mine fits.1
    obtain ⟨wires, all, rest⟩ := ih (fun s mem => accepted s (List.mem_cons_of_mem _ mem)) fits.2 small.2
    refine ⟨w :: wires, by rw [List.mapM_cons, sent, all]; rfl, fun sock stream turns enough count => ?_⟩
    cases turns with
    | zero => cases enough
    | succ turns =>
      obtain ⟨got, sock', turn, same, left⟩ := message_received mine fits.1 sent stream
      have short := small.1 got same count
      obtain ⟨frame, framed⟩ := sendContent_some short
      obtain ⟨received, read⟩ := rest sock' left turns (Nat.le_of_succ_le_succ enough) (count + 1)
      have loop : messageLoop codec serve now (turns + 1) count sock =
          (got, frame) :: messageLoop codec serve now turns (count + 1) sock' := by
        simp only [messageLoop, turn, framed]
      rw [loop]
      refine ⟨.cons same received, fun up back => ?_⟩
      -- the first frame is read, and the rest is that of the rest
      obtain ⟨up', -, timed, -, behind⟩ := receive_fits framed back ⟨answer_pos _ _, short⟩
      simp only [List.length_cons, receiveContents, timed, read up' behind, List.map_cons, List.mapIdx_cons,
        Nat.add_zero, Nat.add_assoc, Nat.add_comm 1]

end Conversation

/-- Whatever the master greets a slave with and sends to it afterwards is written, and however the two streams of
the connection are cut: a slave of another version gives the connection up. A slave of the same version takes the
rank and then the messages, in their order, and writes one frame for each. The master takes the answer to its
greeting, and the next calls of `receive_content_s` return what the handlers have answered, message by message. -/
theorem conversation_agreed (asInteger : Bytes → Option Int)
    (digits : ∀ n : Nat, asInteger (decimal n) = some (n : Int)) (maxBodySize : Int) (codec : JsonCodec)
    (serve : Session → Served) (now : Nat → UtcTime) (version own : Bytes) (word : IsWord version) (rank : Nat)
    (short : ((serverGreeting version rank).length : Int) ≤ httpMaxBodySize) (messages : List Message)
    (accepted : ∀ s, .session s ∈ messages → Accepted asInteger maxBodySize s)
    (fits : ∀ message ∈ messages, message.Fits codec)
    (small : ∀ message ∈ messages, ∀ got, message.Received got → ∀ count,
      ((answer serve (now count) got).length : Int) ≤ httpMaxBodySize) :
    ∃ greeting wires, sendContent (serverGreeting version rank) = some greeting ∧
      messages.mapM (Message.wire codec) = some wires ∧
      ∀ down : Socket, down.segments.flatten = greeting ++ wires.flatten →
        (version ≠ own → workerHandshake asInteger own down = .refused) ∧
        (version = own → ∃ reply down', workerHandshake asInteger own down = .accepted rank reply down' ∧
          ∀ turns, messages.length ≤ turns →
            List.Forall₂ Message.Received messages ((messageLoop codec serve now turns 0 down').map Prod.fst) ∧
            ∀ up : Socket,
              up.segments.flatten = reply ++ ((messageLoop codec serve now turns 0 down').map Prod.snd).flatten →
              ∃ up', spawnHandshake version rank (fun _ => false) up = some up' ∧
                receiveContents messages.length up' =
                  ((messageLoop codec serve now turns 0 down').map Prod.fst).mapIdx
                    fun i message => answer serve (now i) message) := by
  obtain ⟨greeting, greeted⟩ := sendContent_some short
  obtain ⟨wires, written, loop⟩ := messageLoop_spec now accepted fits small
  refine ⟨greeting, wires, greeted, written, fun down stream => ?_⟩
  obtain ⟨other, same⟩ := workerHandshake_greeting own digits word short greeted stream
  refine ⟨other, fun eq => ?_⟩
  obtain ⟨reply, down', answered, taken, left⟩ := same eq
  refine ⟨reply, down', taken, fun turns enough => ?_⟩
  obtain ⟨received, read⟩ := loop down' left turns enough 0
  refine ⟨received, fun up back => ?_⟩
  have len : (join [bytes "WORKER", version, decimal rank]).length = (serverGreeting version rank).length := by
    simp [serverGreeting, join, bytes]
  obtain ⟨up', spawned, behind⟩ := spawnHandshake_answer word (len ▸ short) answered back
  refine ⟨up', spawned, ?_⟩
  rw [read up' behind]
  simp only [Nat.zero_add]

/-- A handler that sends the body back. -/
def echo (s : Session) : Served := .handled StateCode.code200.text (s.postData.getD []) (bytes "text/plain")

def digitsValue (s : Bytes) : Option Int := (decimalValue s).map Int.ofNat

lemma postSession_fits : (Message.session postSession).Fits postCodec := by
  intro v hv
  have brace : postText = '{' :: postText.tail := by decide +kernel
  have small : (postText.length : Int) ≤ httpMaxBodySize := by decide +kernel
  have text : postCodec.toText v = postText := by rw [postCodec]
  have carries : postCodec.Carries v :=
    { back := ⟨v, hv, JsonValue.Same.refl v⟩
      text := ⟨postText.tail, by rw [text]; exact brace⟩ }
  exact ⟨carries, by rw [text]; exact small⟩

theorem conversation_agreed_post :
    ∃ greeting wires, sendContent (serverGreeting (bytes "1.0") 3) = some greeting ∧
      [Message.heartbeat, .session postSession].mapM (Message.wire postCodec) = some wires ∧
      ∀ down : Socket, down.segments.flatten = greeting ++ wires.flatten →
        (bytes "1.0" ≠ bytes "1.0" → workerHandshake digitsValue (bytes "1.0") down = .refused) ∧
        (bytes "1.0" = bytes "1.0" → ∃ reply down',
          workerHandshake digitsValue (bytes "1.0") down = .accepted (3 : Nat) reply down' ∧
          ∀ turns, 2 ≤ turns →
            List.Forall₂ Message.Received [.heartbeat, .session postSession]
              ((messageLoop postCodec echo (fun _ => epoch) turns 0 down').map Prod.fst) ∧
            ∀ up : Socket,
              up.segments.flatten =
                reply ++ ((messageLoop postCodec echo (fun _ => epoch) turns 0 down').map Prod.snd).flatten →
              ∃ up', spawnHandshake (bytes "1.0") 3 (fun _ => false) up = some up' ∧
                receiveContents 2 up' =
                  ((messageLoop postCodec echo (fun _ => epoch) turns 0 down').map Prod.fst).mapIdx
                    fun _ message => answer echo epoch message) := by
  refine conversation_agreed digitsValue ?_ 100 postCodec echo (fun _ => epoch) (bytes "1.0") (bytes "1.0")
    (by decide) 3 (by decide +kernel) _ ?_ ?_ ?_
  · intro n
    rw [digitsValue, decimalValue_decimal]
    rfl
  · intro s mem
    obtain rfl : s = postSession := by simpa using mem
    refine ⟨fun _ => false, ⟨[postRequest], .silent⟩, State.new, postSession, ⟨[], .silent⟩,
      ⟨true, true, 0, [], none⟩, ?_, rfl, .inl rfl⟩
    decide +kernel
  · simp only [List.forall_mem_cons]
    exact ⟨trivial, postSession_fits, nofun⟩
  · simp only [List.forall_mem_cons]
    refine ⟨fun got same count => ?_, fun got same count => ?_, nofun⟩
    · cases same
      decide +kernel
    · cases same with
      | session perm =>
        obtain rfl := List.perm_singleton.mp perm
        decide +kernel

end CovNet.Slave
