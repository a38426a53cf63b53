import CovNet.Http.Framing
import CovNet.Http.Serialize
import CovNet.Slave.Frames

/-!
# The messages from the master

On the connection of a slave the master sends heartbeats and sessions: a frame each, and behind the frame of a
session with a body the body itself, without a frame. `slave_worker` (`netutils.ecs`) tells from what it reads
how much to read next.

`message_received` is one turn of its loop; `messages_received` is that the loop recovers what was sent,
however the stream is cut. `codec.json` is not part of the repository and enters as a parameter; what is used
of it is that a value that is sent comes back from its text (`JsonCodec.Carries`).
-/

namespace CovNet.Slave
open Lib Text Http Async

/-- The message of a heartbeat. -/
def slaveHealthQuery : Bytes := bytes "SLAVE_HEALTH_QUERY"

/-- `codec.json`: `to_string`, and `from_string`, none where it raises. -/
structure JsonCodec where
  toText : JsonValue → Bytes
  fromText : Bytes → Option JsonValue

/-- A value comes back from its text, and the text is that of an object. -/
structure JsonCodec.Carries (codec : JsonCodec) (v : JsonValue) : Prop where
  back : ∃ v', codec.fromText (codec.toText v) = some v' ∧ v.Same v'
  text : ∃ rest, codec.toText v = '{' :: rest

/-- A message of the master. -/
inductive Message where
  | heartbeat
  | session (s : Session)

/-- The bytes of a message: `send_content`, and `async.write` for a body. None where one of them raises. -/
def Message.wire (codec : JsonCodec) : Message → Option Bytes
  | heartbeat => sendContent slaveHealthQuery
  | session s =>
    match (serialize s).bind fun v => sendContent (codec.toText v) with
    | none => none
    | some frame =>
      match s.contentLength with
      | some n => if 0 < n then s.postData.map (frame ++ ·) else some frame
      | none => some frame

/-- One turn of the loop of `slave_worker` up to the handler: the message, none where the loop is left. `late`
says whether the time is up at the waits of `receive_content_s`, before the one for the body, and at that. -/
def receiveMessage (codec : JsonCodec) (late : Nat → Bool) (sock : Socket) : Option (Message × Socket) :=
  match receiveContentS late sock with
  | (.error _, _) => none
  | (.ok data, sock) =>
    if data = slaveHealthQuery then some (.heartbeat, sock)
    else
      match (codec.fromText data).bind deserialize with
      | none => none
      | some session =>
        match session.contentLength with
        | none => some (.session session, sock)
        | some n =>
          if 0 < n then
            if late 3 then none
            else
              match read sock n.toNat with
              | none => none
              | some (sock, st) =>
                match waitFor (late 4) st with
                | some _ => none
                | none => some (.session { session with postData := some (getResult st).1 }, sock)
          else some (.session session, sock)

/-- The messages of as many turns of the loop as it makes, of these at most, when no time is up. -/
def receiveMessages (codec : JsonCodec) : Nat → Socket → List Message
  | 0, _ => []
  | turns + 1, sock =>
    match receiveMessage codec (fun _ => false) sock with
    | none => []
    | some (message, sock) => message :: receiveMessages codec turns sock

/-! ## What the master sends -/

/-- A session that `read_http_header` has accepted, with a host. The last one a connection may have says
close. -/
def Accepted (asInteger : Bytes → Option Int) (maxBodySize : Int) (s : Session) : Prop :=
  ∃ late sock st read sock' st',
    readHttpHeader asInteger maxBodySize late sock st = .ok (read, sock', st') ∧ read.host.isSome = true ∧
      (s = read ∨ s = { read with connection := bytes "close" })

/-- The codec carries a message, in one frame. -/
def Message.Fits (codec : JsonCodec) : Message → Prop
  | heartbeat => True
  | session s => ∀ v, serialize s = some v →
    codec.Carries v ∧ ((codec.toText v).length : Int) ≤ httpMaxBodySize

/-- A message of the master and what the slave has made of it. -/
inductive Message.Received : Message → Message → Prop
  | heartbeat : Received .heartbeat .heartbeat
  | session {s : Session} {headers : List (Bytes × Bytes)} :
    headers.Perm s.requestHeaders →
    Received (.session s) (.session { s with
      contentLength := s.contentLength.filter (0 < ·)
      requestHeaders := headers })

section Turn
variable {asInteger : Bytes → Option Int} {maxBodySize : Int} {codec : JsonCodec} {s : Session}

/-- What the master relies on in a session. -/
lemma Accepted.spec (h : Accepted asInteger maxBodySize s) :
    s.host.isSome = true ∧ Carried s ∧ (s.requestHeaders.map Prod.fst).Nodup ∧
      ∀ n, s.contentLength = some n → n ≤ httpMaxBodySize := by
  obtain ⟨late, sock, st, session, sock', st', call, host, same⟩ := h
  obtain ⟨header, made, hm, eq, carried⟩ := parseRequest_made (readHttpHeader_parses call)
  have names := createHttpSession_names hm
  have length := fun n (e : made.contentLength = some n) => (createHttpSession_length hm e).2
  rw [eq] at host carried
  rcases same with rfl | rfl
  · rw [eq]
    exact ⟨host, carried, names, length⟩
  · rw [eq]
    exact ⟨host, ⟨carried.present, carried.absent⟩, names, length⟩

/-- The frame of a session is sent. -/
lemma frame_sent {v : JsonValue} (carries : codec.Carries v)
    (small : ((codec.toText v).length : Int) ≤ httpMaxBodySize) :
    ∃ frame, sendContent (codec.toText v) = some frame ∧ 0 < (codec.toText v).length ∧
      codec.toText v ≠ slaveHealthQuery := by
  obtain ⟨rest, text⟩ := carries.text
  have limit : httpMaxBodySize = 67108864 := rfl
  refine ⟨fixedHex framingHexSize (codec.toText v).length ++ codec.toText v, ?_, ?_, ?_⟩
  · unfold sendContent toFixedHex
    rw [if_neg (by omega), if_neg (by omega), Option.map_some, Int.toNat_natCast]
  · rw [text, List.length_cons]
    exact Nat.succ_pos _
  · rw [text]
    intro e
    cases e

/-- Every message is sent. -/
lemma Message.wire_isSome {message : Message}
    (accepted : ∀ s, message = .session s → Accepted asInteger maxBodySize s)
    (fits : message.Fits codec) : ∃ w, message.wire codec = some w := by
  cases message with
  | heartbeat => exact ⟨_, rfl⟩
  | session s =>
    obtain ⟨host, carried, -, -⟩ := (accepted s rfl).spec
    rw [← serialize_isSome] at host
    obtain ⟨v, hv⟩ := Option.isSome_iff_exists.mp host
    obtain ⟨carries, small⟩ := fits v hv
    obtain ⟨frame, sent, -⟩ := frame_sent carries small
    simp only [wire, hv, Option.bind_some, sent]
    split
    · rename_i n length
      split
      · rename_i pos
        obtain ⟨body, has, -⟩ := carried.present n length pos
        exact ⟨frame ++ body, by rw [has, Option.map_some]⟩
      · exact ⟨frame, rfl⟩
    · exact ⟨frame, rfl⟩

/-- Behind the frame of a session comes the body that its length announces. -/
lemma body_sent {frame w : Bytes} (carried : Carried s)
    (sent : (match s.contentLength with
      | some n => if 0 < n then s.postData.map (frame ++ ·) else some frame
      | none => some frame) = some w) :
    ∃ body, w = frame ++ body ∧
      ((∃ n, s.contentLength = some n ∧ 0 < n ∧ s.postData = some body ∧ (body.length : Int) = n) ∨
        (s.contentLength.filter (0 < ·) = none ∧ s.postData = none ∧ body = [])) := by
  cases length : s.contentLength with
  | none =>
    simp only [length] at sent
    cases sent
    refine ⟨[], (List.append_nil _).symm, .inr ⟨rfl, carried.absent fun n e => ?_, rfl⟩⟩
    rw [length] at e
    cases e
  | some n =>
    simp only [length] at sent
    by_cases has : 0 < n
    · obtain ⟨body, eb, lb⟩ := carried.present n length has
      rw [if_pos has, eb, Option.map_some, Option.some.injEq] at sent
      exact ⟨body, sent.symm, .inl ⟨n, rfl, has, eb, lb⟩⟩
    · rw [if_neg has, Option.some.injEq] at sent
      refine ⟨[], by rw [List.append_nil, sent], .inr ⟨?_, carried.absent fun m e => ?_, rfl⟩⟩
      · rw [Option.filter_some, if_neg (by simpa using has)]
      · rw [length] at e
        cases e
        omega

/-- One turn of the loop takes one message from the stream, and no more. -/
lemma message_received {message : Message} {w rest : Bytes} {sock : Socket}
    (accepted : ∀ s, message = .session s → Accepted asInteger maxBodySize s)
    (fits : message.Fits codec) (sent : message.wire codec = some w)
    (stream : sock.segments.flatten = w ++ rest) :
    ∃ got sock', receiveMessage codec (fun _ => false) sock = some (got, sock') ∧
      message.Received got ∧ sock'.segments.flatten = rest := by
  cases message with
  | heartbeat =>
    obtain ⟨sock', -, timed, -, left⟩ := receive_fits sent stream (by decide)
    exact ⟨.heartbeat, sock', by simp only [receiveMessage, timed, if_true], .heartbeat, left⟩
  | session s =>
    obtain ⟨host, carried, nodup, limit⟩ := (accepted s rfl).spec
    rw [← serialize_isSome] at host
    obtain ⟨v, hv⟩ := Option.isSome_iff_exists.mp host
    obtain ⟨carries, small⟩ := fits v hv
    obtain ⟨frame, framed, pos, other⟩ := frame_sent carries small
    obtain ⟨v', back, same⟩ := carries.back
    obtain ⟨headers, read_back, perm⟩ := deserialize_serialize hv same nodup
    simp only [Message.wire, hv, Option.bind_some, framed] at sent
    obtain ⟨body, rfl, body_of⟩ := body_sent carried sent
    rw [List.append_assoc] at stream
    obtain ⟨sock1, -, timed, -, left1⟩ := receive_fits framed stream ⟨pos, small⟩
    have turn : (codec.fromText (codec.toText v)).bind deserialize = some (received s headers) := by
      rw [back, Option.bind_some, read_back]
    -- the body follows the frame only if the length is positive
    rcases body_of with ⟨n, length, has, eb, lb⟩ | ⟨absent, eb, rfl⟩
    · have kept : (received s headers).contentLength = some n := by
        show s.contentLength.filter (0 < ·) = some n
        rw [length, Option.filter_some, if_pos (decide_eq_true has)]
      have size : 0 < n.toNat ∧ n.toNat ≤ maxIoBufferSize := by
        have bound := limit n length
        have eq : httpMaxBodySize = maxIoBufferSize := rfl
        omega
      have enough : n.toNat ≤ sock1.segments.flatten.length := by
        rw [left1, List.length_append]
        omega
      have exact : body.length = n.toNat := by omega
      obtain ⟨sock2, st2, r2, done2, ec2, -, got2, -, left2⟩ := read_enough sock1 size enough
      rw [left1, List.take_left' exact] at got2
      rw [left1, List.drop_left' exact] at left2
      refine ⟨.session { received s headers with postData := some body }, sock2, ?_, ?_, left2⟩
      · simp only [receiveMessage, timed, if_neg other, turn, kept, if_pos has, Bool.false_eq_true, if_false,
          r2, waitFor, done2, ec2, Bool.not_true, Bool.or_self, Option.isSome_none, got2]
      · have eq : { received s headers with postData := some body } =
            ({ s with
              contentLength := s.contentLength.filter (0 < ·)
              requestHeaders := headers } : Session) := by
          rw [← eb]
          rfl
        rw [eq]
        exact .session perm
    · have kept : (received s headers).contentLength = none := absent
      refine ⟨.session (received s headers), sock1, ?_, ?_, left1⟩
      · simp only [receiveMessage, timed, if_neg other, turn, kept]
      · have eq : received s headers =
            ({ s with
              contentLength := s.contentLength.filter (0 < ·)
              requestHeaders := headers } : Session) := by
          unfold received
          rw [← eb]
        rw [eq]
        exact .session perm

/-- At the end of what was sent the loop waits or is left. -/
lemma receiveMessage_end {sock : Socket} (stream : sock.segments.flatten = []) :
    receiveMessage codec (fun _ => false) sock = none := by
  have short : sock.segments.flatten.length < framingHexSize := by
    rw [stream]
    decide
  obtain ⟨sock', hr, -⟩ := read_short sock framingHexSize_fits short
  simp only [receiveMessage, receiveContentS, hr]
  cases sock.ending <;> rfl

end Turn

/-- Whatever the master sends on the connection of a slave, heartbeats and sessions it has accepted, is
written, and the loop of the slave recovers it in its order, wherever the stream is cut: the heartbeats as
heartbeats, and the sessions with all their fields, only a length of 0 being absent. -/
theorem messages_received (asInteger : Bytes → Option Int) (maxBodySize : Int) (codec : JsonCodec)
    (messages : List Message)
    (accepted : ∀ s, .session s ∈ messages → Accepted asInteger maxBodySize s)
    (fits : ∀ message ∈ messages, message.Fits codec) :
    ∃ wires, messages.mapM (Message.wire codec) = some wires ∧
      ∀ sock : Socket, sock.segments.flatten = wires.flatten → ∀ turns, messages.length ≤ turns →
        List.Forall₂ Message.Received messages (receiveMessages codec turns sock) := by
  induction messages with
  | nil =>
    refine ⟨[], rfl, fun sock stream turns _ => ?_⟩
    cases turns with
    | zero => exact .nil
    | succ turns =>
      simp only [receiveMessages, receiveMessage_end stream]
      exact .nil
  | cons message messages ih =>
    rw [List.forall_mem_cons] at fits
    have mine : ∀ s, message = .session s → Accepted asInteger maxBodySize s := by
      rintro s rfl
      exact accepted s List.mem_cons_self
    obtain ⟨w, sent⟩ := message.wire_isSome mine fits.1
    obtain ⟨wires, all, rest⟩ := ih (fun s mem => accepted s (List.mem_cons_of_mem _ mem)) fits.2
    refine ⟨w :: wires, by rw [List.mapM_cons, sent, all]; rfl, fun sock stream turns enough => ?_⟩
    obtain ⟨turns, rfl⟩ : ∃ k, turns = k + 1 := ⟨turns - 1, by simp at enough; omega⟩
    -- one turn leaves the stream at the next message
    obtain ⟨got, sock', turn, same, left⟩ := message_received mine fits.1 sent stream
    simp only [receiveMessages, turn]
    exact .cons same (rest sock' left turns (Nat.le_of_succ_le_succ enough))

/-- A request with a body, its session, and the text of that. -/
def postRequest : Bytes := bytes
  "POST /a?k=v HTTP/1.1\r\nHost: h\r\nContent-Length: 5\r\nAccept: */*\r\n\r\nhello"

def postSession : Session :=
  ⟨bytes "/a", bytes "k=v", some (bytes "h"), bytes "POST", bytes "1.1", bytes "keep-alive",
    some (bytes "hello"), some 5, [(bytes "accept", bytes "*/*")]⟩

def postText : Bytes := bytes <|
  "\x7b\"url\":\"/a\",\"args\":\"k=v\",\"host\":\"h\",\"method\":\"POST\",\"version\":\"1.1\"," ++
  "\"connection\":\"keep-alive\",\"content_length\":5,\"request_headers\":\x7b\"accept\":\"*/*\"\x7d\x7d"

/-- A codec that knows this text. -/
def postCodec : JsonCodec := ⟨fun _ => postText, fun _ => serialize postSession⟩

theorem messages_received_post :
    ∃ wires, [Message.heartbeat, .session postSession, .heartbeat].mapM (Message.wire postCodec) = some wires ∧
      ∀ sock : Socket, sock.segments.flatten = wires.flatten → ∀ turns, 3 ≤ turns →
        List.Forall₂ Message.Received [.heartbeat, .session postSession, .heartbeat]
          (receiveMessages postCodec turns sock) := by
  refine messages_received someInteger 100 postCodec _ ?_ ?_
  · intro s mem
    obtain rfl : s = postSession := by simpa using mem
    refine ⟨fun _ => false, ⟨[postRequest], .silent⟩, State.new, postSession, ⟨[], .silent⟩,
      ⟨true, true, 0, [], none⟩, ?_, rfl, .inl rfl⟩
    decide +kernel
  · intro message mem
    have known : message = .heartbeat ∨ message = .session postSession ∨ message = .heartbeat := by
      simpa using mem
    rcases known with rfl | rfl | rfl
    · trivial
    · intro v hv
      have brace : postText = '{' :: postText.tail := by decide +kernel
      have small : (postText.length : Int) ≤ httpMaxBodySize := by decide +kernel
      have text : postCodec.toText v = postText := by rw [postCodec]
      have carries : postCodec.Carries v :=
        { back := ⟨v, hv, JsonValue.Same.refl v⟩
          text := ⟨postText.tail, by rw [text]; exact brace⟩ }
      exact ⟨carries, by rw [text]; exact small⟩
    · trivial

end CovNet.Slave
