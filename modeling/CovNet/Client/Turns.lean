import CovNet.Client.Buffering
import CovNet.Client.Endless

/-!
# The bounded loops of the client

`CovNet.Client.Response` gives every loop of the reading phase a number of turns, `CovNet.Client.Endless` has
the loops without. On a socket they end in the same way (`start_endsWith`): the turns are never used up.
-/

namespace CovNet.Client
open Lib Text Async Http

/-- A socket completes its operations. -/
def socketPeer : Peer Socket where
  readUntil sock delim :=
    let (sock, st) := readUntil sock State.new delim
    match completed st with
    | .error _ => (.failed [], sock)
    | .ok () =>
      let (chunk, st) := getResult st
      match if 0 < st.buffer.length then getBuffer st st.buffer.length else some ([], st) with
      | none => (.threw, sock)
      | some (extra, _) => (.ok chunk extra, sock)
  read sock n :=
    match read sock n with
    | none => (.threw, sock)
    | some (sock, st) =>
      match completed st with
      | .error _ => (.failed (if st.hasDone then (getResult st).1 else []), sock)
      | .ok () => (.ok (getResult st).1 [], sock)

/-! ## The operations in terms of their completions -/

section Operations
variable {delim : Bytes} {maxSize : Nat} {c : HttpClient} {sock sock' : Socket} {out bodyBuf : Bytes}

lemma readUntilLimited_completion (turns : Nat) (no : find delim c.pending = none) :
    readUntilLimited delim maxSize (turns + 1) c =
      match socketPeer.readUntil c.sock delim with
      | (.ok chunk extra, sock) =>
        if chunk.isEmpty then none
        else if (c.pending ++ chunk ++ extra).length > maxSize then none
        else readUntilLimited delim maxSize turns ⟨c.pending ++ chunk ++ extra, sock⟩
      | _ => none := by
  rw [readUntilLimited]
  simp only [no, socketPeer]
  rcases readUntil c.sock State.new delim with ⟨sock, st⟩
  dsimp only
  cases completed st with
  | error stop => rfl
  | ok done =>
    dsimp only
    cases (if 0 < (getResult st).2.buffer.length then
      getBuffer (getResult st).2 (getResult st).2.buffer.length else some ([], (getResult st).2)) with
    | none => exact ite_self none
    | some besides => rfl

/-- What is read ends with the delimiter. -/
lemma socketPeer_readUntil_occ {chunk extra : Bytes}
    (h : socketPeer.readUntil sock delim = (.ok chunk extra, sock')) : delim <:+: chunk := by
  rcases op : readUntil sock State.new delim with ⟨sock'', st⟩
  simp only [socketPeer, op] at h
  cases done : completed st with
  | error stop =>
    rw [done] at h
    cases h
  | ok _ =>
    rw [done] at h
    dsimp only at h
    split at h
    · cases h
    · cases h
      exact readUntil_occ op done

lemma readSteps_completion (turns need : Nat) :
    readSteps (turns + 1) need out sock =
      if need = 0 then some (out, sock)
      else
        match socketPeer.read sock (min need httpClientReadChunk) with
        | (.ok chunk _, sock) =>
          if chunk.isEmpty then none else readSteps turns (need - chunk.length) (out ++ chunk) sock
        | _ => none := by
  rw [readSteps]
  split
  · rfl
  · simp only [socketPeer]
    cases read sock (min need httpClientReadChunk) with
    | none => rfl
    | some result =>
      obtain ⟨sock', st⟩ := result
      dsimp only
      cases completed st <;> rfl

/-- What is read has the size asked for, and is taken off the stream. -/
lemma socketPeer_read_ok {n : Nat} {chunk extra : Bytes} (h : socketPeer.read sock n = (.ok chunk extra, sock')) :
    chunk.length = n ∧ sock'.segments.flatten.length < sock.segments.flatten.length := by
  simp only [socketPeer] at h
  by_cases size : 0 < n ∧ n ≤ maxIoBufferSize
  · by_cases enough : n ≤ sock.segments.flatten.length
    · obtain ⟨sock'', st, op, done, ec, -, got, -, rest⟩ := read_enough sock size enough
      rw [op] at h
      simp only [completed_done done ec] at h
      cases h
      rw [got, rest, List.length_take, List.length_drop]
      omega
    · obtain ⟨sock'', op, -⟩ := read_short sock size (not_le.mp enough)
      rw [op] at h
      simp only [completed_complete] at h
      cases h
  · simp only [Async.read, if_neg size] at h
    cases h

lemma readToEnd_completion (turns : Nat) :
    readToEnd (turns + 1) bodyBuf sock =
      match socketPeer.read sock httpClientReadChunk with
      | (.threw, _) => none
      | (.failed received, sock) => some (bodyBuf ++ received, sock)
      | (.ok chunk _, sock) =>
        if chunk.isEmpty then some (bodyBuf, sock)
        else if (bodyBuf.length : Int) > httpMaxBodySize - chunk.length then none
        else readToEnd turns (bodyBuf ++ chunk) sock := by
  rw [readToEnd]
  simp only [socketPeer]
  cases read sock httpClientReadChunk with
  | none => rfl
  | some result =>
    obtain ⟨sock', st⟩ := result
    dsimp only
    cases completed st <;> rfl

end Operations

/-- How a program ends. -/
def outcome {α : Type} : Option (Script α) → Script α
  | none => .error .null
  | some result => result

namespace Reader
variable {asInteger : Bytes → Option Int} {method : Bytes}

/-- The request ends with this result after some turns. -/
def EndsWith (asInteger : Bytes → Option Int) (method : Bytes) (s : Reader Socket) (result : Script Response) :
    Prop :=
  ∃ n, ((step asInteger method socketPeer)^[n] s).point = .done result

/-- The client at a point of the request. -/
abbrev client (s : Reader Socket) : HttpClient := ⟨s.pending, s.peer⟩

section Ends
variable {s s' : Reader Socket} {result : Script Response}

lemma EndsWith.of_done (h : s.point = .done result) : EndsWith asInteger method s result := ⟨0, h⟩

lemma EndsWith.of_step (e : s.step asInteger method socketPeer = s') (h : EndsWith asInteger method s' result) :
    EndsWith asInteger method s result := by
  obtain ⟨n, ends⟩ := h
  exact ⟨n + 1, by rw [Function.iterate_succ_apply, e]; exact ends⟩

lemma endsWith_null : EndsWith asInteger method s.null (.error .null) := .of_done rfl

end Ends

section Loops
variable {s : Reader Socket} {mark : Mark} {next : Bytes → Reader Socket → Reader Socket}
  {k : Bytes → Reading (Script Response)}

/-- A search that finds the delimiter in `pending`. -/
lemma endsWith_search_pending {pos : Nat} (turns : Nat)
    (at_ : s.step asInteger method socketPeer = s.search socketPeer mark next)
    (hk : ∀ x s', mark.delim.length ≤ x.length →
      EndsWith asInteger method (next x s') (outcome ((k x).run s'.client)))
    (found : find mark.delim s.pending = some pos) :
    EndsWith asInteger method s (match readUntilLimited mark.delim mark.max (turns + 1) s.client with
      | none => .error .null
      | some (x, c) => outcome ((k x).run c)) := by
  refine .of_step at_ ?_
  simp only [search, readUntilLimited, found]
  split
  · exact endsWith_null
  · have le := find_le found
    refine hk _ _ ?_
    rw [List.length_take]
    omega

/-- A search, with what follows it. -/
lemma endsWith_search
    (at_ : ∀ s' : Reader Socket, s'.point = s.point →
      s'.step asInteger method socketPeer = s'.search socketPeer mark next)
    (hk : ∀ x s', mark.delim.length ≤ x.length →
      EndsWith asInteger method (next x s') (outcome ((k x).run s'.client))) :
    EndsWith asInteger method s (outcome ((Reading.search mark k).run s.client)) := by
  have value : outcome ((Reading.search mark k).run s.client) =
      match readUntilLimited mark.delim mark.max 2 s.client with
      | none => .error .null
      | some (x, c) => outcome ((k x).run c) := by
    rw [Reading.run]
    cases readUntilLimited mark.delim mark.max 2 s.client <;> rfl
  rw [value]
  cases found : find mark.delim s.pending with
  | some pos => exact endsWith_search_pending 1 (at_ s rfl) hk found
  | none =>
    refine .of_step (at_ s rfl) ?_
    rw [readUntilLimited_completion 1 found]
    rcases op : socketPeer.readUntil s.peer mark.delim with ⟨completion, sock⟩
    simp only [search, found, op]
    cases completion with
    | threw => exact endsWith_null
    | failed received => exact endsWith_null
    | ok chunk extra =>
      dsimp only
      by_cases empty : chunk.isEmpty = true
      · rw [if_pos empty, if_pos empty]
        exact endsWith_null
      · rw [if_neg empty, if_neg empty]
        by_cases long : (s.pending ++ chunk ++ extra).length > mark.max
        · rw [if_pos long, if_pos long]
          exact endsWith_null
        · rw [if_neg long, if_neg long]
          -- the next turn finds the delimiter in what this one has read
          have occ : mark.delim <:+: s.pending ++ chunk ++ extra :=
            (socketPeer_readUntil_occ op).trans ((List.suffix_append _ _).isInfix.trans
              (List.prefix_append _ _).isInfix)
          obtain ⟨pos, found'⟩ := Option.isSome_iff_exists.mp (find_isSome.mpr occ)
          exact endsWith_search_pending (s := ⟨s.point, s.pending ++ chunk ++ extra, sock, _⟩) 0
            (at_ _ rfl) hk found'

/-- The loop of `read_exact`, with what follows it. -/
lemma endsWith_exact {at_ : Nat → Bytes → Point} {total turns need : Nat} {out : Bytes} (enough : need < turns)
    (sum : out.length + need = total) (here : s.point = at_ need out)
    (loop : ∀ need out (s' : Reader Socket), s'.point = at_ need out →
      s'.step asInteger method socketPeer = s'.exact socketPeer need out at_ next)
    (hk : ∀ x s', x.length = total → EndsWith asInteger method (next x s') (outcome ((k x).run s'.client))) :
    EndsWith asInteger method s (match readSteps turns need out s.peer with
      | none => .error .null
      | some (x, sock) => outcome ((k x).run ⟨s.pending, sock⟩)) := by
  induction turns generalizing s need out with
  | zero => omega
  | succ turns ih =>
    refine .of_step (loop need out s here) ?_
    rw [readSteps_completion]
    by_cases none : need = 0
    · simp only [exact, none, if_true]
      exact hk out s (by omega)
    · rcases op : socketPeer.read s.peer (min need httpClientReadChunk) with ⟨completion, sock⟩
      simp only [exact, none, if_false, op]
      cases completion with
      | threw => exact endsWith_null
      | failed received => exact endsWith_null
      | ok chunk extra =>
        dsimp only
        by_cases empty : chunk.isEmpty = true
        · rw [if_pos empty, if_pos empty]
          exact endsWith_null
        · rw [if_neg empty, if_neg empty]
          have pos := length_pos_of_chunk empty
          have size := (socketPeer_read_ok op).1
          exact ih (s := ⟨at_ (need - chunk.length) (out ++ chunk), s.pending, sock, s.reads + 1⟩)
            (by omega) (by rw [List.length_append]; omega) rfl

/-- `read_exact`, with what follows it. -/
lemma endsWith_beginExact {at_ : Nat → Bytes → Point} {total : Nat}
    (loop : ∀ need out (s' : Reader Socket), s'.point = at_ need out →
      s'.step asInteger method socketPeer = s'.exact socketPeer need out at_ next)
    (hk : ∀ x s', x.length = total → EndsWith asInteger method (next x s') (outcome ((k x).run s'.client))) :
    EndsWith asInteger method (s.beginExact total at_) (outcome (((readBytes total).bind k).run s.client)) := by
  unfold beginExact readBytes
  have ends := endsWith_exact (k := k) (s := ⟨at_ (total - s.pending.length) (s.pending.take total),
    s.pending.drop total, s.peer, s.reads⟩) (Nat.lt_succ_of_le (Nat.sub_le _ _))
    (by rw [List.length_take]; omega) rfl loop hk
  by_cases zero : total = 0
  · subst zero
    rw [if_neg (by decide), if_pos rfl]
    simpa [readSteps, Reading.bind] using ends
  · rw [if_neg zero]
    by_cases large : (total : Int) > httpMaxBodySize
    · rw [if_pos large, if_pos large]
      exact endsWith_null
    · rw [if_neg large, if_neg large]
      simp only [Reading.bind, Reading.run, readExact]
      cases steps : readSteps (total + 1) (total - s.pending.length) (s.pending.take total) s.peer with
      | none =>
        rw [steps] at ends
        exact ends
      | some found =>
        rw [steps] at ends
        exact ends

/-- The loop that reads to the end, with what follows it. -/
lemma endsWith_drain {m : Meta} {turns : Nat} {bodyBuf : Bytes}
    (enough : s.peer.segments.flatten.length < turns) (here : s.point = .toEnd m bodyBuf) :
    EndsWith asInteger method s (match readToEnd turns bodyBuf s.peer with
      | none => .error .null
      | some (body, _) => .ok ⟨m.statusCode, m.headers, body⟩) := by
  induction turns generalizing s bodyBuf with
  | zero => omega
  | succ turns ih =>
    have turn : s.step asInteger method socketPeer = s.drain socketPeer m bodyBuf := by
      rw [step, here]
    refine .of_step turn ?_
    rw [readToEnd_completion]
    rcases op : socketPeer.read s.peer httpClientReadChunk with ⟨completion, sock⟩
    simp only [drain, op]
    cases completion with
    | threw => exact endsWith_null
    | failed received => exact .of_done rfl
    | ok chunk extra =>
      dsimp only
      by_cases empty : chunk.isEmpty = true
      · rw [if_pos empty, if_pos empty]
        exact .of_done rfl
      · rw [if_neg empty, if_neg empty]
        by_cases large : (bodyBuf.length : Int) > httpMaxBodySize - chunk.length
        · rw [if_pos large, if_pos large]
          exact endsWith_null
        · rw [if_neg large, if_neg large]
          have less := (socketPeer_read_ok op).2
          exact ih (s := ⟨.toEnd m (bodyBuf ++ chunk), s.pending, sock, s.reads + 1⟩)
            (by dsimp only; omega) rfl

end Loops

/-! ## The reading phase -/

section Phase
variable {s : Reader Socket} {m : Meta}

/-- What follows a body. -/
def answer (m : Meta) (body : Bytes) : Reading (Script Response) := .pure (.ok ⟨m.statusCode, m.headers, body⟩)

/-- The trailers. -/
lemma endsWith_trailers {body : Bytes} {turns trailerSize : Nat} (fits : trailerSize ≤ httpMaxHeaderSize)
    (enough : httpMaxHeaderSize < turns + trailerSize) (here : s.point = .trailer m body trailerSize) :
    EndsWith asInteger method s
      (outcome (((readTrailers turns trailerSize).bind fun _ => answer m body).run s.client)) := by
  induction turns generalizing s trailerSize with
  | zero => omega
  | succ turns ih =>
    have turn : ∀ s' : Reader Socket, s'.point = s.point → s'.step asInteger method socketPeer =
        s'.search socketPeer .line (takeTrailer m body trailerSize) := by
      intro s' same
      rw [step, same, here]
    refine endsWith_search turn fun trailer s' le => ?_
    have two : Mark.line.delim.length = 2 := rfl
    unfold takeTrailer
    dsimp only
    by_cases large : trailerSize + trailer.length > httpMaxHeaderSize
    · rw [if_pos large, if_pos large]
      exact endsWith_null
    · rw [if_neg large, if_neg large]
      by_cases blank : (trim trailer).isEmpty = true
      · rw [if_pos blank, if_pos blank]
        exact .of_done rfl
      · rw [if_neg blank, if_neg blank]
        exact ih (s := ⟨.trailer m body (trailerSize + trailer.length), s'.pending, s'.peer, s'.reads⟩)
          (by omega) (by omega) rfl

/-- The two bytes behind a chunk. -/
lemma takeTerminator_endsWith {p : Reading Bytes} {body : Bytes}
    (hp : ∀ s' : Reader Socket, s'.point = .chunkLine m body →
      EndsWith asInteger method s' (outcome ((p.bind (answer m)).run s'.client))) (terminator : Bytes) :
    EndsWith asInteger method (s.takeTerminator m body terminator)
      (outcome (((if terminator ≠ crlf then .fail else p).bind (answer m)).run s.client)) := by
  unfold takeTerminator
  by_cases wrong : terminator ≠ crlf
  · rw [if_pos wrong, if_pos wrong]
    exact endsWith_null
  · rw [if_neg wrong, if_neg wrong]
    exact hp ⟨.chunkLine m body, s.pending, s.peer, s.reads⟩ rfl

/-- One chunk, and what follows it. -/
lemma endsWith_chunk {p : Bytes → Reading Bytes} {body : Bytes} {size : Nat}
    (hp : ∀ (chunk : Bytes) (s' : Reader Socket), chunk.length = size → s'.point = .chunkLine m (body ++ chunk) →
      EndsWith asInteger method s' (outcome (((p chunk).bind (answer m)).run s'.client))) :
    EndsWith asInteger method (s.beginExact size (.chunkData m body))
      (outcome ((((readBytes size).bind fun chunk => (readBytes 2).bind fun terminator =>
        if terminator ≠ crlf then .fail else p chunk).bind (answer m)).run s.client)) := by
  have data : ∀ need out (s' : Reader Socket), s'.point = .chunkData m body need out →
      s'.step asInteger method socketPeer = s'.exact socketPeer need out (.chunkData m body)
        fun chunk => beginExact 2 (.terminator m (body ++ chunk)) := by
    intro need out s' at_
    rw [step, at_]
  rw [Reading.bind_assoc]
  refine endsWith_beginExact data fun chunk s₁ len => ?_
  have behind : ∀ need out (s' : Reader Socket), s'.point = .terminator m (body ++ chunk) need out →
      s'.step asInteger method socketPeer = s'.exact socketPeer need out (.terminator m (body ++ chunk))
        (takeTerminator m (body ++ chunk)) := by
    intro need out s' at_
    rw [step, at_]
  rw [Reading.bind_assoc]
  exact endsWith_beginExact behind fun terminator s₂ _ =>
    takeTerminator_endsWith (fun s₃ at_ => hp chunk s₃ len at_) terminator

/-- The chunks. -/
lemma endsWith_chunks {body : Bytes} {turns : Nat} (fits : (body.length : Int) ≤ httpMaxBodySize)
    (enough : httpMaxBodySize < turns + body.length) (here : s.point = .chunkLine m body) :
    EndsWith asInteger method s (outcome (((readChunks turns body).bind (answer m)).run s.client)) := by
  induction turns generalizing s body with
  | zero => omega
  | succ turns ih =>
    have turn : ∀ s' : Reader Socket, s'.point = s.point → s'.step asInteger method socketPeer =
        s'.search socketPeer .line (takeChunkLine m body) := by
      intro s' same
      rw [step, same, here]
    refine endsWith_search turn fun line s' _ => ?_
    dsimp only
    unfold takeChunkLine
    cases chunkSize line with
    | none => exact endsWith_null
    | some size =>
      cases size with
      | zero =>
        change EndsWith _ _ _ (outcome ((((readTrailers (httpMaxHeaderSize + 1) 0).bind fun _ =>
          Reading.pure body).bind (answer m)).run s'.client))
        rw [Reading.bind_assoc]
        exact endsWith_trailers (s := ⟨.trailer m body 0, s'.pending, s'.peer, s'.reads⟩) (Nat.zero_le _)
          (Nat.lt_succ_self _) rfl
      | succ size =>
        change EndsWith _ _
          (if ((size + 1 : Nat) : Int) > httpMaxBodySize - body.length then s'.null
            else s'.beginExact (size + 1) (.chunkData m body))
          (outcome (((if ((size + 1 : Nat) : Int) > httpMaxBodySize - body.length then .fail
            else (readBytes (size + 1)).bind fun chunk => (readBytes 2).bind fun terminator =>
              if terminator ≠ crlf then .fail else readChunks turns (body ++ chunk)).bind
                (answer m)).run s'.client))
        by_cases large : ((size + 1 : Nat) : Int) > httpMaxBodySize - body.length
        · rw [if_pos large, if_pos large]
          exact endsWith_null
        · rw [if_neg large, if_neg large]
          refine endsWith_chunk fun chunk s₁ len at_ => ih ?_ ?_ at_
          · rw [List.length_append, len]
            omega
          · rw [List.length_append, len]
            omega

/-- The body. -/
lemma endsWith_beginBody (m : Meta) :
    EndsWith asInteger method (s.beginBody m) (outcome (((readBody m).bind (answer m)).run s.client)) := by
  unfold beginBody readBody
  by_cases chunked : m.isChunked = true
  · rw [if_pos chunked, if_pos chunked]
    exact endsWith_chunks (s := ⟨.chunkLine m [], s.pending, s.peer, s.reads⟩) (by decide) (by decide) rfl
  · rw [if_neg chunked, if_neg chunked]
    by_cases pos : m.contentLength > 0
    · rw [if_pos pos, if_pos pos]
      have loop : ∀ need out (s' : Reader Socket), s'.point = .contentLength m need out →
          s'.step asInteger method socketPeer =
            s'.exact socketPeer need out (.contentLength m) (finish m) := by
        intro need out s' at_
        rw [step, at_]
      exact endsWith_beginExact loop fun body s' _ => .of_done rfl
    · rw [if_neg pos, if_neg pos]
      by_cases zero : m.contentLength = 0
      · rw [if_pos zero, if_pos zero]
        exact .of_done rfl
      · rw [if_neg zero, if_neg zero]
        have ends : EndsWith asInteger method ⟨.toEnd m s.pending, [], s.peer, s.reads⟩ _ :=
          endsWith_drain (Nat.lt_succ_self _) rfl
        simp only [Reading.bind, Reading.run, Client.drain]
        cases body : readToEnd (s.peer.segments.flatten.length + 1) s.pending s.peer with
        | none =>
          rw [body] at ends
          exact ends
        | some found =>
          rw [body] at ends
          exact ends

/-- A header block, and what follows it. -/
lemma endsWith_headerBlock {interimCount : Nat} {more : Reading (Script Meta)}
    (hmore : ∀ s' : Reader Socket, EndsWith asInteger method
      (if interimCount + 1 > 10 then s'.null else { s' with point := .headers (interimCount + 1) })
      (outcome ((more.bind (Script.respond method)).run s'.client))) (here : s.point = .headers interimCount) :
    EndsWith asInteger method s
      (outcome (((Script.readHeaderBlock asInteger more).bind (Script.respond method)).run s.client)) := by
  have turn : ∀ s' : Reader Socket, s'.point = s.point → s'.step asInteger method socketPeer =
      s'.search socketPeer .block (takeBlock asInteger method interimCount) := by
    intro s' same
    rw [step, same, here]
  refine endsWith_search turn fun headersRaw s' _ => ?_
  dsimp only
  unfold takeBlock
  cases Script.parseResponseHeaders asInteger headersRaw with
  | error stop =>
    cases stop with
    | null => exact .of_done rfl
    | noElement => exact .of_done rfl
    | noNumber => exact .of_done rfl
  | ok m =>
    dsimp only
    by_cases interim : 100 ≤ m.statusCode ∧ m.statusCode ≤ 199
    · rw [if_pos interim, if_pos interim]
      by_cases switching : m.statusCode = 101
      · rw [if_pos switching, if_pos switching]
        exact endsWith_null
      · rw [if_neg switching, if_neg switching]
        exact hmore s'
    · rw [if_neg interim, if_neg interim]
      simp only [Reading.bind, Script.respond]
      by_cases bodiless : method = bytes "HEAD" ∨ m.statusCode = 204 ∨ m.statusCode = 304
      · rw [if_pos bodiless, if_pos bodiless]
        exact .of_done rfl
      · rw [if_neg bodiless, if_neg bodiless]
        exact endsWith_beginBody m

/-- The header blocks, of which `interim` may be interim, and what follows them. -/
lemma endsWith_headers {interim interimCount : Nat} (sum : interim + interimCount = 10)
    (here : s.point = .headers interimCount) :
    EndsWith asInteger method s
      (outcome (((Script.readHeaders asInteger interim).bind (Script.respond method)).run s.client)) := by
  induction interim generalizing s interimCount with
  | zero =>
    -- an eleventh interim response is one too many
    refine endsWith_headerBlock (fun s' => ?_) here
    rw [if_pos (by omega)]
    exact endsWith_null
  | succ interim ih =>
    refine endsWith_headerBlock (fun s' => ?_) here
    rw [if_neg (by omega)]
    exact ih (by omega) rfl

end Phase

/-- On a socket the request ends as `CovNet.Client.Script.httpRequest` does. -/
theorem start_endsWith (c : HttpClient) :
    EndsWith asInteger method (start c.pending c.sock) (outcome ((Script.httpRequest asInteger method).run c)) :=
  endsWith_headers (s := start c.pending c.sock) rfl rfl

end Reader

end CovNet.Client
