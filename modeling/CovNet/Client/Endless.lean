import CovNet.Client.Faults

/-!
# Reading from an endless peer

`CovNet.Client.Response` bounds the loops of the reading phase by a number of turns. Here the loops are as the
script has them: `Reader.step` takes one turn of the loop at which `http_request` is, with one read operation at
most, and nothing but the checks of the source ends a loop. The peer completes every operation, in whatever way:
with bytes of a stream that never ends, cut anywhere, with an error, or late.

Every turn makes `Reader.budget` smaller. It counts what the checks still allow: interim responses, bytes of the
body, bytes of the trailers, and below these the bytes still needed or those that still fit into `pending`.
So the phase ends on every stream; `reading_returns_iff` says when it ends by returning.
-/

namespace CovNet.Client
open Lib Text Async Http

/-! ## Peers -/

/-- How a read operation completes. -/
inductive Completion where
  /-- the call throws -/
  | threw
  /-- with an error or too late, and with what `get_result` has then -/
  | failed (received : Bytes)
  /-- with a result, and with what `get_buffer` has besides -/
  | ok (chunk extra : Bytes)
  deriving DecidableEq, Repr

/-- A peer that completes every operation. -/
structure Peer (σ : Type) where
  readUntil : σ → Bytes → Completion × σ
  read : σ → Nat → Completion × σ

/-- Where `http_request` is while it reads, with its local variables. -/
inductive Point where
  /-- in the loop over header blocks -/
  | headers (interimCount : Nat)
  /-- in `read_chunked_body`, before a chunk -/
  | chunkLine (m : Meta) (body : Bytes)
  /-- in its loop over the trailers -/
  | trailer (m : Meta) (body : Bytes) (trailerSize : Nat)
  /-- in `read_exact`, for a chunk -/
  | chunkData (m : Meta) (body : Bytes) (need : Nat) (out : Bytes)
  /-- in `read_exact`, for the two bytes behind a chunk -/
  | terminator (m : Meta) (body : Bytes) (need : Nat) (out : Bytes)
  /-- in `read_exact`, for a body with a length -/
  | contentLength (m : Meta) (need : Nat) (out : Bytes)
  /-- in the loop of `read_body` that reads to the end -/
  | toEnd (m : Meta) (bodyBuf : Bytes)
  | done (result : Script Response)

/-- An `http_request` that reads. -/
structure Reader (σ : Type) where
  point : Point
  pending : Bytes
  peer : σ
  /-- the read operations so far -/
  reads : Nat

namespace Reader
variable {σ : Type}

/-- At the beginning of the reading phase. -/
def start (pending : Bytes) (peer : σ) : Reader σ := ⟨.headers 0, pending, peer, 0⟩

/-- `return null`. -/
def null (s : Reader σ) : Reader σ := { s with point := .done (.error .null) }

/-- The response with this body. -/
def finish (m : Meta) (body : Bytes) (s : Reader σ) : Reader σ :=
  { s with point := .done (.ok ⟨m.statusCode, m.headers, body⟩) }

/-- One turn of `read_until_limited`, with what follows the call. -/
def search (P : Peer σ) (mark : Mark) (next : Bytes → Reader σ → Reader σ) (s : Reader σ) : Reader σ :=
  match find mark.delim s.pending with
  | some pos =>
    if pos + mark.delim.length > mark.max then s.null
    else
      next (s.pending.take (pos + mark.delim.length))
        { s with pending := s.pending.drop (pos + mark.delim.length) }
  | none =>
    let (completion, peer) := P.readUntil s.peer mark.delim
    let s := { s with peer := peer, reads := s.reads + 1 }
    match completion with
    | .ok chunk extra =>
      if chunk.isEmpty then s.null
      else
        let pending := s.pending ++ chunk ++ extra
        if pending.length > mark.max then s.null else { s with pending := pending }
    | _ => s.null

/-- The beginning of `read_exact`. -/
def beginExact (total : Nat) (at_ : Nat → Bytes → Point) (s : Reader σ) : Reader σ :=
  if (total : Int) > httpMaxBodySize then s.null
  else
    { s with
      point := at_ (total - s.pending.length) (s.pending.take total)
      pending := s.pending.drop total }

/-- One turn of `read_exact`, with what follows the call. -/
def exact (P : Peer σ) (need : Nat) (out : Bytes) (at_ : Nat → Bytes → Point)
    (next : Bytes → Reader σ → Reader σ) (s : Reader σ) : Reader σ :=
  if need = 0 then next out s
  else
    let (completion, peer) := P.read s.peer (min need httpClientReadChunk)
    let s := { s with peer := peer, reads := s.reads + 1 }
    match completion with
    | .ok chunk _ =>
      if chunk.isEmpty then s.null else { s with point := at_ (need - chunk.length) (out ++ chunk) }
    | _ => s.null

/-- One turn of the loop that reads to the end. -/
def drain (P : Peer σ) (m : Meta) (bodyBuf : Bytes) (s : Reader σ) : Reader σ :=
  let (completion, peer) := P.read s.peer httpClientReadChunk
  let s := { s with peer := peer, reads := s.reads + 1 }
  match completion with
  | .threw => s.null
  | .failed received => s.finish m (bodyBuf ++ received)
  | .ok chunk _ =>
    if chunk.isEmpty then s.finish m bodyBuf
    else if (bodyBuf.length : Int) > httpMaxBodySize - chunk.length then s.null
    else { s with point := .toEnd m (bodyBuf ++ chunk) }

/-- `http_client.read_body`, up to its first loop. -/
def beginBody (m : Meta) (s : Reader σ) : Reader σ :=
  if m.isChunked then { s with point := .chunkLine m [] }
  else if m.contentLength > 0 then s.beginExact m.contentLength.toNat (.contentLength m)
  else if m.contentLength = 0 then s.finish m []
  else { s with point := .toEnd m s.pending, pending := [] }

/-- What `http_request` does with a header block. -/
def takeBlock (asInteger : Bytes → Option Int) (method : Bytes) (interimCount : Nat) (headersRaw : Bytes)
    (s : Reader σ) : Reader σ :=
  match Script.parseResponseHeaders asInteger headersRaw with
  | .error stop => { s with point := .done (.error stop) }
  | .ok m =>
    if 100 ≤ m.statusCode ∧ m.statusCode ≤ 199 then
      if m.statusCode = 101 then s.null
      else if interimCount + 1 > 10 then s.null
      else { s with point := .headers (interimCount + 1) }
    else if method = bytes "HEAD" ∨ m.statusCode = 204 ∨ m.statusCode = 304 then s.finish m []
    else s.beginBody m

/-- What `read_chunked_body` does with the line before a chunk. -/
def takeChunkLine (m : Meta) (body line : Bytes) (s : Reader σ) : Reader σ :=
  match chunkSize line with
  | none => s.null
  | some 0 => { s with point := .trailer m body 0 }
  | some size =>
    if (size : Int) > httpMaxBodySize - body.length then s.null else s.beginExact size (.chunkData m body)

/-- What it does with a line of the trailers. -/
def takeTrailer (m : Meta) (body : Bytes) (trailerSize : Nat) (trailer : Bytes) (s : Reader σ) : Reader σ :=
  let trailerSize := trailerSize + trailer.length
  if trailerSize > httpMaxHeaderSize then s.null
  else if (trim trailer).isEmpty then s.finish m body
  else { s with point := .trailer m body trailerSize }

/-- What it does with the bytes behind a chunk. -/
def takeTerminator (m : Meta) (body terminator : Bytes) (s : Reader σ) : Reader σ :=
  if terminator ≠ crlf then s.null else { s with point := .chunkLine m body }

/-- One turn of the loop at which the request is. -/
def step (asInteger : Bytes → Option Int) (method : Bytes) (P : Peer σ) (s : Reader σ) : Reader σ :=
  match s.point with
  | .headers interimCount => s.search P .block (takeBlock asInteger method interimCount)
  | .chunkLine m body => s.search P .line (takeChunkLine m body)
  | .trailer m body trailerSize => s.search P .line (takeTrailer m body trailerSize)
  | .chunkData m body need out =>
    s.exact P need out (.chunkData m body) fun chunk => beginExact 2 (.terminator m (body ++ chunk))
  | .terminator m body need out => s.exact P need out (.terminator m body) (takeTerminator m body)
  | .contentLength m need out => s.exact P need out (.contentLength m) (finish m)
  | .toEnd m bodyBuf => s.drain P m bodyBuf
  | .done _ => s

/-! ## What the checks still allow -/

/-- What a search may still read. -/
def searchBudget (mark : Mark) (pending : Bytes) : Nat := mark.max + 2 - pending.length

/-- More than a search may read. -/
def searchWorth (mark : Mark) : Nat := mark.max + 3

/-- More than the trailers may cost. -/
def trailersWorth : Nat := 1 + (httpMaxHeaderSize + 1) * searchWorth .line + searchWorth .line

/-- More than a chunk of one byte may cost: a line, the byte, and the two behind it. -/
def chunkWorth : Nat := searchWorth .line + 8

/-- What the bytes of the body that still fit may cost, and the trailers. -/
def bodyBudget (held : Nat) : Nat := trailersWorth + (httpMaxBodySize.toNat - held) * chunkWorth

/-- What the checks still allow. -/
def budget (s : Reader σ) : Nat :=
  match s.point with
  | .headers interimCount =>
    bodyBudget 0 + searchWorth .line + (10 - interimCount) * searchWorth .block + searchBudget .block s.pending
  | .chunkLine _ body => bodyBudget body.length + searchBudget .line s.pending
  | .trailer _ _ trailerSize =>
    1 + (httpMaxHeaderSize + 1 - trailerSize) * searchWorth .line + searchBudget .line s.pending
  | .chunkData _ body need out => bodyBudget (body.length + out.length + need) + (searchWorth .line + 6 + need)
  | .terminator _ body need _ => bodyBudget body.length + (searchWorth .line + need)
  | .contentLength _ need _ => 1 + need
  | .toEnd _ bodyBuf => 1 + (httpMaxBodySize.toNat + 1 - bodyBuf.length)
  | .done _ => 0

/-- A longer body allows less. -/
lemma bodyBudget_anti {held held' : Nat} (le : held ≤ held') : bodyBudget held' ≤ bodyBudget held :=
  Nat.add_le_add_left (Nat.mul_le_mul_right _ (Nat.sub_le_sub_left le _)) _

/-- The limits in numbers. -/
lemma limits : searchWorth .line = 8195 ∧ searchWorth .block = 65539 ∧ chunkWorth = 8203 ∧
    httpMaxHeaderSize = 65536 ∧ httpMaxBodySize.toNat = 67108864 ∧ trailersWorth = 537083911 := by
  decide

/-- A chunk that is not refused has bytes. -/
lemma length_pos_of_chunk {chunk : Bytes} (h : ¬ chunk.isEmpty = true) : 0 < chunk.length := by
  rw [List.isEmpty_iff] at h
  exact List.length_pos_iff.mpr h

/-- The request has ended. -/
def Ended (s : Reader σ) : Prop := ∃ result, s.point = .done result

section Budget
variable {P : Peer σ} {s : Reader σ} {m : Meta}

@[simp] lemma budget_null : s.null.budget = 0 := rfl

@[simp] lemma budget_finish (body : Bytes) : (s.finish m body).budget = 0 := rfl

/-- A turn of a search allows less, if what follows does. -/
lemma budget_search {mark : Mark} {next : Bytes → Reader σ → Reader σ} {b : Nat} (running : 0 < s.budget)
    (same : ∀ s' : Reader σ, s'.point = s.point → s'.budget = b + searchBudget mark s'.pending)
    (found : ∀ x s', mark.delim.length ≤ x.length → s'.point = s.point → (next x s').budget < b) :
    (s.search P mark next).budget < s.budget := by
  unfold search
  cases at_ : find mark.delim s.pending with
  | some pos =>
    have le := find_le at_
    dsimp only
    split
    · exact running
    · have taken : mark.delim.length ≤ (s.pending.take (pos + mark.delim.length)).length := by
        rw [List.length_take]
        omega
      have less := found _ { s with pending := s.pending.drop (pos + mark.delim.length) } taken rfl
      rw [same s rfl]
      exact less.trans_le (Nat.le_add_right _ _)
  | none =>
    dsimp only
    split
    · rename_i chunk extra _
      split
      · exact running
      · rename_i some_chunk
        have pos := length_pos_of_chunk some_chunk
        split
        · exact running
        · rename_i fits
          refine (same { s with pending := s.pending ++ chunk ++ extra } rfl).trans_lt ?_
          rw [same s rfl]
          simp only [searchBudget, List.length_append] at fits ⊢
          omega
    · exact running

/-- A turn of `read_exact` allows less, if what follows does. -/
lemma budget_exact {need : Nat} {out : Bytes} {at_ : Nat → Bytes → Point} {next : Bytes → Reader σ → Reader σ}
    (running : 0 < s.budget)
    (less : ∀ (s' : Reader σ) (chunk : Bytes), 0 < need → 0 < chunk.length →
      s'.point = at_ (need - chunk.length) (out ++ chunk) → s'.budget < s.budget)
    (found : need = 0 → (next out s).budget < s.budget) : (s.exact P need out at_ next).budget < s.budget := by
  unfold exact
  split
  · rename_i none
    exact found none
  · rename_i some
    dsimp only
    split
    · rename_i chunk extra _
      split
      · exact running
      · rename_i some_chunk
        exact less _ chunk (Nat.pos_of_ne_zero some) (length_pos_of_chunk some_chunk) rfl
    · exact running

/-- The beginning of `read_exact` allows what its first point does. -/
lemma budget_beginExact {total b : Nat} {at_ : Nat → Bytes → Point} (pos : 0 < b)
    (first : ∀ (s' : Reader σ) need out, need + out.length = total → (total : Int) ≤ httpMaxBodySize →
      s'.point = at_ need out → s'.budget < b) :
    (s.beginExact total at_).budget < b := by
  unfold beginExact
  split
  · exact pos
  · refine first _ _ _ ?_ (by omega) rfl
    rw [List.length_take]
    omega

/-- The first point of a body allows less than the header blocks. -/
lemma budget_beginBody : (s.beginBody m).budget < bodyBudget 0 + searchWorth .line := by
  obtain ⟨line, -, chunk, -, body, trailers⟩ := limits
  unfold beginBody
  split
  · simp only [budget, List.length_nil, searchBudget, line]
    have max : Mark.line.max = 8192 := rfl
    omega
  · split
    · refine budget_beginExact ?_ fun s' need out sum le point => ?_
      · omega
      · simp only [budget, point, bodyBudget, line, chunk, body, trailers]
        have e : httpMaxBodySize = 67108864 := rfl
        omega
    · split
      · rw [budget_finish]
        omega
      · simp only [budget, bodyBudget, line, chunk, body, trailers]
        omega

/-- A search may read less than its worth. -/
lemma searchBudget_lt (mark : Mark) (pending : Bytes) : searchBudget mark pending < searchWorth mark := by
  unfold searchBudget searchWorth
  omega

/-- A header block allows less: one interim response, or all of them. -/
lemma budget_takeBlock {asInteger : Bytes → Option Int} {method headersRaw : Bytes} {interimCount : Nat} :
    (s.takeBlock asInteger method interimCount headersRaw).budget <
      bodyBudget 0 + searchWorth .line + (10 - interimCount) * searchWorth .block := by
  obtain ⟨line, block, -, -, -, -⟩ := limits
  have pos : 0 < bodyBudget 0 + searchWorth .line + (10 - interimCount) * searchWorth .block := by omega
  unfold takeBlock
  split
  · exact pos
  · split
    · split
      · exact pos
      · split
        · exact pos
        · have less := searchBudget_lt .block s.pending
          simp only [budget, block] at less ⊢
          omega
    · split
      · exact pos
      · exact budget_beginBody.trans_le (Nat.le_add_right _ _)

/-- A chunk allows less: at least one byte of the body, or all of it. -/
lemma budget_takeChunkLine {body line : Bytes} :
    (s.takeChunkLine m body line).budget < bodyBudget body.length := by
  obtain ⟨worth, -, chunk, header, max, trailers⟩ := limits
  have pos : 0 < bodyBudget body.length := by
    simp only [bodyBudget, trailers]
    omega
  unfold takeChunkLine
  split
  · exact pos
  · have less := searchBudget_lt .line s.pending
    simp only [budget, bodyBudget, worth, header, trailers] at less ⊢
    omega
  · rename_i size some _
    split
    · exact pos
    · rename_i fits
      refine budget_beginExact pos fun s' need out sum _ point => ?_
      have e : httpMaxBodySize = 67108864 := rfl
      have one : size ≠ 0 := some
      simp only [budget, point, bodyBudget, worth, chunk, max, trailers]
      omega

/-- A line of the trailers allows less. -/
lemma budget_takeTrailer {body trailer : Bytes} {trailerSize : Nat} (pos : 0 < trailer.length) :
    (s.takeTrailer m body trailerSize trailer).budget <
      1 + (httpMaxHeaderSize + 1 - trailerSize) * searchWorth .line := by
  obtain ⟨worth, -, -, header, -, -⟩ := limits
  unfold takeTrailer
  dsimp only
  split
  · exact Nat.succ_pos _ |>.trans_le (Nat.le_add_right _ _)
  · rename_i fits
    split
    · rw [budget_finish]
      omega
    · have less := searchBudget_lt .line s.pending
      simp only [budget, worth, header] at less fits ⊢
      omega

/-- The two bytes behind a chunk allow less. -/
lemma budget_takeTerminator {body terminator : Bytes} :
    (s.takeTerminator m body terminator).budget < bodyBudget body.length + searchWorth .line := by
  have less := searchBudget_lt .line s.pending
  unfold takeTerminator
  split
  · rw [budget_null]
    omega
  · simp only [budget]
    omega

/-- A turn of the loop to the end allows less. -/
lemma budget_drain {bodyBuf : Bytes} (at_ : s.point = .toEnd m bodyBuf) :
    (s.drain P m bodyBuf).budget < s.budget := by
  have pos : 0 < s.budget := by
    simp only [budget, at_]
    omega
  unfold drain
  dsimp only
  split
  · exact pos
  · exact pos
  · rename_i chunk extra _
    split
    · exact pos
    · rename_i some_chunk
      have one := length_pos_of_chunk some_chunk
      split
      · exact pos
      · rename_i fits
        have max : httpMaxBodySize = 67108864 := rfl
        simp only [budget, at_, List.length_append]
        omega

/-- Something is allowed until the end. -/
lemma budget_pos (running : ¬ s.Ended) : 0 < s.budget := by
  obtain ⟨worth, -, -, -, -, trailers⟩ := limits
  cases at_ : s.point with
  | done result => exact absurd ⟨result, at_⟩ running
  | headers interimCount =>
    simp only [budget, at_, bodyBudget]
    omega
  | chunkLine m body =>
    simp only [budget, at_, bodyBudget]
    omega
  | trailer m body trailerSize =>
    simp only [budget, at_]
    omega
  | chunkData m body need out =>
    simp only [budget, at_, worth]
    omega
  | terminator m body need out =>
    simp only [budget, at_, worth]
    omega
  | contentLength m need out =>
    simp only [budget, at_]
    omega
  | toEnd m bodyBuf =>
    simp only [budget, at_]
    omega

/-- Every turn allows less. -/
lemma budget_step (asInteger : Bytes → Option Int) (method : Bytes) (running : ¬ s.Ended) :
    (s.step asInteger method P).budget < s.budget := by
  have pos := budget_pos running
  have two : 0 < Mark.line.delim.length := by decide
  unfold step
  cases at_ : s.point with
  | done result => exact absurd ⟨result, at_⟩ running
  | headers interimCount =>
    refine budget_search pos (fun s' same => ?_) fun x s' _ _ => budget_takeBlock
    simp only [budget, same, at_]
  | chunkLine m body =>
    refine budget_search pos (fun s' same => ?_) fun x s' _ _ => budget_takeChunkLine
    simp only [budget, same, at_]
  | trailer m body trailerSize =>
    refine budget_search pos (fun s' same => ?_) fun x s' le _ => budget_takeTrailer (two.trans_le le)
    simp only [budget, same, at_]
  | chunkData m body need out =>
    refine budget_exact pos (fun s' chunk some one point => ?_) fun none => ?_
    · -- what is read moves from `need` to `out`
      have le : bodyBudget (body.length + (out ++ chunk).length + (need - chunk.length)) ≤
          bodyBudget (body.length + out.length + need) := by
        apply bodyBudget_anti
        rw [List.length_append]
        omega
      simp only [budget, point, at_]
      omega
    · refine budget_beginExact pos fun s' need' out' sum _ point => ?_
      simp only [budget, point, at_, none, List.length_append, Nat.add_zero]
      omega
  | terminator m body need out =>
    refine budget_exact pos (fun s' chunk some one point => ?_) fun none => ?_
    · simp only [budget, point, at_]
      omega
    · have worth : s.budget = bodyBudget body.length + (searchWorth .line + need) := by simp only [budget, at_]
      rw [worth, none]
      exact budget_takeTerminator
  | contentLength m need out =>
    refine budget_exact pos (fun s' chunk some one point => ?_) fun none => ?_
    · simp only [budget, point, at_]
      omega
    · rw [budget_finish]
      exact pos
  | toEnd m bodyBuf => exact budget_drain at_

end Budget

/-! ## What a turn reads, and how it ends -/

/-- A search finds `x`. -/
def Finds (mark : Mark) (s : Reader σ) (x : Bytes) : Prop :=
  ∃ pos, find mark.delim s.pending = some pos ∧ pos + mark.delim.length ≤ mark.max ∧
    x = s.pending.take (pos + mark.delim.length)

/-- The loop over header blocks has a block before it. -/
def Takes (s : Reader σ) (headersRaw : Bytes) : Prop :=
  (∃ interimCount, s.point = .headers interimCount) ∧ s.Finds .block headersRaw

/-- The header blocks that a request takes, from here on. -/
def Blocks (asInteger : Bytes → Option Int) (method : Bytes) (P : Peer σ) (s : Reader σ) (headersRaw : Bytes) :
    Prop :=
  ∃ n, ((step asInteger method P)^[n] s).Takes headersRaw

/-- There were no more than `reads` read operations; and an exception is one that the parser has raised on a
block that was taken. -/
structure Follows (asInteger : Bytes → Option Int) (taken : Bytes → Prop) (reads : Nat) (s : Reader σ) :
    Prop where
  reads : s.reads ≤ reads
  raised : ∀ stop, s.point = .done (.error stop) →
    stop = .null ∨ ∃ headersRaw, taken headersRaw ∧
      Script.parseResponseHeaders asInteger headersRaw = .error stop

section Follows
variable {asInteger : Bytes → Option Int} {taken : Bytes → Prop} {P : Peer σ} {s : Reader σ} {m : Meta} {n : Nat}

lemma follows_null (le : s.reads ≤ n) : Follows asInteger taken n s.null := by
  refine ⟨le, fun _ e => .inl ?_⟩
  cases e
  rfl

lemma follows_finish (body : Bytes) (le : s.reads ≤ n) : Follows asInteger taken n (s.finish m body) :=
  ⟨le, nofun⟩

lemma follows_beginExact {total : Nat} {at_ : Nat → Bytes → Point} (loop : ∀ need out r, at_ need out ≠ .done r)
    (le : s.reads ≤ n) : Follows asInteger taken n (s.beginExact total at_) := by
  unfold beginExact
  split
  · exact follows_null le
  · exact ⟨le, fun stop e => absurd e (loop _ _ _)⟩

lemma follows_search {mark : Mark} {next : Bytes → Reader σ → Reader σ} (running : ¬ s.Ended)
    (found : ∀ x s', s.Finds mark x → s'.reads ≤ s.reads + 1 → Follows asInteger taken (s.reads + 1) (next x s')) :
    Follows asInteger taken (s.reads + 1) (s.search P mark next) := by
  unfold search
  split
  · rename_i pos at_
    split
    · exact follows_null (Nat.le_succ _)
    · rename_i fits
      exact found _ _ ⟨pos, at_, not_lt.mp fits, rfl⟩ (Nat.le_succ _)
  · dsimp only
    split
    · split
      · exact follows_null le_rfl
      · split
        · exact follows_null le_rfl
        · exact ⟨le_rfl, fun stop e => absurd ⟨_, e⟩ running⟩
    · exact follows_null le_rfl

lemma follows_exact {need : Nat} {out : Bytes} {at_ : Nat → Bytes → Point} {next : Bytes → Reader σ → Reader σ}
    (loop : ∀ need out r, at_ need out ≠ .done r)
    (found : Follows asInteger taken (s.reads + 1) (next out s)) :
    Follows asInteger taken (s.reads + 1) (s.exact P need out at_ next) := by
  unfold exact
  split
  · exact found
  · dsimp only
    split
    · split
      · exact follows_null le_rfl
      · exact ⟨le_rfl, fun stop e => absurd e (loop _ _ _)⟩
    · exact follows_null le_rfl

lemma follows_takeBlock {method headersRaw : Bytes} {interimCount : Nat} (took : taken headersRaw)
    (le : s.reads ≤ n) : Follows asInteger taken n (s.takeBlock asInteger method interimCount headersRaw) := by
  unfold takeBlock
  split
  · rename_i stop parse
    refine ⟨le, fun stop' e => .inr ⟨headersRaw, took, ?_⟩⟩
    cases e
    exact parse
  · split
    · split
      · exact follows_null le
      · split
        · exact follows_null le
        · exact ⟨le, nofun⟩
    · split
      · exact follows_finish _ le
      · unfold beginBody
        split
        · exact ⟨le, nofun⟩
        · split
          · exact follows_beginExact nofun le
          · split
            · exact follows_finish _ le
            · exact ⟨le, nofun⟩

lemma follows_takeChunkLine {body line : Bytes} (le : s.reads ≤ n) :
    Follows asInteger taken n (s.takeChunkLine m body line) := by
  unfold takeChunkLine
  split
  · exact follows_null le
  · exact ⟨le, nofun⟩
  · split
    · exact follows_null le
    · exact follows_beginExact nofun le

lemma follows_takeTrailer {body trailer : Bytes} {trailerSize : Nat} (le : s.reads ≤ n) :
    Follows asInteger taken n (s.takeTrailer m body trailerSize trailer) := by
  unfold takeTrailer
  dsimp only
  split
  · exact follows_null le
  · split
    · exact follows_finish _ le
    · exact ⟨le, nofun⟩

lemma follows_takeTerminator {body terminator : Bytes} (le : s.reads ≤ n) :
    Follows asInteger taken n (s.takeTerminator m body terminator) := by
  unfold takeTerminator
  split
  · exact follows_null le
  · exact ⟨le, nofun⟩

lemma follows_drain {bodyBuf : Bytes} : Follows asInteger taken (s.reads + 1) (s.drain P m bodyBuf) := by
  unfold drain
  dsimp only
  split
  · exact follows_null le_rfl
  · exact follows_finish _ le_rfl
  · split
    · exact follows_finish _ le_rfl
    · split
      · exact follows_null le_rfl
      · exact ⟨le_rfl, nofun⟩

/-- A turn has one read operation at most, and raises what the parser raises on the block it takes. -/
lemma follows_step (asInteger : Bytes → Option Int) (method : Bytes) (P : Peer σ) (running : ¬ s.Ended) :
    Follows asInteger s.Takes (s.reads + 1) (s.step asInteger method P) := by
  unfold step
  split
  · rename_i interimCount at_
    exact follows_search running fun x s' finds le => follows_takeBlock ⟨⟨interimCount, at_⟩, finds⟩ le
  · exact follows_search running fun x s' _ le => follows_takeChunkLine le
  · exact follows_search running fun x s' _ le => follows_takeTrailer le
  · exact follows_exact nofun (follows_beginExact nofun (Nat.le_succ _))
  · exact follows_exact nofun (follows_takeTerminator (Nat.le_succ _))
  · exact follows_exact nofun (follows_finish _ (Nat.le_succ _))
  · exact follows_drain
  · rename_i result at_
    exact absurd ⟨result, at_⟩ running

/-- Nothing happens when the request has ended. -/
lemma step_of_ended {method : Bytes} (ended : s.Ended) : s.step asInteger method P = s := by
  obtain ⟨result, at_⟩ := ended
  unfold step
  rw [at_]

/-- Nor have `n` turns more than `n`. -/
lemma follows_iterate (asInteger : Bytes → Option Int) (method : Bytes) (P : Peer σ) (pending : Bytes) (peer : σ)
    (n : Nat) : Follows asInteger (Blocks asInteger method P (start pending peer)) n
      ((step asInteger method P)^[n] (start pending peer)) := by
  induction n with
  | zero => exact ⟨le_rfl, nofun⟩
  | succ n ih =>
    rw [Function.iterate_succ_apply']
    by_cases ended : ((step asInteger method P)^[n] (start pending peer)).Ended
    · rw [step_of_ended ended]
      exact ⟨ih.reads.trans (Nat.le_succ n), ih.raised⟩
    · have turn := follows_step asInteger method P ended
      refine ⟨turn.reads.trans (Nat.succ_le_succ ih.reads), fun stop e => ?_⟩
      obtain null | ⟨headersRaw, takes, parse⟩ := turn.raised stop e
      · exact .inl null
      · exact .inr ⟨headersRaw, ⟨n, takes⟩, parse⟩

/-- What the parser raises on a block, the turn that takes the block raises. -/
lemma step_of_takes {method headersRaw : Bytes} {stop : Stop} (takes : s.Takes headersRaw)
    (parse : Script.parseResponseHeaders asInteger headersRaw = .error stop) :
    (s.step asInteger method P).point = .done (.error stop) := by
  obtain ⟨⟨interimCount, at_⟩, pos, found, fits, rfl⟩ := takes
  unfold step
  rw [at_]
  dsimp only
  rw [search, found]
  dsimp only
  rw [if_neg (not_lt.mpr fits), takeBlock, parse]

/-- The end is the same after any number of turns. -/
lemma iterate_of_ended {method : Bytes} (ended : s.Ended) (n : Nat) : (step asInteger method P)^[n] s = s :=
  Function.iterate_fixed (step_of_ended ended) n

/-- Two ends are one. -/
lemma ended_unique {method : Bytes} {n k : Nat} (hn : ((step asInteger method P)^[n] s).Ended)
    (hk : ((step asInteger method P)^[k] s).Ended) :
    (step asInteger method P)^[n] s = (step asInteger method P)^[k] s := by
  obtain le | le := le_total n k
  · obtain ⟨d, rfl⟩ := Nat.exists_eq_add_of_le' le
    rw [Function.iterate_add_apply, iterate_of_ended hn]
  · obtain ⟨d, rfl⟩ := Nat.exists_eq_add_of_le' le
    rw [Function.iterate_add_apply, iterate_of_ended hk]

end Follows

/-- More than the reading phase may read. -/
def readLimit : Nat :=
  bodyBudget 0 + searchWorth .line + 10 * searchWorth .block + searchWorth .block

/-- The request has returned, with a response or with null. -/
def Returned (s : Reader σ) : Prop :=
  ∃ result, s.point = .done result ∧ ∀ stop, result = .error stop → stop = .null

section Ending
variable (asInteger : Bytes → Option Int) (method : Bytes) (P : Peer σ) (pending : Bytes) (peer : σ)

/-- After no more than `readLimit` turns the request has ended, with one read operation at most in each. -/
lemma reading_ends :
    ∃ n ≤ readLimit, ∃ s : Reader σ, s = (step asInteger method P)^[n] (start pending peer) ∧ s.Ended ∧
      s.reads ≤ n := by
  have le : (start pending peer).budget ≤ readLimit := by
    have search := searchBudget_lt .block pending
    simp only [budget, start, readLimit]
    omega
  have less : ∀ s : Reader σ, ¬ s.Ended → (s.step asInteger method P).budget < s.budget :=
    fun s running => budget_step asInteger method running
  obtain ⟨n, fits, ended⟩ := exists_iterate_of_lt budget less le
  exact ⟨n, fits, _, rfl, ended, (follows_iterate asInteger method P pending peer n).reads⟩

/-- Whatever stream the peer sends without end, however it is cut, and however each operation completes, the
reading phase ends after no more than `readLimit` turns, with one read operation at most in each. And it ends by
returning if and only if none of the header blocks that are taken makes the parser fault. -/
theorem reading_returns_iff
    (digits : ∀ s : Bytes, s.length = 3 → s.all Char.isDigit = true → asInteger s = some (digitsValue s : Int)) :
    (∃ n ≤ readLimit, ∃ s : Reader σ, s = (step asInteger method P)^[n] (start pending peer) ∧ s.Ended ∧
      s.reads ≤ n) ∧
    ((∃ n ≤ readLimit, ∃ s : Reader σ, s = (step asInteger method P)^[n] (start pending peer) ∧ s.Returned ∧
        s.reads ≤ n) ↔
      ∀ x, Blocks asInteger method P (start pending peer) x → ¬ CommasOnly asInteger x) := by
  have ends := reading_ends asInteger method P pending peer
  refine ⟨ends, ?_, fun none => ?_⟩
  · rintro ⟨n, -, s, rfl, ⟨result, at_, returned⟩, -⟩ x ⟨k, takes⟩ commas
    have fault := (Script.parseResponseHeaders_eq digits x).1 commas
    have raised : ((step asInteger method P)^[k + 1] (start pending peer)).point = .done (.error .noElement) := by
      rw [Function.iterate_succ_apply']
      exact step_of_takes takes fault
    have same := ended_unique ⟨result, at_⟩ ⟨_, raised⟩
    rw [same, raised] at at_
    cases at_
    cases returned _ rfl
  · obtain ⟨n, le, s, rfl, ⟨result, at_⟩, reads⟩ := ends
    refine ⟨n, le, _, rfl, ⟨result, at_, fun stop e => ?_⟩, reads⟩
    subst e
    obtain null | ⟨x, taken, parse⟩ := (follows_iterate asInteger method P pending peer n).raised stop at_
    · exact null
    · rw [(Script.parseResponseHeaders_eq digits x).2 (none x taken)] at parse
      exact Script.orNull_error parse

end Ending

/-! ## Streams without end -/

/-- `n` bytes of a stream. -/
def bytesFrom (stream : Nat → Char) (pos n : Nat) : Bytes := (List.range n).map fun i => stream (pos + i)

/-- The stream, in segments of a fixed size: `read_until` gets a segment, and is late if the pattern is not in
it. -/
def endless (stream : Nat → Char) (segment : Nat) : Peer Nat where
  readUntil pos delim :=
    let received := bytesFrom stream pos segment
    (match find delim received with
      | none => .failed []
      | some i => .ok (received.take (i + delim.length)) (received.drop (i + delim.length)), pos + segment)
  read pos n := (.ok (bytesFrom stream pos n) [], pos + n)

/-- The bytes of a block, over and over. -/
def repeated (block : Bytes) (i : Nat) : Char := block.getD (i % block.length) ' '

/-- An interim response. -/
def interim : Bytes := bytes "HTTP/1.1 100 Continue\r\n\r\n"

/-- On interim responses without end the request returns null. -/
theorem reading_returns_interim :
    (∃ n ≤ readLimit, ∃ s : Reader Nat, s = (step unsignedInteger (bytes "GET")
        (endless (repeated interim) 25))^[n] (start [] 0) ∧ s.Ended ∧ s.reads ≤ n) ∧
      ∀ x, Blocks unsignedInteger (bytes "GET") (endless (repeated interim) 25) (start [] 0) x →
        ¬ CommasOnly unsignedInteger x := by
  obtain ⟨ends, returns⟩ := reading_returns_iff unsignedInteger (bytes "GET")
    (endless (repeated interim) 25) [] 0 unsignedInteger_digits
  -- eleven blocks, each read in one turn and taken in the next
  refine ⟨ends, returns.mp ⟨22, by decide, _, rfl, ⟨.error .null, ?_, ?_⟩, ?_⟩⟩
  · rfl
  · intro stop e
    cases e
    rfl
  · decide

/-- On blocks that make the parser fault it never returns. -/
theorem reading_returns_never :
    ¬ ∃ n, ((step unsignedInteger (bytes "GET") (endless (repeated codingNone) 39))^[n] (start [] 0)).Returned := by
  rintro ⟨n, result, at_, returned⟩
  have raised : ((step unsignedInteger (bytes "GET") (endless (repeated codingNone) 39))^[2]
      (start [] 0)).point = .done (.error .noElement) := rfl
  have same := ended_unique ⟨result, at_⟩ ⟨_, raised⟩
  rw [same, raised] at at_
  cases at_
  cases returned _ rfl

end Reader

end CovNet.Client
