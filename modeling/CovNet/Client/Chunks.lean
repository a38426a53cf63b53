import CovNet.Client.Response
import CovNet.Http.Framing

/-!
# Chunked bodies

`read_chunked_body` (`netutils.ecs`) undoes the chunked coding. A `ChunkedMessage` is an encoded body with
all the freedom a peer has in writing it: how a size is spelled, what follows it on its line, and the
trailers behind the last chunk. `chunked_round_trip` says that the body comes back, and what follows the
message is left alone; a message that is cut short gives nothing.

The second half rests on the first: what a program makes of the bytes in `pending` it makes of them with
any bytes behind (`Reading.exec_append`).
-/

namespace CovNet.Client
open Lib Text Async Http

/-! ## Encoded bodies -/

/-- A spelling of a number in at most eight hexadecimal digits, of either case. -/
structure Spells (n : Nat) (size : Bytes) : Prop where
  digits : ∃ zeros, tolower size = List.replicate zeros '0' ++ Nat.toDigits 16 n
  short : size.length ≤ 8

/-- A line that says a size, with an extension that a semicolon sets off. -/
structure SizeLine (n : Nat) where
  size : Bytes
  extension : Bytes
  spells : Spells n size
  setOff : ∀ c ∈ (extension.dropWhile isSpace).head?, c = ';'
  oneLine : OneLine (size ++ extension)
  fits : (size ++ extension ++ crlf).length ≤ httpMaxHeaderLineSize

/-- The line as it is sent. -/
def SizeLine.bytes {n : Nat} (line : SizeLine n) : Bytes := line.size ++ line.extension ++ crlf

/-- A chunk. -/
structure Chunk where
  data : Bytes
  line : SizeLine data.length
  nonempty : data ≠ []

/-- The chunk as it is sent. -/
def Chunk.bytes (chunk : Chunk) : Bytes := chunk.line.bytes ++ (chunk.data ++ crlf)

/-- An encoded body. -/
structure ChunkedMessage where
  chunks : List Chunk
  last : SizeLine 0
  trailers : List Bytes
  isTrailer : ∀ l ∈ trailers, OneLine l ∧ trim l ≠ [] ∧ (l ++ crlf).length ≤ httpMaxHeaderLineSize
  trailersFit : (joinLines trailers ++ crlf).length ≤ httpMaxHeaderSize
  bodyFits : (chunks.flatMap Chunk.data).length ≤ httpMaxBodySize

namespace ChunkedMessage

/-- The body that is encoded. -/
def body (message : ChunkedMessage) : Bytes := message.chunks.flatMap Chunk.data

/-- The message as it is sent. -/
def bytes (message : ChunkedMessage) : Bytes :=
  message.chunks.flatMap Chunk.bytes ++ (message.last.bytes ++ (joinLines message.trailers ++ crlf))

end ChunkedMessage

/-! ## Programs and what they leave -/

namespace Reading
variable {α β : Type}

/-- A program on a client, with the client it leaves. -/
def exec : Reading α → HttpClient → Option (α × HttpClient)
  | pure a, c => some (a, c)
  | fail, _ => none
  | search mark next, c =>
    match readUntilLimited mark.delim mark.max 2 c with
    | none => none
    | some (x, c) => (next x).exec c
  | exact n next, c =>
    match readExact n c with
    | none => none
    | some (x, c) => (next x).exec c
  | drain next, c =>
    match Client.drain c with
    | none => none
    | some (x, c) => (next x).exec c

/-- The result is the one of `run`. -/
lemma exec_fst (p : Reading α) (c : HttpClient) : (p.exec c).map Prod.fst = p.run c := by
  induction p generalizing c with
  | pure a => rfl
  | fail => rfl
  | search mark next ih =>
    simp only [exec, run]
    cases readUntilLimited mark.delim mark.max 2 c with
    | none => rfl
    | some r => exact ih r.1 r.2
  | exact n next ih =>
    simp only [exec, run]
    cases readExact n c with
    | none => rfl
    | some r => exact ih r.1 r.2
  | drain next ih =>
    simp only [exec, run]
    cases Client.drain c with
    | none => rfl
    | some r => exact ih r.1 r.2

lemma exec_bind (p : Reading α) (f : α → Reading β) (c : HttpClient) :
    (p.bind f).exec c = (p.exec c).bind fun r => (f r.1).exec r.2 := by
  induction p generalizing c with
  | pure a => rfl
  | fail => rfl
  | search mark next ih =>
    simp only [exec, bind]
    cases readUntilLimited mark.delim mark.max 2 c with
    | none => rfl
    | some r => exact ih r.1 r.2
  | exact n next ih =>
    simp only [exec, bind]
    cases readExact n c with
    | none => rfl
    | some r => exact ih r.1 r.2
  | drain next ih =>
    simp only [exec, bind]
    cases Client.drain c with
    | none => rfl
    | some r => exact ih r.1 r.2

/-- A search that finds its delimiter in `pending`. -/
lemma exec_search {mark : Mark} {next : Bytes → Reading α} {x y : Bytes} {sock : Socket}
    (h : cut mark.delim (x ++ y) = some (x, y)) (le : x.length ≤ mark.max) :
    (search mark next).exec ⟨x ++ y, sock⟩ = (next x).exec ⟨y, sock⟩ := by
  have found : readUntilLimited mark.delim mark.max 2 ⟨x ++ y, sock⟩ =
      if x.length ≤ mark.max then some (x, ⟨y, sock⟩) else none := readUntilLimited_pending 1 h
  rw [if_pos le] at found
  simp only [exec, found]

/-- A number of bytes that `pending` has. -/
lemma exec_exact {next : Bytes → Reading α} (x y : Bytes) {sock : Socket} :
    (exact x.length next).exec ⟨x ++ y, sock⟩ = (next x).exec ⟨y, sock⟩ := by
  have all : readExact x.length ⟨x ++ y, sock⟩ = some (x, ⟨y, sock⟩) := by
    simp [readExact, readSteps]
  simp only [exec, all]

/-- The program never reads to the end of the stream. -/
def Bounded : Reading α → Prop
  | pure _ | fail => True
  | search _ next | exact _ next => ∀ x, (next x).Bounded
  | drain _ => False

lemma Bounded.bind {p : Reading α} {f : α → Reading β} (h : p.Bounded) (hf : ∀ a, (f a).Bounded) :
    (p.bind f).Bounded := by
  induction p with
  | pure a => exact hf a
  | fail => trivial
  | search mark next ih => exact fun x => ih x (h x)
  | exact n next ih => exact fun x => ih x (h x)
  | drain next ih => exact h.elim

/-- On a stream that is over a program makes of `pending` what it makes of it with more bytes behind. -/
lemma exec_append {p : Reading α} (bounded : p.Bounded) {a : α} {s s' : Bytes} {sock' : Socket}
    (h : p.exec ⟨s, ⟨[], .eof⟩⟩ = some (a, ⟨s', sock'⟩)) (t : Bytes) (sock : Socket) :
    p.exec ⟨s ++ t, sock⟩ = some (a, ⟨s' ++ t, sock⟩) := by
  induction p generalizing s with
  | pure b =>
    cases h
    rfl
  | fail => cases h
  | search mark next ih =>
    -- without the delimiter in `pending` the search would come to the end of the stream
    by_cases occ : mark.delim <:+: s
    · obtain ⟨⟨x, y⟩, found⟩ := Option.ne_none_iff_exists'.mp fun h => cut_eq_none.mp h occ
      obtain rfl := (cut_spec found).1
      by_cases le : x.length ≤ mark.max
      · rw [exec_search found le] at h
        rw [List.append_assoc, exec_search (List.append_assoc x y t ▸ cut_append found) le]
        exact ih x (bounded x) h
      · have none' : readUntilLimited mark.delim mark.max 2 ⟨x ++ y, ⟨[], .eof⟩⟩ =
            if x.length ≤ mark.max then some (x, ⟨y, ⟨[], .eof⟩⟩) else none :=
          readUntilLimited_pending 1 found
        rw [if_neg le] at none'
        simp only [exec, none'] at h
        cases h
    · have none' := readUntilLimited_fetch (c := ⟨s, ⟨[], .eof⟩⟩) mark.delim_ne_nil mark.max_le occ
      rw [if_neg fun found => mark.delim_ne_nil (List.infix_nil.mp found.1)] at none'
      simp only [exec, none'] at h
      cases h
  | exact n next ih =>
    by_cases enough : n ≤ s.length
    · obtain ⟨x, y, rfl, rfl⟩ : ∃ x y, s = x ++ y ∧ n = x.length :=
        ⟨s.take n, s.drop n, (List.take_append_drop n s).symm, by rw [List.length_take]; omega⟩
      rw [exec_exact] at h
      rw [List.append_assoc, exec_exact]
      exact ih x (bounded x) h
    · have none' := readExact_eq n ⟨s, ⟨[], .eof⟩⟩
      rw [if_neg (by simpa [HttpClient.rest] using enough)] at none'
      simp only [exec, none'] at h
      cases h
  | drain next ih => exact bounded.elim

end Reading

/-! ## Sizes -/

section Sizes
variable {n : Nat} {size : Bytes}

/-- The number that hexadecimal digits stand for. -/
def hexValue (s : Bytes) : Nat := s.foldl (fun val c => val * 16 + (hexCharToInt c).getD 0) 0

/-- The case of a digit does not matter. -/
lemma hexCharToInt_toLower (c : Char) : hexCharToInt c.toLower = hexCharToInt c :=
  toLower_rule (p := fun c d => hexCharToInt d = hexCharToInt c) (fun _ => rfl) (by decide) c

lemma hexCharToInt_digitChar {d : Nat} (h : d < 16) : hexCharToInt d.digitChar = some d := by
  have all : ∀ d : Fin 16, hexCharToInt d.val.digitChar = some d.val := by decide
  exact all ⟨d, h⟩

/-- A digit is no space. -/
lemma isSpace_of_hex {c : Char} (h : (hexCharToInt c).isSome = true) : isSpace c = false ∧ c ≠ ';' := by
  constructor
  · by_contra space
    simp only [isSpace, Bool.not_eq_false, Bool.or_eq_true, beq_iff_eq] at space
    rcases space with ((((rfl | rfl) | rfl) | rfl) | rfl) | rfl <;> exact absurd h (by decide)
  · rintro rfl
    exact absurd h (by decide)

/-- A number comes back from its digits. -/
lemma toDigits_hex (n : Nat) : Nat.toDigits 16 n ≠ [] ∧
    (∀ c ∈ Nat.toDigits 16 n, (hexCharToInt c).isSome = true) ∧ hexValue (Nat.toDigits 16 n) = n := by
  induction n using Nat.strong_induction_on with
  | _ n ih =>
    -- induction on the number without its last digit
    by_cases small : n < 16
    · rw [Nat.toDigits_of_lt_base small]
      simp [hexValue, hexCharToInt_digitChar small]
    · obtain ⟨ne, digits, value⟩ := ih (n / 16) (by omega)
      have last := hexCharToInt_digitChar (Nat.mod_lt n (show 0 < 16 by decide))
      rw [Nat.toDigits_of_base_le (by decide) (by omega)]
      refine ⟨by simp, ?_, ?_⟩
      · intro c mem
        rcases List.mem_append.mp mem with front | back
        · exact digits c front
        · rw [List.mem_singleton.mp back, last]
          rfl
      · rw [hexValue, List.foldl_append]
        show hexValue (Nat.toDigits 16 (n / 16)) * 16 + _ = n
        rw [value, last, Option.getD_some]
        omega

/-- A spelling is a string of digits that stand for its number. -/
lemma Spells.hex (h : Spells n size) :
    size ≠ [] ∧ (∀ c ∈ size, (hexCharToInt c).isSome = true) ∧ hexToInt size = n := by
  obtain ⟨zeros, lower⟩ := h.digits
  obtain ⟨ne, digits, value⟩ := toDigits_hex n
  have all : ∀ c ∈ size, (hexCharToInt c).isSome = true := by
    intro c mem
    have mem' : c.toLower ∈ List.replicate zeros '0' ++ Nat.toDigits 16 n :=
      lower ▸ List.mem_map_of_mem mem
    rw [← hexCharToInt_toLower]
    rcases List.mem_append.mp mem' with zero | digit
    · rw [(List.mem_replicate.mp zero).2]
      rfl
    · exact digits _ digit
  have same : hexValue size = hexValue (tolower size) := by
    simp only [hexValue, tolower, List.foldl_map, hexCharToInt_toLower]
  have front : hexValue (List.replicate zeros '0' ++ Nat.toDigits 16 n) = n := by
    have none : ∀ zeros, hexValue (List.replicate zeros '0') = 0 := by
      intro zeros
      induction zeros with
      | zero => rfl
      | succ zeros ih => exact ih
    rw [hexValue, List.foldl_append]
    exact (congrArg (fun v => (Nat.toDigits 16 n).foldl _ v) (none zeros)).trans value
  refine ⟨?_, all, ?_⟩
  · rintro rfl
    simp [tolower, ne] at lower
  · rw [hexToInt, if_pos (List.all_eq_true.mpr all)]
    exact same.trans (lower ▸ front)

/-- The size on a line is the one it says. -/
lemma SizeLine.chunkSize (line : SizeLine n) : chunkSize line.bytes = some n := by
  obtain ⟨ne, digits, value⟩ := line.spells.hex
  have solid : ∀ c ∈ line.size, isSpace c = false := fun c mem => (isSpace_of_hex (digits c mem)).1
  have noSemi : ';' ∉ line.size := fun mem => (isSpace_of_hex (digits _ mem)).2 rfl
  have taken : ¬ (line.size.isEmpty || decide (line.size.length > 8)) = true := by
    have short := line.spells.short
    simp [ne]
    omega
  have all : (line.size.all fun c => (hexCharToInt c).isSome) = true := List.all_eq_true.mpr digits
  have blank : ∀ c ∈ line.extension.takeWhile isSpace, isSpace c = true :=
    fun c mem => List.mem_takeWhile_imp mem
  have parts := List.takeWhile_append_dropWhile (p := isSpace) (l := line.extension)
  have bare : trim (line.size ++ line.extension.takeWhile isSpace) = line.size := trim_spaces solid blank
  unfold Client.chunkSize SizeLine.bytes
  rw [trim_append_crlf]
  -- the extension is blank, or starts with a semicolon behind blanks
  cases rest : line.extension.dropWhile isSpace with
  | nil =>
    rw [rest, List.append_nil] at parts
    have none : find [';'] line.size = none := by
      rw [find_eq_none]
      exact fun occ => noSemi (occ.subset List.mem_cons_self)
    rw [← parts, bare]
    simp only [none, if_neg taken, if_pos all, value]
  | cons c text =>
    obtain rfl : c = ';' := line.setOff c (by rw [rest]; rfl)
    obtain ⟨d, tail, e⟩ := List.exists_cons_of_ne_nil ne
    have trimmed : trim (line.size ++ line.extension) =
        (line.size ++ line.extension.takeWhile isSpace) ++ ';' :: text.rdropWhile isSpace := by
      rw [← rdropWhile_append_cons rfl, List.append_assoc, ← rest, parts, e, List.cons_append,
        trim_cons (solid d (e ▸ List.mem_cons_self))]
    have first : ';' ∉ line.size ++ line.extension.takeWhile isSpace := by
      rw [List.mem_append, not_or]
      exact ⟨noSemi, fun mem => absurd (blank _ mem) (by decide)⟩
    rw [trimmed]
    simp only [find_first first, List.take_left, bare, if_neg taken, if_pos all, value]

end Sizes

/-! ## The round trip -/

section RoundTrip
variable {α : Type} {n : Nat}

/-- A line is read. -/
lemma exec_line {l : Bytes} {next : Bytes → Reading α} (one : OneLine l)
    (short : (l ++ crlf).length ≤ httpMaxHeaderLineSize) (s : Bytes) (sock : Socket) :
    (Reading.search .line next).exec ⟨l ++ crlf ++ s, sock⟩ = (next (l ++ crlf)).exec ⟨s, sock⟩ := by
  have found : cut Mark.line.delim (l ++ crlf ++ s) = some (l ++ crlf, s) := one.cut s
  exact Reading.exec_search found short

lemma SizeLine.exec_search (line : SizeLine n) {next : Bytes → Reading α} (s : Bytes) (sock : Socket) :
    (Reading.search .line next).exec ⟨line.bytes ++ s, sock⟩ = (next line.bytes).exec ⟨s, sock⟩ :=
  exec_line line.oneLine line.fits s sock

/-- `read_exact` takes so many bytes off `pending`. -/
lemma exec_readBytes (x s : Bytes) (sock : Socket) (le : (x.length : Int) ≤ httpMaxBodySize) :
    (readBytes x.length).exec ⟨x ++ s, sock⟩ = some (x, ⟨s, sock⟩) := by
  unfold readBytes
  split
  · rename_i empty
    rw [List.length_eq_zero_iff.mp empty]
    rfl
  · rw [if_neg (Int.not_lt.mpr le), Reading.exec_exact]
    rfl

/-- The trailers are read up to the empty line. -/
lemma exec_readTrailers {ls : List Bytes} {turns trailerSize : Nat}
    (text : ∀ l ∈ ls, OneLine l ∧ trim l ≠ [] ∧ (l ++ crlf).length ≤ httpMaxHeaderLineSize)
    (fits : trailerSize + (joinLines ls ++ crlf).length ≤ httpMaxHeaderSize) (enough : ls.length < turns)
    (s : Bytes) (sock : Socket) :
    (readTrailers turns trailerSize).exec ⟨joinLines ls ++ crlf ++ s, sock⟩ = some ((), ⟨s, sock⟩) := by
  induction ls generalizing turns trailerSize with
  | nil =>
    obtain ⟨turns, rfl⟩ : ∃ k, turns = k + 1 := ⟨turns - 1, by simp at enough; omega⟩
    have small : ¬ trailerSize + crlf.length > httpMaxHeaderSize := by
      simpa using fits
    have blank : (trim crlf).isEmpty = true := by decide
    have nil : OneLine [] := rfl
    rw [joinLines_nil, readTrailers, exec_line nil (by decide), List.nil_append, if_neg small, if_pos blank]
    rfl
  | cons l ls ih =>
    obtain ⟨turns, rfl⟩ : ∃ k, turns = k + 1 := ⟨turns - 1, by simp at enough; omega⟩
    rw [List.forall_mem_cons] at text
    obtain ⟨⟨one, ne, short⟩, others⟩ := text
    rw [joinLines_cons, List.append_assoc (l ++ crlf), List.length_append] at fits
    have small : ¬ trailerSize + (l ++ crlf).length > httpMaxHeaderSize := by omega
    have some_text : ¬ (trim (l ++ crlf)).isEmpty = true := by
      rw [trim_append_crlf, List.isEmpty_iff]
      exact ne
    rw [joinLines_cons, List.append_assoc (l ++ crlf), List.append_assoc (l ++ crlf), readTrailers,
      exec_line one short, if_neg small, if_neg some_text]
    exact ih others (by omega) (by simpa using enough)

/-- A chunk is read, and the next ones behind it. -/
lemma exec_chunk {chunk : Chunk} {turns : Nat} {body : Bytes}
    (fits : ((body ++ chunk.data).length : Int) ≤ httpMaxBodySize) (s : Bytes) (sock : Socket) :
    (readChunks (turns + 1) body).exec ⟨chunk.bytes ++ s, sock⟩ =
      (readChunks turns (body ++ chunk.data)).exec ⟨s, sock⟩ := by
  obtain ⟨k, len⟩ : ∃ k, chunk.data.length = k + 1 :=
    Nat.exists_eq_add_one_of_ne_zero fun zero => chunk.nonempty (List.length_eq_zero_iff.mp zero)
  have size : chunkSize chunk.line.bytes = some (k + 1) := chunk.line.chunkSize.trans (congrArg some len)
  rw [List.length_append] at fits
  have small : ¬ ((k + 1 : Nat) : Int) > httpMaxBodySize - body.length := by omega
  rw [Chunk.bytes, List.append_assoc, readChunks, SizeLine.exec_search]
  simp only [size, if_neg small]
  show ((readBytes (k + 1)).bind fun data => (readBytes 2).bind fun terminator =>
    if terminator ≠ crlf then .fail else readChunks turns (body ++ data)).exec _ = _
  rw [Reading.exec_bind, List.append_assoc, ← len, exec_readBytes chunk.data _ _ (by omega), Option.bind_some,
    Reading.exec_bind]
  dsimp only
  rw [show (readBytes 2).exec ⟨crlf ++ s, sock⟩ = some (crlf, ⟨s, sock⟩) from
    exec_readBytes crlf s sock (by decide)]
  rfl

/-- The chunks are read one by one. -/
lemma exec_chunks {chunks : List Chunk} {turns : Nat} {body : Bytes}
    (fits : ((body ++ chunks.flatMap Chunk.data).length : Int) ≤ httpMaxBodySize) (s : Bytes)
    (sock : Socket) :
    (readChunks (turns + chunks.length) body).exec ⟨chunks.flatMap Chunk.bytes ++ s, sock⟩ =
      (readChunks turns (body ++ chunks.flatMap Chunk.data)).exec ⟨s, sock⟩ := by
  induction chunks generalizing body with
  | nil => simp
  | cons chunk chunks ih =>
    rw [List.flatMap_cons, ← List.append_assoc] at fits
    have mine : ((body ++ chunk.data).length : Int) ≤ httpMaxBodySize := by
      rw [List.length_append] at fits
      omega
    rw [List.flatMap_cons, List.append_assoc, List.length_cons, ← Nat.add_assoc, exec_chunk mine,
      ih fits, List.flatMap_cons, ← List.append_assoc]

/-- There are no more chunks than bytes. -/
lemma length_chunks_le (chunks : List Chunk) : chunks.length ≤ (chunks.flatMap Chunk.data).length := by
  induction chunks with
  | nil => exact Nat.le_refl 0
  | cons chunk chunks ih =>
    have pos := List.length_pos_iff.mpr chunk.nonempty
    rw [List.length_cons, List.flatMap_cons, List.length_append]
    omega

/-- The programs never read to the end of the stream. -/
lemma readChunkedBody_bounded : readChunkedBody.Bounded := by
  have bytes : ∀ total, (readBytes total).Bounded := by
    intro total
    unfold readBytes
    split
    · trivial
    · split
      · trivial
      · exact fun x => trivial
  have trailers : ∀ turns trailerSize, (readTrailers turns trailerSize).Bounded := by
    intro turns
    induction turns with
    | zero => exact fun _ => trivial
    | succ turns ih =>
      intro trailerSize x
      dsimp only
      split
      · trivial
      · split
        · trivial
        · exact ih _
  have chunks : ∀ turns body, (readChunks turns body).Bounded := by
    intro turns
    induction turns with
    | zero => exact fun _ => trivial
    | succ turns ih =>
      intro body x
      dsimp only
      split
      · trivial
      · exact (trailers _ _).bind fun _ => trivial
      · split
        · trivial
        · refine (bytes _).bind fun data => (bytes 2).bind fun terminator => ?_
          split
          · trivial
          · exact ih _
  exact chunks _ _

end RoundTrip

/-- Decoding undoes the coding, whatever follows the message, and a message that is cut short is not a
body. -/
theorem chunked_round_trip (message : ChunkedMessage) :
    (∀ (rest : Bytes) (sock : Socket),
      readChunkedBody.exec ⟨message.bytes ++ rest, sock⟩ = some (message.body, ⟨rest, sock⟩)) ∧
    ∀ n, n < message.bytes.length →
      readChunkedBody.run ⟨message.bytes.take n, ⟨[], .eof⟩⟩ = none := by
  have decode : ∀ (rest : Bytes) (sock : Socket),
      readChunkedBody.exec ⟨message.bytes ++ rest, sock⟩ = some (message.body, ⟨rest, sock⟩) := by
    intro rest sock
    have fits := message.bodyFits
    have few := length_chunks_le message.chunks
    obtain ⟨turns, enough⟩ : ∃ turns, httpMaxBodySize.toNat + 1 = turns + 1 + message.chunks.length :=
      ⟨httpMaxBodySize.toNat - message.chunks.length, by omega⟩
    rw [readChunkedBody, enough, ChunkedMessage.bytes, List.append_assoc, exec_chunks (by simpa using fits),
      List.append_assoc, readChunks, SizeLine.exec_search]
    simp only [message.last.chunkSize]
    have short : message.trailers.length < httpMaxHeaderSize + 1 := by
      have lines : message.trailers.length ≤ (joinLines message.trailers).length := by
        generalize message.trailers = ls
        induction ls with
        | nil => exact Nat.le_refl 0
        | cons l ls ih =>
          have two : crlf.length = 2 := rfl
          rw [joinLines_cons, List.length_cons, List.length_append, List.length_append]
          omega
      have all := message.trailersFit
      rw [List.length_append] at all
      omega
    show ((readTrailers _ 0).bind fun _ => .pure _).exec _ = _
    rw [Reading.exec_bind, exec_readTrailers message.isTrailer (by simpa using message.trailersFit) short]
    rfl
  refine ⟨decode, fun n lt => ?_⟩
  rw [← Reading.exec_fst, Option.map_eq_none_iff]
  by_contra some'
  obtain ⟨⟨body, c⟩, early⟩ := Option.ne_none_iff_exists'.mp some'
  -- what is decoded too early is decoded again with the rest of the message behind, which is left over
  have again := Reading.exec_append readChunkedBody_bounded early (message.bytes.drop n) ⟨[], .eof⟩
  have whole := decode [] ⟨[], .eof⟩
  rw [List.take_append_drop] at again
  rw [List.append_nil, again] at whole
  simp only [Option.some.injEq, Prod.mk.injEq, HttpClient.mk.injEq, List.append_eq_nil_iff,
    List.drop_eq_nil_iff] at whole
  omega

/-- Two chunks, one of which looks like the end of a line and a size, and a trailer. -/
theorem chunked_round_trip_two :
    ∃ message : ChunkedMessage,
      message.bytes = bytes "04;a=b\r\nWiki\r\n0A ;\r\npedia;\r\n12\r\n00\r\nX: y\r\n\r\n" ∧
      readChunkedBody.exec ⟨message.bytes ++ bytes "HTTP", ⟨[], .eof⟩⟩ =
        some (bytes "Wikipedia;\r\n12", ⟨bytes "HTTP", ⟨[], .eof⟩⟩) ∧
      readChunkedBody.run ⟨message.bytes.take 30, ⟨[], .eof⟩⟩ = none := by
  let wiki : Chunk := ⟨bytes "Wiki",
    ⟨bytes "04", bytes ";a=b", ⟨⟨1, by decide⟩, by decide⟩, by rintro _ ⟨⟩; rfl, rfl, by decide⟩, by decide⟩
  let pedia : Chunk := ⟨bytes "pedia;\r\n12",
    ⟨bytes "0A", bytes " ;", ⟨⟨1, by decide⟩, by decide⟩, by rintro _ ⟨⟩; rfl, rfl, by decide⟩, by decide⟩
  let message : ChunkedMessage := ⟨[wiki, pedia],
    ⟨bytes "00", [], ⟨⟨1, by decide⟩, by decide⟩, nofun, rfl, by decide⟩, [bytes "X: y"],
    fun l mem => by rw [List.mem_singleton.mp mem]; exact ⟨rfl, by decide, by decide⟩,
    by decide, by decide⟩
  obtain ⟨decode, cut⟩ := chunked_round_trip message
  exact ⟨message, rfl, decode (bytes "HTTP") ⟨[], .eof⟩, cut 30 (by decide)⟩

end CovNet.Client
