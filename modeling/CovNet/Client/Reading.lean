import CovNet.Http.Reader

/-!
# The reading phase of the client

`http_client.http_request` (`netutils.ecs`) reads a response off its socket with three operations:
`read_until_limited` up to a delimiter, `read_exact` for a number of bytes, and a loop that reads to
the end of the stream. Bytes read ahead wait in `pending`.

The phase is a program over these operations (`Reading`). `Reading.run` runs it on a client, with the
operations of the source; `Reading.ideal` runs it on the stream as a whole. Whether both give the
same response is settled operation by operation in `CovNet.Client.Segments`.
-/

namespace CovNet.Client
open Lib Text Async Http

def httpClientReadChunk : Nat := 8192

/-- What a client waits for: the end of a header block or the end of a line. -/
inductive Mark where
  | block
  | line
  deriving DecidableEq, Repr

def Mark.delim : Mark → Bytes
  | block => crlf ++ crlf
  | line => crlf

def Mark.max : Mark → Nat
  | block => httpMaxHeaderSize
  | line => httpMaxHeaderLineSize

/-- A program over the reading operations; `fail` is the result `null`, which every operation that
fails passes on. -/
inductive Reading (α : Type) where
  | pure (a : α)
  | fail
  | search (mark : Mark) (next : Bytes → Reading α)
  | exact (n : Nat) (next : Bytes → Reading α)
  | drain (next : Bytes → Reading α)

def Reading.bind {α β : Type} : Reading α → (α → Reading β) → Reading β
  | pure a, f => f a
  | fail, _ => fail
  | search mark next, f => search mark fun x => (next x).bind f
  | exact n next, f => exact n fun x => (next x).bind f
  | drain next, f => drain fun x => (next x).bind f

instance : Monad Reading where
  pure := Reading.pure
  bind := Reading.bind

lemma Reading.bind_assoc {α β γ : Type} (p : Reading α) (f : α → Reading β) (g : β → Reading γ) :
    (p.bind f).bind g = p.bind fun a => (f a).bind g := by
  induction p with
  | pure a => rfl
  | fail => rfl
  | search mark next ih => simp only [bind, ih]
  | exact n next ih => simp only [bind, ih]
  | drain next ih => simp only [bind, ih]

/-! ## The operations -/

/-- The fields of `http_client` that reading uses. -/
structure HttpClient where
  pending : Bytes
  sock : Socket
  deriving DecidableEq, Repr

/-- The bytes of the response not yet used. -/
def HttpClient.rest (c : HttpClient) : Bytes := c.pending ++ c.sock.segments.flatten

/-- `http_client.read_until_limited`. Every turn searches with a new state; whatever that has read
goes into `pending`. A second turn finds the delimiter. -/
def readUntilLimited (delim : Bytes) (maxSize : Nat) : Nat → HttpClient → Option (Bytes × HttpClient)
  | 0, _ => none
  | turns + 1, c =>
    match find delim c.pending with
    | some pos =>
      if pos + delim.length > maxSize then none
      else
        some (c.pending.take (pos + delim.length),
          { c with pending := c.pending.drop (pos + delim.length) })
    | none =>
      let (sock, st) := readUntil c.sock State.new delim
      match completed st with
      | .error _ => none
      | .ok () =>
        let (chunk, st) := getResult st
        if chunk.isEmpty then none
        else
          match if 0 < st.buffer.length then getBuffer st st.buffer.length else some ([], st) with
          | none => none
          | some (extra, _) =>
            let pending := c.pending ++ chunk ++ extra
            if pending.length > maxSize then none
            else readUntilLimited delim maxSize turns ⟨pending, sock⟩

/-- The loop of `read_exact` that reads from the socket. -/
def readSteps : Nat → Nat → Bytes → Socket → Option (Bytes × Socket)
  | 0, _, _, _ => none
  | turns + 1, need, out, sock =>
    if need = 0 then some (out, sock)
    else
      match read sock (min need httpClientReadChunk) with
      | none => none
      | some (sock, st) =>
        match completed st with
        | .error _ => none
        | .ok () =>
          let chunk := (getResult st).1
          if chunk.isEmpty then none
          else readSteps turns (need - chunk.length) (out ++ chunk) sock

/-- `http_client.read_exact`, for a number of bytes that is not refused. -/
def readExact (total : Nat) (c : HttpClient) : Option (Bytes × HttpClient) :=
  match readSteps (total + 1) (total - c.pending.length) (c.pending.take total) c.sock with
  | none => none
  | some (out, sock) => some (out, ⟨c.pending.drop total, sock⟩)

/-- The loop of `read_body` that reads to the end of the stream. -/
def readToEnd : Nat → Bytes → Socket → Option (Bytes × Socket)
  | 0, _, _ => none
  | turns + 1, bodyBuf, sock =>
    match read sock httpClientReadChunk with
    | none => none
    | some (sock, st) =>
      match completed st with
      | .error _ =>
        some (bodyBuf ++ (if st.hasDone then (getResult st).1 else []), sock)
      | .ok () =>
        let chunk := (getResult st).1
        if chunk.isEmpty then some (bodyBuf, sock)
        else if (bodyBuf.length : Int) > httpMaxBodySize - chunk.length then none
        else readToEnd turns (bodyBuf ++ chunk) sock

/-- The body of a response that ends with its stream. -/
def drain (c : HttpClient) : Option (Bytes × HttpClient) :=
  match readToEnd (c.sock.segments.flatten.length + 1) c.pending c.sock with
  | none => none
  | some (body, sock) => some (body, ⟨[], sock⟩)

namespace Reading
variable {α : Type}

/-- A program on a client. -/
def run : Reading α → HttpClient → Option α
  | pure a, _ => some a
  | fail, _ => none
  | search mark next, c =>
    match readUntilLimited mark.delim mark.max 2 c with
    | none => none
    | some (x, c) => (next x).run c
  | exact n next, c =>
    match readExact n c with
    | none => none
    | some (x, c) => (next x).run c
  | drain next, c =>
    match Client.drain c with
    | none => none
    | some (x, c) => (next x).run c

/-- The limit on a body that ends with its stream is checked for full chunks only, the first of which
starts behind the bytes read ahead. -/
def Exceeds (ahead total : Nat) : Prop :=
  0 < (total - ahead) / httpClientReadChunk ∧
    httpMaxBodySize <
      (ahead + httpClientReadChunk * ((total - ahead) / httpClientReadChunk) : Nat)

instance (ahead total : Nat) : Decidable (Exceeds ahead total) :=
  inferInstanceAs (Decidable (_ ∧ _))

/-- A program on a stream: a search takes the bytes through the first delimiter, if that ends within
the limit. -/
def ideal : Reading α → Bytes → Option α
  | pure a, _ => some a
  | fail, _ => none
  | search mark next, s =>
    match cut mark.delim s with
    | none => none
    | some (x, rest) => if x.length ≤ mark.max then (next x).ideal rest else none
  | exact n next, s =>
    if n ≤ s.length then (next (s.take n)).ideal (s.drop n) else none
  | drain next, s => if Exceeds 0 s.length then none else (next s).ideal []

end Reading

end CovNet.Client
