import CovNet.Http.Session
import Mathlib.Data.List.Forall2

/-!
# Responses

The responses of `netutils.ecs`: the status codes, `compose_response` for errors, and
`http_session.send_response` for what handlers send; and the rewrite that `master_response_worker`
applies to a response when its connection does not stay open.

A `Message` is a response as its receiver reads it: header lines up to the first blank line, and the
body. Its bytes determine it (`Message.bytes_inj`), so what is said about the message a byte string
stands for is said about the bytes.
-/

namespace CovNet.Http
open Lib Text

/-- `state_codes`. -/
inductive StateCode where
  | code200 | code400 | code403 | code404 | code408 | code413 | code429 | code431
  | code500 | code502 | code503 | codeEof
  deriving DecidableEq, Repr

/-- The text of a status code. -/
def StateCode.text : StateCode → Bytes
  | code200 => bytes "200 OK"
  | code400 => bytes "400 Bad Request"
  | code403 => bytes "403 Forbidden"
  | code404 => bytes "404 Not Found"
  | code408 => bytes "408 Request Timeout"
  | code413 => bytes "413 Payload Too Large"
  | code429 => bytes "429 Too Many Requests"
  | code431 => bytes "431 Request Header Fields Too Large"
  | code500 => bytes "500 Internal Server Error"
  | code502 => bytes "502 Bad Gateway"
  | code503 => bytes "503 Service Unavailable"
  | codeEof => bytes "000 End of file"

def serverName : Bytes := bytes "CovScript-NetUtils"

def serverVersion : Bytes := bytes "2.2"

/-- `runtime.utc_time`. -/
structure UtcTime where
  wday : Fin 7
  mday : Nat
  mon : Fin 12
  year : Int
  hour : Nat
  min : Nat
  sec : Nat
  deriving DecidableEq, Repr

/-- `to_string` of a natural number. -/
def decimal (n : Nat) : Bytes := Nat.toDigits 10 n

/-- `to_string` of an integer. -/
def decimalInt : Int → Bytes
  | .ofNat n => decimal n
  | .negSucc n => '-' :: decimal (n + 1)

def wdayMap : List Bytes :=
  [bytes "Sun", bytes "Mon", bytes "Tue", bytes "Wed", bytes "Thu", bytes "Fri", bytes "Sat"]

def monMap : List Bytes :=
  [bytes "Jan", bytes "Feb", bytes "Mar", bytes "Apr", bytes "May", bytes "Jun",
    bytes "Jul", bytes "Aug", bytes "Sep", bytes "Oct", bytes "Nov", bytes "Dec"]

/-- `time_padding`. -/
def timePadding (n width : Nat) : Bytes :=
  List.replicate (width - (decimal n).length) '0' ++ decimal n

/-- `compose_http_time`. -/
def composeHttpTime (tm : UtcTime) : Bytes :=
  wdayMap.get tm.wday ++ bytes ", " ++
    timePadding tm.mday 2 ++ bytes " " ++
    monMap.get tm.mon ++ bytes " " ++
    decimalInt (1900 + tm.year) ++ bytes " " ++
    timePadding tm.hour 2 ++ bytes ":" ++
    timePadding tm.min 2 ++ bytes ":" ++
    timePadding tm.sec 2 ++ bytes " GMT"

/-- `compose_response`. -/
def composeResponse (code : Bytes) : Bytes :=
  bytes "HTTP/1.1 " ++ code ++ crlf ++
    (bytes "Connection: close" ++ crlf) ++
    (bytes "Content-Length: 0" ++ crlf ++ crlf)

/-- The string `http_session.send_response` writes, for a session of the given version and
connection. -/
def sendResponse (tm : UtcTime) (version connection code data type : Bytes) : Bytes :=
  (bytes "HTTP/" ++ version ++ bytes " " ++ code ++ crlf) ++
    (bytes "Date: " ++ composeHttpTime tm ++ crlf) ++
    (bytes "Server: " ++ serverName ++ bytes "/" ++ serverVersion ++ crlf) ++
    (bytes "Connection: " ++ connection ++ crlf) ++
    (bytes "Content-Length: " ++ decimal data.length ++ crlf) ++
    (bytes "Content-Type: " ++ type ++ crlf) ++
    crlf ++
    data

/-- `keep_alive_replace_reg`. -/
def keepAliveReplaceReg : Bytes := bytes "Connection: keep-alive"

/-- What the response worker writes for a response. -/
def writtenResponse (keepAlive : Bool) (response : Bytes) : Bytes :=
  if !keepAlive then replaceAll keepAliveReplaceReg (bytes "Connection: close") response
  else response

/-! ## Messages -/

/-- A line with text on it. -/
def IsLine (l : Bytes) : Prop := l ≠ [] ∧ '\r' ∉ l ∧ '\n' ∉ l

instance (l : Bytes) : Decidable (IsLine l) := inferInstanceAs (Decidable (_ ∧ _ ∧ _))

/-- Header lines and a body. -/
@[ext] structure Message where
  lines : List Bytes
  body : Bytes
  isLine : ∀ l ∈ lines, IsLine l

namespace Message

/-- The header block. -/
def block (ls : List Bytes) : Bytes := ls.flatMap (· ++ crlf) ++ crlf

/-- A message as it is sent. -/
def bytes (m : Message) : Bytes := block m.lines ++ m.body

@[simp] lemma block_cons (l : Bytes) (ls : List Bytes) :
    block (l :: ls) = l ++ crlf ++ block ls := by
  simp [block]

/-- The texts behind a header's name. -/
def values (m : Message) (name : Bytes) : List Bytes :=
  m.lines.filterMap fun l => if name.isPrefixOf l then some (l.drop name.length) else none

/-- A line ends at the first carriage return. -/
lemma line_inj {l l' s s' : Bytes} (h : '\r' ∉ l) (h' : '\r' ∉ l')
    (e : l ++ crlf ++ s = l' ++ crlf ++ s') : l = l' ∧ s = s' := by
  induction l generalizing l' with
  | nil =>
    cases l' with
    | nil => exact ⟨rfl, by simpa [crlf] using e⟩
    | cons a l' =>
      simp only [crlf, List.nil_append, List.cons_append, List.cons.injEq] at e
      exact absurd (by simp [← e.1]) h'
  | cons a l ih =>
    cases l' with
    | nil =>
      simp only [crlf, List.nil_append, List.cons_append, List.cons.injEq] at e
      exact absurd (by simp [e.1]) h
    | cons b l' =>
      simp only [List.cons_append, List.cons.injEq] at e
      simp only [List.mem_cons, not_or] at h h'
      obtain ⟨rfl, rfl⟩ := ih h.2 h'.2 (by simpa using e.2)
      exact ⟨by rw [e.1], rfl⟩

/-- The bytes of a message determine it. -/
lemma bytes_inj {m m' : Message} (e : m.bytes = m'.bytes) : m = m' := by
  suffices go : ∀ ls ls' (b b' : Bytes), (∀ l ∈ ls, IsLine l) → (∀ l ∈ ls', IsLine l) →
      block ls ++ b = block ls' ++ b' → ls = ls' ∧ b = b' by
    obtain ⟨hl, hb⟩ := go _ _ _ _ m.isLine m'.isLine e
    exact Message.ext hl hb
  -- a blank line is not a header line, so both blocks end together
  intro ls
  induction ls with
  | nil =>
    rintro (_ | ⟨l', ls'⟩) b b' - h' e
    · exact ⟨rfl, by simpa [block] using e⟩
    · obtain ⟨ne, hr, -⟩ := h' l' (by simp)
      have e' : [] ++ crlf ++ b = l' ++ crlf ++ (block ls' ++ b') := by simpa [block] using e
      exact absurd (line_inj (by simp) hr e').1.symm ne
  | cons l ls ih =>
    rintro (_ | ⟨l', ls'⟩) b b' h h' e
    · obtain ⟨ne, hr, -⟩ := h l (by simp)
      have e' : l ++ crlf ++ (block ls ++ b) = [] ++ crlf ++ b' := by simpa [block] using e
      exact absurd (line_inj hr (by simp) e').1 ne
    · have e' : l ++ crlf ++ (block ls ++ b) = l' ++ crlf ++ (block ls' ++ b') := by simpa using e
      obtain ⟨rfl, e''⟩ := line_inj (h l (by simp)).2.1 (h' l' (by simp)).2.1 e'
      obtain ⟨rfl, rfl⟩ := ih ls' b b' (fun k hk => h k (by simp [hk]))
        (fun k hk => h' k (by simp [hk])) e''
      exact ⟨rfl, rfl⟩

/-- A rewriting of single lines, applied to a message. -/
def map (f : Bytes → Bytes) (hf : ∀ l, IsLine l → IsLine (f l)) (m : Message) : Message where
  lines := m.lines.map f
  body := f m.body
  isLine := by
    intro l hl
    obtain ⟨k, hk, rfl⟩ := List.mem_map.mp hl
    exact hf k (m.isLine k hk)

/-- A pattern without line breaks is replaced line by line. -/
lemma replaceAll_bytes (pat rep : Bytes) (hr : '\r' ∉ pat) (hn : '\n' ∉ pat) (ne : pat ≠ [])
    (hf : ∀ l, IsLine l → IsLine (replaceAll pat rep l)) (m : Message) :
    replaceAll pat rep m.bytes = (m.map (replaceAll pat rep) hf).bytes := by
  have line : ∀ l s : Bytes,
      replaceAll pat rep (l ++ crlf ++ s) = replaceAll pat rep l ++ crlf ++ replaceAll pat rep s := by
    intro l s
    have e := replaceAll_append_cons rep [] s hn ne
    rw [List.append_assoc, crlf, List.cons_append, replaceAll_append_cons rep _ _ hr ne]
    simpa [replaceAll, replaceFrom] using e
  suffices go : ∀ ls : List Bytes, replaceAll pat rep (block ls ++ m.body) =
      block (ls.map (replaceAll pat rep)) ++ replaceAll pat rep m.body from go m.lines
  intro ls
  induction ls with
  | nil => simpa [block, replaceAll, replaceFrom] using line [] m.body
  | cons l ls ih =>
    rw [List.map_cons, block_cons, block_cons, List.append_assoc, line, ih]
    simp

end Message

/-- The line of the receiver is the one sent, or both are `Connection` lines. -/
def SameLine (l l' : Bytes) : Prop :=
  l' = l ∨ bytes "Connection: " <+: l ∧ bytes "Connection: " <+: l'

/-- What the receiver may see of the header lines and body that were sent: the same body, announced
by its length, and the same header lines but for the `Connection` line. -/
def Faithful (lines : List Bytes) (body written : Bytes) : Prop :=
  ∃ m : Message, written = m.bytes ∧ m.body = body ∧
    m.values (bytes "Content-Length: ") = [decimal m.body.length] ∧
    List.Forall₂ SameLine lines m.lines

section SendResponse
variable {tm : UtcTime} {version connection code data type : Bytes}

/-- The header lines of `send_response`. -/
def sentLines (tm : UtcTime) (version connection code data type : Bytes) : List Bytes :=
  [bytes "HTTP/" ++ version ++ bytes " " ++ code,
    bytes "Date: " ++ composeHttpTime tm,
    bytes "Server: " ++ serverName ++ bytes "/" ++ serverVersion,
    bytes "Connection: " ++ connection,
    bytes "Content-Length: " ++ decimal data.length,
    bytes "Content-Type: " ++ type]

lemma isDigit_decimal {n : Nat} {c : Char} (h : c ∈ decimal n) : c.isDigit = true :=
  Nat.isDigit_of_mem_toDigits (by omega) (by omega) h

/-- Neither a line break nor the `k` of `keep_alive_replace_reg`. -/
def isPlain (c : Char) : Bool := c != '\r' && c != '\n' && c != 'k'

lemma isPlain_of_isDigit {c : Char} (h : c.isDigit = true) : isPlain c = true := by
  have ne : ∀ d : Char, d.isDigit = false → c ≠ d := by
    rintro d hd rfl
    simp [h] at hd
  simp [isPlain, ne '\r' rfl, ne '\n' rfl, ne 'k' rfl]

lemma decimal_plain (n : Nat) : (decimal n).all isPlain = true :=
  List.all_eq_true.mpr fun _ h => isPlain_of_isDigit (isDigit_decimal h)

lemma composeHttpTime_plain : (composeHttpTime tm).all isPlain = true := by
  have pad : ∀ n w, (timePadding n w).all isPlain = true := by
    intro n w
    rw [timePadding, List.all_append, decimal_plain, Bool.and_true]
    simp [isPlain]
  have int : ∀ i, (decimalInt i).all isPlain = true := by
    rintro (n | n)
    · exact decimal_plain n
    · rw [decimalInt, List.all_cons, decimal_plain]
      rfl
  have day : ∀ d : Fin 7, (wdayMap.get d).all isPlain = true := by decide
  have mon : ∀ d : Fin 12, (monMap.get d).all isPlain = true := by decide
  simp only [composeHttpTime, List.all_append, pad, int, day, mon]
  decide

lemma noBreak_of_plain {s : Bytes} (h : s.all isPlain = true) : NoBreak s := by
  rw [List.all_eq_true] at h
  exact ⟨fun mem => absurd (h _ mem) (by decide), fun mem => absurd (h _ mem) (by decide)⟩

/-- The pattern of the rewrite occurs in no plain text. -/
lemma not_infix_of_plain {s : Bytes} (h : s.all isPlain = true) : ¬ keepAliveReplaceReg <:+: s := by
  intro occ
  rw [List.all_eq_true] at h
  exact absurd (h 'k' (occ.subset (by decide))) (by decide)

/-- `send_response` writes a message. -/
lemma sendResponse_eq : sendResponse tm version connection code data type =
    Message.block (sentLines tm version connection code data type) ++ data := by
  simp [sendResponse, sentLines, Message.block]

lemma sentLines_isLine (tm : UtcTime) (data : Bytes) (hv : NoBreak version) (hc : NoBreak connection) (hcode : NoBreak code)
    (ht : NoBreak type) : ∀ l ∈ sentLines tm version connection code data type, IsLine l := by
  have app : ∀ {s t : Bytes}, s ≠ [] → NoBreak s → NoBreak t → IsLine (s ++ t) :=
    fun ne hs ht => ⟨by simp [ne], hs.append ht⟩
  intro l hl
  simp only [sentLines, List.mem_cons, List.not_mem_nil, or_false] at hl
  rcases hl with rfl | rfl | rfl | rfl | rfl | rfl
  · rw [List.append_assoc, List.append_assoc]
    exact app (by decide) (by decide) (hv.append (NoBreak.append (by decide) hcode))
  · exact app (by decide) (by decide) (noBreak_of_plain composeHttpTime_plain)
  · decide
  · exact app (by decide) (by decide) hc
  · exact app (by decide) (by decide) (noBreak_of_plain (decimal_plain _))
  · exact app (by decide) (by decide) ht

/-- The pattern occurs in the status line only within the code. -/
lemma infix_status (hv : version.all isVersionChar = true) :
    keepAliveReplaceReg <:+: bytes "HTTP/" ++ version ++ bytes " " ++ code ↔
      keepAliveReplaceReg <:+: code := by
  have h : 'C' ∉ bytes "HTTP/" ++ version ++ bytes " " := by
    simp only [List.mem_append, not_or]
    refine ⟨⟨by decide, fun mem => ?_⟩, by decide⟩
    exact absurd (List.all_eq_true.mp hv _ mem) (by decide)
  exact infix_append_of_notMem h

/-- The pattern occurs in the `Content-Type` line only within the type. -/
lemma infix_contentType (type : Bytes) :
    keepAliveReplaceReg <:+: bytes "Content-Type: " ++ type ↔ keepAliveReplaceReg <:+: type := by
  have start : ¬ keepAliveReplaceReg <+: bytes "Content-Type: " ++ type := by
    rw [← List.isPrefixOf_iff_prefix]
    exact Bool.false_ne_true
  have e : bytes "Content-Type: " ++ type = 'C' :: (bytes "ontent-Type: " ++ type) := rfl
  rw [e] at start ⊢
  rw [List.infix_cons_iff, or_iff_right start]
  exact infix_append_of_notMem (by decide)

/-- The rewrite, as the response worker applies it. -/
def rewrite (s : Bytes) : Bytes := replaceAll keepAliveReplaceReg (bytes "Connection: close") s

/-- The rewrite keeps a `Connection` line one. -/
lemma rewrite_connection (x : Bytes) :
    bytes "Connection: " <+: rewrite (bytes "Connection: " ++ x) := by
  by_cases pre : keepAliveReplaceReg <+: bytes "Connection: " ++ x
  · have h := replaceAll_of_start (bytes "Connection: close") pre (by simp [bytes])
    exact List.IsPrefix.trans (by decide) h
  · have e : bytes "Connection: " ++ x = 'C' :: (bytes "onnection: " ++ x) := rfl
    have skip : rewrite (bytes "onnection: " ++ x) = bytes "onnection: " ++ rewrite x :=
      replaceAll_append_of_notMem (by decide)
    have step : rewrite ('C' :: (bytes "onnection: " ++ x)) =
        'C' :: rewrite (bytes "onnection: " ++ x) := replaceAll_cons (e ▸ pre)
    rw [e, step, skip]
    exact List.prefix_append (bytes "Connection: ") _

lemma rewrite_isLine {l : Bytes} (h : IsLine l) : IsLine (rewrite l) := by
  have mem : ∀ c, c ∉ l → c ∉ bytes "Connection: close" → c ∉ rewrite l :=
    fun c h1 h2 h => (mem_replaceAll h).elim h1 h2
  exact ⟨replaceAll_ne_nil (by decide) h.1, mem _ h.2.1 (by decide), mem _ h.2.2 (by decide)⟩

/-- The rewrite changes exactly the texts with the pattern. -/
lemma rewrite_eq_self {s : Bytes} : rewrite s = s ↔ ¬ keepAliveReplaceReg <:+: s := by
  refine ⟨fun e occ => ?_, replaceAll_of_not_occ⟩
  have shorter : (bytes "Connection: close").length < keepAliveReplaceReg.length := by decide
  have lt := replaceAll_length_lt shorter occ
  exact absurd (congrArg List.length e) lt.ne

/-- The lengths announced by the lines of `send_response`, whatever its `Connection` line is. -/
lemma values_sent (tm : UtcTime) (version connection code type : Bytes) {m : Message} {c : Bytes}
    (hc : bytes "Connection: " <+: c)
    (e : m.lines = (sentLines tm version connection code data type).set 3 c) :
    m.values (bytes "Content-Length: ") = [decimal data.length] := by
  have no : ∀ {l : Bytes}, (bytes "Content-Length: ").isPrefixOf l = false →
      ¬ bytes "Content-Length: " <+: l := by
    intro l h
    rw [← List.isPrefixOf_iff_prefix, h]
    exact Bool.false_ne_true
  have hc' : ¬ bytes "Content-Length: " <+: c := by
    obtain ⟨x, rfl⟩ := hc
    exact no rfl
  have h0 : ∀ x, ¬ bytes "Content-Length: " <+: bytes "HTTP/" ++ x := fun x => no rfl
  have h1 : ∀ x, ¬ bytes "Content-Length: " <+: bytes "Date: " ++ x := fun x => no rfl
  have h2 : ∀ x, ¬ bytes "Content-Length: " <+: bytes "Server: " ++ x := fun x => no rfl
  have h5 : ∀ x, ¬ bytes "Content-Length: " <+: bytes "Content-Type: " ++ x := fun x => no rfl
  simp [Message.values, e, sentLines, hc', h0, h1, h2, h5]

/-- The rewrite changes at most the status, the connection and the type of a response. -/
lemma map_rewrite_sentLines : (sentLines tm version connection code data type).map rewrite =
    [rewrite (bytes "HTTP/" ++ version ++ bytes " " ++ code),
      bytes "Date: " ++ composeHttpTime tm,
      bytes "Server: " ++ serverName ++ bytes "/" ++ serverVersion,
      rewrite (bytes "Connection: " ++ connection),
      bytes "Content-Length: " ++ decimal data.length,
      rewrite (bytes "Content-Type: " ++ type)] := by
  have plain : ∀ {s : Bytes}, s.all isPlain = true → rewrite s = s :=
    fun h => rewrite_eq_self.mpr (not_infix_of_plain h)
  have date : (bytes "Date: " ++ composeHttpTime tm).all isPlain = true := by
    rw [List.all_append, composeHttpTime_plain]
    decide
  have length : (bytes "Content-Length: " ++ decimal data.length).all isPlain = true := by
    rw [List.all_append, decimal_plain]
    decide
  have server : (bytes "Server: " ++ serverName ++ bytes "/" ++ serverVersion).all isPlain = true := by
    decide
  simp only [sentLines, List.map_cons, List.map_nil, plain date, plain length, plain server]

/-- The rewritten lines are those sent exactly when the status and type lines are left alone. -/
lemma rewrite_sentLines (tm : UtcTime) (version connection code data type : Bytes) :
    List.Forall₂ SameLine (sentLines tm version connection code data type)
      ((sentLines tm version connection code data type).map rewrite) ↔
    rewrite (bytes "HTTP/" ++ version ++ bytes " " ++ code) =
        bytes "HTTP/" ++ version ++ bytes " " ++ code ∧
      rewrite (bytes "Content-Type: " ++ type) = bytes "Content-Type: " ++ type := by
  have other : ∀ {x y : Bytes}, (bytes "Connection: ").isPrefixOf x = false →
      (SameLine x y ↔ y = x) := by
    intro x y h
    refine or_iff_left fun pre => ?_
    rw [← List.isPrefixOf_iff_prefix, h] at pre
    exact Bool.false_ne_true pre.1
  have same : ∀ x, SameLine x x := fun x => .inl rfl
  have conn : SameLine (bytes "Connection: " ++ connection)
      (rewrite (bytes "Connection: " ++ connection)) :=
    .inr ⟨List.prefix_append _ _, rewrite_connection _⟩
  rw [map_rewrite_sentLines]
  simp only [sentLines, List.forall₂_cons, same, conn, List.forall₂_nil_left_iff, and_true, true_and]
  rw [other rfl, other rfl]

/-- Through the response worker a response stays what the slave sent exactly when the connection
stays open, or the text that is rewritten occurs neither in the code nor in the type nor in the
body. -/
theorem written_faithful_iff (tm : UtcTime) (version connection code data type : Bytes)
    (keepAlive : Bool) (hv : version.all isVersionChar = true) (hc : NoBreak connection)
    (hcode : NoBreak code) (ht : NoBreak type) :
    Faithful (sentLines tm version connection code data type) data
        (writtenResponse keepAlive (sendResponse tm version connection code data type)) ↔
      keepAlive = true ∨ ¬ keepAliveReplaceReg <:+: code ∧ ¬ keepAliveReplaceReg <:+: type ∧
        ¬ keepAliveReplaceReg <:+: data := by
  have nv : NoBreak version := by
    have h : ∀ c, isVersionChar c = false → c ∉ version := by
      intro c hc mem
      simp [List.all_eq_true.mp hv c mem] at hc
    exact ⟨h _ rfl, h _ rfl⟩
  have lines := sentLines_isLine tm data nv hc hcode ht
  let sent : Message := ⟨_, data, lines⟩
  have esent : sendResponse tm version connection code data type = sent.bytes := sendResponse_eq
  cases keepAlive with
  | true =>
    refine iff_of_true ⟨sent, esent, rfl, ?_, ?_⟩ (.inl rfl)
    · exact values_sent tm version connection code type (List.prefix_append _ connection) rfl
    · exact List.forall₂_same.mpr fun l _ => .inl rfl
  | false =>
    let seen : Message := sent.map rewrite fun _ => rewrite_isLine
    -- no break is put in or taken out, so the rewrite is one of the lines
    have ew : writtenResponse false (sendResponse tm version connection code data type) =
        seen.bytes := by
      rw [esent]
      exact Message.replaceAll_bytes keepAliveReplaceReg _ (by decide) (by decide) (by decide) _ sent
    rw [ew, ← infix_status hv, ← infix_contentType type, ← rewrite_eq_self,
      ← rewrite_eq_self, ← rewrite_eq_self, or_iff_right Bool.false_ne_true, ← and_assoc,
      ← rewrite_sentLines tm version connection code data type]
    constructor
    · rintro ⟨m, e, hb, -, same⟩
      obtain rfl := Message.bytes_inj e
      exact ⟨same, hb⟩
    · rintro ⟨same, hb⟩
      have hbody : seen.body = data := hb
      refine ⟨seen, rfl, hb, ?_, same⟩
      rw [hbody]
      obtain ⟨hs, ht⟩ := (rewrite_sentLines tm version connection code data type).mp same
      apply values_sent tm version connection code type (rewrite_connection connection)
      change (sentLines tm version connection code data type).map rewrite = _
      rw [map_rewrite_sentLines, hs, ht]
      rfl

/-- The start of the epoch. -/
def epoch : UtcTime := ⟨4, 1, 0, 70, 0, 0, 0⟩

/-- A page without the text arrives as it was sent on a connection about to close. -/
theorem written_faithful_page :
    Faithful (sentLines epoch (bytes "1.1") (bytes "keep-alive") (bytes "200 OK") (bytes "hello")
        (bytes "text/plain")) (bytes "hello")
      (writtenResponse false (sendResponse epoch (bytes "1.1") (bytes "keep-alive")
        (bytes "200 OK") (bytes "hello") (bytes "text/plain"))) :=
  (written_faithful_iff epoch (bytes "1.1") (bytes "keep-alive") (bytes "200 OK") (bytes "hello")
    (bytes "text/plain") false (by decide) (by decide) (by decide) (by decide)).mpr
      (.inr (by decide))

/-- A body that is the text itself is not. -/
theorem written_body_changed :
    ¬ ∀ (tm : UtcTime) (version connection code data type : Bytes) (keepAlive : Bool),
      version.all isVersionChar = true → NoBreak connection → NoBreak code → NoBreak type →
      Faithful (sentLines tm version connection code data type) data
        (writtenResponse keepAlive (sendResponse tm version connection code data type)) := by
  intro h
  obtain ⟨m, e, hb, -, -⟩ := h epoch (bytes "1.1") (bytes "close") (bytes "200 OK")
    (bytes "Connection: keep-alive") (bytes "text/plain") false (by decide) (by decide) (by decide)
    (by decide)
  -- the receiver finds five bytes fewer than were announced
  have suffix : bytes "Connection: keep-alive" <:+ writtenResponse false (sendResponse epoch
      (bytes "1.1") (bytes "close") (bytes "200 OK") (bytes "Connection: keep-alive")
      (bytes "text/plain")) := by
    rw [e, ← hb]
    exact List.suffix_append _ _
  exact absurd suffix (by decide)

end SendResponse

end CovNet.Http
