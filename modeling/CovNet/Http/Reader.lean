import CovNet.Async.State
import CovNet.Http.Response

/-!
# The reader of requests

`read_http_header` (`netutils.ecs`) reads one request off a connection: lines up to the first that is
blank after `trim`, then the body the session announces. Read-ahead bytes stay in the buffer of the
read state for the next call; the rest of a body is fetched by an operation of its own, whose state
replaces the old one.

`parseRequest` is what one call does to the stream as a whole. A call returns what the parser
returns, and leaves unread what the parser leaves (`readHttpHeader_eq`); so the calls on a connection
depend on the stream and not on how it is cut into segments (`readRequests_eq`).
-/

namespace CovNet.Http
open Lib Text Async

def httpMaxHeaderLineSize : Nat := 8192

def httpMaxHeaderSize : Nat := 65536

/-- Why a call returns no session. `hangs` is a call that does not return, on a peer that stays
silent, and `raised` an exception. -/
inductive Stop where
  | failed (code : StateCode)
  | raised
  | hangs
  deriving DecidableEq, Repr

/-- The response sent before a failed call returns. -/
def errorResponse (code : StateCode) : Option Bytes :=
  if code = .codeEof then none else some (composeResponse code.text)

/-- The outcome of an operation that is waited for to its end. -/
def completed (st : State) : Except Stop Unit :=
  if st.hasDone then
    match st.ec with
    | none => .ok ()
    | some .eof => .error (.failed .codeEof)
    | some .other => .error (.failed .code500)
  else .error .hangs

/-- The loop that reads the header. `late` says whether the deadline passes before the `n`-th read
of the call is done. -/
def readLines (late : Nat → Bool) : Nat → Nat → Nat → List Bytes → Socket → State →
    Except Stop (List Bytes × Nat × Socket × State)
  | 0, _, _, _, _, _ => .error .hangs
  | fuel + 1, n, headerSize, header, sock, st =>
    if late n then .error (.failed .code408)
    else
      let (sock, st) := readUntil sock st crlf
      match completed st with
      | .error stop => .error stop
      | .ok () =>
        let (rawLine, st) := getResult st
        let headerSize := headerSize + rawLine.length
        if rawLine.length > httpMaxHeaderLineSize ∨ headerSize > httpMaxHeaderSize then
          .error (.failed .code431)
        else
          let line := trim rawLine
          if line.isEmpty then .ok (header, n + 1, sock, st)
          else readLines late fuel (n + 1) headerSize (header ++ [line]) sock st

/-- The loop that reads the rest of the body. -/
def readRest (late : Nat → Bool) (contentLength : Nat) : Nat → Nat → Bytes → Socket → State →
    Except Stop (Bytes × Socket × State)
  | 0, _, _, _, _ => .error .hangs
  | fuel + 1, n, postData, sock, st =>
    if contentLength ≤ postData.length then .ok (postData, sock, st)
    else if late n then .error (.failed .code408)
    else
      match read sock (contentLength - postData.length) with
      | none => .error .raised
      | some (sock, st) =>
        match completed st with
        | .error stop => .error stop
        | .ok () =>
          let (data, st) := getResult st
          readRest late contentLength fuel (n + 1) (postData ++ data) sock st

/-- The body of a request. -/
def readPostData (late : Nat → Bool) (n contentLength : Nat) (sock : Socket) (st : State) :
    Except Stop (Bytes × Socket × State) :=
  match getBuffer st contentLength with
  | none => .error .raised
  | some (postData, st) => readRest late contentLength (contentLength + 1) n postData sock st

/-- `read_http_header`. -/
def readHttpHeader (asInteger : Bytes → Option Int) (maxBodySize : Int) (late : Nat → Bool)
    (sock : Socket) (st : State) : Except Stop (Session × Socket × State) :=
  match readLines late ((unread sock st).length + 1) 0 0 [] sock st with
  | .error stop => .error stop
  | .ok (header, n, sock, st) =>
    if header.isEmpty then .error (.failed .code400)
    else
      match createHttpSession asInteger header with
      | none => .error (.failed .code400)
      | some session =>
        match session.contentLength with
        | none => .ok (session, sock, st)
        | some contentLength =>
          if contentLength > maxBodySize then .error (.failed .code413)
          else if contentLength > 0 then
            match readPostData late n contentLength.toNat sock st with
            | .error stop => .error stop
            | .ok (postData, sock, st) =>
              .ok ({ session with postData := some postData }, sock, st)
          else .ok (session, sock, st)

/-- The successive calls on a connection, up to the first that returns no session. -/
def readRequests (asInteger : Bytes → Option Int) (maxBodySize : Int) :
    Nat → Socket → State → List (Except Stop Session)
  | 0, _, _ => []
  | calls + 1, sock, st =>
    match readHttpHeader asInteger maxBodySize (fun _ => false) sock st with
    | .error stop => [.error stop]
    | .ok (session, sock, st) =>
      .ok session :: readRequests asInteger maxBodySize calls sock st

/-! ## The parser -/

/-- A stream that ends where more was expected. -/
def cutShort : Ending → Stop
  | .eof => .failed .codeEof
  | .error => .failed .code500
  | .silent => .hangs

/-- The header lines of a stream, and what follows them. -/
def parseLines (ending : Ending) (headerSize : Nat) (header : List Bytes) (s : Bytes) :
    Except Stop (List Bytes × Bytes) :=
  match _ : cut crlf s with
  | none => .error (cutShort ending)
  | some (rawLine, rest) =>
    if rawLine.length > httpMaxHeaderLineSize ∨
        headerSize + rawLine.length > httpMaxHeaderSize then
      .error (.failed .code431)
    else if (trim rawLine).isEmpty then .ok (header, rest)
    else parseLines ending (headerSize + rawLine.length) (header ++ [trim rawLine]) rest
termination_by s.length
decreasing_by exact cut_length_lt ‹_› (by decide)

lemma parseLines_none {ending : Ending} {headerSize : Nat} {header : List Bytes} {s : Bytes}
    (e : cut crlf s = none) :
    parseLines ending headerSize header s = .error (cutShort ending) := by
  unfold parseLines
  split
  · rfl
  · simp_all

lemma parseLines_some {ending : Ending} {headerSize : Nat} {header : List Bytes}
    {s rawLine rest : Bytes} (e : cut crlf s = some (rawLine, rest)) :
    parseLines ending headerSize header s =
      if rawLine.length > httpMaxHeaderLineSize ∨
          headerSize + rawLine.length > httpMaxHeaderSize then
        .error (.failed .code431)
      else if (trim rawLine).isEmpty then .ok (header, rest)
      else parseLines ending (headerSize + rawLine.length) (header ++ [trim rawLine]) rest := by
  conv_lhs => unfold parseLines
  split
  · simp_all
  · rename_i e'
    rw [e, Option.some.injEq, Prod.mk.injEq] at e'
    obtain ⟨rfl, rfl⟩ := e'
    rfl

/-- The body of a stream, and what follows it. -/
def parsePostData (ending : Ending) (contentLength : Nat) (s : Bytes) :
    Except Stop (Bytes × Bytes) :=
  if contentLength ≤ s.length then .ok (s.take contentLength, s.drop contentLength)
  else .error (cutShort ending)

/-- The first request of a stream, and what follows it. -/
def parseRequest (asInteger : Bytes → Option Int) (maxBodySize : Int) (ending : Ending) (s : Bytes) :
    Except Stop (Session × Bytes) :=
  match parseLines ending 0 [] s with
  | .error stop => .error stop
  | .ok (header, s) =>
    if header.isEmpty then .error (.failed .code400)
    else
      match createHttpSession asInteger header with
      | none => .error (.failed .code400)
      | some session =>
        match session.contentLength with
        | none => .ok (session, s)
        | some contentLength =>
          if contentLength > maxBodySize then .error (.failed .code413)
          else if contentLength > 0 then
            match parsePostData ending contentLength.toNat s with
            | .error stop => .error stop
            | .ok (postData, s) => .ok ({ session with postData := some postData }, s)
          else .ok (session, s)

/-- The requests of a stream, up to the first that is rejected. -/
def parseRequests (asInteger : Bytes → Option Int) (maxBodySize : Int) (ending : Ending) :
    Nat → Bytes → List (Except Stop Session)
  | 0, _ => []
  | calls + 1, s =>
    match parseRequest asInteger maxBodySize ending s with
    | .error stop => [.error stop]
    | .ok (session, s) => .ok session :: parseRequests asInteger maxBodySize ending calls s

/-- The body of a session is the one its length announces. -/
structure Carried (session : Session) : Prop where
  present : ∀ n, session.contentLength = some n → 0 < n →
    ∃ body, session.postData = some body ∧ (body.length : Int) = n
  absent : (∀ n, session.contentLength = some n → n ≤ 0) → session.postData = none

/-! What is parsed is there, and what comes behind it makes no difference. -/

lemma parseLines_anyhow {ending : Ending} (ending' : Ending) {headerSize : Nat} {header : List Bytes} {s : Bytes}
    {r : List Bytes × Bytes} (h : parseLines ending headerSize header s = .ok r) :
    parseLines ending' headerSize header s = .ok r := by
  induction n : s.length using Nat.strong_induction_on generalizing s headerSize header with
  | _ n ih =>
    cases found : cut crlf s with
    | none =>
      rw [parseLines_none found] at h
      cases h
    | some p =>
      obtain ⟨rawLine, rest⟩ := p
      have shorter := cut_length_lt found (by decide)
      rw [parseLines_some found] at h ⊢
      split at h
      · cases h
      · rename_i small
        rw [if_neg small]
        split at h
        · rename_i blank
          rw [if_pos blank]
          exact h
        · rename_i text
          rw [if_neg text]
          exact ih _ (n ▸ shorter) h rfl

/-- A request that is all there is parsed alike, whatever happens behind it. -/
lemma parseRequest_anyhow {asInteger : Bytes → Option Int} {maxBodySize : Int} {ending : Ending} (ending' : Ending)
    {s : Bytes} {r : Session × Bytes} (h : parseRequest asInteger maxBodySize ending s = .ok r) :
    parseRequest asInteger maxBodySize ending' s = .ok r := by
  have body : ∀ {n s p}, parsePostData ending n s = .ok p → parsePostData ending' n s = .ok p := by
    intro n s p h
    unfold parsePostData at h ⊢
    split at h
    · rename_i enough
      rwa [if_pos enough]
    · cases h
  unfold parseRequest at h ⊢
  cases lines : parseLines ending 0 [] s with
  | error stop =>
    simp only [lines] at h
    cases h
  | ok p =>
    simp only [lines, parseLines_anyhow ending' lines] at h ⊢
    split at h
    · cases h
    rename_i text
    rw [if_neg text]
    split at h
    · cases h
    split at h
    · exact h
    split at h
    · cases h
    rename_i small
    rw [if_neg small]
    split at h
    · rename_i pos
      rw [if_pos pos]
      split at h
      · cases h
      · rename_i read
        simp only [body read]
        exact h
    · rename_i none
      rw [if_neg none]
      exact h
/-! ## The reader is the parser -/

lemma completed_complete (ending : Ending) (bytes : Nat) (buffer : Bytes) :
    completed (ending.complete bytes buffer) = .error (cutShort ending) := by
  cases ending <;> rfl

lemma completed_done {st : State} (done : st.hasDone = true) (ec : st.ec = none) :
    completed st = .ok () := by
  simp [completed, done, ec]

/-- What is left unread behind a position of the stream. -/
def Left (ending : Ending) (s : Bytes) (sock : Socket) (st : State) : Prop :=
  sock.ending = ending ∧ unread sock st = s

/-- The header loop reads the lines the parser takes. -/
lemma readLines_eq {ending : Ending} (n headerSize : Nat) (header : List Bytes) {s : Bytes}
    {sock : Socket} {st : State} (left : Left ending s sock st) {fuel : Nat}
    (enough : s.length < fuel) :
    match parseLines ending headerSize header s with
    | .error stop => readLines (fun _ => false) fuel n headerSize header sock st = .error stop
    | .ok (header', s') => ∃ n' sock' st', Left ending s' sock' st' ∧
        readLines (fun _ => false) fuel n headerSize header sock st =
          .ok (header', n', sock', st') := by
  obtain ⟨rfl, rfl⟩ := left
  induction fuel generalizing n headerSize header sock st with
  | zero => omega
  | succ fuel ih =>
    cases e : cut crlf (unread sock st) with
    | none =>
      have stop := congrArg completed (readUntil_none e)
      rw [completed_complete] at stop
      simp [parseLines_none e, readLines, stop]
    | some p =>
      obtain ⟨raw, rest⟩ := p
      rw [parseLines_some e]
      obtain ⟨sock', st', hr, done, ec, hend, hraw, hrest⟩ := readUntil_found e
      have shorter := cut_length_lt e (by decide)
      simp only [readLines, hr, completed_done done ec, hraw, Bool.false_eq_true, if_false]
      by_cases big : raw.length > httpMaxHeaderLineSize ∨
          headerSize + raw.length > httpMaxHeaderSize
      · simp only [if_pos big]
      · simp only [if_neg big]
        by_cases blank : (trim raw).isEmpty = true
        · simp only [if_pos blank]
          exact ⟨n + 1, sock', _, ⟨hend, hrest⟩, rfl⟩
        · simp only [if_neg blank]
          -- the fuel is as good as the bytes that are left, and a line takes two at least
          have fewer : (unread sock' (getResult st').2).length < fuel := by
            rw [hrest]
            omega
          have step := ih (n + 1) (headerSize + raw.length) (header ++ [trim raw]) fewer
          rw [hend, hrest] at step
          exact step

/-- The body is the one the parser takes. -/
lemma readPostData_eq {ending : Ending} (n : Nat) {contentLength : Nat} {s : Bytes} {sock : Socket}
    {st : State} (left : Left ending s sock st)
    (size : 0 < contentLength ∧ contentLength ≤ maxIoBufferSize) :
    match parsePostData ending contentLength s with
    | .error stop => readPostData (fun _ => false) n contentLength sock st = .error stop
    | .ok (postData, s') => ∃ sock' st', Left ending s' sock' st' ∧
        readPostData (fun _ => false) n contentLength sock st = .ok (postData, sock', st') := by
  obtain ⟨rfl, rfl⟩ := left
  have hlen : (unread sock st).length = st.buffer.length + sock.segments.flatten.length := by
    simp [unread]
  obtain ⟨fuel, hfuel⟩ : ∃ fuel, contentLength = fuel + 1 := ⟨contentLength - 1, by omega⟩
  simp only [readPostData, getBuffer, if_pos size]
  by_cases buffered : contentLength ≤ st.buffer.length
  · -- the buffer has the whole body
    have enough : contentLength ≤ (unread sock st).length := by omega
    have got : contentLength ≤ (st.buffer.take contentLength).length := by
      rw [List.length_take]
      omega
    simp only [parsePostData, if_pos enough, readRest, if_pos got]
    have body : (unread sock st).take contentLength = st.buffer.take contentLength :=
      List.take_append_of_le_length buffered
    rw [body]
    exact ⟨sock, _, ⟨rfl, (List.drop_append_of_le_length buffered).symm⟩, rfl⟩
  · -- the rest of it is fetched by one more read
    have all : st.buffer.take contentLength = st.buffer := List.take_of_length_le (by omega)
    simp only [readRest, all, if_neg buffered, Bool.false_eq_true, if_false]
    by_cases enough : contentLength ≤ (unread sock st).length
    · obtain ⟨sock', st', hr, done, ec, hend, hdata, hbuf, hsegs⟩ :=
        read_enough sock (n := contentLength - st.buffer.length) (by omega) (by omega)
      have full : contentLength ≤ (st.buffer ++
          sock.segments.flatten.take (contentLength - st.buffer.length)).length := by
        rw [List.length_append, List.length_take]
        omega
      simp only [parsePostData, if_pos enough, hr, completed_done done ec, hdata]
      simp only [hfuel, readRest] at full ⊢
      simp only [if_pos full]
      have body : (unread sock st).take (fuel + 1) =
          st.buffer ++ sock.segments.flatten.take (fuel + 1 - st.buffer.length) := by
        rw [unread, List.take_append, List.take_of_length_le (by omega)]
      have rest : (unread sock st).drop (fuel + 1) =
          sock.segments.flatten.drop (fuel + 1 - st.buffer.length) := by
        rw [unread, List.drop_append, List.drop_of_length_le (by omega)]
        rfl
      rw [body, rest]
      refine ⟨sock', _, ⟨hend, ?_⟩, rfl⟩
      rw [unread, hbuf, List.nil_append, hsegs, hfuel]
    · obtain ⟨sock', hr, -⟩ :=
        read_short sock (n := contentLength - st.buffer.length) (by omega) (by omega)
      simp only [parsePostData, if_neg enough, hr, completed_complete]

/-! A call that returns a session returns it without deadlines, too. -/

lemma readLines_anytime {late : Nat → Bool} {fuel n headerSize : Nat} {header : List Bytes}
    {sock : Socket} {st : State} {r : List Bytes × Nat × Socket × State}
    (h : readLines late fuel n headerSize header sock st = .ok r) :
    readLines (fun _ => false) fuel n headerSize header sock st = .ok r := by
  induction fuel generalizing n headerSize header sock st with
  | zero => cases h
  | succ fuel ih =>
    rcases hr : readUntil sock st crlf with ⟨sock', st'⟩
    simp only [readLines, hr, Bool.false_eq_true, if_false] at h ⊢
    split at h
    · cases h
    · cases done : completed st' with
      | error stop =>
        simp only [done] at h
        cases h
      | ok u =>
        simp only [done] at h ⊢
        split at h
        · cases h
        · rename_i small
          rw [if_neg small]
          split at h
          · rename_i blank
            rw [if_pos blank]
            exact h
          · rename_i text
            rw [if_neg text]
            exact ih h

lemma readPostData_anytime {late : Nat → Bool} {n contentLength : Nat} {sock : Socket} {st : State}
    {r : Bytes × Socket × State} (h : readPostData late n contentLength sock st = .ok r) :
    readPostData (fun _ => false) n contentLength sock st = .ok r := by
  have rest : ∀ fuel n postData sock st, readRest late contentLength fuel n postData sock st = .ok r →
      readRest (fun _ => false) contentLength fuel n postData sock st = .ok r := by
    intro fuel
    induction fuel with
    | zero =>
      intro n postData sock st h
      cases h
    | succ fuel ih =>
      intro n postData sock st h
      simp only [readRest, Bool.false_eq_true, if_false] at h ⊢
      split at h
      · rename_i full
        rw [if_pos full]
        exact h
      · rename_i short
        rw [if_neg short]
        split at h
        · cases h
        · cases hr : read sock (contentLength - postData.length) with
          | none =>
            simp only [hr] at h
            cases h
          | some p =>
            obtain ⟨sock', st'⟩ := p
            simp only [hr] at h ⊢
            cases done : completed st' with
            | error stop =>
              simp only [done] at h
              cases h
            | ok u =>
              simp only [done] at h ⊢
              exact ih _ _ _ _ h
  unfold readPostData at h ⊢
  cases hg : getBuffer st contentLength with
  | none =>
    simp only [hg] at h
    cases h
  | some p =>
    simp only [hg] at h ⊢
    exact rest _ _ _ _ _ h

lemma readHttpHeader_anytime {asInteger : Bytes → Option Int} {maxBodySize : Int}
    {late : Nat → Bool} {sock : Socket} {st : State} {r : Session × Socket × State}
    (h : readHttpHeader asInteger maxBodySize late sock st = .ok r) :
    readHttpHeader asInteger maxBodySize (fun _ => false) sock st = .ok r := by
  unfold readHttpHeader at h ⊢
  cases hl : readLines late ((unread sock st).length + 1) 0 0 [] sock st with
  | error stop =>
    simp only [hl] at h
    cases h
  | ok p =>
    obtain ⟨header, n, sock', st'⟩ := p
    simp only [hl] at h
    simp only [readLines_anytime hl]
    split at h
    · cases h
    · rename_i ne
      rw [if_neg ne]
      cases hs : createHttpSession asInteger header with
      | none =>
        simp only [hs] at h
        cases h
      | some session =>
        simp only [hs] at h ⊢
        cases hc : session.contentLength with
        | none =>
          simp only [hc] at h ⊢
          exact h
        | some contentLength =>
          simp only [hc] at h ⊢
          split at h
          · cases h
          · rename_i small
            rw [if_neg small]
            split at h
            · rename_i pos
              rw [if_pos pos]
              cases hb : readPostData late n contentLength.toNat sock' st' with
              | error stop =>
                simp only [hb] at h
                cases h
              | ok q =>
                simp only [hb] at h
                simp only [readPostData_anytime hb]
                exact h
            · rename_i zero
              rw [if_neg zero]
              exact h

section Run
variable (asInteger : Bytes → Option Int) (maxBodySize : Int)

/-- One call returns what the parser returns, and leaves unread what the parser leaves. -/
lemma readHttpHeader_eq {ending : Ending} {s : Bytes} {sock : Socket} {st : State}
    (left : Left ending s sock st) :
    match parseRequest asInteger maxBodySize ending s with
    | .error stop =>
      readHttpHeader asInteger maxBodySize (fun _ => false) sock st = .error stop
    | .ok (session, s') => ∃ sock' st', Left ending s' sock' st' ∧
        readHttpHeader asInteger maxBodySize (fun _ => false) sock st =
          .ok (session, sock', st') := by
  have lines := readLines_eq 0 0 [] left (Nat.lt_succ_self _)
  unfold parseRequest readHttpHeader
  rw [left.2]
  cases hl : parseLines ending 0 [] s with
  | error stop =>
    rw [hl] at lines
    simp only [lines]
  | ok p =>
    obtain ⟨header, s'⟩ := p
    rw [hl] at lines
    obtain ⟨n, sock', st', left', hr⟩ := lines
    simp only [hr]
    by_cases empty : header.isEmpty = true
    · simp only [if_pos empty]
    · simp only [if_neg empty]
      cases hs : createHttpSession asInteger header with
      | none => rfl
      | some session =>
        cases hc : session.contentLength with
        | none =>
          simp only [hc]
          exact ⟨sock', st', left', rfl⟩
        | some contentLength =>
          simp only [hc]
          by_cases large : contentLength > maxBodySize
          · simp only [if_pos large]
          · simp only [if_neg large]
            by_cases pos : contentLength > 0
            · simp only [if_pos pos]
              have size : 0 < contentLength.toNat ∧ contentLength.toNat ≤ maxIoBufferSize := by
                have range := createHttpSession_length hs hc
                have bound : httpMaxBodySize = maxIoBufferSize := rfl
                omega
              have body := readPostData_eq n left' size
              cases hp : parsePostData ending contentLength.toNat s' with
              | error stop =>
                rw [hp] at body
                simp only [body]
              | ok q =>
                obtain ⟨postData, s''⟩ := q
                rw [hp] at body
                obtain ⟨sock'', st'', left'', hb⟩ := body
                simp only [hb]
                exact ⟨sock'', st'', left'', rfl⟩
            · simp only [if_neg pos]
              exact ⟨sock', st', left', rfl⟩

variable {asInteger maxBodySize} in
/-- What a call returns the parser returns, whatever the deadline. -/
lemma readHttpHeader_parses {late : Nat → Bool} {sock sock' : Socket} {st st' : State}
    {session : Session}
    (h : readHttpHeader asInteger maxBodySize late sock st = .ok (session, sock', st')) :
    parseRequest asInteger maxBodySize sock.ending (unread sock st) =
      .ok (session, unread sock' st') := by
  have left : Left sock.ending (unread sock st) sock st := ⟨rfl, rfl⟩
  have call := readHttpHeader_eq asInteger maxBodySize left
  rw [readHttpHeader_anytime h] at call
  cases e : parseRequest asInteger maxBodySize sock.ending (unread sock st) with
  | error stop =>
    rw [e] at call
    cases call
  | ok p =>
    obtain ⟨session', rest⟩ := p
    rw [e] at call
    obtain ⟨sock'', st'', left, e'⟩ := call
    cases e'
    rw [← left.2]

variable {asInteger maxBodySize} in
/-- The session of a request is the one its lines make, with the body that is announced. -/
lemma parseRequest_made {ending : Ending} {s rest : Bytes} {session : Session}
    (h : parseRequest asInteger maxBodySize ending s = .ok (session, rest)) :
    ∃ header made, createHttpSession asInteger header = some made ∧
      session = { made with postData := session.postData } ∧ Carried session := by
  unfold parseRequest at h
  split at h
  · cases h
  split at h
  · cases h
  split at h
  · cases h
  rename_i header s' _ _ _ made hm
  have noBody := (createHttpSession_text hm).2.2
  refine ⟨header, made, hm, ?_⟩
  split at h
  · rename_i none
    cases h
    refine ⟨rfl, ⟨fun n e => ?_, fun _ => noBody⟩⟩
    rw [none] at e
    cases e
  · rename_i contentLength length
    split at h
    · cases h
    split at h
    · rename_i pos
      split at h
      · cases h
      rename_i postData s'' body
      cases h
      refine ⟨rfl, ⟨fun n e _ => ⟨postData, rfl, ?_⟩, fun none => ?_⟩⟩
      · unfold parsePostData at body
        split at body
        · cases body
          have same : contentLength = n := Option.some.inj (length.symm.trans e)
          rw [List.length_take]
          omega
        · cases body
      · have small := none contentLength length
        omega
    · rename_i zero
      cases h
      refine ⟨rfl, ⟨fun n e pos => ?_, fun _ => noBody⟩⟩
      have same : contentLength = n := Option.some.inj (length.symm.trans e)
      omega

/-- The calls on a connection read the requests of the stream, wherever they are from. -/
lemma readRequests_left {ending : Ending} (calls : Nat) {s : Bytes} {sock : Socket} {st : State}
    (left : Left ending s sock st) :
    readRequests asInteger maxBodySize calls sock st =
      parseRequests asInteger maxBodySize ending calls s := by
  induction calls generalizing s sock st with
  | zero => rfl
  | succ calls ih =>
    have call := readHttpHeader_eq asInteger maxBodySize left
    unfold readRequests parseRequests
    cases hp : parseRequest asInteger maxBodySize ending s with
    | error stop =>
      rw [hp] at call
      simp only [call]
    | ok p =>
      obtain ⟨session, s'⟩ := p
      rw [hp] at call
      obtain ⟨sock', st', left', hr⟩ := call
      simp only [hr, ih left']

/-- However the stream of a client is cut into segments, the calls on its connection yield the
requests of the stream. -/
theorem readRequests_eq (ending : Ending) (segments : List Bytes) (calls : Nat) :
    readRequests asInteger maxBodySize calls ⟨segments, ending⟩ State.new =
      parseRequests asInteger maxBodySize ending calls segments.flatten :=
  readRequests_left asInteger maxBodySize calls ⟨rfl, rfl⟩

end Run

end CovNet.Http
