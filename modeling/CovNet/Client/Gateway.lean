import CovNet.Client.Delivery
import CovNet.Client.Life
import CovNet.Client.Proxy
import CovNet.Client.Url
import CovNet.Http.Selection

/-!
# Requests on behalf of others

The handler of `bind_proxy` and `openai_client.request` (`netutils.ecs`) append a path to a URL they have been given,
without its last slash, and hand the whole to `http_request`, which takes it apart again. Where the path starts with a
slash, it cannot get into the authority (`parseUrl_joinUrl`): whatever a client asks a proxy for, the proxy asks its own
backend, and the key of an `openai_client` is sent to the host of its base and to no other.

The response of a proxy is made of what the backend has sent. `proxy_response_framed_iff` says that it is one
well-formed response all the same, with one exception: a HEAD request to a backend that is not there is answered with
a body.
-/

namespace CovNet.Client
open Lib Text Async Http

/-! ## The URL -/

section Join
variable {asInteger : Bytes → Option Int} {base path url s scheme host port : Bytes} {t t' : Target} {p : Char → Bool}
  {c : Char}

end Join

/-! ## Whom a request contacts -/

namespace Life
variable {ε τ : Type}

section Lookups
variable {net : Network ε} {s : Life ε τ} {target : Target} {method url : Bytes} {headers : List Bytes}
  {body : Option Bytes}

end Lookups

end Life

/-! ## What a response can hold -/

namespace Reading
variable {α β : Type} {P : α → Prop} {Q : β → Prop}

/-- Whatever is read, a result is of this kind. -/
def Always (P : α → Prop) : Reading α → Prop
  | pure a => P a
  | fail => True
  | search _ next | exact _ next | drain next => ∀ x, (next x).Always P

lemma Always.run {p : Reading α} (always : p.Always P) {c : HttpClient} {a : α} (h : p.run c = some a) : P a := by
  induction p generalizing c with
  | pure b =>
    cases h
    exact always
  | fail => cases h
  | search mark next ih =>
    rw [Reading.run] at h
    split at h
    · cases h
    · exact ih _ (always _) h
  | exact n next ih =>
    rw [Reading.run] at h
    split at h
    · cases h
    · exact ih _ (always _) h
  | drain next ih =>
    rw [Reading.run] at h
    split at h
    · cases h
    · exact ih _ (always _) h

lemma Always.bind {p : Reading α} {f : α → Reading β} (always : p.Always P) (next : ∀ a, P a → (f a).Always Q) :
    (p.bind f).Always Q := by
  induction p with
  | pure a => exact next a always
  | fail => trivial
  | search mark more ih => exact fun x => ih x (always x)
  | exact n more ih => exact fun x => ih x (always x)
  | drain more ih => exact fun x => ih x (always x)

lemma always_true (p : Reading α) : p.Always fun _ => True := by
  induction p with
  | pure a => trivial
  | fail => trivial
  | search mark more ih => exact ih
  | exact n more ih => exact ih
  | drain more ih => exact ih

end Reading

/-- Header values without line breaks. -/
def PlainValues (headers : List (Bytes × Bytes)) : Prop := ∀ h ∈ headers, NoBreak h.2

section Plain
variable {asInteger : Bytes → Option Int} {headers headers' : List (Bytes × Bytes)} {line method : Bytes}

/-- A value is taken off one line. -/
lemma addHeader_plain (line : Bytes) (plain : PlainValues headers) (h : addHeader headers line = some headers') :
    PlainValues headers' := by
  unfold addHeader at h
  dsimp only at h
  split at h
  · cases h
    exact plain
  · split at h
    · cases h
      exact plain
    · rename_i name value reg
      split at h
      · cases h
      · cases h
        intro entry mem
        rcases List.mem_cons.mp mem with rfl | mem
        · have whole : NoBreak value := by
            unfold httpHeaderLineReg at reg
            split at reg
            · dsimp only at reg
              split at reg
              · rename_i ok
                cases reg
                rw [Bool.and_eq_true, List.all_eq_true] at ok
                exact ⟨fun cr => by simpa using ok.2 _ cr, fun lf => by simpa using ok.2 _ lf⟩
              · cases reg
            · cases reg
          have inside : ∀ c ∈ trim value, c ∈ value := fun c mem =>
            (List.dropWhile_sublist _).subset (mem_rdropWhile mem)
          exact ⟨fun cr => whole.1 (inside _ cr), fun lf => whole.2 (inside _ lf)⟩
        · exact plain entry (List.mem_of_mem_filter mem)

lemma parseResponseHeaders_plain {headersRaw : Bytes} {m : Meta}
    (h : Script.parseResponseHeaders asInteger headersRaw = .ok m) : PlainValues m.headers := by
  unfold Script.parseResponseHeaders at h
  cases lines : split '\n' headersRaw with
  | nil =>
    rw [lines] at h
    cases h
  | cons statusLine ls =>
    rw [lines] at h
    have first : Script.index (statusLine :: ls) 0 = .ok statusLine := rfl
    simp only [List.isEmpty_cons, Bool.false_eq_true, if_false, first, Script.ok_bind, Script.headerLines_cons] at h
    cases code : httpStatusLineReg (trim statusLine) with
    | none =>
      rw [code] at h
      cases h
    | some code' =>
      cases fold : ls.foldlM addHeader [] with
      | none =>
        rw [code, fold] at h
        cases h
      | some headers =>
        rw [code, fold] at h
        have plain : PlainValues headers :=
          foldlM_invariant (I := PlainValues) (fun _ line _ ok st => addHeader_plain line ok st) fold nofun
        have same : m.headers = headers := by
          simp only [Script.orNull, Script.ok_bind] at h
          cases length : announcedLength asInteger headers with
          | none =>
            rw [length] at h
            cases h
          | some contentLength =>
            rw [length] at h
            dsimp only at h
            rw [Script.ok_bind] at h
            cases codings : Script.transferCodings headers with
            | error stop =>
              rw [codings] at h
              cases h
            | ok isChunked =>
              rw [codings, Script.ok_bind] at h
              split at h
              · cases h
              · cases number : Script.integer asInteger code' with
                | error stop =>
                  rw [number] at h
                  cases h
                | ok statusCode =>
                  rw [number] at h
                  cases h
                  rfl
        rw [same]
        exact plain

/-- What a response can hold: values on one line, and no body if the request was a HEAD. -/
def Response.Sound (method : Bytes) (response : Response) : Prop :=
  PlainValues response.headers ∧ (method = bytes "HEAD" → response.body = [])

lemma readHeaders_plain (interim : Nat) :
    (Script.readHeaders asInteger interim).Always fun result => ∀ m, result = .ok m → PlainValues m.headers := by
  have block : ∀ more : Reading (Script Meta),
      more.Always (fun result => ∀ m, result = .ok m → PlainValues m.headers) →
        (Script.readHeaderBlock asInteger more).Always fun result => ∀ m, result = .ok m → PlainValues m.headers := by
    intro more ih headersRaw
    dsimp only
    cases parsed : Script.parseResponseHeaders asInteger headersRaw with
    | error stop =>
      dsimp only
      split
      · exact nofun
      · trivial
    | ok m =>
      dsimp only
      split
      · split
        · trivial
        · exact ih
      · intro m' e
        cases e
        exact parseResponseHeaders_plain parsed
  induction interim with
  | zero => exact block .fail trivial
  | succ interim ih => exact block _ ih

/-- Every response is sound, whatever has been sent. -/
lemma run_sound {c : HttpClient} {response : Response}
    (h : (Script.httpRequest asInteger method).run c = some (.ok response)) : response.Sound method := by
  have always : (Script.httpRequest asInteger method).Always
      fun result => ∀ response, result = .ok response → response.Sound method := by
    refine (readHeaders_plain 10).bind fun result plain => ?_
    cases result with
    | error stop => exact nofun
    | ok m =>
      have values := plain m rfl
      show (if method = bytes "HEAD" ∨ m.statusCode = 204 ∨ m.statusCode = 304 then _ else _ : Reading _).Always _
      split
      · intro response e
        cases e
        exact ⟨values, fun _ => rfl⟩
      · rename_i bodied
        refine (readBody m).always_true.bind fun body _ response e => ?_
        cases e
        exact ⟨values, fun head => absurd (.inl head) bodied⟩
  exact always.run h response rfl

end Plain

/-! ## The proxy -/

section Proxy
variable {ε : Type}

/-- The body a proxy forwards. -/
def forwardedBody (session : Session) : Bytes :=
  match session.contentLength with
  | some n => if 0 < n then session.postData.getD [] else []
  | none => []

/-- The request of a proxy, with a client of its own. -/
def proxyRequest (net : Network ε) (target address : Bytes) (session : Session) : Script Response × Life ε Unit :=
  Life.new.httpRequest net session.method (proxyUrl target session) (reqHeaders address session)
    (some (forwardedBody session))

/-- The handler of `bind_proxy` with this client. An exception counts as null. -/
def proxied (net : Network ε) (target address : Bytes) (session : Session) : Page :=
  bindProxy (fun method url headers data =>
    (Life.httpRequest net method url headers (some data) (Life.new : Life ε Unit)).1.toOption) target address session

/-- A server with this handler for every request. -/
def proxyServer (base : Server) (net : Nat → Network ε) (target address : Bytes) : Server :=
  { base with
    serve count session :=
      let page := proxied (net count) target address session
      .handled page.code page.data page.type }

variable {net : Network ε} {target address : Bytes} {session : Session} {response : Response}

/-- The page where the backend has answered. -/
lemma proxied_ok (h : (proxyRequest net target address session).1 = .ok response) :
    (proxied net target address session).data = response.body ∧
      (NoBreak ((response.headers.lookup (bytes "content-type")).getD (bytes "application/json")) →
        NoBreak (proxied net target address session).code ∧ NoBreak (proxied net target address session).type) := by
  have texts : ∀ code : StateCode, NoBreak code.text := by
    intro code
    cases code <;> decide
  have some_response : (proxyRequest net target address session).1.toOption = some response := by
    rw [h]
    rfl
  rw [proxied, bindProxy]
  dsimp only
  split
  · rename_i no_response
    cases some_response.symm.trans no_response
  · rename_i resp found
    cases some_response.symm.trans found
    refine ⟨rfl, fun type => ⟨?_, type⟩⟩
    dsimp only
    split
    · exact texts _
    · exact (noBreak_of_plain (decimal_plain _)).append (by decide)

/-- The page where it has not. -/
lemma proxied_error {stop : Stop} (h : (proxyRequest net target address session).1 = .error stop) :
    proxied net target address session =
      ⟨StateCode.code503.text, bytes "\x7b\"error\": \"Backend unavailable\"\x7d", bytes "application/json"⟩ := by
  have none_response : (proxyRequest net target address session).1.toOption = none := by
    rw [h]
    rfl
  rw [proxied, bindProxy]
  dsimp only
  split
  · rfl
  · rename_i resp found
    cases none_response.symm.trans found

/-- What the client of a proxy returns is sound. -/
lemma proxyRequest_sound (h : (proxyRequest net target address session).1 = .ok response) :
    response.Sound session.method := by
  have new : Life.Kept net (Life.new : Life ε Unit) := Life.kept_new net
  rcases Life.httpRequest_cases new session.method (proxyUrl target session) (reqHeaders address session)
    (some (forwardedBody session)) with
    ⟨stop, same⟩ | ⟨s', same, -⟩ | ⟨_, n, s', -, -, -, -, -, settled⟩
  · rw [proxyRequest, same] at h
    cases h
  · rw [proxyRequest, same] at h
    cases h
  · exact run_sound (settled.own response h)

/-- The texts of a proxied response are each on one line. -/
lemma proxied_plain (net : Network ε) (target address : Bytes) (session : Session) :
    NoBreak (proxied net target address session).code ∧ NoBreak (proxied net target address session).type := by
  cases h : (proxyRequest net target address session).1 with
  | error stop =>
    rw [proxied_error h]
    exact ⟨by decide, by decide⟩
  | ok response =>
    apply (proxied_ok h).2
    cases found : response.headers.lookup (bytes "content-type") with
    | none => exact (by decide : NoBreak (bytes "application/json"))
    | some value => exact (proxyRequest_sound h).1 _ (mem_of_lookup found)

/-- A session that was read is answered with the page for it. -/
lemma proxyServer_answer (base : Server) (nets : Nat → Network ε) (target address : Bytes) (count : Nat)
    (session : Session) :
    ∃ session', session'.method = session.method ∧
      (proxyRequest (nets count) target address session').1 =
        (proxyRequest (nets count) target address session).1 ∧
      ((proxyServer base nets target address).answer count session).1 =
        ⟨session', base.now count, (proxied (nets count) target address session').code,
          (proxied (nets count) target address session').data, (proxied (nets count) target address session').type⟩ := by
  -- only the connection may differ, which a proxy does not look at
  refine ⟨if base.maxKeepAlive ≤ count + 1 then { session with connection := bytes "close" } else session,
    ?_, ?_, rfl⟩
  · split
    · rfl
    · rfl
  · split
    · rfl
    · rfl

end Proxy

/-- Whatever a backend does, the response to a request that was proxied is read as one response, with nothing of its
body left in the stream, unless the request was a HEAD and no response has come from the backend; and the body is that
of the backend. -/
theorem proxy_response_framed_iff {ε : Type} (base : Server) (nets : Nat → Network ε) (target address : Bytes)
    (count : Nat) (late : Nat → Bool) (sock sock' : Socket) (st st' : State) (session : Session) (e : Exchange)
    (call : readHttpHeader base.asInteger base.maxBodySize late sock st = .ok (session, sock', st'))
    (answered : e = ((proxyServer base nets target address).answer count session).1) :
    ((∀ rest, readResponse e.toHead (e.response ++ rest) = some (e.seen, rest)) ↔
      ¬ (session.method = bytes "HEAD" ∧ ∃ stop, (proxyRequest (nets count) target address session).1 = .error stop)) ∧
    ∀ response, (proxyRequest (nets count) target address session).1 = .ok response → e.data = response.body := by
  have served : (proxyServer base nets target address).Plain := by
    intro count session code data type served
    rcases served with served | served
    · cases served
      exact proxied_plain (nets count) target address session
    · cases served
  have whole : ((proxyServer base nets target address).answer count session).1.Plain := answer_plain served call
  have plain : e.Plain := answered ▸ whole
  obtain ⟨session', method, same, page⟩ := proxyServer_answer base nets target address count session
  rw [page] at answered
  have toHead : e.toHead = true ↔ session.method = bytes "HEAD" := by
    rw [Exchange.toHead, answered, ← method]
    exact decide_eq_true_iff
  cases result : (proxyRequest (nets count) target address session).1 with
  | ok response =>
    have data : e.data = response.body := by
      rw [answered]
      exact (proxied_ok (same.trans result)).1
    refine ⟨iff_of_true (fun rest => ?_) ?_, fun response' eq => ?_⟩
    · apply readResponse_response plain
      intro head
      rw [data]
      exact (proxyRequest_sound result).2 (toHead.mp head)
    · rintro ⟨-, stop, eq⟩
      cases eq
    · cases eq
      exact data
  | error stop =>
    have data : e.data ≠ [] := by
      rw [answered]
      show (proxied (nets count) target address session').data ≠ []
      rw [proxied_error (same.trans result)]
      decide
    refine ⟨⟨fun read head => ?_, fun fine rest => ?_⟩, nofun⟩
    · -- the body stays in the stream
      have left := read []
      rw [List.append_nil, e.response_eq, toHead.mpr head.1, readResponse, readBlock_block plain.isLine] at left
      dsimp only at left
      rw [if_pos rfl, Option.some.injEq, Prod.mk.injEq] at left
      exact data left.2
    · apply readResponse_response plain
      intro head
      exact absurd ⟨toHead.mp head, stop, rfl⟩ fine

/-- A HEAD request that is passed on. -/
def headSession : Session :=
  ⟨bytes "/api/x", bytes "q=1", some (bytes "h"), bytes "HEAD", bytes "1.1", bytes "keep-alive", none, none, []⟩

lemma headSession_read : readHttpHeader echoServer.asInteger echoServer.maxBodySize (fun _ => false)
    ⟨[bytes "HEAD /api/x?q=1 HTTP/1.1\r\nHost: h\r\n\r\n"], .silent⟩ State.new =
      .ok (headSession, ⟨[], .silent⟩, ⟨true, true, 0, [], none⟩) := by
  decide +kernel

/-- With a backend that answers. -/
theorem proxy_response_framed_head :
    ∃ e, e = ((proxyServer echoServer (fun _ => secondUp) (bytes "https://backend/") (bytes "10.0.0.1")).answer 0
        headSession).1 ∧
      ((∀ rest, readResponse e.toHead (e.response ++ rest) = some (e.seen, rest)) ↔
        ¬ (headSession.method = bytes "HEAD" ∧ ∃ stop,
          (proxyRequest secondUp (bytes "https://backend/") (bytes "10.0.0.1") headSession).1 = .error stop)) := by
  exact ⟨_, rfl, (proxy_response_framed_iff echoServer (fun _ => secondUp) (bytes "https://backend/")
    (bytes "10.0.0.1") 0 _ _ _ _ _ headSession _ headSession_read rfl).1⟩

end CovNet.Client
