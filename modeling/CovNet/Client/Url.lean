import CovNet.Client.Request

/-!
# URLs

A URL is a scheme, an authority of a host and perhaps a port, a path that may be empty, and perhaps a query
and a fragment. `parse_url` reads them with one regular expression, in which only `/` and `:` end the host,
and cuts the fragment off what is behind the authority. So a query or a fragment right behind the host goes
into the host, and a query right behind the port becomes a path without its slash: `parseUrl_compose_iff`.
-/

namespace CovNet.Client
open Lib Text Http

/-- The parts of a URL. -/
structure Url where
  scheme : Bytes
  host : Bytes
  port : Option Nat
  path : Bytes
  query : Option Bytes
  fragment : Option Bytes
  scheme_http : tolower scheme = bytes "http" ∨ tolower scheme = bytes "https"
  host_ne : host ≠ []
  host_plain : ∀ c ∈ host, c ≠ '/' ∧ c ≠ ':' ∧ c ≠ '?' ∧ c ≠ '#' ∧ c ≠ '@' ∧ isSpace c = false
  port_le : ∀ p ∈ port, p ≤ 65535
  path_slash : path = [] ∨ path.head? = some '/'
  path_plain : NoBreak path ∧ '?' ∉ path ∧ '#' ∉ path
  query_plain : ∀ q ∈ query, NoBreak q ∧ '#' ∉ q
  fragment_plain : ∀ f ∈ fragment, NoBreak f

namespace Url

/-- A part that may be missing, behind its mark. -/
def mark (c : Char) : Option Bytes → Bytes
  | none => []
  | some s => c :: s

/-- What stands behind the authority. -/
def tail (u : Url) : Bytes := u.path ++ mark '?' u.query ++ mark '#' u.fragment

/-- What stands behind the scheme. -/
def rest (u : Url) : Bytes := u.host ++ mark ':' (u.port.map decimal) ++ u.tail

/-- The URL as it is written. -/
def compose (u : Url) : Bytes := u.scheme ++ (bytes "://" ++ u.rest)

/-- What a request for the URL is sent to. -/
def target (u : Url) : Target where
  scheme := tolower u.scheme
  host := u.host
  port := match u.port with
    | some p => p
    | none => if tolower u.scheme = bytes "http" then defaultHttpPort else defaultHttpsPort
  path := (if u.path = [] then bytes "/" else u.path) ++ mark '?' u.query

end Url

/-! ## The regular expression -/

section Regex
variable {scheme s host port path : Bytes}

/-- The end of a host. -/
def inHost (c : Char) : Bool := c != '/' && c != ':'

/-- The scheme is cut off as it was written. -/
lemma scheme_cut (http : tolower scheme = bytes "http" ∨ tolower scheme = bytes "https") (s : Bytes) :
    (if (bytes "https").isPrefixOf (tolower (scheme ++ (bytes "://" ++ s))) then
      (scheme ++ (bytes "://" ++ s)).take 5 else (scheme ++ (bytes "://" ++ s)).take 4) = scheme := by
  have lower : tolower (scheme ++ (bytes "://" ++ s)) = tolower scheme ++ (bytes "://" ++ tolower s) := by
    simp only [tolower, List.map_append]
    rfl
  rcases http with h | h
  · have len : scheme.length = 4 := by
      rw [← List.length_map Char.toLower]
      exact congrArg List.length h
    rw [lower, h, if_neg (by simp [bytes]), List.take_left' len]
  · have len : scheme.length = 5 := by
      rw [← List.length_map Char.toLower]
      exact congrArg List.length h
    rw [lower, h, if_pos (List.isPrefixOf_iff_prefix.mpr (List.prefix_append _ _)), List.take_left' len]

/-- The port behind a host, and what follows. -/
def splitPort : Bytes → Bytes × Bytes
  | ':' :: rest =>
    if (rest.takeWhile Char.isDigit).isEmpty then ([], ':' :: rest)
    else (rest.takeWhile Char.isDigit, rest.dropWhile Char.isDigit)
  | rest => ([], rest)

/-- What is behind the scheme is cut at the end of the host. -/
lemma httpUrlReg_scheme (http : tolower scheme = bytes "http" ∨ tolower scheme = bytes "https") (s : Bytes) :
    httpUrlReg (scheme ++ (bytes "://" ++ s)) =
      if !(s.takeWhile inHost).isEmpty &&
          (splitPort (s.dropWhile inHost)).2.all (fun c => c != '\n' && c != '\r') then
        some (scheme, s.takeWhile inHost, splitPort (s.dropWhile inHost))
      else none := by
  have strip : stripText (bytes "://") (bytes "://" ++ s) = some s := stripText_iff.mpr rfl
  unfold httpUrlReg
  simp only [scheme_cut http, List.drop_left, strip]
  rw [if_pos http.symm]
  rfl

/-- A text without breaks passes the last part of the expression. -/
lemma all_of_noBreak (plain : NoBreak s) : s.all (fun c => c != '\n' && c != '\r') = true := by
  rw [List.all_eq_true]
  intro c hc
  have lf : c ≠ '\n' := fun e => plain.2 (e ▸ hc)
  have cr : c ≠ '\r' := fun e => plain.1 (e ▸ hc)
  simp [lf, cr]

/-- A host and a path. -/
lemma httpUrlReg_path {tail : Bytes} (http : tolower scheme = bytes "http" ∨ tolower scheme = bytes "https")
    (ne : host ≠ []) (inside : ∀ c ∈ host, inHost c = true) (outside : ∀ c ∈ tail.head?, c = '/')
    (plain : NoBreak tail) :
    httpUrlReg (scheme ++ (bytes "://" ++ (host ++ tail))) = some (scheme, host, [], tail) := by
  obtain ⟨front, back⟩ := span_append (y := tail) inside fun c hc => by rw [outside c hc]; rfl
  have some_host : host.isEmpty = false := by simpa using ne
  have none : splitPort tail = ([], tail) := by
    cases tail with
    | nil => rfl
    | cons c t =>
      obtain rfl : c = '/' := outside c rfl
      rfl
  rw [httpUrlReg_scheme http, front, back, none, some_host, all_of_noBreak plain]
  rfl

/-- A host, a port and what follows. -/
lemma httpUrlReg_port {digits tail : Bytes}
    (http : tolower scheme = bytes "http" ∨ tolower scheme = bytes "https") (ne : host ≠ [])
    (inside : ∀ c ∈ host, inHost c = true) (some_digits : digits ≠ [])
    (all : ∀ c ∈ digits, c.isDigit = true) (outside : ∀ c ∈ tail.head?, c.isDigit = false)
    (plain : NoBreak tail) :
    httpUrlReg (scheme ++ (bytes "://" ++ (host ++ ':' :: (digits ++ tail)))) =
      some (scheme, host, digits, tail) := by
  obtain ⟨front, back⟩ := span_stop inside (show inHost ':' = false from rfl) (digits ++ tail)
  obtain ⟨number, behind⟩ := span_append all outside
  have some_host : host.isEmpty = false := by simpa using ne
  have nonempty : ¬ digits.isEmpty = true := by simpa using some_digits
  have port : splitPort (':' :: (digits ++ tail)) = (digits, tail) := by
    rw [splitPort, number, behind, if_neg nonempty]
  rw [httpUrlReg_scheme http, front, back, port, some_host, all_of_noBreak plain]
  rfl

/-- The end of `parse_url`. -/
def targetOf (scheme host path : Bytes) (port : Int) : Target :=
  ⟨tolower scheme, host, port,
    if (path.takeWhile (· != '#')).isEmpty then bytes "/" else path.takeWhile (· != '#')⟩

/-- What `parse_url` makes of the parts of the expression. -/
lemma parseUrl_eq (asInteger : Bytes → Option Int) {url : Bytes}
    (reg : httpUrlReg url = some (scheme, host, port, path)) :
    parseUrl asInteger url =
      (if port.isEmpty then some (if tolower scheme = bytes "http" then defaultHttpPort else defaultHttpsPort)
        else asInteger port).map (targetOf scheme host path) := by
  have slash : (if path.isEmpty then bytes "/" else path).takeWhile (· != '#') =
      if path.isEmpty then bytes "/" else path.takeWhile (· != '#') := by
    split
    · rfl
    · rfl
  have same : (if (if path.isEmpty then bytes "/" else path.takeWhile (· != '#')).isEmpty then bytes "/"
        else if path.isEmpty then bytes "/" else path.takeWhile (· != '#')) =
      if (path.takeWhile (· != '#')).isEmpty then bytes "/" else path.takeWhile (· != '#') := by
    cases path with
    | nil => rfl
    | cons c s => rfl
  unfold parseUrl
  rw [reg]
  simp only [Option.bind_eq_bind, Option.bind_some, slash, same]
  split
  · rfl
  · cases asInteger port with
    | none => rfl
    | some n => rfl

/-- Whatever the URL is, the host is what stands before the first `/` or `:`. -/
lemma parseUrl_host {asInteger : Bytes → Option Int} {t : Target}
    (http : tolower scheme = bytes "http" ∨ tolower scheme = bytes "https")
    (h : parseUrl asInteger (scheme ++ (bytes "://" ++ s)) = some t) : t.host = s.takeWhile inHost := by
  have reg := httpUrlReg_scheme http s
  split at reg
  · rw [parseUrl_eq asInteger reg] at h
    obtain ⟨n, -, rfl⟩ := Option.map_eq_some_iff.mp h
    rfl
  · rw [parseUrl, reg] at h
    cases h

end Regex

/-! ## The parts come back -/

section Compose
variable {asInteger : Bytes → Option Int} (u : Url)

namespace Url

lemma tail_plain : NoBreak u.tail := by
  have break_mark : ∀ {c : Char} {s : Option Bytes}, c ≠ '\r' → c ≠ '\n' → (∀ t ∈ s, NoBreak t) →
      NoBreak (mark c s) := by
    intro c s cr lf h
    cases s with
    | none => exact ⟨nofun, nofun⟩
    | some t =>
      have plain := h t rfl
      exact ⟨by simp [mark, cr.symm, plain.1], by simp [mark, lf.symm, plain.2]⟩
  exact (u.path_plain.1.append (break_mark (by decide) (by decide) fun q h => (u.query_plain q h).1)).append
    (break_mark (by decide) (by decide) u.fragment_plain)

lemma host_inside : ∀ c ∈ u.host, inHost c = true := by
  intro c hc
  obtain ⟨slash, colon, -⟩ := u.host_plain c hc
  simp [inHost, slash, colon]

/-- What is behind the authority starts with a mark. -/
lemma tail_head : ∀ c ∈ u.tail.head?, c = '/' ∧ u.path ≠ [] ∨ (c = '?' ∨ c = '#') ∧ u.path = [] := by
  intro c hc
  unfold tail at hc
  cases path : u.path with
  | cons d p =>
    rcases u.path_slash with e | e
    · rw [path] at e
      cases e
    · rw [path] at e hc
      cases e
      cases hc
      exact .inl ⟨rfl, List.cons_ne_nil _ _⟩
  | nil =>
    rw [path] at hc
    refine .inr ⟨?_, rfl⟩
    cases query : u.query with
    | some q =>
      rw [query] at hc
      cases hc
      exact .inl rfl
    | none =>
      rw [query] at hc
      cases fragment : u.fragment with
      | some f =>
        rw [fragment] at hc
        cases hc
        exact .inr rfl
      | none =>
        rw [fragment] at hc
        cases hc

/-- The fragment is cut off. -/
lemma cut_fragment : u.tail.takeWhile (· != '#') = u.path ++ mark '?' u.query := by
  have inside : ∀ c ∈ u.path ++ mark '?' u.query, (c != '#') = true := by
    intro c hc
    have ne : c ≠ '#' := by
      rcases List.mem_append.mp hc with h | h
      · exact fun e => u.path_plain.2.2 (e ▸ h)
      · cases query : u.query with
        | none =>
          rw [query] at h
          cases h
        | some q =>
          rw [query] at h
          rcases List.mem_cons.mp h with rfl | h
          · decide
          · exact fun e => (u.query_plain q query).2 (e ▸ h)
    simpa using ne
  refine (span_append inside ?_).1
  intro c hc
  cases fragment : u.fragment with
  | none =>
    rw [fragment] at hc
    cases hc
  | some f =>
    rw [fragment] at hc
    cases hc
    rfl

end Url

/-- The path comes back unless there is a query right behind the authority. -/
lemma targetOf_tail (port : Int) :
    targetOf u.scheme u.host u.tail port = { u.target with port } ↔ u.path ≠ [] ∨ u.query = none := by
  rw [targetOf, u.cut_fragment, Target.mk.injEq]
  simp only [Url.target, true_and]
  cases path : u.path with
  | cons c p => exact iff_of_true (by simp) (.inl (List.cons_ne_nil _ _))
  | nil =>
    cases query : u.query with
    | none => exact iff_of_true rfl (.inr rfl)
    | some q =>
      refine iff_of_false ?_ (by simp)
      simp [Url.mark, bytes]

/-- With a port. -/
lemma parseUrl_compose_port (number : ∀ n, n ≤ 65535 → asInteger (decimal n) = some (n : Int)) {p : Nat}
    (port : u.port = some p) :
    parseUrl asInteger u.compose = some u.target ↔ u.path ≠ [] ∨ u.query = none := by
  have written : u.compose = u.scheme ++ (bytes "://" ++ (u.host ++ ':' :: (decimal p ++ u.tail))) := by
    simp only [Url.compose, Url.rest, port, Option.map_some, Url.mark, List.append_assoc, List.cons_append]
  have outside : ∀ c ∈ u.tail.head?, c.isDigit = false := by
    intro c hc
    rcases u.tail_head c hc with ⟨rfl, -⟩ | ⟨rfl | rfl, -⟩
    · rfl
    · rfl
    · rfl
  have some_digits : decimal p ≠ [] := Nat.toDigits_ne_nil
  have nonempty : ¬ (decimal p).isEmpty = true := by simpa using some_digits
  have own : { u.target with port := (p : Int) } = u.target := by simp only [Url.target, port]
  rw [written, parseUrl_eq asInteger (httpUrlReg_port u.scheme_http u.host_ne u.host_inside
    some_digits (fun c hc => isDigit_decimal hc) outside u.tail_plain), if_neg nonempty,
    number p (u.port_le p port), Option.map_some, Option.some.injEq, ← own]
  exact targetOf_tail u p

/-- Without a port, and with nothing or a path behind the host. -/
lemma parseUrl_compose_path (port : u.port = none) (outside : ∀ c ∈ u.tail.head?, c = '/') :
    parseUrl asInteger u.compose = some u.target ↔ u.path ≠ [] ∨ u.query = none := by
  have written : u.compose = u.scheme ++ (bytes "://" ++ (u.host ++ u.tail)) := by
    simp only [Url.compose, Url.rest, port, Option.map_none, Url.mark, List.append_nil]
  rw [written, parseUrl_eq asInteger (httpUrlReg_path u.scheme_http u.host_ne u.host_inside outside u.tail_plain),
    if_pos (show ([] : Bytes).isEmpty = true from rfl), Option.map_some, Option.some.injEq]
  have own : { u.target with
      port := if tolower u.scheme = bytes "http" then defaultHttpPort else defaultHttpsPort } = u.target := by
    simp only [Url.target, port]
  rw [← own]
  exact targetOf_tail u _

/-- A query or a fragment right behind the host goes into the host. -/
lemma parseUrl_compose_mark (port : u.port = none) {c : Char} (hc : c ∈ u.tail.head?) (ne : c ≠ '/') :
    parseUrl asInteger u.compose ≠ some u.target := by
  intro h
  have written : u.compose = u.scheme ++ (bytes "://" ++ (u.host ++ u.tail)) := by
    simp only [Url.compose, Url.rest, port, Option.map_none, Url.mark, List.append_nil]
  rw [written] at h
  have host : u.host = (u.host ++ u.tail).takeWhile inHost := parseUrl_host u.scheme_http h
  have inside : inHost c = true := by
    rcases u.tail_head c hc with ⟨slash, -⟩ | ⟨rfl | rfl, -⟩
    · exact absurd slash ne
    · rfl
    · rfl
  obtain ⟨t, e⟩ : ∃ t, u.tail = c :: t := ⟨u.tail.tail, List.eq_cons_of_mem_head? hc⟩
  rw [e, List.takeWhile_append_of_pos u.host_inside, List.takeWhile_cons_of_pos inside] at host
  exact absurd (List.append_right_eq_self.mp host.symm) (List.cons_ne_nil _ _)

end Compose

/-- The parts of every URL come back if and only if there is a path, or no query and either no fragment or
a port in front of it. -/
theorem parseUrl_compose_iff (asInteger : Bytes → Option Int)
    (number : ∀ n, n ≤ 65535 → asInteger (decimal n) = some (n : Int)) (u : Url) :
    parseUrl asInteger u.compose = some u.target ↔
      u.path ≠ [] ∨ (u.query = none ∧ (u.fragment = none ∨ u.port ≠ none)) := by
  cases port : u.port with
  | some p =>
    rw [parseUrl_compose_port u number port]
    simp
  | none =>
    cases head : u.tail.head? with
    | none =>
      -- nothing stands behind the host
      have nil : u.tail = [] := List.head?_eq_none_iff.mp head
      obtain ⟨front, fragment⟩ := List.append_eq_nil_iff.mp nil
      obtain ⟨path, query⟩ := List.append_eq_nil_iff.mp front
      have no_query : u.query = none := by
        cases e : u.query with
        | none => rfl
        | some q =>
          rw [e] at query
          cases query
      have no_fragment : u.fragment = none := by
        cases e : u.fragment with
        | none => rfl
        | some f =>
          rw [e] at fragment
          cases fragment
      rw [parseUrl_compose_path u port (by rw [head]; exact nofun)]
      exact iff_of_true (.inr no_query) (.inr ⟨no_query, .inl no_fragment⟩)
    | some c =>
      rcases u.tail_head c head with ⟨rfl, path⟩ | ⟨mark, path⟩
      · rw [parseUrl_compose_path u port (by rw [head]; rintro _ ⟨⟩; rfl)]
        exact iff_of_true (.inl path) (.inl path)
      · have ne : c ≠ '/' := by
          rcases mark with rfl | rfl
          · decide
          · decide
        refine iff_of_false (parseUrl_compose_mark u port head ne) ?_
        rintro (some_path | ⟨query, fragment | some_port⟩)
        · exact some_path path
        · rw [Url.tail, path, query, fragment] at head
          cases head
        · exact some_port rfl

/-- A URL with all its parts. -/
def fullUrl : Url where
  scheme := bytes "HTTPS"
  host := bytes "example.org"
  port := some 8443
  path := bytes "/a"
  query := some (bytes "b=c?d")
  fragment := some (bytes "e#f")
  scheme_http := .inr (by decide)
  host_ne := by decide
  host_plain := forall_of_all (by decide)
  port_le := by decide
  path_slash := .inr rfl
  path_plain := by decide
  query_plain := by decide
  fragment_plain := by decide

theorem parseUrl_compose_full :
    parseUrl digitsToInteger (bytes "HTTPS://example.org:8443/a?b=c?d#e#f") =
      some ⟨bytes "https", bytes "example.org", 8443, bytes "/a?b=c?d"⟩ :=
  (parseUrl_compose_iff digitsToInteger (fun n h => digitsToInteger_decimal n (by
    have limit : httpMaxBodySize = 67108864 := rfl
    omega)) fullUrl).mpr (.inl (by decide))

/-- A query right behind the host. -/
def queryUrl : Url where
  scheme := bytes "http"
  host := bytes "example.org"
  port := none
  path := []
  query := some (bytes "x=1")
  fragment := none
  scheme_http := .inl (by decide)
  host_ne := by decide
  host_plain := forall_of_all (by decide)
  port_le := nofun
  path_slash := .inl rfl
  path_plain := by decide
  query_plain := by decide
  fragment_plain := nofun

/-- It becomes part of the host; behind a port it becomes a path without a slash. -/
theorem query_lost :
    parseUrl digitsToInteger queryUrl.compose =
        some ⟨bytes "http", bytes "example.org?x=1", 80, bytes "/"⟩ ∧
      parseUrl digitsToInteger queryUrl.compose ≠ some queryUrl.target ∧
      parseUrl digitsToInteger (bytes "http://example.org:8080?x=1") =
        some ⟨bytes "http", bytes "example.org", 8080, bytes "?x=1"⟩ := by
  refine ⟨by decide +kernel, by decide +kernel, by decide +kernel⟩

end CovNet.Client
