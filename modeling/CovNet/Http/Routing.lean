import CovNet.Http.Serving
import CovNet.Lib.Bubble
import CovNet.Lib.Grouping
import CovNet.Path.Normalize

/-!
# Routing

`call_http_handler` (`netutils.ecs`) looks up the url of a request in `url_map`; then it takes the longest key
that is a front of the url and ends at the boundary of a component; then it serves a file. An error of the
static branch goes to the handler that is bound to its code, if there is one.

The keys of `url_map` come in the order in which the hash map has them. The candidates are sorted by swapping
neighbours until nothing changes, which ends (`bubbleSort_spec`). So a route is found unless a key is empty
(`route_spec`), and a key that is found is bound (`Site.serve_some`).
-/

namespace CovNet.Http
open Lib Text

/-! ## Handlers -/

/-- What a handler passes to `send_response`. -/
structure Page where
  code : Bytes
  data : Bytes
  type : Bytes
  deriving DecidableEq, Repr

/-- A handler that calls `send_response` once and leaves the session alone. Its first argument stands for
its surroundings, which may be others for each request. -/
abbrev Handler := Nat → Session → Page

/-- `mime_map`. -/
def mimeMap : List (Bytes × Bytes) :=
  [(bytes ".html", bytes "text/html"), (bytes ".htm", bytes "text/html"), (bytes ".txt", bytes "text/plain"),
    (bytes ".js", bytes "application/javascript"), (bytes ".css", bytes "text/css"),
    (bytes ".png", bytes "image/png"), (bytes ".jpg", bytes "image/jpeg"), (bytes ".jpeg", bytes "image/jpeg"),
    (bytes ".gif", bytes "image/gif"), (bytes ".json", bytes "application/json")]

/-- `get_mime`. -/
def getMime (path : Bytes) : Bytes :=
  if '.' ∈ path then
    let ext := '.' :: (path.reverse.takeWhile (· != '.')).reverse
    (mimeMap.lookup (tolower ext)).getD (bytes "application/octet-stream")
  else bytes "application/octet-stream"

/-- What a server serves, and from which file system: the state of the files when a request is served. -/
structure Site where
  urlMap : List (Bytes × Handler)
  sep : Path.Separator
  wwwroot : Option Bytes
  fs : Nat → Path.FileSystem
  readFile : Nat → Bytes → Bytes

namespace Site

/-- `url_map.insert`. -/
def insert (site : Site) (key : Bytes) (handler : Handler) : Site :=
  { site with urlMap := (key, handler) :: site.urlMap.filter (·.1 ≠ key) }

/-- The path a page is bound to. -/
def boundPath (site : Site) (path : Bytes) : Bytes :=
  Path.pathNormalize site.sep
    (match site.wwwroot with
      | some root => root ++ bytes "/" ++ path
      | none => path)

/-- The handler of a file. -/
def fileHandler (site : Site) (code path : Bytes) : Handler := fun count _ =>
  ⟨code, site.readFile count (site.boundPath path), getMime (site.boundPath path)⟩

/-- `http_server.bind_page`. -/
def bindPage (site : Site) (url path : Bytes) : Site :=
  site.insert url (site.fileHandler StateCode.code200.text path)

/-- `http_server.bind_code`. -/
def bindCode (site : Site) (stateCode path : Bytes) : Site :=
  site.insert stateCode (site.fileHandler stateCode path)

/-- `http_server.bind_func`. -/
def bindFunc (site : Site) (url : Bytes) (func : Handler) : Site := site.insert url func

end Site

/-! ## The choice of a handler -/

/-- A key is a candidate for a url: none where `key[-1]` raises. -/
def isCandidate (url key : Bytes) : Option Bool :=
  if find key url = some 0 then
    if url.length - key.length = 0 then some true
    else key.getLast?.map fun last => last = '/' || (url.drop key.length).take 1 = bytes "/"
  else some false

/-- The loop over `url_map`. -/
def candidates (url : Bytes) : List Bytes → Option (List Bytes)
  | [] => some []
  | key :: keys =>
    match isCandidate url key with
    | none => none
    | some true => (candidates url keys).map (key :: ·)
    | some false => candidates url keys

/-- The first of the sorted candidates. -/
def longest (found : List Bytes) : Option Bytes :=
  (bubbleSort List.length (sizeWeight List.length found + 1) found).bind List.head?

/-- The key whose handler is invoked, none for the static branch. It raises where there is no result. -/
def route (keys : List Bytes) (url : Bytes) : Option (Option Bytes) :=
  if url ∈ keys then some (some url)
  else
    match candidates url keys with
    | none => none
    | some [] => some none
    | some found => (longest found).map some

/-- The code of an error of the static branch. -/
def errorCode (text : String) : StateCode := if text = "404 Not Found" then .code404 else .code403

/-- `call_http_handler` up to the response: none where it raises. -/
def Site.serve (site : Site) (count : Nat) (session : Session) : Option Served :=
  match route (site.urlMap.map Prod.fst) session.url with
  | none => none
  | some (some key) => (site.urlMap.lookup key).map fun handler =>
      let page := handler count session
      .handled page.code page.data page.type
  | some none =>
    match Path.serveStatic (site.fs count) site.sep site.wwwroot session.url with
    | .ok path => some (.handled StateCode.code200.text (site.readFile count path) (getMime path))
    | .error text =>
      match site.urlMap.lookup (errorCode text).text with
      | some handler =>
        let page := handler count session
        some (.errorHandled page.code page.data page.type)
      | none => some (.refused (errorCode text))

/-! ## A route is found -/

section Route
variable {url key : Bytes} {keys found : List Bytes}

/-- What the loop keeps is a key, and a front of the url. -/
lemma candidates_spec (h : candidates url keys = some found) : ∀ key ∈ found, key ∈ keys ∧ key <+: url := by
  fun_induction candidates url keys generalizing found with
  | case1 =>
    cases h
    exact nofun
  | case2 key keys raises => cases h
  | case3 key keys taken ih =>
    obtain ⟨rest, e, rfl⟩ := Option.map_eq_some_iff.mp h
    have front : key <+: url := by
      unfold isCandidate at taken
      split at taken
      · rename_i start
        exact find_eq_zero.mp start
      · cases taken
    refine List.forall_mem_cons.mpr ⟨⟨List.mem_cons_self, front⟩, fun other mem => ?_⟩
    obtain ⟨bound, front⟩ := ih e other mem
    exact ⟨List.mem_cons_of_mem _ bound, front⟩
  | case4 key keys passed ih =>
    intro other mem
    obtain ⟨bound, front⟩ := ih h other mem
    exact ⟨List.mem_cons_of_mem _ bound, front⟩

/-- Only an empty key makes the loop raise. -/
lemma candidates_some (url : Bytes) (nonempty : [] ∉ keys) : ∃ found, candidates url keys = some found := by
  induction keys with
  | nil => exact ⟨[], rfl⟩
  | cons key keys ih =>
    rw [List.mem_cons, not_or] at nonempty
    obtain ⟨found, e⟩ := ih nonempty.2
    -- the last character is looked at only where the key is shorter than the url
    obtain ⟨taken, decided⟩ : ∃ taken, isCandidate url key = some taken := by
      unfold isCandidate
      split
      · split
        · exact ⟨true, rfl⟩
        · obtain ⟨last, e⟩ := Option.isSome_iff_exists.mp (List.getLast?_isSome.mpr (Ne.symm nonempty.1))
          exact ⟨_, by rw [e, Option.map_some]⟩
      · exact ⟨false, rfl⟩
    rw [candidates, decided]
    cases taken with
    | true => exact ⟨key :: found, by rw [e, Option.map_some]⟩
    | false => exact ⟨found, e⟩

/-- The sort ends, with a longest candidate in front. -/
lemma longest_spec (ne : found ≠ []) :
    ∃ key, longest found = some key ∧ key ∈ found ∧ ∀ other ∈ found, other.length ≤ key.length := by
  obtain ⟨sorted, e, perm, order⟩ :=
    bubbleSort_spec (l := found) (Nat.lt_succ_self (sizeWeight List.length found))
  -- all that is needed of the order is that nothing longer comes later
  cases sorted with
  | nil => exact absurd perm.nil_eq.symm ne
  | cons key sorted =>
    refine ⟨key, by rw [longest, e]; rfl, perm.mem_iff.mp List.mem_cons_self, fun other mem => ?_⟩
    rcases List.mem_cons.mp (perm.mem_iff.mpr mem) with rfl | mem
    · exact Nat.le_refl _
    · exact List.rel_of_pairwise_cons order mem

/-- A key that is found is bound, and a front of the url. -/
lemma route_key (h : route keys url = some (some key)) : key ∈ keys ∧ key <+: url := by
  unfold route at h
  split at h
  · rename_i bound
    cases h
    exact ⟨bound, List.prefix_rfl⟩
  · split at h
    · cases h
    · cases h
    · rename_i found some_key e
      obtain ⟨first, es, mem, -⟩ := longest_spec some_key
      rw [es] at h
      cases h
      exact candidates_spec e key mem

/-- There is a route unless a key is empty. -/
theorem route_some (url : Bytes) (nonempty : [] ∉ keys) : ∃ r, route keys url = some r := by
  unfold route
  split
  · exact ⟨_, rfl⟩
  · obtain ⟨found, e⟩ := candidates_some url nonempty
    rw [e]
    cases found with
    | nil => exact ⟨none, rfl⟩
    | cons key found =>
      obtain ⟨first, es, -⟩ := longest_spec (List.cons_ne_nil key found)
      exact ⟨some first, congrArg (Option.map some) es⟩

end Route

section Serve
variable {site : Site} {count : Nat} {session : Session}

/-- A request is answered unless a key is empty. -/
theorem Site.serve_some (nonempty : [] ∉ site.urlMap.map Prod.fst) :
    ∃ served, site.serve count session = some served := by
  obtain ⟨r, e⟩ := route_some session.url nonempty
  unfold Site.serve
  rw [e]
  cases r with
  | some key =>
    obtain ⟨handler, bound⟩ := exists_lookup (route_key e).1
    exact ⟨_, congrArg (Option.map _) bound⟩
  | none =>
    dsimp only
    split
    · exact ⟨_, rfl⟩
    · split
      · exact ⟨_, rfl⟩
      · exact ⟨_, rfl⟩

end Serve

end CovNet.Http
