import CovNet.Http.Routing

/-!
# Which handler is chosen

What the search of `call_http_handler` is for: the handler bound to the url itself, or else that of the
longest key the url extends at the boundary of a component, or else a file (`Selects`). The choice is
unique, because two keys of one length that the url starts with are one key; so the order of the hash map
does not matter: `serve_selects`.
-/

namespace CovNet.Http
open Lib Text

/-- The url goes on behind the key at the boundary of a component. -/
def Extends (url key : Bytes) : Prop :=
  key <+: url ∧ (key.getLast? = some '/' ∨ (url.drop key.length).head? = some '/')

instance (url key : Bytes) : Decidable (Extends url key) := inferInstanceAs (Decidable (_ ∧ _))

/-- The key whose handler a request for the url is for, none for the static branch. -/
def Selects (keys : List Bytes) (url : Bytes) : Option Bytes → Prop
  | some key =>
    key ∈ keys ∧
      (key = url ∨
        url ∉ keys ∧ Extends url key ∧ ∀ other ∈ keys, Extends url other → other.length ≤ key.length)
  | none => ∀ key ∈ keys, key ≠ url ∧ ¬ Extends url key

/-- The static branch of `call_http_handler`, up to the response. -/
def Site.serveFile (site : Site) (count : Nat) (session : Session) : Served :=
  match Path.serveStatic (site.fs count) site.sep site.wwwroot session.url with
  | .ok path => .handled StateCode.code200.text (site.readFile count path) (getMime path)
  | .error text =>
    match site.urlMap.lookup (errorCode text).text with
    | some handler =>
      let page := handler count session
      .errorHandled page.code page.data page.type
    | none => .refused (errorCode text)

section Select
variable {url key : Bytes} {keys found : List Bytes}

/-- Two keys the url extends are one if they have one length. -/
lemma Extends.unique {other : Bytes} (h : Extends url key) (h' : Extends url other)
    (len : key.length = other.length) : key = other :=
  (List.prefix_of_prefix_length_le h.1 h'.1 len.le).eq_of_length len

/-- A nonempty key is a candidate if and only if it is the url or the url extends it. -/
lemma isCandidate_iff (ne : key ≠ []) : isCandidate url key = some true ↔ key = url ∨ Extends url key := by
  unfold isCandidate
  obtain ⟨last, e⟩ := Option.isSome_iff_exists.mp (List.getLast?_isSome.mpr ne)
  by_cases front : key <+: url
  · rw [if_pos (find_eq_zero.mpr front)]
    by_cases whole : url.length - key.length = 0
    · have same : key = url := front.eq_of_length_le (by omega)
      rw [if_pos whole]
      exact iff_of_true rfl (.inl same)
    · have other : key ≠ url := by
        rintro rfl
        exact whole (Nat.sub_self _)
      have slash : bytes "/" = ['/'] := rfl
      have next : (url.drop key.length).take 1 = bytes "/" ↔ (url.drop key.length).head? = some '/' := by
        cases url.drop key.length with
        | nil => simp [slash]
        | cons c s => simp [slash]
      rw [if_neg whole, e, Option.map_some, Option.some.injEq, Bool.or_eq_true, decide_eq_true_eq,
        decide_eq_true_eq, or_iff_right other, Extends, and_iff_right front, e, Option.some.injEq, next]
  · rw [if_neg (mt find_eq_zero.mp front)]
    refine iff_of_false nofun ?_
    rintro (rfl | h)
    · exact front List.prefix_rfl
    · exact front h.1

/-- What the loop keeps are the keys that are candidates. -/
lemma mem_candidates (nonempty : [] ∉ keys) (h : candidates url keys = some found) :
    key ∈ found ↔ key ∈ keys ∧ (key = url ∨ Extends url key) := by
  fun_induction candidates url keys generalizing found with
  | case1 =>
    cases h
    simp
  | case2 first keys raises => cases h
  | case3 first keys taken ih =>
    rw [List.mem_cons, not_or] at nonempty
    obtain ⟨rest, e, rfl⟩ := Option.map_eq_some_iff.mp h
    have fits := (isCandidate_iff (Ne.symm nonempty.1)).mp taken
    rw [List.mem_cons, List.mem_cons, ih nonempty.2 e, or_and_right]
    refine or_congr_left ?_
    constructor
    · rintro rfl
      exact ⟨rfl, fits⟩
    · exact And.left
  | case4 first keys passed ih =>
    rw [List.mem_cons, not_or] at nonempty
    have none : ¬ (first = url ∨ Extends url first) := by
      rw [← isCandidate_iff (Ne.symm nonempty.1), passed]
      intro e
      cases e
    rw [ih nonempty.2 h, List.mem_cons, or_and_right]
    refine (or_iff_right ?_).symm
    rintro ⟨rfl, fits⟩
    exact none fits

/-- The search finds what it is for. -/
lemma route_selects {r : Option Bytes} (nonempty : [] ∉ keys) (h : route keys url = some r) :
    Selects keys url r := by
  unfold route at h
  split at h
  · rename_i bound
    cases h
    exact ⟨bound, .inl rfl⟩
  · rename_i unbound
    have unequal : ∀ key ∈ keys, key ≠ url := by
      rintro key mem rfl
      exact unbound mem
    split at h
    · cases h
    · rename_i e
      cases h
      refine fun key mem => ⟨unequal key mem, fun extends_key => ?_⟩
      exact absurd ((mem_candidates nonempty e).mpr ⟨mem, .inr extends_key⟩) List.not_mem_nil
    · rename_i found some_key e
      obtain ⟨key, es, mem, longest⟩ := longest_spec some_key
      rw [es] at h
      cases h
      obtain ⟨bound, fits⟩ := (mem_candidates nonempty e).mp mem
      refine ⟨bound, .inr ⟨unbound, fits.resolve_left (unequal key bound), fun other at_other fits' => ?_⟩⟩
      exact longest other ((mem_candidates nonempty e).mpr ⟨at_other, .inr fits'⟩)

/-- There is one choice at most. -/
lemma Selects.unique {r r' : Option Bytes} (h : Selects keys url r) (h' : Selects keys url r') : r = r' := by
  cases r with
  | none =>
    cases r' with
    | none => rfl
    | some key =>
      obtain ⟨mem, rfl | ⟨-, fits, -⟩⟩ := h'
      · exact absurd rfl (h key mem).1
      · exact absurd fits (h key mem).2
  | some key =>
    obtain ⟨mem, choice⟩ := h
    cases r' with
    | none =>
      rcases choice with rfl | ⟨-, fits, -⟩
      · exact absurd rfl (h' key mem).1
      · exact absurd fits (h' key mem).2
    | some other =>
      obtain ⟨mem', choice'⟩ := h'
      rcases choice with rfl | ⟨unbound, fits, longest⟩
      · rcases choice' with rfl | ⟨unbound', -, -⟩
        · rfl
        · exact absurd mem unbound'
      · rcases choice' with rfl | ⟨-, fits', longest'⟩
        · exact absurd mem' unbound
        · exact congrArg some
            (fits.unique fits' (Nat.le_antisymm (longest' key mem fits) (longest other mem' fits')))

/-- What is chosen depends on the keys, not on their order. -/
lemma Selects.perm {keys' : List Bytes} {r : Option Bytes} (order : keys'.Perm keys) (h : Selects keys url r) :
    Selects keys' url r := by
  cases r with
  | none => exact fun key mem => h key (order.mem_iff.mp mem)
  | some key =>
    obtain ⟨mem, choice⟩ := h
    refine ⟨order.mem_iff.mpr mem, choice.imp_right ?_⟩
    rintro ⟨unbound, fits, longest⟩
    exact ⟨mt order.mem_iff.mp unbound, fits, fun other at_other => longest other (order.mem_iff.mp at_other)⟩

/-- The search finds the choice there is. -/
lemma route_of_selects {r : Option Bytes} (nonempty : [] ∉ keys) (h : Selects keys url r) :
    route keys url = some r := by
  obtain ⟨r', chosen⟩ := route_some url nonempty
  rw [chosen, (route_selects nonempty chosen).unique h]

end Select

/-- The handler of the key that is found is invoked. -/
lemma Site.serve_handled {site : Site} {count : Nat} {session : Session} {key : Bytes} {handler : Handler}
    (chosen : route (site.urlMap.map Prod.fst) session.url = some (some key))
    (bound : site.urlMap.lookup key = some handler) :
    site.serve count session = some (.handled (handler count session).code (handler count session).data
      (handler count session).type) := by
  simp only [serve, chosen, bound, Option.map_some]

/-- For every map without an empty key and every url the search ends with the one choice there is, in
whatever order the keys come; the handler that is bound to the chosen key is invoked, and without one the
request goes to the static branch. -/
theorem serve_selects (site : Site) (count : Nat) (session : Session)
    (nonempty : [] ∉ site.urlMap.map Prod.fst) :
    ∃ r, Selects (site.urlMap.map Prod.fst) session.url r ∧
      (∀ r', Selects (site.urlMap.map Prod.fst) session.url r' → r' = r) ∧
      (∀ keys, keys.Perm (site.urlMap.map Prod.fst) → route keys session.url = some r) ∧
      match r with
      | some key => ∃ handler, site.urlMap.lookup key = some handler ∧
          site.serve count session = some (.handled (handler count session).code
            (handler count session).data (handler count session).type)
      | none => site.serve count session = some (site.serveFile count session) := by
  obtain ⟨r, chosen⟩ := route_some session.url nonempty
  have selects := route_selects nonempty chosen
  refine ⟨r, selects, fun r' h => h.unique selects, fun keys order => ?_, ?_⟩
  · exact route_of_selects (mt order.mem_iff.mp nonempty) (selects.perm order)
  · cases r with
    | none =>
      simp only [Site.serve, chosen, Site.serveFile]
      cases Path.serveStatic (site.fs count) site.sep site.wwwroot session.url with
      | ok path => rfl
      | error text =>
        dsimp only
        cases site.urlMap.lookup (errorCode text).text with
        | some handler => rfl
        | none => rfl
    | some key =>
      obtain ⟨handler, bound⟩ := exists_lookup (route_key chosen).1
      exact ⟨handler, bound, Site.serve_handled chosen bound⟩

/-- A site with two proxies, one within the other. -/
def nestedSite : Site where
  urlMap := [(bytes "/api", fun _ _ => ⟨bytes "200 OK", bytes "outer", bytes "text/plain"⟩),
    (bytes "/api/v1/", fun _ _ => ⟨bytes "200 OK", bytes "inner", bytes "text/plain"⟩)]
  sep := .slash
  wwwroot := none
  fs := fun _ => ⟨fun _ => false, fun _ => false, fun _ => false, fun _ => false⟩
  readFile := fun _ _ => []

theorem serve_selects_nested :
    ∃ r, Selects [bytes "/api", bytes "/api/v1/"] (bytes "/api/v1/users") r ∧
      route [bytes "/api/v1/", bytes "/api"] (bytes "/api/v1/users") = some r := by
  obtain ⟨r, selects, -, order, -⟩ :=
    serve_selects nestedSite 0 ⟨bytes "/api/v1/users", [], none, bytes "GET", bytes "1.1",
      bytes "keep-alive", none, none, []⟩ (by decide)
  exact ⟨r, selects, order _ (.swap _ _ [])⟩

end CovNet.Http
