import CovNet.Http.Selection

/-!
# Bindings

`bind_page` and `bind_func` bind a url, `bind_proxy` binds a prefix, and all of them enter a handler into
`url_map`, which does not say what it was entered for. So the search for a prefix, which is there for the
proxies, finds pages and functions too: a page bound to `/` answers for every url that is not bound.
`meets_iff` says when that does not happen.
-/

namespace CovNet.Http
open Lib Text

/-- A call that binds a handler. What the handler of a proxy sends does not matter here. -/
inductive Binding where
  | page (url path : Bytes)
  | func (url : Bytes) (func : Handler)
  | proxy (pfx : Bytes) (handler : Handler)

namespace Binding

/-- The key that is bound. -/
def key : Binding → Bytes
  | page url _ => url
  | func url _ => url
  | proxy pfx _ => pfx

/-- A page or a function, which stands for one url. -/
def exact : Binding → Bool
  | page _ _ => true
  | func _ _ => true
  | proxy _ _ => false

end Binding

namespace Site

/-- `http_server.bind_proxy`. -/
def bindProxy (site : Site) (pfx : Bytes) (handler : Handler) : Site := site.insert pfx handler

/-- One call. -/
def bind (site : Site) : Binding → Site
  | .page url path => site.bindPage url path
  | .func url func => site.bindFunc url func
  | .proxy pfx handler => site.bindProxy pfx handler

/-- A site with nothing bound, after some calls. -/
def bindAll (site : Site) (bindings : List Binding) : Site :=
  bindings.foldl bind { site with urlMap := [] }

/-- The handler a call enters: pages are looked for under `wwwroot`. -/
def handlerOf (site : Site) : Binding → Handler
  | .page _ path => site.fileHandler StateCode.code200.text path
  | .func _ func => func
  | .proxy _ handler => handler

end Site

/-- The last call for a key, whose handler is the one in `url_map`. -/
def lastBinding (bindings : List Binding) (key : Bytes) : Option Binding :=
  bindings.reverse.find? (·.key = key)

/-- What pages and functions promise of a url: the handler of one of them is invoked only for its own url,
and with `wwwroot` set a url that is no page, no function and under no proxy is looked for there. -/
def Meets (site : Site) (bindings : List Binding) (url : Bytes) : Prop :=
  (∀ key b, route ((site.bindAll bindings).urlMap.map Prod.fst) url = some (some key) →
    lastBinding bindings key = some b → b.exact = true → key = url) ∧
  (site.wwwroot.isSome →
    (∀ key b, lastBinding bindings key = some b → b.exact = true → key ≠ url) →
    (∀ key b, lastBinding bindings key = some b → b.exact = false → key ≠ url ∧ ¬ Extends url key) →
    route ((site.bindAll bindings).urlMap.map Prod.fst) url = some none)

/-- The url is bound itself, or where the empty url is bound there is no `wwwroot` or the url is under a
proxy, or where it is not, every page and function the url extends is shorter than a proxy it extends. -/
def Apart (site : Site) (bindings : List Binding) (url : Bytes) : Prop :=
  (∃ b, lastBinding bindings url = some b) ∨
  ((∃ b, lastBinding bindings [] = some b) ∧
    (site.wwwroot = none ∨
      ∃ pfx b, lastBinding bindings pfx = some b ∧ b.exact = false ∧ Extends url pfx)) ∨
  ((lastBinding bindings [] = none) ∧
    ∀ key b, lastBinding bindings key = some b → b.exact = true → Extends url key →
      ∃ pfx b, lastBinding bindings pfx = some b ∧ b.exact = false ∧ Extends url pfx ∧
        key.length < pfx.length)

section Bindings
variable {site : Site} {bindings : List Binding} {url key : Bytes}

lemma lookup_insert (site : Site) (key : Bytes) (handler : Handler) (other : Bytes) :
    (site.insert key handler).urlMap.lookup other =
      if other = key then some handler else site.urlMap.lookup other := by
  unfold Site.insert
  split
  · rename_i same
    rw [same, List.lookup_cons_self]
  · rename_i different
    rw [List.lookup_cons, beq_eq_false_iff_ne.mpr different]
    dsimp only
    induction site.urlMap with
    | nil => rfl
    | cons member members ih =>
      rw [List.filter_cons]
      split
      · rw [List.lookup_cons, ih, List.lookup_cons]
      · rename_i dropped
        have same : member.1 = key := by simpa using dropped
        rw [ih, List.lookup_cons, same, beq_eq_false_iff_ne.mpr different]

lemma Site.bind_eq (site : Site) (b : Binding) : site.bind b = site.insert b.key (site.handlerOf b) := by
  cases b with
  | page url path => rfl
  | func url func => rfl
  | proxy pfx handler => rfl

/-- A call changes the map only, so what it enters does not depend on the calls before it. -/
lemma Site.handlerOf_bindAll (site : Site) (bindings : List Binding) :
    (site.bindAll bindings).handlerOf = site.handlerOf := by
  unfold bindAll
  have step : ∀ start : Site, start.handlerOf = site.handlerOf →
      (bindings.foldl bind start).handlerOf = site.handlerOf := by
    induction bindings with
    | nil => exact fun _ => id
    | cons b bindings ih =>
      intro start same
      refine ih _ (Eq.trans ?_ same)
      rw [bind_eq]
      rfl
  exact step _ rfl

/-- The handler of a key is that of the last call for it. -/
lemma Site.lookup_bindAll (site : Site) (bindings : List Binding) (key : Bytes) :
    (site.bindAll bindings).urlMap.lookup key = (lastBinding bindings key).map site.handlerOf := by
  induction bindings using List.reverseRecOn with
  | nil => rfl
  | append_singleton bindings b ih =>
    have split : site.bindAll (bindings ++ [b]) = (site.bindAll bindings).bind b := by
      rw [bindAll, List.foldl_append]
      rfl
    have last : lastBinding (bindings ++ [b]) key =
        if b.key = key then some b else lastBinding bindings key := by
      rw [lastBinding, List.reverse_append, List.reverse_singleton, List.singleton_append, List.find?_cons]
      by_cases same : b.key = key
      · rw [if_pos same, decide_eq_true same]
      · rw [if_neg same, decide_eq_false same]
        rfl
    rw [split, bind_eq, lookup_insert, last, handlerOf_bindAll]
    by_cases same : b.key = key
    · rw [if_pos same.symm, if_pos same, Option.map_some]
    · rw [if_neg (Ne.symm same), if_neg same, ih]

/-- The keys of the map are the keys of the calls. -/
lemma mem_keys : key ∈ (site.bindAll bindings).urlMap.map Prod.fst ↔ ∃ b, lastBinding bindings key = some b := by
  constructor
  · intro mem
    obtain ⟨handler, bound⟩ := exists_lookup mem
    rw [Site.lookup_bindAll] at bound
    obtain ⟨b, last, -⟩ := Option.map_eq_some_iff.mp bound
    exact ⟨b, last⟩
  · rintro ⟨b, last⟩
    by_contra no
    have none : (site.bindAll bindings).urlMap.lookup key = none := lookup_eq_none.mpr no
    rw [Site.lookup_bindAll, last] at none
    cases none

/-- Where the empty url is bound, the search raises for every url that is not. -/
lemma route_empty_key {keys : List Bytes} (empty : [] ∈ keys) (unbound : url ∉ keys) :
    route keys url = none := by
  have ne : url ≠ [] := by
    rintro rfl
    exact unbound empty
  have raises : isCandidate url [] = none := by
    have longer : ¬ url.length - ([] : Bytes).length = 0 := by
      have pos := List.length_pos_iff.mpr ne
      rw [List.length_nil]
      omega
    rw [isCandidate, if_pos (find_eq_zero.mpr (List.nil_prefix)), if_neg longer]
    rfl
  have all : ∀ keys : List Bytes, [] ∈ keys → candidates url keys = none := by
    intro keys empty
    induction keys with
    | nil => cases empty
    | cons key keys ih =>
      rcases List.mem_cons.mp empty with rfl | later
      · rw [candidates, raises]
      · rw [candidates, ih later]
        split
        · rfl
        · rfl
        · rfl
  rw [route, if_neg unbound, all keys empty]

/-- What is promised, where the empty url is bound and the url is not. -/
lemma meets_of_empty (unbound : ¬ ∃ b, lastBinding bindings url = some b)
    (empty : ∃ b, lastBinding bindings [] = some b) :
    Meets site bindings url ↔
      site.wwwroot = none ∨ ∃ pfx b, lastBinding bindings pfx = some b ∧ b.exact = false ∧ Extends url pfx := by
  have keyed : [] ∈ (site.bindAll bindings).urlMap.map Prod.fst := mem_keys.mpr empty
  have raises := route_empty_key keyed (mt mem_keys.mp unbound)
  have other : ∀ key b, lastBinding bindings key = some b → key ≠ url := by
    rintro key b last rfl
    exact unbound ⟨b, last⟩
  rw [Meets, raises]
  constructor
  · rintro ⟨-, static⟩
    by_contra no
    rw [not_or] at no
    have root : site.wwwroot.isSome := Option.isSome_iff_ne_none.mpr no.1
    have none := static root (fun key b last _ => other key b last) fun key b last proxy =>
      ⟨other key b last, fun under => no.2 ⟨key, b, last, proxy, under⟩⟩
    cases none
  · intro h
    refine ⟨nofun, fun root _ proxies => ?_⟩
    rcases h with none | ⟨pfx, b, last, proxy, under⟩
    · rw [none] at root
      cases root
    · exact absurd under (proxies pfx b last proxy).2

/-- What is promised, where neither is bound. -/
lemma meets_of_nonempty (unbound : ¬ ∃ b, lastBinding bindings url = some b)
    (nonempty : lastBinding bindings [] = none) :
    Meets site bindings url ↔
      ∀ key b, lastBinding bindings key = some b → b.exact = true → Extends url key →
        ∃ pfx b, lastBinding bindings pfx = some b ∧ b.exact = false ∧ Extends url pfx ∧
          key.length < pfx.length := by
  have no_empty : [] ∉ (site.bindAll bindings).urlMap.map Prod.fst := by
    rw [mem_keys, nonempty]
    exact nofun
  have other : ∀ key b, lastBinding bindings key = some b → key ≠ url := by
    rintro key b last rfl
    exact unbound ⟨b, last⟩
  obtain ⟨r, chosen⟩ := route_some url no_empty
  have selects := route_selects no_empty chosen
  rw [Meets, chosen]
  cases r with
  | none =>
    have none : ∀ key b, lastBinding bindings key = some b → ¬ Extends url key := fun key b last =>
      (selects key (mem_keys.mpr ⟨b, last⟩)).2
    exact iff_of_true ⟨nofun, fun _ _ _ => rfl⟩ fun key b last _ under => absurd under (none key b last)
  | some key =>
    obtain ⟨mem, choice⟩ := selects
    obtain ⟨b, last⟩ := mem_keys.mp mem
    obtain ⟨-, under, longest⟩ := choice.resolve_left (other key b last)
    constructor
    · rintro ⟨own, -⟩ key' b' last' exact' under'
      -- the key that is chosen belongs to a proxy, so it is not the one of the page
      have proxy : b.exact = false := by
        cases exact : b.exact with
        | false => rfl
        | true => exact absurd (own key b rfl last exact) (other key b last)
      have le := longest key' (mem_keys.mpr ⟨b', last'⟩) under'
      refine ⟨key, b, last, proxy, under, lt_of_le_of_ne le fun len => ?_⟩
      rw [under'.unique under len, last] at last'
      cases last'
      rw [proxy] at exact'
      cases exact'
    · intro h
      have proxy : b.exact = false := by
        cases exact : b.exact with
        | false => rfl
        | true =>
          obtain ⟨pfx, b', last', -, under', lt⟩ := h key b last exact under
          exact absurd (longest pfx (mem_keys.mpr ⟨b', last'⟩) under') (not_le.mpr lt)
      refine ⟨?_, fun _ _ proxies => absurd under (proxies key b last proxy).2⟩
      rintro _ b' ⟨⟩ last' exact'
      rw [last] at last'
      cases last'
      rw [proxy] at exact'
      cases exact'

end Bindings

/-- After any calls that bind and for any url, pages and functions keep their promise if and only if the
url is bound itself, or every page and function it extends is shorter than a proxy it extends. -/
theorem meets_iff (site : Site) (bindings : List Binding) (url : Bytes) :
    Meets site bindings url ↔ Apart site bindings url := by
  unfold Apart
  by_cases bound : ∃ b, lastBinding bindings url = some b
  · refine iff_of_true ⟨fun key b chosen _ _ => ?_, fun _ exacts proxies => ?_⟩ (.inl bound)
    · rw [route, if_pos (mem_keys.mpr bound)] at chosen
      cases chosen
      rfl
    · obtain ⟨b, last⟩ := bound
      cases exact : b.exact with
      | true => exact absurd rfl (exacts url b last exact)
      | false => exact absurd rfl (proxies url b last exact).1
  · rw [or_iff_right bound]
    cases empty : lastBinding bindings [] with
    | some b =>
      rw [meets_of_empty bound ⟨b, empty⟩, and_iff_right ⟨b, rfl⟩]
      exact (or_iff_left fun h => nomatch h.1).symm
    | none =>
      rw [meets_of_nonempty bound empty, and_iff_right rfl]
      exact (or_iff_right fun h => nomatch h.1).symm

/-- A site with files. -/
def fileSite : Site where
  urlMap := []
  sep := .slash
  wwwroot := some (bytes "www")
  fs := fun _ => ⟨fun _ => true, fun _ => true, fun _ => true, fun _ => false⟩
  readFile := fun _ path => path

/-- That site with a page bound to `/`. -/
def indexSite : Site := fileSite.bindAll [.page (bytes "/") (bytes "index.html")]

/-- With a page bound to `/` no file is served any more, and what is under a function is its own. -/
theorem page_takes_files :
    indexSite.serve 0 ⟨bytes "/logo.png", [], none, bytes "GET", bytes "1.1", bytes "close", none, none, []⟩ =
      some (.handled (bytes "200 OK") (bytes "www/index.html") (bytes "text/html")) ∧
    ¬ Meets fileSite [.page (bytes "/") (bytes "index.html")] (bytes "/logo.png") ∧
    ¬ Meets fileSite [.func (bytes "/ping") fun _ _ => ⟨bytes "200 OK", bytes "pong", bytes "text/plain"⟩]
      (bytes "/ping/me") := by
  have root : route (indexSite.urlMap.map Prod.fst) (bytes "/logo.png") = some (some (bytes "/")) :=
    route_of_selects (by decide) ⟨by decide, .inr ⟨by decide, by decide, by decide⟩⟩
  have ping : route [bytes "/ping"] (bytes "/ping/me") = some (some (bytes "/ping")) :=
    route_of_selects (by decide) ⟨by decide, .inr ⟨by decide, by decide, by decide⟩⟩
  refine ⟨?_, fun h => ?_, fun h => ?_⟩
  · have index : indexSite.urlMap.lookup (bytes "/") =
        some (fileSite.fileHandler StateCode.code200.text (bytes "index.html")) := rfl
    rw [@Site.serve_handled indexSite 0 ⟨bytes "/logo.png", _, _, _, _, _, _, _, _⟩ _ _ root index]
    decide
  · exact absurd (h.1 (bytes "/") _ root rfl rfl) (by decide)
  · exact absurd (h.1 (bytes "/ping") _ ping rfl rfl) (by decide)

end CovNet.Http
