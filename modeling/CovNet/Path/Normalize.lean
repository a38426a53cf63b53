import CovNet.Text.Bytes

/-!
# Path normalisation and static files

`path_normalize`, `http_server.set_wwwroot` and the static branch of `call_http_handler`
(`netutils.ecs`). The platform enters through `system.path.separator`; the file system through the
four predicates the static branch asks.

`regex.match` is a full match, so `path_extractor` recognises a drive only in a path that is nothing
but the drive. With the separator `\` the character that is turned into `/` is `/` itself, and
backslashes stay in the components.

The normal form is described by `pathNormalize_eq`: a prefix that depends on the platform, and the
stack of components below it.
-/

namespace CovNet.Path
open Lib Text

/-- `system.path.separator`. -/
inductive Separator where
  | slash
  | backslash
  deriving DecidableEq, Repr

/-- The component that stays. -/
def dot : Bytes := ['.']

/-- The component that leaves a directory. -/
def dotdot : Bytes := ['.', '.']

/-- `[A-Za-z]`. -/
def isLetter (c : Char) : Bool := ('A' ≤ c && c ≤ 'Z') || ('a' ≤ c && c ≤ 'z')

/-- `path_extractor.match(path)`, the full match of `^([A-Za-z]:)`. -/
def pathExtractor : Bytes → Option Bytes
  | [c, ':'] => if isLetter c then some [c, ':'] else none
  | _ => none

/-- The path with `alt_sep` turned into `/`. -/
def slashed (sep : Separator) (path : Bytes) : Bytes :=
  let altSep := match sep with
    | .slash => '\\'
    | .backslash => '/'
  path.map fun ch => if ch = altSep then '/' else ch

/-- What is in front of the components: the start of the result, `is_abs`, and the path left. -/
structure Front where
  result : Bytes
  isAbs : Bool
  rest : Bytes
  deriving DecidableEq, Repr

/-- UNC prefix, drive letter or root, as `path_normalize` finds them. -/
def front : Separator → Bytes → Front
  | .backslash, path =>
    if find ['/', '/'] path = some 0 then ⟨['/', '/'], true, path.drop 2⟩
    else
      match pathExtractor path with
      | some drive => ⟨drive, true, path.drop drive.length⟩
      | none => ⟨[], false, path⟩
  | .slash, path =>
    if find ['/'] path = some 0 then ⟨['/'], true, path⟩ else ⟨[], false, path⟩

/-- The last loop of `path_normalize`: append the components to the result. -/
def joinPath (result : Bytes) (stack : List Bytes) : Bytes :=
  stack.foldl (fun result comp =>
    (if result ≠ [] ∧ result.getLast? ≠ some '/' then result ++ ['/'] else result) ++ comp) result

/-- `path_normalize`. -/
def pathNormalize (sep : Separator) (path : Bytes) : Bytes :=
  if path.isEmpty then dot
  else
    let f := front sep (slashed sep path)
    joinPath f.result (normal dot dotdot f.isAbs (split '/' f.rest))

/-- The directory kept by `set_wwwroot`. Indexing an empty result by `-1` comes after the
assignment, so an empty path is kept whether or not the index raises. -/
def wwwrootOf (sep : Separator) (path : Bytes) : Bytes :=
  let root := pathNormalize sep path
  if root.getLast? = some '/' then root.dropLast else root

/-- `http_server.set_wwwroot`. -/
def setWwwroot (sep : Separator) (isDirectory : Bytes → Bool) (wwwroot : Option Bytes)
    (path : Bytes) : Option Bytes :=
  if isDirectory path then some (wwwrootOf sep path) else wwwroot

/-- `full_path`, when the boundary check of the static branch accepts it. -/
def staticPath (sep : Separator) (wwwroot : Option Bytes) (url : Bytes) : Option Bytes :=
  match wwwroot with
  | none => none
  | some base =>
    let full := pathNormalize sep (base ++ ['/'] ++ url)
    if full = base ∨ find (base ++ ['/']) full = some 0 then some full else none

/-- What the static branch asks the file system. -/
structure FileSystem where
  isDirectory : Bytes → Bool
  isFile : Bytes → Bool
  canRead : Bytes → Bool
  exist : Bytes → Bool

/-- The static branch of `call_http_handler`: the file it serves, or the error code. -/
def serveStatic (fs : FileSystem) (sep : Separator) (wwwroot : Option Bytes) (url : Bytes) :
    Except String Bytes :=
  match staticPath sep wwwroot url with
  | none => .error "403 Forbidden"
  | some full =>
    let target :=
      if fs.isDirectory full then
        (if full.getLast? ≠ some '/' then full ++ ['/'] else full) ++ bytes "index.html"
      else full
    if fs.isFile target && fs.canRead target then .ok target
    else if fs.exist target then .error "403 Forbidden"
    else .error "404 Not Found"

/-! ## Components and the strings they make -/

/-- A component between slashes. -/
def IsComp (c : Bytes) : Prop := c ≠ [] ∧ '/' ∉ c

/-- Components, each after a slash. -/
def below (cs : List Bytes) : Bytes := cs.flatMap ('/' :: ·)

/-- Components with slashes between them. -/
def joinRel : List Bytes → Bytes
  | [] => []
  | c :: cs => c ++ below cs

@[simp] lemma below_nil : below [] = [] := rfl

@[simp] lemma below_cons (c : Bytes) (cs : List Bytes) : below (c :: cs) = '/' :: c ++ below cs := by
  simp [below]

@[simp] lemma below_append (cs ds : List Bytes) : below (cs ++ ds) = below cs ++ below ds := by
  simp [below]

/-- A character other than the slash is in none of the components. -/
lemma notMem_below {x : Char} (slash : x ≠ '/') {cs : List Bytes} (h : ∀ c ∈ cs, x ∉ c) : x ∉ below cs := by
  intro mem
  obtain ⟨c, hc, mem'⟩ := List.mem_flatMap.mp mem
  exact (List.mem_cons.mp mem').elim slash (h c hc)

lemma notMem_joinRel {x : Char} (slash : x ≠ '/') {cs : List Bytes} (h : ∀ c ∈ cs, x ∉ c) : x ∉ joinRel cs := by
  cases cs with
  | nil => exact List.not_mem_nil
  | cons c cs =>
    rw [joinRel, List.mem_append, not_or]
    exact ⟨h c List.mem_cons_self, notMem_below slash fun d hd => h d (List.mem_cons_of_mem c hd)⟩

lemma joinRel_append {cs ds : List Bytes} (ne : cs ≠ []) :
    joinRel (cs ++ ds) = joinRel cs ++ below ds := by
  cases cs with
  | nil => exact absurd rfl ne
  | cons c cs => simp [joinRel]

lemma mem_split {c : Bytes} {s : Bytes} (h : c ∈ split '/' s) : IsComp c := by
  obtain ⟨ne, sep⟩ := mem_pieces h
  refine ⟨ne, fun mem => ?_⟩
  simpa using (sep _ mem).1

lemma split_append_slash (s t : Bytes) : split '/' (s ++ '/' :: t) = split '/' s ++ split '/' t :=
  pieces_append_cons (by simp)

lemma split_cons_slash (t : Bytes) : split '/' ('/' :: t) = split '/' t :=
  pieces_cons (by simp)

lemma IsComp.split_eq {c : Bytes} (h : IsComp c) : split '/' c = [c] := by
  refine pieces_single ?_ h.1
  rintro x mem
  have ne : x ≠ '/' := fun e => h.2 (e ▸ mem)
  simpa using ne

/-- The components below a path are split off it again. -/
lemma split_append_below (s : Bytes) {cs : List Bytes} (h : ∀ c ∈ cs, IsComp c) :
    split '/' (s ++ below cs) = split '/' s ++ cs := by
  induction cs generalizing s with
  | nil => simp
  | cons c cs ih =>
    have hc := h c (by simp)
    rw [below_cons, ← List.append_assoc, ih _ fun d hd => h d (by simp [hd]), split_append_slash,
      hc.split_eq]
    simp

lemma split_below {cs : List Bytes} (h : ∀ c ∈ cs, IsComp c) : split '/' (below cs) = cs := by
  simpa [split] using split_append_below [] h

lemma split_joinRel {cs : List Bytes} (h : ∀ c ∈ cs, IsComp c) : split '/' (joinRel cs) = cs := by
  cases cs with
  | nil => simp [joinRel, split]
  | cons c cs =>
    rw [joinRel, split_append_below _ fun d hd => h d (by simp [hd]), (h c (by simp)).split_eq]
    rfl

/-- A path of components does not start with a slash. -/
lemma joinRel_head {cs : List Bytes} (h : ∀ c ∈ cs, IsComp c) : (joinRel cs).head? ≠ some '/' := by
  rcases cs with _ | ⟨c, cs⟩
  · simp [joinRel]
  · obtain ⟨ne, sep⟩ := h c (by simp)
    rcases c with _ | ⟨x, c⟩
    · exact absurd rfl ne
    · intro e
      simp only [joinRel, List.cons_append, List.head?_cons, Option.some.injEq] at e
      exact sep (by simp [e])

/-! ## The loop that joins -/

/-- Behind anything that does not end in a slash, every component comes after one. -/
lemma joinPath_of_last {r : Bytes} {cs : List Bytes} (ne : r ≠ []) (last : r.getLast? ≠ some '/')
    (h : ∀ c ∈ cs, IsComp c) : joinPath r cs = r ++ below cs := by
  induction cs generalizing r with
  | nil => simp [joinPath]
  | cons c cs ih =>
    obtain ⟨hne, sep⟩ := h c (by simp)
    have last' : (r ++ ['/'] ++ c).getLast? ≠ some '/' := by
      rw [List.getLast?_append_of_ne_nil _ hne, List.getLast?_eq_some_getLast hne]
      intro e
      exact sep (Option.some.inj e ▸ List.getLast_mem hne)
    have step := ih (r := r ++ ['/'] ++ c) (by simp) last' fun d hd => h d (by simp [hd])
    simp only [joinPath, List.foldl_cons, if_pos (And.intro ne last)] at step ⊢
    rw [step]
    simp

/-- The first component follows directly when there is nothing, or a slash, before it. -/
lemma joinPath_cons {r c : Bytes} {cs : List Bytes} (hr : r = [] ∨ r.getLast? = some '/')
    (hc : IsComp c) (h : ∀ c ∈ cs, IsComp c) : joinPath r (c :: cs) = r ++ c ++ below cs := by
  obtain ⟨ne, sep⟩ := hc
  have last : (r ++ c).getLast? ≠ some '/' := by
    rw [List.getLast?_append_of_ne_nil _ ne, List.getLast?_eq_some_getLast ne]
    intro e
    exact sep (Option.some.inj e ▸ List.getLast_mem ne)
  have step := joinPath_of_last (r := r ++ c) (by simp [ne]) last h
  have no : ¬ (r ≠ [] ∧ r.getLast? ≠ some '/') := by
    rcases hr with rfl | e <;> simp_all
  simp only [joinPath, List.foldl_cons, if_neg no] at step ⊢
  exact step

lemma joinPath_nil_eq {cs : List Bytes} (h : ∀ c ∈ cs, IsComp c) : joinPath [] cs = joinRel cs := by
  cases cs with
  | nil => rfl
  | cons c cs =>
    rw [joinPath_cons (.inl rfl) (h c (by simp)) fun d hd => h d (by simp [hd])]
    rfl

/-- The components joined to a result are split off it again. -/
lemma split_joinPath (r : Bytes) {cs : List Bytes} (h : ∀ c ∈ cs, IsComp c) :
    split '/' (joinPath r cs) = split '/' r ++ cs := by
  by_cases open_ : r ≠ [] ∧ r.getLast? ≠ some '/'
  · rw [joinPath_of_last open_.1 open_.2 h, split_append_below _ h]
  · rcases cs with _ | ⟨c, cs⟩
    · simp [joinPath]
    · have hc := h c (by simp)
      have hr : r = [] ∨ r.getLast? = some '/' := by
        by_contra no
        rw [not_or] at no
        exact open_ no
      rw [joinPath_cons hr hc fun d hd => h d (by simp [hd]),
        split_append_below _ fun d hd => h d (by simp [hd])]
      rcases hr with rfl | last
      · simp [hc.split_eq]
      · obtain ⟨r', rfl⟩ := List.getLast?_eq_some_iff.mp last
        have e := split_append_slash r' []
        rw [List.append_assoc, List.singleton_append, split_append_slash, hc.split_eq, e]
        simp

/-! ## The normal form -/

/-- The components of the normal form of a path behind its front. -/
def stackOf (f : Front) : List Bytes := normal dot dotdot f.isAbs (split '/' f.rest)

lemma pathNormalize_eq (sep : Separator) {path : Bytes} (ne : path ≠ []) :
    pathNormalize sep path =
      joinPath (front sep (slashed sep path)).result (stackOf (front sep (slashed sep path))) := by
  simp [pathNormalize, stackOf, ne]

lemma stackOf_isNormal (f : Front) : IsNormal dot dotdot f.isAbs (stackOf f) :=
  normal_isNormal _ _

lemma mem_stackOf {f : Front} {c : Bytes} (h : c ∈ stackOf f) : IsComp c :=
  mem_split (mem_normal h)

lemma dot_notMem_stackOf (f : Front) : dot ∉ stackOf f := by
  obtain ⟨k, names, e, plain, -⟩ := stackOf_isNormal f
  rw [e]
  intro mem
  rcases List.mem_append.mp mem with mem | mem
  · exact absurd (List.eq_of_mem_replicate mem) (by decide)
  · exact (plain _ mem).1 rfl

/-- What `path_extractor` matches is the whole path. -/
lemma pathExtractor_some {path drive : Bytes} (h : pathExtractor path = some drive) :
    ∃ c, isLetter c = true ∧ path = [c, ':'] ∧ drive = [c, ':'] := by
  unfold pathExtractor at h
  split at h
  · rename_i c
    split at h
    · cases h
      exact ⟨c, by assumption, rfl, rfl⟩
    · cases h
  · cases h

lemma isComp_drive {c : Char} (h : isLetter c = true) : IsComp [c, ':'] := by
  refine ⟨by simp, fun mem => ?_⟩
  have e : '/' = c := by simpa using mem
  subst e
  exact absurd h (by decide)

/-- No component of a normal form stays. -/
lemma dot_notMem_split (sep : Separator) {path : Bytes} (ne : path ≠ []) :
    dot ∉ split '/' (pathNormalize sep path) := by
  have hfront : dot ∉ split '/' (front sep (slashed sep path)).result := by
    cases sep with
    | slash =>
      simp only [front]
      split
      · exact (by decide : dot ∉ split '/' ['/'])
      · simp
    | backslash =>
      simp only [front]
      split
      · exact (by decide : dot ∉ split '/' ['/', '/'])
      · split
        · rename_i e
          obtain ⟨c, letter, -, rfl⟩ := pathExtractor_some e
          rw [(isComp_drive letter).split_eq]
          simp [dot]
        · simp
  rw [pathNormalize_eq _ ne, split_joinPath _ fun c => mem_stackOf, List.mem_append, not_or]
  exact ⟨hfront, dot_notMem_stackOf _⟩

lemma find_slash_zero {path : Bytes} : find ['/'] path = some 0 ↔ path.head? = some '/' := by
  rw [find_eq_zero]
  cases path with
  | nil => simp
  | cons c s => simp [List.cons_prefix_cons, eq_comm]

lemma slashed_backslash (path : Bytes) : slashed .backslash path = path := by
  have same : ∀ ch : Char, (if ch = '/' then '/' else ch) = ch := by
    intro ch
    split <;> simp_all
  simp only [slashed, same, List.map_id']

/-- With the separator `/` the normal form is the components below the root, or the components
alone. -/
lemma pathNormalize_slash {path : Bytes} (ne : path ≠ []) {q : Bytes}
    (hq : slashed .slash path = q) :
    (q.head? = some '/' ∧ ∃ cs, IsNormal dot dotdot true cs ∧ (∀ c ∈ cs, IsComp c) ∧
      cs = normal dot dotdot true (split '/' q) ∧
      pathNormalize .slash path = (if cs = [] then ['/'] else below cs)) ∨
    (q.head? ≠ some '/' ∧ ∃ cs, IsNormal dot dotdot false cs ∧ (∀ c ∈ cs, IsComp c) ∧
      cs = normal dot dotdot false (split '/' q) ∧ pathNormalize .slash path = joinRel cs) := by
  have eq := pathNormalize_eq .slash ne
  rw [hq] at eq
  by_cases abs : q.head? = some '/'
  · have hf : front .slash q = ⟨['/'], true, q⟩ := by simp [front, find_slash_zero, abs]
    rw [hf] at eq
    refine .inl ⟨abs, stackOf ⟨['/'], true, q⟩, stackOf_isNormal _, fun c => mem_stackOf, rfl, ?_⟩
    rw [eq]
    split
    · rename_i e
      simp [e, joinPath]
    · rename_i cne
      obtain ⟨c, cs, e⟩ := List.exists_cons_of_ne_nil cne
      have comp : ∀ d ∈ c :: cs, IsComp d := fun d hd => mem_stackOf (e ▸ hd)
      rw [e, joinPath_cons (.inr rfl) (comp c (by simp)) fun d hd => comp d (by simp [hd])]
      simp
  · have hf : front .slash q = ⟨[], false, q⟩ := by simp [front, find_slash_zero, abs]
    rw [hf] at eq
    refine .inr ⟨abs, stackOf ⟨[], false, q⟩, stackOf_isNormal _, fun c => mem_stackOf, rfl, ?_⟩
    rw [eq, joinPath_nil_eq fun c => mem_stackOf]

/-- A path of components does not end in a slash. -/
lemma below_last {t : Bytes} {cs : List Bytes} (ht : t.getLast? ≠ some '/')
    (comp : ∀ c ∈ cs, IsComp c) : (t ++ below cs).getLast? ≠ some '/' := by
  rcases List.eq_nil_or_concat cs with rfl | ⟨ds, c, rfl⟩
  · simpa using ht
  · obtain ⟨cne, sep⟩ := comp c (by simp)
    have e : t ++ below (ds.concat c) = t ++ below ds ++ ['/'] ++ c := by simp
    rw [e, List.getLast?_append_of_ne_nil _ cne, List.getLast?_eq_some_getLast cne]
    intro h
    exact sep (Option.some.inj h ▸ List.getLast_mem cne)

lemma joinRel_last {cs : List Bytes} (comp : ∀ c ∈ cs, IsComp c) :
    (joinRel cs).getLast? ≠ some '/' := by
  rcases cs with _ | ⟨c, cs⟩
  · simp [joinRel]
  · obtain ⟨cne, sep⟩ := comp c (by simp)
    refine below_last ?_ fun d hd => comp d (by simp [hd])
    rw [List.getLast?_eq_some_getLast cne]
    intro h
    exact sep (Option.some.inj h ▸ List.getLast_mem cne)

/-- No backslash is left in a slashed path. -/
lemma backslash_notMem_slashed (path : Bytes) : '\\' ∉ slashed .slash path := by
  intro mem
  obtain ⟨ch, -, e⟩ := List.mem_map.mp mem
  by_cases h : ch = '\\'
  · simp [h] at e
  · simp only [if_neg h] at e
    exact h e

lemma slashed_of_notMem {path : Bytes} (h : '\\' ∉ path) : slashed .slash path = path := by
  have same : ∀ ch ∈ path, (if ch = '\\' then '/' else ch) = ch := by
    intro ch mem
    rw [if_neg]
    rintro rfl
    exact h mem
  exact (List.map_congr_left same).trans (List.map_id' path)

/-- The directory kept with the separator `/`, by its components. -/
lemma wwwrootOf_slash {path : Bytes} (ne : path ≠ []) :
    ∃ abs cs, IsNormal dot dotdot abs cs ∧ (∀ c ∈ cs, IsComp c ∧ '\\' ∉ c) ∧
      wwwrootOf .slash path = (if abs then below cs else joinRel cs) := by
  have clean : ∀ {abs : Bool} {c : Bytes},
      c ∈ normal dot dotdot abs (split '/' (slashed .slash path)) → '\\' ∉ c := by
    intro abs c hc mem
    exact backslash_notMem_slashed path ((mem_pieces (mem_normal hc)).2 _ mem).2
  rcases pathNormalize_slash ne rfl with ⟨-, cs, nf, comp, ecs, e⟩ | ⟨-, cs, nf, comp, ecs, e⟩
  · refine ⟨true, cs, nf, fun c hc => ⟨comp c hc, clean (ecs ▸ hc)⟩, ?_⟩
    by_cases nil : cs = []
    · subst nil
      simp [wwwrootOf, e]
    · have last := below_last (t := []) (by simp) comp
      rw [if_neg nil] at e
      simp only [wwwrootOf, e, List.nil_append] at last ⊢
      simp [last]
  · refine ⟨false, cs, nf, fun c hc => ⟨comp c hc, clean (ecs ▸ hc)⟩, ?_⟩
    simp [wwwrootOf, e, joinRel_last comp]

/-- With the separator `\` a path that starts with two slashes keeps them. -/
lemma pathNormalize_unc (rest : Bytes) {cs : List Bytes}
    (hcs : normal dot dotdot true (split '/' rest) = cs) :
    pathNormalize .backslash ('/' :: '/' :: rest) =
      if cs = [] then ['/', '/'] else '/' :: below cs := by
  have hf : front .backslash ('/' :: '/' :: rest) = ⟨['/', '/'], true, rest⟩ := by
    simp [front, find]
  have hs : stackOf ⟨['/', '/'], true, rest⟩ = cs := hcs
  rw [pathNormalize_eq _ (by simp), slashed_backslash, hf, hs]
  split
  · rename_i e
    simp [e, joinPath]
  · rename_i cne
    obtain ⟨c, ds, rfl⟩ := List.exists_cons_of_ne_nil cne
    have comp : ∀ d ∈ c :: ds, IsComp d := fun d hd => mem_stackOf (hs ▸ hd)
    rw [joinPath_cons (.inr rfl) (comp c (by simp)) fun d hd => comp d (by simp [hd])]
    simp

/-- A path that is nothing but a drive stays as it is. -/
lemma pathNormalize_drive {c : Char} (h : isLetter c = true) :
    pathNormalize .backslash [c, ':'] = [c, ':'] := by
  have hf : front .backslash [c, ':'] = ⟨[c, ':'], true, []⟩ := by
    simp [front, find, pathExtractor, h]
  rw [pathNormalize_eq _ (by simp), slashed_backslash, hf]
  simp [stackOf, split, normal, joinPath]

/-- Every other path is relative to the normaliser. -/
lemma pathNormalize_rel {path : Bytes} (ne : path ≠ []) (unc : ¬ ['/', '/'] <+: path)
    (drive : pathExtractor path = none) {cs : List Bytes}
    (hcs : normal dot dotdot false (split '/' path) = cs) :
    pathNormalize .backslash path = joinRel cs := by
  have hf : front .backslash path = ⟨[], false, path⟩ := by
    simp [front, find_eq_zero, unc, drive]
  have hs : stackOf ⟨[], false, path⟩ = cs := hcs
  rw [pathNormalize_eq _ ne, slashed_backslash, hf, hs, joinPath_nil_eq]
  exact fun c hc => mem_stackOf (hs ▸ hc)

/-- The directory kept with the separator `\`: a UNC path, a drive, or components. -/
lemma wwwrootOf_backslash {path : Bytes} (ne : path ≠ []) :
    (∃ cs, IsNormal dot dotdot true cs ∧ (∀ c ∈ cs, IsComp c) ∧
      wwwrootOf .backslash path = '/' :: below cs) ∨
    (∃ c, isLetter c = true ∧ wwwrootOf .backslash path = [c, ':']) ∨
    (∃ cs, IsNormal dot dotdot false cs ∧ (∀ c ∈ cs, IsComp c) ∧
      wwwrootOf .backslash path = joinRel cs) := by
  by_cases unc : ['/', '/'] <+: path
  · obtain ⟨rest, rfl⟩ := unc
    have comp : ∀ c ∈ normal dot dotdot true (split '/' rest), IsComp c :=
      fun c hc => mem_split (mem_normal hc)
    refine .inl ⟨_, normal_isNormal true (split '/' rest), comp, ?_⟩
    have e := pathNormalize_unc rest rfl
    rw [wwwrootOf, show ['/', '/'] ++ rest = '/' :: '/' :: rest from rfl, e]
    by_cases nil : normal dot dotdot true (split '/' rest) = []
    · simp [nil]
    · obtain ⟨c, ds, eq⟩ := List.exists_cons_of_ne_nil nil
      rw [if_neg nil]
      have last : ('/' :: below (normal dot dotdot true (split '/' rest))).getLast? ≠ some '/' := by
        rw [eq] at comp ⊢
        have hj := joinRel_last comp
        rcases comp c (by simp) with ⟨cne, -⟩
        rw [below_cons, List.cons_append, List.getLast?_cons_of_ne_nil (by simp),
          List.getLast?_cons_of_ne_nil (by simp [cne])]
        exact hj
      simp [last]
  · cases hd : pathExtractor path with
    | some drive =>
      obtain ⟨c, letter, rfl, rfl⟩ := pathExtractor_some hd
      exact .inr (.inl ⟨c, letter, by simp [wwwrootOf, pathNormalize_drive letter]⟩)
    | none =>
      have comp : ∀ c ∈ normal dot dotdot false (split '/' path), IsComp c :=
        fun c hc => mem_split (mem_normal hc)
      refine .inr (.inr ⟨_, normal_isNormal false (split '/' path), comp, ?_⟩)
      simp [wwwrootOf, pathNormalize_rel ne unc hd rfl, joinRel_last comp]

end CovNet.Path
