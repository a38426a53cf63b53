import CovNet.Path.Location

/-!
# Containment of static files

When does the boundary check of the static branch keep every request at or below the configured
directory? `Contained` says that it does for a directory string; `static_contained_iff` says exactly
for which directory strings.

The check compares strings, and the normaliser and the platform read them differently:

* With the separator `/`, a directory whose normal form has no name left (`.`, `..`, `a/..`) does
  not stop a request: `""` is a prefix of every absolute path, and `../..` starts with `../`. Such
  a directory contains every request only if it is the root itself.
* With the separator `\`, a request may bring `..\` along as part of a component, so that every
  accepted path can climb to the root of its volume. Only a directory that is the root of a volume,
  under a spelling that decides the volume, contains every request.
* Backslashes in a directory string on a platform with the separator `/` are turned into slashes,
  and the directory kept may then lie outside the configured one.
-/

namespace CovNet.Path
open Lib Text

/-- The urls a request line can have (`[^ ?]+`). -/
def IsUrl (url : Bytes) : Prop := url ≠ [] ∧ ' ' ∉ url ∧ '?' ∉ url

instance (url : Bytes) : Decidable (IsUrl url) := inferInstanceAs (Decidable (_ ∧ _ ∧ _))

/-- Every request the boundary check accepts stays at or below the configured directory. -/
def Contained (sep : Separator) (isDirectory : Bytes → Bool) (cwd : Cwd) (dir : Bytes) : Prop :=
  ∀ url full, IsUrl url → staticPath sep (setWwwroot sep isDirectory none dir) url = some full →
    (denote sep cwd full).Below (denote sep cwd dir)

/-- When it does. `root` is the directory kept by `set_wwwroot`, `loc` the configured place: nothing
is accepted under `.`, and otherwise, with the separator `/`, the place is the root, or a name is
left in `root`, which lies at or below the place; with the separator `\`, the place is the root of
the volume that `root` decides. -/
def Contains (sep : Separator) (cwd : Cwd) (root : Bytes) (loc : Location) : Prop :=
  root = dot ∨
    match sep with
    | .slash =>
      loc.names = [] ∨ (∃ c ∈ split '/' root, c ≠ dotdot) ∧ (denote .slash cwd root).Below loc
    | .backslash => volumeOf cwd root = some loc.root ∧ loc.names = []

/-! ## What the check accepts -/

/-- The check accepts the directory itself and what goes on behind it and a slash. -/
lemma staticPath_spec {sep : Separator} {base url full : Bytes} :
    staticPath sep (some base) url = some full ↔
      full = pathNormalize sep (base ++ '/' :: url) ∧
        (full = base ∨ ∃ t, full = base ++ '/' :: t) := by
  have pre : ∀ s : Bytes, find (base ++ ['/']) s = some 0 ↔ ∃ t, s = base ++ '/' :: t := by
    intro s
    rw [find_eq_zero]
    constructor
    · rintro ⟨t, rfl⟩
      exact ⟨t, by simp⟩
    · rintro ⟨t, rfl⟩
      exact ⟨t, by simp⟩
  have e : base ++ ['/'] ++ url = base ++ '/' :: url := by simp
  unfold staticPath
  simp only [e]
  constructor
  · intro h
    split at h
    · rename_i acc
      cases h
      exact ⟨rfl, acc.imp_right (pre _).mp⟩
    · cases h
  · rintro ⟨rfl, acc⟩
    rw [if_pos (acc.imp_right (pre _).mpr)]

/-- Nothing is accepted under `.`, the directory kept for an empty string: a normal form has no
component that stays. -/
lemma staticPath_dot {sep : Separator} {url full : Bytes} :
    staticPath sep (some dot) url ≠ some full := by
  intro h
  obtain ⟨rfl, acc⟩ := staticPath_spec.mp h
  have ne : dot ++ '/' :: url ≠ [] := by simp
  apply dot_notMem_split sep ne
  rcases acc with e | ⟨t, e⟩
  · rw [e]
    decide
  · rw [e, split_append_slash]
    exact List.mem_append_left _ (by decide)

/-! ## The separator `/` -/

section Slash
variable {cwd : Cwd} {dir url full root : Bytes} {loc : Location}

/-- The place of a string by its components. -/
lemma denote_slash_eq (s : Bytes) :
    denote .slash cwd s = ⟨.posix, resolve dot dotdot
      (if s.head? = some '/' then [] else cwd.dir .posix) (split '/' s)⟩ := rfl

/-- A normal form has the components of its stack, and starts with a slash as the path does. -/
lemma pathNormalize_slash_parts {path : Bytes} (ne : path ≠ []) :
    ∃ abs, IsNormal dot dotdot abs (split '/' (pathNormalize .slash path)) ∧
      ((pathNormalize .slash path).head? = some '/' ↔ abs = true) := by
  rcases pathNormalize_slash ne rfl with ⟨-, cs, nf, comp, -, e⟩ | ⟨-, cs, nf, comp, -, e⟩
  · refine ⟨true, ?_, ?_⟩
    · rw [e]
      split
      · exact ⟨0, [], by decide, by simp, fun _ => rfl⟩
      · rw [split_below comp]
        exact nf
    · rw [e]
      split
      · simp
      · rename_i cne
        obtain ⟨c, ds, rfl⟩ := List.exists_cons_of_ne_nil cne
        simp
  · refine ⟨false, ?_, ?_⟩
    · rw [e, split_joinRel comp]
      exact nf
    · rw [e]
      simp [joinRel_head comp]

/-- With the separator `/` the normaliser keeps the place, once backslashes are read as slashes. -/
theorem denote_pathNormalize_slash {path : Bytes} (ne : path ≠ []) :
    denote .slash cwd (pathNormalize .slash path) = denote .slash cwd (slashed .slash path) := by
  rcases pathNormalize_slash ne rfl with ⟨head, cs, -, comp, ecs, e⟩ | ⟨head, cs, -, comp, ecs, e⟩
  · have hsplit : split '/' (pathNormalize .slash path) = cs := by
      rw [e]
      split
      · rename_i nil
        rw [nil]
        rfl
      · exact split_below comp
    have hhead : (pathNormalize .slash path).head? = some '/' := by
      rw [e]
      split
      · rfl
      · rename_i cne
        obtain ⟨c, ds, rfl⟩ := List.exists_cons_of_ne_nil cne
        simp
    rw [denote_slash_eq, denote_slash_eq, if_pos hhead, if_pos head, hsplit, ecs,
      resolve_normal true _ _ fun _ => rfl]
  · rw [denote_slash_eq, denote_slash_eq, if_neg head, e, if_neg (joinRel_head comp),
      split_joinRel comp, ecs, resolve_normal false _ _ nofun]

/-- Below a directory with a name left, what is accepted lies at or below it. -/
lemma below_of_named (named : ∃ c ∈ split '/' root, c ≠ dotdot)
    (acc : staticPath .slash (some root) url = some full) :
    (denote .slash cwd full).Below (denote .slash cwd root) := by
  obtain ⟨efull, acc⟩ := staticPath_spec.mp acc
  rcases acc with rfl | ⟨t, et⟩
  · exact .refl _
  · have ne : root ≠ [] := by
      rintro rfl
      simp at named
    obtain ⟨abs, nf, -⟩ := pathNormalize_slash_parts (by simp : root ++ '/' :: url ≠ [])
    rw [← efull, et, split_append_slash] at nf
    have plain := nf.plain_of_append named
    have head : full.head? = root.head? := by
      rw [et, List.head?_append_of_ne_nil _ ne]
    rw [denote_slash_eq, denote_slash_eq, head, et, split_append_slash, resolve_append,
      resolve_plain _ plain]
    exact ⟨rfl, List.prefix_append _ _⟩

/-- The check does not let the directory of `set_wwwroot` escape when a name is left in it. -/
lemma Contains.slash_sound (h : Contains .slash cwd root loc) (posix : loc.root = .posix)
    (acc : staticPath .slash (some root) url = some full) :
    (denote .slash cwd full).Below loc := by
  rcases h with rfl | nil | ⟨named, below⟩
  · exact absurd acc staticPath_dot
  · exact ⟨posix.symm, by simp [nil]⟩
  · exact (below_of_named named acc).trans below

/-- Components that keep a kept directory normal are accepted behind it as they are. -/
lemma staticPath_slash_below {abs : Bool} {cs ds : List Bytes} (ne : cs ≠ [])
    (nf : IsNormal dot dotdot abs (cs ++ ds)) (comp : ∀ c ∈ cs ++ ds, IsComp c ∧ '\\' ∉ c)
    (hroot : root = if abs then below cs else joinRel cs) :
    staticPath .slash (some root) ('/' :: joinRel ds) = some (root ++ below ds) := by
  have compc : ∀ c ∈ cs, IsComp c := fun c hc => (comp c (by simp [hc])).1
  have compd : ∀ d ∈ ds, IsComp d := fun d hd => (comp d (by simp [hd])).1
  have clean : ∀ c ∈ cs, '\\' ∉ c := fun c hc => (comp c (by simp [hc])).2
  have hroot' : '\\' ∉ root := by
    rw [hroot]
    split
    · exact notMem_below (by decide) clean
    · exact notMem_joinRel (by decide) clean
  have hd : '\\' ∉ joinRel ds := notMem_joinRel (by decide) fun d hd => (comp d (by simp [hd])).2
  have hq : slashed .slash (root ++ '/' :: '/' :: joinRel ds) = root ++ '/' :: '/' :: joinRel ds := by
    apply slashed_of_notMem
    simp [hroot', hd]
  -- the empty component between the two slashes is dropped
  have hsplit : split '/' (root ++ '/' :: '/' :: joinRel ds) = cs ++ ds := by
    rw [split_append_slash, split_cons_slash, split_joinRel compd, hroot]
    split
    · rw [split_below compc]
    · rw [split_joinRel compc]
  have hnorm : pathNormalize .slash (root ++ '/' :: '/' :: joinRel ds) = root ++ below ds := by
    have eq := nf.normal_eq (by decide)
    rcases pathNormalize_slash (by simp) hq with ⟨head, es, -, -, ees, e⟩ | ⟨head, es, -, -, ees, e⟩
    · cases abs with
      | true =>
        rw [hsplit, eq] at ees
        rw [e, ees, if_neg (by simp [ne]), hroot]
        simp
      | false =>
        exfalso
        obtain ⟨c, cs', rfl⟩ := List.exists_cons_of_ne_nil ne
        apply joinRel_head compc
        rw [hroot, if_neg (by simp), List.head?_append_of_ne_nil] at head
        · exact head
        · simpa [joinRel] using fun h => absurd h (compc c (by simp)).1
    · cases abs with
      | true =>
        exfalso
        obtain ⟨c, cs', rfl⟩ := List.exists_cons_of_ne_nil ne
        simp [hroot] at head
      | false =>
        rw [hsplit, eq] at ees
        rw [e, ees, joinRel_append ne, hroot]
        simp
  refine staticPath_spec.mpr ⟨hnorm.symm, ?_⟩
  rcases ds with _ | ⟨d, ds⟩
  · left
    simp
  · right
    exact ⟨d ++ below ds, by simp⟩

lemma isUrl_slash {ds : List Bytes} (h : ∀ d ∈ ds, ' ' ∉ d ∧ '?' ∉ d) : IsUrl ('/' :: joinRel ds) := by
  have space : ' ' ∉ joinRel ds := notMem_joinRel (by decide) fun d hd => (h d hd).1
  have mark : '?' ∉ joinRel ds := notMem_joinRel (by decide) fun d hd => (h d hd).2
  simp [IsUrl, space, mark]

/-- Behind a kept directory of `..`s alone, any number more of them is accepted: one can climb to the root. -/
lemma climbs_of_ups {abs : Bool} {cs : List Bytes} (ne : cs ≠ []) (nf : IsNormal dot dotdot abs cs)
    (comp : ∀ c ∈ cs, IsComp c ∧ '\\' ∉ c) (hroot : root = if abs then below cs else joinRel cs)
    (ups : ∀ c ∈ cs, c = dotdot) :
    ∃ url full, IsUrl url ∧ staticPath .slash (some root) url = some full ∧ (denote .slash cwd full).names = [] := by
  let n := (resolve dot dotdot (cwd.dir .posix) cs).length
  obtain ⟨rfl, nf'⟩ := nf.append_ups ne ups n
  have up : IsComp dotdot ∧ '\\' ∉ dotdot := ⟨⟨by decide, by decide⟩, by decide⟩
  have comp' : ∀ d ∈ cs ++ List.replicate n dotdot, IsComp d ∧ '\\' ∉ d := by
    refine List.forall_mem_append.mpr ⟨comp, fun d hd => ?_⟩
    rw [List.eq_of_mem_replicate hd]
    exact up
  have hrel : root = joinRel cs := by simpa using hroot
  have acc := staticPath_slash_below ne nf' comp' hroot
  refine ⟨_, _, isUrl_slash fun d hd => ?_, acc, ?_⟩
  · rw [List.eq_of_mem_replicate hd]
    exact ⟨by decide, by decide⟩
  · rw [hrel, ← joinRel_append ne, denote_slash_eq, if_neg (joinRel_head fun d hd => (comp' d hd).1),
      split_joinRel fun d hd => (comp' d hd).1, resolve_append]
    exact resolve_ups (by decide) (le_of_eq rfl)

/-- A directory string whose requests are all contained is of the stated kind. -/
lemma Contains.slash_complete {isDirectory : Bytes → Bool} (acc : isDirectory dir = true)
    (h : Contained .slash isDirectory cwd dir) :
    Contains .slash cwd (wwwrootOf .slash dir) (denote .slash cwd dir) := by
  have all : ∀ {url full}, IsUrl url → staticPath .slash (some (wwwrootOf .slash dir)) url = some full →
      (denote .slash cwd full).Below (denote .slash cwd dir) := by
    intro url full hu hs
    exact h url full hu (by simpa [setWwwroot, acc] using hs)
  -- what can be left for the root of the file system has no names
  have top : ∀ {url full}, IsUrl url → staticPath .slash (some (wwwrootOf .slash dir)) url = some full →
      (denote .slash cwd full).names = [] → (denote .slash cwd dir).names = [] := by
    intro url full hu hs e
    have pre := (all hu hs).2
    rw [e] at pre
    exact List.prefix_nil.mp pre
  by_cases ne : dir = []
  · left
    subst ne
    decide
  right
  obtain ⟨abs, cs, nf, comp, hroot⟩ := wwwrootOf_slash ne
  by_cases nil : cs = []
  · -- nothing is left of the directory: the root of the file system is accepted
    left
    have e : wwwrootOf .slash dir = [] := by
      rw [hroot, nil]
      split <;> rfl
    have hs : staticPath .slash (some []) ['/', '.'] = some ['/'] := by decide
    exact top (by decide : IsUrl ['/', '.']) (by rw [e]; exact hs) rfl
  · -- the directory itself is accepted
    have nf' : IsNormal dot dotdot abs (cs ++ []) := by simpa using nf
    have hs := staticPath_slash_below nil nf' (by simpa using comp) hroot
    have below_root := all (isUrl_slash (by simp)) hs
    rw [below_nil, List.append_nil] at below_root
    by_cases named : ∃ c ∈ split '/' (wwwrootOf .slash dir), c ≠ dotdot
    · exact .inr ⟨named, below_root⟩
    · left
      have hsplit : split '/' (wwwrootOf .slash dir) = cs := by
        rw [hroot]
        split
        · exact split_below fun c hc => (comp c hc).1
        · exact split_joinRel fun c hc => (comp c hc).1
      rw [hsplit] at named
      push Not at named
      obtain ⟨url, full, hu, hs, e⟩ := @climbs_of_ups cwd _ _ _ nil nf comp hroot named
      exact top hu hs e

end Slash

/-! ## The separator `\` -/

section Backslash
variable {cwd : Cwd} {dir url full root : Bytes} {loc : Location}

/-- What is accepted lies on the volume that the directory decides. -/
lemma Contains.backslash_sound (h : Contains .backslash cwd root loc)
    (acc : staticPath .backslash (some root) url = some full) :
    (denote .backslash cwd full).Below loc := by
  rcases h with rfl | ⟨vol, nil⟩
  · exact absurd acc staticPath_dot
  · obtain ⟨-, acc⟩ := staticPath_spec.mp acc
    refine ⟨?_, by simp [nil]⟩
    rcases acc with rfl | ⟨t, rfl⟩
    · exact denoteBackslash_root vol
    · obtain ⟨start, e⟩ := denoteBackslash_append vol
      exact (congrArg Location.root (e t) :)

section Behind
variable {ds : List Bytes}

/-- What goes on behind a directory is too long for a drive. -/
lemma pathExtractor_behind (nd : ds ≠ []) (comp : ∀ d ∈ ds, IsComp d) (s : Bytes) :
    pathExtractor (s ++ '/' :: '/' :: joinRel ds) = none := by
  cases h : pathExtractor (s ++ '/' :: '/' :: joinRel ds) with
  | none => rfl
  | some drive =>
    obtain ⟨c, -, e, -⟩ := pathExtractor_some h
    obtain ⟨d, ds', rfl⟩ := List.exists_cons_of_ne_nil nd
    have long : 0 < d.length := List.length_pos_iff.mpr (comp d List.mem_cons_self).1
    have lengths := congrArg List.length e
    simp only [joinRel, List.length_append, List.length_cons, List.length_nil] at lengths
    omega

/-- Behind a UNC path: both slashes are there again, from the root or from the join. -/
lemma pathNormalize_unc_behind (nd : ds ≠ []) (comp : ∀ d ∈ ds, IsComp d) (plain : ∀ d ∈ ds, Plain dot dotdot d)
    {cs : List Bytes} (nf : IsNormal dot dotdot true cs) (compc : ∀ c ∈ cs, IsComp c) :
    pathNormalize .backslash (('/' :: below cs) ++ '/' :: '/' :: joinRel ds) = ('/' :: below cs) ++ below ds := by
  have parts : ∃ rest, ('/' :: below cs) ++ '/' :: '/' :: joinRel ds = '/' :: '/' :: rest ∧ split '/' rest = cs ++ ds := by
    cases cs with
    | nil =>
      refine ⟨'/' :: joinRel ds, rfl, ?_⟩
      rw [split_cons_slash, split_joinRel comp, List.nil_append]
    | cons c cs =>
      refine ⟨c ++ below cs ++ '/' :: '/' :: joinRel ds, by simp, ?_⟩
      rw [split_append_slash, split_cons_slash, split_joinRel comp]
      exact congrArg (· ++ ds) (split_joinRel compc)
  obtain ⟨rest, text, hsplit⟩ := parts
  have some_left : cs ++ ds ≠ [] := List.append_ne_nil_of_right_ne_nil cs nd
  rw [text, pathNormalize_unc rest rfl, hsplit, (nf.append_plain plain).normal_eq (by decide), if_neg some_left,
    below_append, List.cons_append]

/-- Behind a drive. -/
lemma pathNormalize_drive_behind (nd : ds ≠ []) (comp : ∀ d ∈ ds, IsComp d) (plain : ∀ d ∈ ds, Plain dot dotdot d)
    {c : Char} (letter : isLetter c = true) :
    pathNormalize .backslash ([c, ':'] ++ '/' :: '/' :: joinRel ds) = [c, ':'] ++ below ds := by
  have unc : ¬ ['/', '/'] <+: [c, ':'] ++ '/' :: '/' :: joinRel ds := by
    intro pre
    have hc : '/' = c := (List.cons_prefix_cons.mp pre).1
    exact (isComp_drive letter).2 (by simp [← hc])
  have hsplit : split '/' ([c, ':'] ++ '/' :: '/' :: joinRel ds) = [[c, ':']] ++ ds := by
    rw [split_append_slash, split_cons_slash, split_joinRel comp, (isComp_drive letter).split_eq]
  have pl : Plain dot dotdot [c, ':'] := ⟨by simp [dot], by simp [dotdot]⟩
  have nf : IsNormal dot dotdot false [[c, ':']] := ⟨0, [[c, ':']], rfl, by simp [pl], fun _ => rfl⟩
  rw [pathNormalize_rel (by simp) unc (pathExtractor_behind nd comp _) rfl, hsplit,
    (nf.append_plain plain).normal_eq (by decide), joinRel_append (by simp)]
  simp [joinRel]

/-- Behind components. Where nothing is left of the directory, what follows is read as a UNC path. -/
lemma pathNormalize_rel_behind (nd : ds ≠ []) (comp : ∀ d ∈ ds, IsComp d) (plain : ∀ d ∈ ds, Plain dot dotdot d)
    {cs : List Bytes} (nf : IsNormal dot dotdot false cs) (compc : ∀ c ∈ cs, IsComp c) :
    pathNormalize .backslash (joinRel cs ++ '/' :: '/' :: joinRel ds) =
      if joinRel cs = [] then '/' :: below ds else joinRel cs ++ below ds := by
  by_cases nil : cs = []
  · subst nil
    have none : IsNormal dot dotdot true ([] : List Bytes) := ⟨0, [], rfl, by simp, fun _ => rfl⟩
    have normds : normal dot dotdot true ds = ds := (none.append_plain plain).normal_eq (by decide)
    rw [joinRel, List.nil_append, pathNormalize_unc (joinRel ds) rfl, split_joinRel comp, normds, if_neg nd]
    rfl
  · have ne : joinRel cs ≠ [] := by
      intro empty
      have back := split_joinRel compc
      rw [empty] at back
      exact nil back.symm
    have unc : ¬ ['/', '/'] <+: joinRel cs ++ '/' :: '/' :: joinRel ds := by
      rintro ⟨t, e⟩
      apply joinRel_head compc
      rw [← List.head?_append_of_ne_nil (joinRel cs) ne, ← e]
      rfl
    have hsplit : split '/' (joinRel cs ++ '/' :: '/' :: joinRel ds) = cs ++ ds := by
      rw [split_append_slash, split_cons_slash, split_joinRel comp, split_joinRel compc]
    rw [pathNormalize_rel (by simp) unc (pathExtractor_behind nd comp _) rfl, hsplit,
      (nf.append_plain plain).normal_eq (by decide), joinRel_append nil, if_neg ne]

/-- Plain components are accepted behind a kept directory as they are. -/
lemma staticPath_backslash_below (ne : dir ≠ []) (nd : ds ≠ []) (comp : ∀ d ∈ ds, IsComp d)
    (plain : ∀ d ∈ ds, Plain dot dotdot d) (hroot : wwwrootOf .backslash dir = root) :
    staticPath .backslash (some root) ('/' :: joinRel ds) =
      some (if root = [] then '/' :: below ds else root ++ below ds) := by
  suffices hnorm : pathNormalize .backslash (root ++ '/' :: '/' :: joinRel ds) =
      if root = [] then '/' :: below ds else root ++ below ds by
    obtain ⟨d, ds', rfl⟩ := List.exists_cons_of_ne_nil nd
    refine staticPath_spec.mpr ⟨hnorm.symm, .inr ?_⟩
    split
    · rename_i e
      exact ⟨'/' :: d ++ below ds', by simp [e]⟩
    · exact ⟨d ++ below ds', by simp⟩
  rcases wwwrootOf_backslash ne with ⟨cs, nf, compc, e⟩ | ⟨c, letter, e⟩ | ⟨cs, nf, compc, e⟩
  · rw [← hroot, e, if_neg (List.cons_ne_nil _ _)]
    exact pathNormalize_unc_behind nd comp plain nf compc
  · rw [← hroot, e, if_neg (List.cons_ne_nil _ _)]
    exact pathNormalize_drive_behind nd comp plain letter
  · rw [← hroot, e]
    exact pathNormalize_rel_behind nd comp plain nf compc

end Behind

/-- A component that leaves `n` directories on the platform and is a name to the normaliser. -/
def climb (n : Nat) : Bytes := (List.replicate n (dotdot ++ ['\\'])).flatten

lemma climb_succ (n : Nat) : climb (n + 1) = dotdot ++ '\\' :: climb n := by
  simp [climb, List.replicate_succ]

lemma mem_climb {n : Nat} {c : Char} (h : c ∈ climb n) : c = '.' ∨ c = '\\' := by
  simp only [climb, List.mem_flatten, List.mem_replicate] at h
  obtain ⟨_, ⟨-, rfl⟩, mem⟩ := h
  simpa [dotdot] using mem

lemma pieces_climb (n : Nat) : pieces (isSep .backslash) (climb n) = List.replicate n dotdot := by
  induction n with
  | zero => simp [climb]
  | succ n ih =>
    rw [climb_succ, pieces_append_cons (by decide), pieces_single (by simp [dotdot, isSep]) (by decide), ih]
    rfl

lemma isComp_climb (n : Nat) : IsComp (climb (n + 1)) ∧ Plain dot dotdot (climb (n + 1)) ∧
    ' ' ∉ climb (n + 1) ∧ '?' ∉ climb (n + 1) := by
  have no : ∀ c, c ≠ '.' → c ≠ '\\' → c ∉ climb (n + 1) := by
    intro c h1 h2 mem
    exact (mem_climb mem).elim h1 h2
  refine ⟨⟨by simp [climb_succ], no _ (by decide) (by decide)⟩, ⟨?_, ?_⟩,
    no _ (by decide) (by decide), no _ (by decide) (by decide)⟩
  · simp [climb_succ, dot, dotdot]
  · simp [climb_succ, dotdot]

/-- Two names behind a directory that decides no volume become the volume. -/
lemma denote_undecided {x : Bytes} (vol : volumeOf cwd root = none)
    (hx : ∀ c ∈ x, isSep .backslash c = false) (nx : x ≠ []) :
    ∃ server, (denote .backslash cwd
      (if root = [] then '/' :: below [x, x] else root ++ below [x, x])).root = .unc server x := by
  by_cases nil : root = []
  · have parts : pieces (isSep .backslash) (x ++ '/' :: x) = [x, x] := by
      rw [pieces_append_cons (isSep_slash _), pieces_single hx nx]
      rfl
    refine ⟨x, ?_⟩
    rw [if_pos nil]
    simp [denote, denoteBackslash, isSep_slash, parts]
  · rw [if_neg nil]
    have e : root ++ below [x, x] = root ++ '/' :: x ++ '/' :: x := by simp
    rw [e]
    rcases denoteBackslash_undecided nil vol hx nx hx nx with h | ⟨server, h⟩
    · exact ⟨x, h⟩
    · exact ⟨server, h⟩

/-- A directory string whose requests are all contained is the root of its volume. -/
lemma Contains.backslash_complete {isDirectory : Bytes → Bool} (acc : isDirectory dir = true)
    (h : Contained .backslash isDirectory cwd dir) :
    Contains .backslash cwd (wwwrootOf .backslash dir) (denote .backslash cwd dir) := by
  by_cases ne : dir = []
  · left
    subst ne
    decide
  right
  have all : ∀ {ds : List Bytes}, ds ≠ [] →
      (∀ d ∈ ds, IsComp d ∧ Plain dot dotdot d ∧ ' ' ∉ d ∧ '?' ∉ d) →
      (denote .backslash cwd (if wwwrootOf .backslash dir = [] then '/' :: below ds
        else wwwrootOf .backslash dir ++ below ds)).Below (denote .backslash cwd dir) := by
    intro ds nd hd
    refine h _ _ (isUrl_slash fun d mem => (hd d mem).2.2) ?_
    rw [setWwwroot, if_pos acc]
    exact staticPath_backslash_below ne nd (fun d mem => (hd d mem).1)
      (fun d mem => (hd d mem).2.1) rfl
  cases vol : volumeOf cwd (wwwrootOf .backslash dir) with
  | none =>
    -- two names that differ put the directory on two volumes
    exfalso
    have ba := all (by simp : [['a'], ['a']] ≠ []) (by simp [IsComp, Plain, dot, dotdot])
    have bb := all (by simp : [['b'], ['b']] ≠ []) (by simp [IsComp, Plain, dot, dotdot])
    obtain ⟨sa, ea⟩ := denote_undecided (x := ['a']) vol (by simp [isSep]) (by simp)
    obtain ⟨sb, eb⟩ := denote_undecided (x := ['b']) vol (by simp [isSep]) (by simp)
    have e := (ea.symm.trans ba.1).trans (bb.1.symm.trans eb)
    simp at e
  | some ρ =>
    obtain ⟨start, e⟩ := denoteBackslash_append vol
    have rne : wwwrootOf .backslash dir ≠ [] := by
      intro nil
      simp [nil, volumeOf] at vol
    have b := all (by simp : [climb (start.length + 1)] ≠ []) (by simpa using isComp_climb _)
    have top : denote .backslash cwd
        (wwwrootOf .backslash dir ++ below [climb (start.length + 1)]) = ⟨ρ, []⟩ := by
      rw [below_cons, below_nil, List.append_nil, denote, e, walkFrom, pieces_climb,
        resolve_ups (by decide) (by omega)]
    rw [if_neg rne, top] at b
    exact ⟨by rw [← b.1], List.prefix_nil.mp b.2⟩

end Backslash

/-! ## Both separators -/

/-- The boundary check contains every request exactly under the directories of `Contains`. -/
theorem static_contained_iff (sep : Separator) (isDirectory : Bytes → Bool) (cwd : Cwd)
    (dir : Bytes) (acc : isDirectory dir = true) :
    Contained sep isDirectory cwd dir ↔
      Contains sep cwd (wwwrootOf sep dir) (denote sep cwd dir) := by
  constructor
  · intro h
    cases sep with
    | slash => exact Contains.slash_complete acc h
    | backslash => exact Contains.backslash_complete acc h
  · intro h url full hu hs
    rw [setWwwroot, if_pos acc] at hs
    cases sep with
    | slash => exact h.slash_sound rfl hs
    | backslash => exact h.backslash_sound hs

/-- A directory with a name is contained. -/
theorem static_contained_srv :
    Contained .slash (fun _ => true) ⟨.posix, fun _ => []⟩ (bytes "/srv") :=
  (static_contained_iff .slash (fun _ => true) ⟨.posix, fun _ => []⟩ (bytes "/srv") rfl).mpr
    (.inr (.inr (by decide)))

/-- Under `..` a request climbs on. -/
theorem static_parent_escapes :
    ¬ ∀ (sep : Separator) (isDirectory : Bytes → Bool) (cwd : Cwd) (dir : Bytes),
      isDirectory dir = true → Contained sep isDirectory cwd dir := by
  intro h
  have c := h .slash (fun _ => true) ⟨.posix, fun _ => [bytes "a", bytes "b"]⟩ (bytes "..") rfl
    (bytes "/../x") (bytes "../../x") (by decide) (by decide)
  exact absurd c (by decide)

end CovNet.Path
