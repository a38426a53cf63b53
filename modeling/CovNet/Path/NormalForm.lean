import CovNet.Path.Containment

/-!
# Normal forms of paths

What `path_normalize` returns, with the separator `/`: the components of the same place without anything that
can be left out (`pathNormalize_isNormalForm`). A normal form is brought into normal form again wherever it is
used, and stays what it is, but for one: the path of the current directory. It becomes empty when it was spelled
out, and the empty path becomes `.` (`pathNormalize_idem_iff`).
-/

namespace CovNet.Path
open Lib Text

/-- A path by its components: none is empty or `.`, and `..` only leads a relative path. -/
structure IsNormalForm (abs : Bool) (cs : List Bytes) (path : Bytes) : Prop where
  text : path = if abs then '/' :: joinRel cs else joinRel cs
  comp : ∀ c ∈ cs, c ≠ [] ∧ '/' ∉ c ∧ c ≠ dot
  ups : IsNormal dot dotdot abs cs

/-- Components below the root, also when there are none. -/
lemma root_joinRel (cs : List Bytes) : '/' :: joinRel cs = if cs = [] then ['/'] else below cs := by
  cases cs with
  | nil => rfl
  | cons c cs => simp [joinRel]

/-- No component of a normal component list of a path is `.`. -/
lemma ne_dot_of_isNormal {abs : Bool} {cs : List Bytes} {c : Bytes} (nf : IsNormal dot dotdot abs cs) (h : c ∈ cs) :
    c ≠ dot := by
  obtain ⟨k, names, rfl, plain, -⟩ := nf
  rcases List.mem_append.mp h with ups | named
  · rw [List.eq_of_mem_replicate ups]
    decide
  · exact (plain c named).1

/-- With the separator `/`, a path that is not empty is brought into normal form: absolute as it was, and of the
same place. -/
theorem pathNormalize_isNormalForm {path : Bytes} (ne : path ≠ []) :
    ((pathNormalize .slash path).head? = some '/' ↔ (slashed .slash path).head? = some '/') ∧
    ∃ abs cs, (abs = true ↔ (slashed .slash path).head? = some '/') ∧
      IsNormalForm abs cs (pathNormalize .slash path) ∧ split '/' (pathNormalize .slash path) = cs ∧
      ∀ loc, (abs = true → loc = []) →
        resolve dot dotdot loc cs = resolve dot dotdot loc (split '/' (slashed .slash path)) := by
  rcases pathNormalize_slash ne rfl with ⟨head, cs, nf, comp, ecs, e⟩ | ⟨head, cs, nf, comp, ecs, e⟩
  · rw [← root_joinRel] at e
    have whole : split '/' (pathNormalize .slash path) = cs := by
      rw [e, split_cons_slash, split_joinRel comp]
    refine ⟨iff_of_true (by rw [e]; rfl) head, true, cs, iff_of_true rfl head, ⟨e, fun c hc => ?_, nf⟩, whole,
      fun loc root => ?_⟩
    · exact ⟨(comp c hc).1, (comp c hc).2, ne_dot_of_isNormal nf hc⟩
    · rw [ecs, resolve_normal true _ loc root]
  · have whole : split '/' (pathNormalize .slash path) = cs := by
      rw [e, split_joinRel comp]
    refine ⟨iff_of_false (by rw [e]; exact joinRel_head comp) head, false, cs, iff_of_false nofun head,
      ⟨e, fun c hc => ?_, nf⟩, whole, fun loc root => ?_⟩
    · exact ⟨(comp c hc).1, (comp c hc).2, ne_dot_of_isNormal nf hc⟩
    · rw [ecs, resolve_normal false _ loc root]

/-- Backslashes, dots and slashes that say nothing. -/
theorem pathNormalize_isNormalForm_page :
    pathNormalize .slash (bytes "/srv//x\\..\\./a/../../www/") = bytes "/www" ∧
      ∃ abs cs, IsNormalForm abs cs (bytes "/www") := by
  have e : pathNormalize .slash (bytes "/srv//x\\..\\./a/../../www/") = bytes "/www" := by decide
  obtain ⟨-, abs, cs, -, form, -⟩ :=
    @pathNormalize_isNormalForm (bytes "/srv//x\\..\\./a/../../www/") (by decide)
  exact ⟨e, abs, cs, e ▸ form⟩

/-! ## Normal forms again -/

/-- A path that leads back to where it starts, wherever that is. -/
def Stays (sep : Separator) (path : Bytes) : Prop :=
  (front sep (slashed sep path)).isAbs = false ∧
    ∀ loc, resolve dot dotdot loc (split '/' (slashed sep path)) = loc

lemma dotdot_ne_dot : dotdot ≠ dot := by decide

/-- A relative path stays where nothing is left of it. -/
lemma stays_iff {sep : Separator} {path : Bytes} (rel : (front sep (slashed sep path)).isAbs = false) :
    Stays sep path ↔ normal dot dotdot false (split '/' (slashed sep path)) = [] := by
  rw [Stays, and_iff_right rel]
  exact resolve_eq_self_iff dotdot_ne_dot

/-- Components below the root are in normal form. -/
lemma pathNormalize_below {cs : List Bytes} (nf : IsNormal dot dotdot true cs) (comp : ∀ c ∈ cs, IsComp c)
    (clean : '\\' ∉ joinRel cs) : pathNormalize .slash ('/' :: joinRel cs) = '/' :: joinRel cs := by
  have same : slashed .slash ('/' :: joinRel cs) = '/' :: joinRel cs := by
    apply slashed_of_notMem
    rw [List.mem_cons, not_or]
    exact ⟨by decide, clean⟩
  rcases pathNormalize_slash (List.cons_ne_nil _ _) same with ⟨-, ds, -, -, e, text⟩ | ⟨head, -⟩
  · rw [split_cons_slash, split_joinRel comp, nf.normal_eq dotdot_ne_dot] at e
    rw [text, e, root_joinRel]
  · exact absurd rfl head

/-- Components alone are, when there are some. -/
lemma pathNormalize_joinRel {cs : List Bytes} (ne : joinRel cs ≠ []) (nf : IsNormal dot dotdot false cs)
    (comp : ∀ c ∈ cs, IsComp c) (clean : '\\' ∉ joinRel cs) :
    pathNormalize .slash (joinRel cs) = joinRel cs := by
  rcases pathNormalize_slash ne (slashed_of_notMem clean) with ⟨head, -⟩ | ⟨-, ds, -, -, e, text⟩
  · exact absurd head (joinRel_head comp)
  · rw [split_joinRel comp, nf.normal_eq dotdot_ne_dot] at e
    rw [text, e]

/-- No backslash is in the components of a slashed path. -/
lemma backslash_notMem_joinRel {abs : Bool} {path : Bytes} {cs : List Bytes}
    (ecs : cs = normal dot dotdot abs (split '/' (slashed .slash path))) : '\\' ∉ joinRel cs := by
  apply notMem_joinRel (by decide)
  intro c hc mem
  rw [ecs] at hc
  exact backslash_notMem_slashed path ((mem_pieces (mem_normal hc)).2 _ mem).2

/-- With the separator `/`, a normal form stays as it is, if there is something left of it. -/
lemma pathNormalize_slash_again {path : Bytes} (ne : path ≠ []) :
    pathNormalize .slash (pathNormalize .slash path) = pathNormalize .slash path ↔ ¬ Stays .slash path := by
  rcases pathNormalize_slash ne rfl with ⟨head, cs, nf, comp, ecs, e⟩ | ⟨head, cs, nf, comp, ecs, e⟩
  · rw [← root_joinRel] at e
    rw [e]
    refine iff_of_true (pathNormalize_below nf comp (backslash_notMem_joinRel ecs)) ?_
    rintro ⟨rel, -⟩
    simp [front, find_slash_zero, head] at rel
  · have rel : (front .slash (slashed .slash path)).isAbs = false := by simp [front, find_slash_zero, head]
    rw [e, stays_iff rel, ← ecs]
    by_cases nil : cs = []
    · rw [nil]
      exact iff_of_false (by decide) (not_not.mpr rfl)
    · refine iff_of_true (pathNormalize_joinRel ?_ nf comp (backslash_notMem_joinRel ecs)) nil
      intro empty
      have back := split_joinRel comp
      rw [empty] at back
      exact nil back.symm

/-- With the separator `\`, two slashes stay two slashes. -/
lemma pathNormalize_unc_again (rest : Bytes) :
    pathNormalize .backslash (pathNormalize .backslash ('/' :: '/' :: rest)) =
      pathNormalize .backslash ('/' :: '/' :: rest) := by
  have comp : ∀ c ∈ normal dot dotdot true (split '/' rest), IsComp c := fun c hc => mem_split (mem_normal hc)
  have nf : IsNormal dot dotdot true (normal dot dotdot true (split '/' rest)) := normal_isNormal true (split '/' rest)
  have first := pathNormalize_unc rest rfl
  generalize normal dot dotdot true (split '/' rest) = cs at comp nf first
  have shape : pathNormalize .backslash ('/' :: '/' :: rest) = '/' :: '/' :: joinRel cs := by
    rw [first, root_joinRel]
    split <;> rfl
  have same : normal dot dotdot true (split '/' (joinRel cs)) = cs := by
    rw [split_joinRel comp]
    exact nf.normal_eq dotdot_ne_dot
  rw [shape, pathNormalize_unc (joinRel cs) same, root_joinRel]
  split <;> rfl

/-- Components alone stay as they are. One of them may read as a drive. -/
lemma pathNormalize_rel_again {cs : List Bytes} (ne : joinRel cs ≠ []) (nf : IsNormal dot dotdot false cs)
    (comp : ∀ c ∈ cs, IsComp c) : pathNormalize .backslash (joinRel cs) = joinRel cs := by
  cases drive : pathExtractor (joinRel cs) with
  | some d =>
    obtain ⟨c, letter, e, -⟩ := pathExtractor_some drive
    rw [e]
    exact pathNormalize_drive letter
  | none =>
    have same : normal dot dotdot false (split '/' (joinRel cs)) = cs := by
      rw [split_joinRel comp]
      exact nf.normal_eq dotdot_ne_dot
    apply pathNormalize_rel ne _ drive same
    rintro ⟨t, e⟩
    apply joinRel_head comp
    rw [← e]
    rfl

/-- With the separator `\`, likewise. -/
lemma pathNormalize_backslash_again {path : Bytes} (ne : path ≠ []) :
    pathNormalize .backslash (pathNormalize .backslash path) = pathNormalize .backslash path ↔
      ¬ Stays .backslash path := by
  by_cases unc : ['/', '/'] <+: path
  · obtain ⟨rest, rfl⟩ := unc
    refine iff_of_true (pathNormalize_unc_again rest) ?_
    rintro ⟨rel, -⟩
    simp [slashed_backslash, front, find] at rel
  · cases drive : pathExtractor path with
    | some d =>
      obtain ⟨c, letter, rfl, -⟩ := pathExtractor_some drive
      rw [pathNormalize_drive letter]
      refine iff_of_true (pathNormalize_drive letter) ?_
      rintro ⟨rel, -⟩
      simp [slashed_backslash, front, find, drive] at rel
    | none =>
      have rel : (front .backslash (slashed .backslash path)).isAbs = false := by
        simp [slashed_backslash, front, find_eq_zero, unc, drive]
      have comp : ∀ c ∈ normal dot dotdot false (split '/' path), IsComp c := fun c hc => mem_split (mem_normal hc)
      rw [stays_iff rel, slashed_backslash, pathNormalize_rel ne unc drive rfl]
      by_cases nil : normal dot dotdot false (split '/' path) = []
      · rw [nil]
        exact iff_of_false (by decide) (not_not.mpr rfl)
      · refine iff_of_true (pathNormalize_rel_again ?_ (normal_isNormal _ _) comp) nil
        intro empty
        have back := split_joinRel comp
        rw [empty] at back
        exact nil back.symm

/-- A normal form stays as it is when it is normalised again, exactly unless the path stays where it starts: what
is spelled out of the current directory becomes empty, and what is empty becomes `.`. -/
theorem pathNormalize_idem_iff (sep : Separator) (path : Bytes) :
    pathNormalize sep (pathNormalize sep path) = pathNormalize sep path ↔ ¬ Stays sep path := by
  by_cases nil : path = []
  · subst nil
    cases sep with
    | slash =>
      refine iff_of_false (by decide) (not_not.mpr ?_)
      exact (stays_iff rfl).mpr rfl
    | backslash =>
      refine iff_of_false (by decide) (not_not.mpr ?_)
      exact (stays_iff rfl).mpr rfl
  · cases sep with
    | slash => exact pathNormalize_slash_again nil
    | backslash => exact pathNormalize_backslash_again nil

/-- The empty path, the current directory and a way there and back are not fixed points of any kind. -/
theorem pathNormalize_not_idem :
    pathNormalize .slash [] = bytes "." ∧ pathNormalize .slash (bytes ".") = [] ∧
      pathNormalize .slash (bytes "a/..") = [] ∧ pathNormalize .backslash (bytes "/") = [] ∧
      ¬ pathNormalize .slash (pathNormalize .slash (bytes "a/..")) = pathNormalize .slash (bytes "a/..") := by
  decide

end CovNet.Path
