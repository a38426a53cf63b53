import CovNet.Path.Normalize

/-!
# What a path denotes

The place a path string stands for on each platform, with `.` and `..` resolved lexically and no
symbolic links. On a platform with the separator `/` that is the only separator and there is one
root. With the separator `\` both slashes separate; a path that starts with two of them names a
server and a share, one that starts with a letter and a colon names a drive, and every volume has
its own root that `..` does not leave. Relative paths start from the current directory, of which
Windows has one for each drive.
-/

namespace CovNet.Path
open Lib Text

/-- The volume at whose root a location starts. -/
inductive Root where
  | posix
  | drive (letter : Char)
  | unc (server share : Bytes)
  deriving DecidableEq, Repr

/-- A place in the file system: a volume and the names below its root. -/
structure Location where
  root : Root
  names : List Bytes
  deriving DecidableEq, Repr

/-- At or below. -/
def Location.Below (a b : Location) : Prop := a.root = b.root ∧ b.names <+: a.names

instance (a b : Location) : Decidable (a.Below b) := inferInstanceAs (Decidable (_ ∧ _))

/-- The current directory: the current volume, and a directory on every volume. -/
structure Cwd where
  root : Root
  dir : Root → List Bytes

/-- The separators the platform honours. -/
def isSep : Separator → Char → Bool
  | .slash, c => c == '/'
  | .backslash, c => c == '/' || c == '\\'

/-- Walk the components of a path. -/
def walkFrom (sep : Separator) (loc : List Bytes) (path : Bytes) : List Bytes :=
  resolve dot dotdot loc (pieces (isSep sep) path)

/-- The place of a path on a platform with the separator `/`. -/
def denoteSlash (cwd : Cwd) (path : Bytes) : Location :=
  ⟨.posix, walkFrom .slash (if path.head? = some '/' then [] else cwd.dir .posix) path⟩

/-- The place of a path on a platform with the separator `\`. -/
def denoteBackslash (cwd : Cwd) : Bytes → Location
  | a :: b :: rest =>
    if isSep .backslash a && isSep .backslash b then
      match pieces (isSep .backslash) rest with
      | server :: share :: cs => ⟨.unc server share, resolve dot dotdot [] cs⟩
      | [server] => ⟨.unc server [], []⟩
      | [] => ⟨.unc [] [], []⟩
    else if isLetter a && b == ':' then
      let root := Root.drive a.toUpper
      ⟨root, walkFrom .backslash (if rest.head?.any (isSep .backslash) then [] else cwd.dir root) rest⟩
    else
      ⟨cwd.root, walkFrom .backslash (if isSep .backslash a then [] else cwd.dir cwd.root)
        (a :: b :: rest)⟩
  | path =>
    ⟨cwd.root, walkFrom .backslash
      (if path.head?.any (isSep .backslash) then [] else cwd.dir cwd.root) path⟩

/-- The place of a path. -/
def denote : Separator → Cwd → Bytes → Location
  | .slash => denoteSlash
  | .backslash => denoteBackslash

/-- The volume of every path that goes on behind `path` and a slash, if `path` decides it. -/
def volumeOf (cwd : Cwd) : Bytes → Option Root
  | a :: b :: rest =>
    if isSep .backslash a && isSep .backslash b then
      match pieces (isSep .backslash) rest with
      | server :: share :: _ => some (.unc server share)
      | _ => none
    else if isLetter a && b == ':' then some (.drive a.toUpper)
    else some cwd.root
  | [a] => if isSep .backslash a then none else some cwd.root
  | [] => none

lemma isSep_slash (sep : Separator) : isSep sep '/' = true := by
  cases sep <;> rfl

lemma Location.Below.refl (a : Location) : a.Below a := ⟨rfl, List.prefix_rfl⟩

lemma Location.Below.trans {a b c : Location} (h : a.Below b) (h' : b.Below c) : a.Below c :=
  ⟨h.1.trans h'.1, h'.2.trans h.2⟩

lemma walkFrom_append_slash (sep : Separator) (loc : List Bytes) (s t : Bytes) :
    walkFrom sep loc (s ++ '/' :: t) = walkFrom sep (walkFrom sep loc s) t := by
  rw [walkFrom, pieces_append_cons (isSep_slash sep), resolve_append]
  rfl

/-- Behind a path that decides its volume, every path is on that volume and starts from one place
of it. -/
lemma denoteBackslash_append {cwd : Cwd} {w : Bytes} {root : Root} (h : volumeOf cwd w = some root) :
    ∃ loc, ∀ t, denoteBackslash cwd (w ++ '/' :: t) = ⟨root, walkFrom .backslash loc t⟩ := by
  rcases w with _ | ⟨a, _ | ⟨b, rest⟩⟩
  · cases h
  · simp only [volumeOf] at h
    split at h
    · cases h
    · rename_i nsep
      cases h
      refine ⟨walkFrom .backslash (cwd.dir cwd.root) [a], fun t => ?_⟩
      have e := walkFrom_append_slash .backslash (cwd.dir cwd.root) [a] t
      simp only [List.cons_append, List.nil_append] at e
      simp [denoteBackslash, nsep, e]
  · simp only [volumeOf] at h
    simp only [List.cons_append, denoteBackslash]
    split at h
    · rename_i seps
      simp only [seps, if_true]
      split at h
      · rename_i server share cs e
        cases h
        refine ⟨resolve dot dotdot [] cs, fun t => ?_⟩
        rw [pieces_append_cons (isSep_slash _), e]
        simp [resolve_append, walkFrom]
      · cases h
    · rename_i seps
      simp only [seps, Bool.false_eq_true, if_false]
      split at h
      · rename_i drive
        cases h
        simp only [drive, if_true]
        rcases rest with _ | ⟨x, rest⟩
        · refine ⟨[], fun t => ?_⟩
          simp [isSep_slash, walkFrom, pieces_cons (isSep_slash _)]
        · refine ⟨walkFrom .backslash (if isSep .backslash x then []
            else cwd.dir (.drive a.toUpper)) (x :: rest), fun t => ?_⟩
          rw [List.cons_append, List.head?_cons, ← List.cons_append, walkFrom_append_slash]
          rfl
      · rename_i drive
        cases h
        simp only [drive, Bool.false_eq_true, if_false]
        refine ⟨walkFrom .backslash (if isSep .backslash a then [] else cwd.dir cwd.root)
          (a :: b :: rest), fun t => ?_⟩
        rw [← List.cons_append, ← List.cons_append, walkFrom_append_slash]

/-- A path that decides its volume lies on it. -/
lemma denoteBackslash_root {cwd : Cwd} {w : Bytes} {root : Root} (h : volumeOf cwd w = some root) :
    (denoteBackslash cwd w).root = root := by
  rcases w with _ | ⟨a, _ | ⟨b, rest⟩⟩
  · cases h
  · simp only [volumeOf] at h
    split at h
    · cases h
    · cases h
      rfl
  · simp only [volumeOf] at h
    simp only [denoteBackslash]
    split at h
    · rename_i seps
      rw [if_pos seps]
      split at h
      · rename_i server share cs e
        cases h
        simp [e]
      · cases h
    · rename_i seps
      rw [if_neg seps]
      split at h <;> cases h
      · rename_i drive
        rw [if_pos drive]
      · rename_i drive
        rw [if_neg drive]

/-- Behind a path that does not decide its volume, the names that follow do. -/
lemma denoteBackslash_undecided {cwd : Cwd} {w x y : Bytes} (ne : w ≠ [])
    (h : volumeOf cwd w = none) (hx : ∀ c ∈ x, isSep .backslash c = false) (nx : x ≠ [])
    (hy : ∀ c ∈ y, isSep .backslash c = false) (ny : y ≠ []) :
    (denoteBackslash cwd (w ++ '/' :: x ++ '/' :: y)).root = .unc x y ∨
    ∃ server, (denoteBackslash cwd (w ++ '/' :: x ++ '/' :: y)).root = .unc server x := by
  have parts : pieces (isSep .backslash) (x ++ '/' :: y) = [x, y] := by
    rw [pieces_append_cons (isSep_slash _), pieces_single hx nx, pieces_single hy ny]
    rfl
  rw [List.append_assoc, List.cons_append]
  rcases w with _ | ⟨a, _ | ⟨b, rest⟩⟩
  · exact absurd rfl ne
  · simp only [volumeOf] at h
    split at h
    · rename_i sep
      left
      simp [denoteBackslash, sep, isSep_slash, parts]
    · cases h
  · simp only [volumeOf] at h
    simp only [List.cons_append, denoteBackslash]
    split at h
    · rename_i seps
      rw [if_pos seps, pieces_append_cons (isSep_slash _), parts]
      split at h
      · cases h
      · rename_i short
        -- the path names a server at most
        rcases e : pieces (isSep .backslash) rest with _ | ⟨server, _ | ⟨share, cs⟩⟩
        · left
          simp
        · right
          exact ⟨server, by simp⟩
        · exact absurd e (short server share cs)
    · split at h <;> cases h

end CovNet.Path
