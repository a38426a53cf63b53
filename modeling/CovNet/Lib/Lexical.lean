import Mathlib.Data.List.Infix
import Mathlib.Tactic.Lemma

/-!
# Lexical paths

A path is a list of components over an arbitrary type of names, two of which are special: `dot`
stays and `up` leaves a directory. `resolve` walks the components from a location and stops at the
root. `normal` is the stack machine that brings a component list into normal form without knowing
the location; `IsNormal` is the shape of what it returns, a run of `up`s (none for an absolute path)
followed by plain names. Normalising does not change the place (`resolve_normal`), and leaves nothing exactly
where a path leads nowhere (`resolve_eq_self_iff`).

`pieces` splits a string at its separators and leaves the empty pieces out.
-/

namespace CovNet.Lib

section Pieces
variable {α : Type*} {p : α → Bool} {c : α} {s t : List α}

/-- The non-empty pieces between separators. -/
def pieces (p : α → Bool) (s : List α) : List (List α) :=
  (s.splitOnP p).filter (!·.isEmpty)

@[simp] lemma pieces_nil : pieces p [] = [] := by
  simp [pieces]

/-- A separator separates. -/
lemma pieces_append_cons (h : p c = true) : pieces p (s ++ c :: t) = pieces p s ++ pieces p t := by
  simp [pieces, List.splitOnP_append_cons s t h]

lemma pieces_cons (h : p c = true) : pieces p (c :: t) = pieces p t := by
  simpa using pieces_append_cons (s := []) (t := t) h

/-- A non-empty string without separators is one piece. -/
lemma pieces_single (h : ∀ x ∈ s, p x = false) (ne : s ≠ []) : pieces p s = [s] := by
  simp [pieces, List.splitOnP_eq_singleton h, ne]

/-- Only separators leave nothing. -/
lemma pieces_eq_nil : pieces p s = [] ↔ ∀ x ∈ s, p x = true := by
  induction s with
  | nil => simp
  | cons c s ih =>
    rw [List.forall_mem_cons]
    cases sep : p c with
    | true => rw [pieces_cons sep, ih, and_iff_right rfl]
    | false =>
      -- the piece with `c` is not empty
      refine iff_of_false ?_ (fun all => Bool.false_ne_true all.1)
      have no : ¬ p c = true := by rw [sep]; exact Bool.false_ne_true
      rw [pieces, List.splitOnP_cons_eq_if_modifyHead, if_neg no]
      cases e : s.splitOnP p with
      | nil => exact absurd e (List.splitOnP_ne_nil p s)
      | cons q qs => simp

/-- Strings without separators, some of them empty, come apart again. -/
lemma pieces_intercalate [BEq α] [LawfulBEq α] {ss : List (List α)} (h : ∀ s ∈ ss, c ∉ s) :
    pieces (· == c) ([c].intercalate ss) = ss.filter (!·.isEmpty) := by
  induction ss with
  | nil => simp
  | cons s ss ih =>
    have ihs := ih fun t ht => h t (List.mem_cons_of_mem s ht)
    have front : pieces (· == c) s = [s].filter (!·.isEmpty) := by
      by_cases nil : s = []
      · simp [nil]
      · rw [pieces_single _ nil, List.filter_singleton]
        · have full : s.isEmpty = false := List.isEmpty_eq_false_iff.mpr nil
          rw [full]
          rfl
        · intro x hx
          have ne : x ≠ c := ne_of_mem_of_not_mem hx (h s List.mem_cons_self)
          simpa using ne
    by_cases last : ss = []
    · subst last
      rw [List.intercalate_singleton, front]
    · rw [List.intercalate_cons_of_ne_nil last, List.append_assoc, List.singleton_append,
        pieces_append_cons (p := fun x => x == c) (beq_self_eq_true c), ihs, front, ← List.filter_append,
        List.singleton_append]

/-- A piece is not empty, has no separators, and its elements come from the string. -/
lemma mem_pieces (h : t ∈ pieces p s) : t ≠ [] ∧ ∀ x ∈ t, p x = false ∧ x ∈ s := by
  have sep : ∀ (s : List α) t, t ∈ s.splitOnP p → ∀ x ∈ t, p x = false ∧ x ∈ s := by
    intro s
    induction s with
    | nil => simp
    | cons a s ih =>
      intro t ht x hx
      rw [List.splitOnP_cons_eq_if_modifyHead] at ht
      split at ht
      · rcases List.mem_cons.mp ht with rfl | ht
        · cases hx
        · exact (ih t ht x hx).imp_right (List.mem_cons_of_mem a)
      · rename_i no
        cases e : s.splitOnP p with
        | nil => exact absurd e (List.splitOnP_ne_nil p s)
        | cons q qs =>
          rw [e, List.modifyHead_cons] at ht
          rcases List.mem_cons.mp ht with rfl | ht
          · rcases List.mem_cons.mp hx with rfl | hx
            · simpa using no
            · exact (ih q (by simp [e]) x hx).imp_right (List.mem_cons_of_mem a)
          · exact (ih t (by simp [e, ht]) x hx).imp_right (List.mem_cons_of_mem a)
  simp only [pieces, List.mem_filter, Bool.not_eq_true', List.isEmpty_eq_false_iff] at h
  exact ⟨h.2, sep s t h.1⟩

end Pieces

section Walk
variable {N : Type*} [DecidableEq N] {dot up : N}

/-- One component, from a location given by the names below the root. -/
def walk (dot up : N) (loc : List N) (c : N) : List N :=
  if c = dot then loc else if c = up then loc.dropLast else loc ++ [c]

/-- The location reached by the components. -/
def resolve (dot up : N) (loc cs : List N) : List N := cs.foldl (walk dot up) loc

/-- One component of the stack machine; `abs` paths do not climb out. -/
def push (dot up : N) (abs : Bool) (stack : List N) (c : N) : List N :=
  if c = dot then stack
  else if c = up then
    if stack ≠ [] ∧ stack.getLast? ≠ some up then stack.dropLast
    else if abs then stack else stack ++ [up]
  else stack ++ [c]

/-- The normal form of a component list. -/
def normal (dot up : N) (abs : Bool) (cs : List N) : List N := cs.foldl (push dot up abs) []

/-- A name that is neither special component. -/
def Plain (dot up : N) (c : N) : Prop := c ≠ dot ∧ c ≠ up

/-- A run of `up`s, none in an absolute path, and plain names. -/
def IsNormal (dot up : N) (abs : Bool) (cs : List N) : Prop :=
  ∃ k names, cs = List.replicate k up ++ names ∧ (∀ c ∈ names, Plain dot up c) ∧
    (abs = true → k = 0)

/-- What one component does to a stack in normal form. -/
lemma IsNormal.push_cases {abs : Bool} {st : List N} (nf : IsNormal dot up abs st) (c : N) :
    c = dot ∧ push dot up abs st c = st ∨
    c ≠ dot ∧ c = up ∧ (∃ st' n, st = st' ++ [n] ∧ Plain dot up n ∧ push dot up abs st c = st') ∨
    c ≠ dot ∧ c = up ∧ (∃ k, st = List.replicate k up) ∧
      push dot up abs st c = (if abs then st else st ++ [up]) ∨
    Plain dot up c ∧ push dot up abs st c = st ++ [c] := by
  obtain ⟨k, names, rfl, plain, -⟩ := nf
  by_cases e1 : c = dot
  · exact .inl ⟨e1, by simp [push, e1]⟩
  by_cases e2 : c = up
  · subst e2
    rcases List.eq_nil_or_concat names with rfl | ⟨ns, n, rfl⟩
    · refine .inr (.inr (.inl ⟨e1, rfl, ⟨k, by simp⟩, ?_⟩))
      have last : ¬ (List.replicate k c ++ [] ≠ [] ∧
          (List.replicate k c ++ []).getLast? ≠ some c) := by
        rcases k with _ | k <;> simp [List.getLast?_replicate]
      rw [push, if_neg e1, if_pos rfl, if_neg last]
    · have pn := plain n (by simp)
      refine .inr (.inl ⟨e1, rfl, List.replicate k c ++ ns, n, by simp, pn, ?_⟩)
      have e : List.replicate k c ++ ns.concat n = (List.replicate k c ++ ns) ++ [n] := by simp
      have last : (List.replicate k c ++ ns) ++ [n] ≠ [] ∧
          ((List.replicate k c ++ ns) ++ [n]).getLast? ≠ some c := by
        simp [pn.2]
      rw [e, push, if_neg e1, if_pos rfl, if_pos last, List.dropLast_concat]
  · exact .inr (.inr (.inr ⟨⟨e1, e2⟩, by simp [push, e1, e2]⟩))

/-- Normal form is kept by every component. -/
lemma IsNormal.push {abs : Bool} {st : List N} (nf : IsNormal dot up abs st) (c : N) :
    IsNormal dot up abs (push dot up abs st c) := by
  rcases nf.push_cases c with ⟨-, e⟩ | ⟨-, -, st', n, rfl, pn, e⟩ | ⟨-, -, ⟨k, rfl⟩, e⟩ | ⟨pc, e⟩
  · rw [e]
    exact nf
  · obtain ⟨k, names, eq, plain, hk⟩ := nf
    rw [e]
    rcases List.eq_nil_or_concat names with rfl | ⟨ns, m, rfl⟩
    · -- a run of `up`s does not end in a plain name
      have hn : n ∈ List.replicate k up := by
        rw [← List.append_nil (List.replicate k up), ← eq]
        simp
      exact absurd (List.eq_of_mem_replicate hn) pn.2
    · refine ⟨k, ns, ?_, fun d hd => plain d (by simp [hd]), hk⟩
      rw [List.concat_eq_append, ← List.append_assoc] at eq
      exact (List.append_inj' eq rfl).1
  · rw [e]
    cases abs with
    | true => exact nf
    | false => exact ⟨k + 1, [], by simp [List.replicate_succ'], by simp, nofun⟩
  · obtain ⟨k, names, rfl, plain, hk⟩ := nf
    refine ⟨k, names ++ [c], by simp [e], ?_, hk⟩
    intro d hd
    rcases List.mem_append.mp hd with hd | hd
    · exact plain d hd
    · exact List.mem_singleton.mp hd ▸ pc

/-- The stack machine returns a normal form. -/
lemma normal_isNormal (abs : Bool) (cs : List N) : IsNormal dot up abs (normal dot up abs cs) := by
  suffices go : ∀ st, IsNormal dot up abs st →
      IsNormal dot up abs (cs.foldl (Lib.push dot up abs) st) from
    go [] ⟨0, [], rfl, by simp, fun _ => rfl⟩
  induction cs with
  | nil => exact fun _ nf => nf
  | cons c cs ih => exact fun st nf => ih _ (nf.push c)

/-- Every component of the normal form was a component of the path. -/
lemma mem_normal {abs : Bool} {cs : List N} {c : N} (h : c ∈ normal dot up abs cs) : c ∈ cs := by
  suffices go : ∀ st, IsNormal dot up abs st → c ∈ cs.foldl (Lib.push dot up abs) st →
      c ∈ st ∨ c ∈ cs by
    simpa using go [] ⟨0, [], rfl, by simp, fun _ => rfl⟩ h
  clear h
  induction cs with
  | nil => exact fun _ _ h => .inl h
  | cons d cs ih =>
    intro st nf h
    rcases ih _ (nf.push d) h with h | h
    · rcases nf.push_cases d with ⟨-, e⟩ | ⟨-, -, st', n, rfl, -, e⟩ | ⟨-, e', -, e⟩ | ⟨-, e⟩
      · exact .inl (e ▸ h)
      · exact .inl (by simp [e ▸ h])
      · cases abs <;> simp_all
        tauto
      · simp only [e, List.mem_append, List.mem_singleton] at h
        rcases h with h | h <;> simp [h]
    · simp [h]

lemma resolve_append (loc cs ds : List N) :
    resolve dot up loc (cs ++ ds) = resolve dot up (resolve dot up loc cs) ds := by
  simp [resolve]

/-- Plain names lead down. -/
lemma resolve_plain (loc : List N) {names : List N} (plain : ∀ c ∈ names, Plain dot up c) :
    resolve dot up loc names = loc ++ names := by
  induction names generalizing loc with
  | nil => simp [resolve]
  | cons c cs ih =>
    have hc := plain c (by simp)
    have e := ih (loc ++ [c]) fun d hd => plain d (by simp [hd])
    simpa [resolve, walk, hc.1, hc.2] using e

/-- Enough `up`s lead to the root. -/
lemma resolve_ups (ne : up ≠ dot) {loc : List N} {k : Nat} (le : loc.length ≤ k) :
    resolve dot up loc (List.replicate k up) = [] := by
  induction k generalizing loc with
  | zero =>
    have e : loc = [] := List.length_eq_zero_iff.mp (by omega)
    simp [resolve, e]
  | succ k ih =>
    have shorter : loc.dropLast.length ≤ k := by
      rw [List.length_dropLast]
      omega
    have e := ih shorter
    simpa [resolve, walk, ne, List.replicate_succ] using e

/-- Normalising does not change the place: a relative path from any location, an absolute one from
the root. -/
theorem resolve_normal (abs : Bool) (cs loc : List N) (h : abs = true → loc = []) :
    resolve dot up loc (normal dot up abs cs) = resolve dot up loc cs := by
  suffices go : ∀ st, IsNormal dot up abs st →
      resolve dot up loc (cs.foldl (push dot up abs) st) = resolve dot up loc (st ++ cs) from
    go [] ⟨0, [], rfl, by simp, fun _ => rfl⟩
  induction cs with
  | nil => simp
  | cons c cs ih =>
    intro st nf
    rw [List.foldl_cons, ih _ (nf.push c), List.append_cons, resolve_append, resolve_append]
    congr 1
    rcases nf.push_cases c with ⟨rfl, e⟩ | ⟨nd, rfl, st', n, rfl, pn, e⟩ | ⟨nd, rfl, ⟨k, rfl⟩, e⟩ |
      ⟨-, e⟩
    · rw [e]
      simp [resolve, walk]
    · -- the last name is dropped, as walking `up` from below it does
      rw [e]
      simp [resolve, walk, pn.1, pn.2, nd]
    · cases abs with
      | true =>
        -- an absolute path is at the root already
        obtain ⟨k', names, eq, plain, hk⟩ := nf
        obtain rfl := hk rfl
        have nil : k = 0 := by
          rcases k with _ | k
          · rfl
          · have mem : c ∈ names := by
              rw [List.replicate_zero, List.nil_append] at eq
              simp [← eq]
            exact absurd rfl (plain c mem).2
        subst nil
        rw [e, h rfl]
        simp [resolve, walk, nd]
      | false => rw [e, if_neg (by simp)]
    · rw [e]

omit [DecidableEq N] in
/-- Below a normal path that has a name, a normal path only goes down. -/
lemma IsNormal.plain_of_append {abs : Bool} {cs ds : List N} (nf : IsNormal dot up abs (cs ++ ds))
    (named : ∃ c ∈ cs, c ≠ up) : ∀ d ∈ ds, Plain dot up d := by
  obtain ⟨k, names, e, plain, -⟩ := nf
  obtain ⟨c, hc, nup⟩ := named
  rcases List.append_eq_append_iff.mp e with ⟨r, e1, rfl⟩ | ⟨r, rfl, rfl⟩
  · -- `cs` would lie within the run of `up`s
    have mem : c ∈ List.replicate k up := by simp [e1, hc]
    exact absurd (List.eq_of_mem_replicate mem) nup
  · intro d hd
    exact plain d (by simp [hd])

omit [DecidableEq N] in
/-- Plain names keep a normal path normal. -/
lemma IsNormal.append_plain {abs : Bool} {cs ds : List N} (nf : IsNormal dot up abs cs)
    (plain : ∀ d ∈ ds, Plain dot up d) : IsNormal dot up abs (cs ++ ds) := by
  obtain ⟨k, names, rfl, plain', hk⟩ := nf
  exact ⟨k, names ++ ds, List.append_assoc _ _ _, List.forall_mem_append.mpr ⟨plain', plain⟩, hk⟩

omit [DecidableEq N] in
/-- A normal path of `up`s alone is relative, and goes on with further ones. -/
lemma IsNormal.append_ups {abs : Bool} {cs : List N} (nf : IsNormal dot up abs cs) (ne : cs ≠ [])
    (ups : ∀ c ∈ cs, c = up) (n : Nat) : abs = false ∧ IsNormal dot up false (cs ++ List.replicate n up) := by
  constructor
  · cases abs with
    | false => rfl
    | true =>
      obtain ⟨k, names, rfl, plain, hk⟩ := nf
      obtain rfl := hk rfl
      obtain ⟨c, hc⟩ := List.exists_mem_of_ne_nil _ ne
      exact absurd (ups c hc) (plain c hc).2
  · refine ⟨cs.length + n, [], ?_, fun c hc => absurd hc List.not_mem_nil, nofun⟩
    rw [List.replicate_add, ← List.eq_replicate_of_mem ups, List.append_nil]

/-- A normal path is its own normal form. -/
lemma IsNormal.normal_eq {abs : Bool} {cs : List N} (ne : up ≠ dot)
    (nf : IsNormal dot up abs cs) : normal dot up abs cs = cs := by
  obtain ⟨k, names, rfl, plain, hk⟩ := nf
  have ups : ∀ k, (abs = true → k = 0) →
      (List.replicate k up).foldl (Lib.push dot up abs) [] = List.replicate k up := by
    intro k hk
    induction k with
    | zero => rfl
    | succ k ih =>
      have nabs : abs = false := by
        cases abs with
        | true => exact absurd (hk rfl) (by simp)
        | false => rfl
      subst nabs
      have nf : IsNormal dot up false (List.replicate k up) := ⟨k, [], by simp, by simp, nofun⟩
      rw [List.replicate_succ', List.foldl_append, ih nofun]
      rcases nf.push_cases up with ⟨e, -⟩ | ⟨-, -, st', n, e', pn, -⟩ | ⟨-, -, -, e⟩ | ⟨p, -⟩
      · exact absurd e ne
      · have mem : n ∈ List.replicate k up := by simp [e']
        exact absurd (List.eq_of_mem_replicate mem) pn.2
      · simpa using e
      · exact absurd rfl p.2
  -- behind the ups only plain names are pushed
  have down : ∀ (names st : List N), (∀ c ∈ names, Plain dot up c) →
      names.foldl (Lib.push dot up abs) st = st ++ names := by
    intro names
    induction names with
    | nil => simp
    | cons c cs ih =>
      intro st plain
      have pc := plain c (by simp)
      rw [List.foldl_cons, ih _ fun d hd => plain d (by simp [hd])]
      simp [Lib.push, pc.1, pc.2]
  rw [normal, List.foldl_append, ups k hk, down names _ plain]

/-- A path leads back to where it starts, from anywhere, exactly when its relative normal form is empty. -/
theorem resolve_eq_self_iff (ne : up ≠ dot) {cs : List N} :
    (∀ loc, resolve dot up loc cs = loc) ↔ normal dot up false cs = [] := by
  constructor
  · intro same
    have nf : IsNormal dot up false (normal dot up false cs) := normal_isNormal false cs
    obtain ⟨k, names, e, plain, -⟩ := nf
    -- from below `k` names the `up`s lead to the root, and the names cannot be those `k` again
    have back : List.replicate k dot = names := by
      have there := same (List.replicate k dot)
      rw [← resolve_normal false cs _ nofun, e, resolve_append, resolve_ups ne List.length_replicate.le,
        resolve_plain [] plain] at there
      exact there.symm
    cases k with
    | zero =>
      rw [e, ← back]
      rfl
    | succ k =>
      have mem : dot ∈ names := by
        rw [← back, List.replicate_succ]
        exact List.mem_cons_self
      exact absurd rfl (plain dot mem).1
  · intro nil loc
    rw [← resolve_normal false cs loc nofun, nil]
    rfl

end Walk

end CovNet.Lib
