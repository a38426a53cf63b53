import CovNet.Lib.Grouping
import CovNet.Query.Decode

/-!
# Query strings

`parse_http_args` (`netutils.ecs`): the part behind the first question mark, or the whole input, is split at `&`,
each segment at its first `=`, and the decoded values are gathered under the decoded keys. A key has a string as
long as it occurs once, and an array from its second occurrence on.

`argOf` is what a key has after the values it occurred with. Every segment adds its value (`addArg_own`) and leaves
the other keys alone (`addArg_other`), so a query string gives back the pairs it was written from
(`parseHttpArgs_pairs`).
-/

namespace CovNet.Query
open Lib Text

/-- A value of the map returned by `parse_http_args`. -/
inductive ArgValue where
  | string (val : Bytes)
  | array (vals : List Bytes)
  deriving DecidableEq, Repr

/-- The key and the value of a segment. -/
def keyValue (p : Bytes) : Bytes × Bytes :=
  match find ['='] p with
  | none => (urlDecode p, [])
  | some eq => (urlDecode (p.take eq), urlDecode (p.drop (eq + 1)))

/-- A value is put into the map. -/
def addArg (result : HashMap Bytes ArgValue) (arg : Bytes × Bytes) : HashMap Bytes ArgValue :=
  match result.lookup arg.1 with
  | none => result.insert arg.1 (.string arg.2)
  | some (.string cur) => result.insert arg.1 (.array [cur, arg.2])
  | some (.array cur) => result.insert arg.1 (.array (cur ++ [arg.2]))

/-- One turn of the loop over the segments. -/
def addPart (result : HashMap Bytes ArgValue) (p : Bytes) : HashMap Bytes ArgValue :=
  if p.isEmpty then result else addArg result (keyValue p)

/-- The input from the first question mark on, or all of it. -/
def queryOf (input : Bytes) : Bytes :=
  match find ['?'] input with
  | none => input
  | some qpos => input.drop (qpos + 1)

/-- `parse_http_args`. -/
def parseHttpArgs (input : Bytes) : HashMap Bytes ArgValue :=
  let qs := queryOf input
  if qs.isEmpty then ∅ else (split '&' qs).foldl addPart ∅

/-! ## What is gathered -/

/-- What a key has that occurred with these values. -/
def argOf : List Bytes → Option ArgValue
  | [] => none
  | [val] => some (.string val)
  | vals => some (.array vals)

lemma argOf_of_two {vals : List Bytes} (two : 2 ≤ vals.length) : argOf vals = some (.array vals) := by
  match vals, two with
  | _ :: _ :: _, _ => rfl

/-- The values can be told from what the key has. -/
lemma argOf_injective : Function.Injective argOf := by
  intro vals vals' e
  match vals, vals' with
  | [], [] => rfl
  | [], [_] | [], _ :: _ :: _ | [_], [] | _ :: _ :: _, [] | [_], _ :: _ :: _ | _ :: _ :: _, [_] => cases e
  | [v], [v'] =>
    cases e
    rfl
  | a :: b :: t, a' :: b' :: t' =>
    cases e
    rfl

/-- The key of an argument has one value more. -/
lemma addArg_own (result : HashMap Bytes ArgValue) (arg : Bytes × Bytes) (vals : List Bytes)
    (h : result.lookup arg.1 = argOf vals) : (addArg result arg).lookup arg.1 = argOf (vals ++ [arg.2]) := by
  unfold addArg
  match vals with
  | [] =>
    rw [h]
    exact AList.lookup_insert result
  | [val] =>
    rw [h]
    exact AList.lookup_insert result
  | a :: b :: vals =>
    rw [h]
    exact AList.lookup_insert result

/-- The other keys have what they had. -/
lemma addArg_other (result : HashMap Bytes ArgValue) (arg : Bytes × Bytes) (key : Bytes) (ne : key ≠ arg.1) :
    (addArg result arg).lookup key = result.lookup key := by
  unfold addArg
  split <;> exact AList.lookup_insert_ne ne

/-- The pairs of a query string, in order. -/
def segmentPairs (qs : Bytes) : List (Bytes × Bytes) := (split '&' qs).map keyValue

/-- The map has what the pairs say. -/
lemma lookup_parseHttpArgs (input key : Bytes) :
    (parseHttpArgs input).lookup key = argOf (valuesOf key (segmentPairs (queryOf input))) := by
  have parts : ∀ (ps : List Bytes) (result : HashMap Bytes ArgValue), (∀ p ∈ ps, p ≠ []) →
      ps.foldl addPart result = (ps.map keyValue).foldl addArg result := by
    intro ps
    induction ps with
    | nil => exact fun _ _ => rfl
    | cons p ps ih =>
      intro result ne
      have here : addPart result p = addArg result (keyValue p) := by
        rw [addPart, if_neg]
        simpa using ne p List.mem_cons_self
      rw [List.foldl_cons, here, ih _ fun q hq => ne q (List.mem_cons_of_mem p hq)]
      rfl
  unfold parseHttpArgs
  by_cases nil : queryOf input = []
  · rw [nil]
    rfl
  · have some_text : ¬ (queryOf input).isEmpty = true := by simpa using nil
    simp only [if_neg some_text]
    have ne : ∀ p ∈ split '&' (queryOf input), p ≠ [] := fun p hp => (mem_pieces hp).1
    rw [parts _ _ ne]
    exact lookup_foldl addArg_own addArg_other (fun _ => rfl) (segmentPairs (queryOf input)) key

/-! ## Pairs and their query strings -/

/-- An encoding without the characters that structure a query string. -/
structure Writes (s t : Bytes) : Prop where
  encodes : Encodes s t
  amp : '&' ∉ t
  eq : '=' ∉ t
  mark : '?' ∉ t

/-- The segments of pairs in order, with empty segments between them. -/
inductive Segments : List (Bytes × Bytes) → List Bytes → Prop where
  | nil :
    Segments [] []
  | empty {pairs segs} :
    Segments pairs segs →
    Segments pairs ([] :: segs)
  | pair {key val k v pairs segs} :
    Writes key k →
    Writes val v →
    Segments pairs segs →
    Segments ((key, val) :: pairs) ((k ++ '=' :: v) :: segs)

/-- A segment is cut at its first `=`. -/
lemma keyValue_cut {k : Bytes} (no : '=' ∉ k) (v : Bytes) : keyValue (k ++ '=' :: v) = (urlDecode k, urlDecode v) := by
  have value : (k ++ '=' :: v).drop (k.length + 1) = v := by
    rw [List.drop_append, List.drop_eq_nil_of_le (by omega)]
    simp
  simp only [keyValue, find_first no, List.take_left, value]

lemma keyValue_bare {p : Bytes} (no : '=' ∉ p) : keyValue p = (urlDecode p, []) := by
  rw [keyValue, find_of_notMem no]

/-- A segment gives its pair back. -/
lemma keyValue_pair {key val k v : Bytes} (hk : Writes key k) (hv : Writes val v) :
    keyValue (k ++ '=' :: v) = (key, val) := by
  rw [keyValue_cut hk.eq, hk.encodes.urlDecode, hv.encodes.urlDecode]

/-- Nothing in the segments is taken for a separator or for the mark in front of a query string. -/
lemma Segments.plain {pairs : List (Bytes × Bytes)} {segs : List Bytes} (h : Segments pairs segs) :
    ∀ s ∈ segs, '&' ∉ s ∧ '?' ∉ s := by
  induction h with
  | nil => exact fun s mem => absurd mem List.not_mem_nil
  | empty _ ih =>
    intro s mem
    rcases List.mem_cons.mp mem with rfl | mem
    · exact ⟨List.not_mem_nil, List.not_mem_nil⟩
    · exact ih s mem
  | pair hk hv _ ih =>
    intro s mem
    rcases List.mem_cons.mp mem with rfl | mem
    · simp [hk.amp, hv.amp, hk.mark, hv.mark]
    · exact ih s mem

/-- The segments that are not empty give the pairs back. -/
lemma Segments.pairs_eq {pairs : List (Bytes × Bytes)} {segs : List Bytes} (h : Segments pairs segs) :
    (segs.filter (!·.isEmpty)).map keyValue = pairs := by
  induction h with
  | nil => rfl
  | empty _ ih => exact ih
  | @pair key val k v pairs segs hk hv _ ih =>
    have full : (!(k ++ '=' :: v).isEmpty) = true := by simp
    have kept : ((k ++ '=' :: v) :: segs).filter (!·.isEmpty) = (k ++ '=' :: v) :: segs.filter (!·.isEmpty) :=
      List.filter_cons_of_pos full
    rw [kept, List.map_cons, keyValue_pair hk hv, ih]

/-- The mark is not in the query string. -/
lemma mark_notMem_intercalate {segs : List Bytes} (h : ∀ s ∈ segs, '?' ∉ s) : '?' ∉ ['&'].intercalate segs := by
  induction segs with
  | nil => exact List.not_mem_nil
  | cons s segs ih =>
    have hs := h s List.mem_cons_self
    have rest := ih fun t ht => h t (List.mem_cons_of_mem s ht)
    by_cases last : segs = []
    · rw [last, List.intercalate_singleton]
      exact hs
    · rw [List.intercalate_cons_of_ne_nil last]
      simp [hs, rest]

/-- The query string of pairs is taken as it is, and gives the pairs back. -/
lemma Segments.segmentPairs {pairs : List (Bytes × Bytes)} {segs : List Bytes} (h : Segments pairs segs) :
    Query.segmentPairs (queryOf (['&'].intercalate segs)) = pairs := by
  have whole : queryOf (['&'].intercalate segs) = ['&'].intercalate segs := by
    rw [queryOf, find_of_notMem (mark_notMem_intercalate fun s hs => (h.plain s hs).2)]
  rw [whole, Query.segmentPairs, split, pieces_intercalate fun s hs => (h.plain s hs).1, h.pairs_eq]

/-- Query parsing loses nothing: a key that occurs once has its value, a key that occurs more than once the array of
its values in order, and there are no other keys. -/
theorem parseHttpArgs_pairs {pairs : List (Bytes × Bytes)} {segs : List Bytes} (h : Segments pairs segs) :
    (∀ key val, valuesOf key pairs = [val] →
      (parseHttpArgs (['&'].intercalate segs)).lookup key = some (.string val)) ∧
    (∀ key, 2 ≤ (valuesOf key pairs).length →
      (parseHttpArgs (['&'].intercalate segs)).lookup key = some (.array (valuesOf key pairs))) ∧
    ∀ key, key ∈ parseHttpArgs (['&'].intercalate segs) ↔ key ∈ pairs.map Prod.fst := by
  have all : ∀ key, (parseHttpArgs (['&'].intercalate segs)).lookup key = argOf (valuesOf key pairs) := by
    intro key
    rw [lookup_parseHttpArgs, h.segmentPairs]
  refine ⟨fun key val one => ?_, fun key two => ?_, fun key => ?_⟩
  · rw [all, one]
    rfl
  · rw [all, argOf_of_two two]
  · rw [← not_iff_not, ← AList.lookup_eq_none, all, ← valuesOf_eq_nil]
    exact argOf_injective.eq_iff' rfl

/-- Two spellings of one key, an empty segment, and a value with the separators in it. -/
theorem parseHttpArgs_pairs_page :
    (parseHttpArgs (bytes "a+b=1&&a%20b=%3D&%3f=")).lookup (bytes "a b") =
      some (.array [bytes "1", bytes "="]) := by
  have key : Writes (bytes "a b") (bytes "a+b") :=
    ⟨.literal (by decide) (by decide) (.plus (.literal (by decide) (by decide) .nil)), by decide, by decide, by decide⟩
  have same : Writes (bytes "a b") (bytes "a%20b") :=
    ⟨.literal (by decide) (by decide) (.escape rfl rfl rfl (.literal (by decide) (by decide) .nil)), by decide,
      by decide, by decide⟩
  have one : Writes (bytes "1") (bytes "1") := ⟨.literal (by decide) (by decide) .nil, by decide, by decide, by decide⟩
  have equals : Writes (bytes "=") (bytes "%3D") := ⟨.escape rfl rfl rfl .nil, by decide, by decide, by decide⟩
  have mark : Writes (bytes "?") (bytes "%3f") := ⟨.escape rfl rfl rfl .nil, by decide, by decide, by decide⟩
  have blank : Writes [] [] := ⟨.nil, by decide, by decide, by decide⟩
  exact (parseHttpArgs_pairs (.pair key one (.empty (.pair same equals (.pair mark blank .nil))))).2.1 (bytes "a b")
    (by decide)

end CovNet.Query
