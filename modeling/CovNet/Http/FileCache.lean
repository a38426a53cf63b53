import CovNet.Lib.System
import CovNet.Text.Bytes
import Mathlib.Data.List.Nodup

/-!
# The cache of static files

`http_server.read_file` (`netutils.ecs`) keeps the content of a file in `content_map` and the
modification time it goes with in `mtime_map`. The time is recorded before the content is read, chunk by
chunk with a switch of fibers at each, and the content is stored after. In between other calls can find
the new time with the old content (`old_content_returned`), and a call that fails leaves them so.

`fileCache` is one path: the file, the two entries, and the calls that are reading the file. `steady` is
the condition under which the cache is sound: in every run whose steps all meet it, what a call returns
is a content the file has had since the call read the time, and when no call is reading the entries agree
(`cache_coherent`).
-/

namespace CovNet.Http
open Lib Text

/-- How much one `await` of the global `read_file` reads. -/
def readChunk : Nat := 262144

/-- A call that is reading the file. -/
structure FileRead where
  mtime : Nat
  /-- how often the file had been modified when the call read the time -/
  since : Nat
  /-- there was an entry in `content_map` then -/
  refresh : Bool
  data : Bytes := []
  /-- the stream is at its end, and the fiber can be resumed -/
  whole : Bool := false
  deriving DecidableEq, Repr

/-- One path of the cache. `past` is what the file was before, and `returned` what the calls have
returned, with `since`. -/
structure FileCache where
  file : Nat × Bytes
  past : List (Nat × Bytes) := []
  mtimeMap : Option Nat := none
  contentMap : Option Bytes := none
  reads : List FileRead := []
  returned : List (Nat × Bytes) := []
  deriving DecidableEq, Repr

inductive FileAction where
  /-- `read_file` is called: whether the file can be opened -/
  | call (opened : Bool)
  /-- an `await` of a call is over: whether the stream could be read -/
  | chunk (i : Nat) (ok : Bool)
  /-- an `await` of a call raises -/
  | raise (i : Nat)
  /-- a call is resumed after its last `await` -/
  | finish (i : Nat)
  | modify (mtime : Nat) (content : Bytes)
  deriving DecidableEq, Repr

namespace FileCache

/-- What the file has been, in order. -/
def versions (s : FileCache) : List (Nat × Bytes) := s.past ++ [s.file]

/-- `content_map[path]`, if the call returns it. -/
def cached (s : FileCache) : Option Bytes :=
  if s.mtimeMap = some s.file.1 then s.contentMap else none

/-- `read_file`, up to its first switch. -/
def readFile (s : FileCache) (opened : Bool) : FileCache :=
  match s.cached with
  | some content => { s with returned := s.returned ++ [(s.past.length, content)] }
  | none =>
    let s := { s with mtimeMap := some s.file.1 }
    if opened then
      { s with
        reads := s.reads ++
          [{ mtime := s.file.1, since := s.past.length, refresh := s.contentMap.isSome }] }
    else
      -- a stream that is not good has no bytes
      { s with contentMap := some [], returned := s.returned ++ [(s.past.length, [])] }

/-- What an `await` makes of a call. -/
def chunk (s : FileCache) (r : FileRead) (ok : Bool) : FileRead :=
  if ok then
    let bytes := (s.file.2.drop r.data.length).take readChunk
    { r with data := r.data ++ bytes, whole := decide (bytes.length < readChunk) }
  else { r with whole := true }

def next (s : FileCache) : FileAction → Option FileCache
  | .call opened => some (s.readFile opened)
  | .chunk i ok =>
    match s.reads[i]? with
    | none => none
    | some r => if r.whole then none else some { s with reads := s.reads.set i (s.chunk r ok) }
  | .raise i =>
    match s.reads[i]? with
    | none => none
    | some r => if r.whole then none else some { s with reads := s.reads.eraseIdx i }
  | .finish i =>
    match s.reads[i]? with
    | none => none
    | some r =>
      if r.whole then
        some { s with
          contentMap := some r.data
          reads := s.reads.eraseIdx i
          returned := s.returned ++ [(r.since, r.data)] }
      else none
  | .modify mtime content =>
    if mtime = s.file.1 then none
    else some { s with past := s.past ++ [s.file], file := (mtime, content) }

/-- A call comes only while no other is still reading an earlier version, and is answered from the cache
only while no content is being replaced. The file is opened and read without an error, it is not modified
while it is read, and it does not get an earlier time back. No call fails that would have replaced a
content. -/
def steady (s : FileCache) : FileAction → Bool
  | .call opened =>
    s.reads.all (·.mtime == s.file.1) &&
      if s.cached.isSome then s.reads.all (!·.refresh) else opened
  | .chunk _ ok => ok
  | .raise i => s.reads[i]?.all (!·.refresh)
  | .finish _ => true
  | .modify mtime _ => s.reads.all (·.whole) && decide (mtime ∉ s.versions.map Prod.fst)

end FileCache

/-- Any number of fibers call `read_file`, and the file is modified. -/
def fileCache : System FileCache FileAction where
  init s := ∃ file, s = { file }
  next := FileCache.next

/-- Every content returned is one the file has had since the call read the time, and the entries agree
when no call is reading. -/
structure Coherent (s : FileCache) : Prop where
  returned : ∀ r ∈ s.returned, r.2 ∈ (s.versions.drop r.1).map Prod.snd
  entries : s.reads = [] → ∀ mtime content, s.mtimeMap = some mtime → s.contentMap = some content →
    (mtime, content) ∈ s.versions

/-! ## The invariant -/

/-- A call that is reading has the recorded time. What it has read is the file, as far as it goes, and the
whole of what the file was then once the stream is at its end. -/
structure FileRead.Sound (mtimeMap : Option Nat) (past : List (Nat × Bytes)) (file : Nat × Bytes)
    (r : FileRead) : Prop where
  recorded : mtimeMap = some r.mtime
  partly : r.whole = false → r.mtime = file.1 ∧ r.since = past.length ∧ r.data <+: file.2
  wholly : r.whole = true → (past ++ [file])[r.since]? = some (r.mtime, r.data)

/-- The cache between two steps. -/
structure Kept (s : FileCache) : Prop where
  times : (s.versions.map Prod.fst).Nodup
  reads : ∀ r ∈ s.reads, r.Sound s.mtimeMap s.past s.file
  settled : (∀ r ∈ s.reads, r.refresh = false) → ∀ mtime content, s.mtimeMap = some mtime →
    s.contentMap = some content → (mtime, content) ∈ s.versions
  returned : ∀ r ∈ s.returned, r.2 ∈ (s.versions.drop r.1).map Prod.snd

namespace Kept
variable {s s' : FileCache} {r : FileRead} {i : Nat}

lemma file_mem : s.file ∈ s.versions := List.mem_append_right _ (List.mem_singleton_self _)

lemma now : s.versions.drop s.past.length = [s.file] := List.drop_left

/-- The content that goes with the time of the file is that of the file. -/
lemma content_eq (k : Kept s) {content : Bytes} (mem : (s.file.1, content) ∈ s.versions) :
    content = s.file.2 := by
  have same := List.inj_on_of_nodup_map k.times mem file_mem rfl
  exact congrArg Prod.snd same

/-- A call returns, and gives the content of a version. -/
lemma returned_append {entry : Nat × Bytes} (k : Kept s)
    (sound : entry.2 ∈ (s.versions.drop entry.1).map Prod.snd) :
    ∀ e ∈ s.returned ++ [entry], e.2 ∈ (s.versions.drop e.1).map Prod.snd := by
  intro e mem
  rcases List.mem_append.mp mem with old | new
  · exact k.returned e old
  · rw [List.mem_singleton.mp new]
    exact sound

lemma call {opened : Bool} (k : Kept s) (ok : s.steady (.call opened) = true) :
    Kept (s.readFile opened) := by
  simp only [FileCache.steady, Bool.and_eq_true, List.all_eq_true, beq_iff_eq] at ok
  obtain ⟨current, ok⟩ := ok
  cases hit : s.cached with
  | some content =>
    simp only [hit, Option.isSome_some, if_true, List.all_eq_true, Bool.not_eq_true'] at ok
    simp only [FileCache.readFile, hit]
    have entry : s.mtimeMap = some s.file.1 ∧ s.contentMap = some content := by
      unfold FileCache.cached at hit
      split at hit
      · exact ⟨‹_›, hit⟩
      · cases hit
    have same := k.content_eq (k.settled ok _ _ entry.1 entry.2)
    refine ⟨k.times, k.reads, k.settled, k.returned_append ?_⟩
    rw [now, same]
    exact List.mem_singleton_self _
  | none =>
    simp only [hit, Option.isSome_none, Bool.false_eq_true, if_false] at ok
    simp only [FileCache.readFile, hit, ok, if_true]
    refine ⟨k.times, fun r mem => ?_, fun still mtime content _ stored => ?_, k.returned⟩
    · rcases List.mem_append.mp mem with old | new
      · obtain ⟨-, partly, wholly⟩ := k.reads r old
        exact ⟨congrArg some (current r old).symm, partly, wholly⟩
      · rw [List.mem_singleton.mp new]
        exact ⟨rfl, fun _ => ⟨rfl, rfl, List.nil_prefix⟩, nofun⟩
    · -- with an entry in place the call is a refresh
      have absent := still _ (List.mem_append_right _ (List.mem_singleton_self _))
      rw [show s.contentMap = some content from stored] at absent
      cases absent

lemma chunk {ok : Bool} (k : Kept s) (at_i : s.reads[i]? = some r) (more : r.whole = false)
    (steady : s.steady (.chunk i ok) = true) :
    Kept { s with reads := s.reads.set i (s.chunk r ok) } := by
  obtain ⟨recorded, partly, -⟩ := k.reads r (List.mem_of_getElem? at_i)
  obtain ⟨mtime, since, data⟩ := partly more
  obtain rfl : ok = true := steady
  have sound : (s.chunk r true).Sound s.mtimeMap s.past s.file := by
    obtain ⟨rest, split⟩ := data
    have left : s.file.2.drop r.data.length = rest := by rw [← split, List.drop_left]
    refine ⟨recorded, fun _ => ⟨mtime, since, ?_⟩, fun last => ?_⟩
    · simp only [FileCache.chunk, if_true, left]
      rw [← split]
      exact (List.prefix_append_right_inj _).mpr (List.take_prefix _ _)
    · simp only [FileCache.chunk, if_true, left, decide_eq_true_eq, List.length_take] at last
      -- a short chunk is the end of the file
      have all : rest.take readChunk = rest := List.take_of_length_le (by omega)
      simp only [FileCache.chunk, if_true, left, all, split, since, mtime]
      exact List.getElem?_concat_length
  have same : (s.reads.set i (s.chunk r true)).map FileRead.refresh = s.reads.map FileRead.refresh := by
    have here : (s.reads.map FileRead.refresh)[i]? = some (s.chunk r true).refresh := by
      rw [List.getElem?_map, at_i]
      rfl
    obtain ⟨lt, here⟩ := List.getElem?_eq_some_iff.mp here
    rw [List.map_set, ← here, List.set_getElem_self]
  refine ⟨k.times, fun r' mem => ?_, fun still => k.settled fun r' mem => ?_, k.returned⟩
  · rcases List.mem_or_eq_of_mem_set mem with old | new
    · exact k.reads r' old
    · rw [new]
      exact sound
  · have kept : r'.refresh ∈ s.reads.map FileRead.refresh := List.mem_map_of_mem mem
    rw [← same] at kept
    obtain ⟨r'', mem', e⟩ := List.mem_map.mp kept
    rw [← e]
    exact still r'' mem'

/-- A call ends, which has not been a refresh or leaves a content that is sound. -/
lemma leave (k : Kept s) {contentMap : Option Bytes} {returned : List (Nat × Bytes)}
    (settled : (∀ r ∈ s.reads.eraseIdx i, r.refresh = false) → ∀ mtime content,
      s.mtimeMap = some mtime → contentMap = some content → (mtime, content) ∈ s.versions)
    (sound : ∀ e ∈ returned, e.2 ∈ (s.versions.drop e.1).map Prod.snd) :
    Kept { s with contentMap, reads := s.reads.eraseIdx i, returned } where
  times := k.times
  reads r mem := k.reads r (List.mem_of_mem_eraseIdx mem)
  settled := settled
  returned := sound

lemma raise (k : Kept s) (at_i : s.reads[i]? = some r) (first : r.refresh = false) :
    Kept { s with reads := s.reads.eraseIdx i } := by
  refine k.leave (fun still => k.settled fun r' mem => ?_) k.returned
  obtain ⟨j, at_j⟩ := List.getElem?_of_mem mem
  by_cases e : j = i
  · subst e
    rw [at_i] at at_j
    cases at_j
    exact first
  · exact still r' (List.mem_eraseIdx_iff_getElem?.mpr ⟨j, e, at_j⟩)

lemma finish (k : Kept s) (at_i : s.reads[i]? = some r) (last : r.whole = true) :
    Kept { s with
      contentMap := some r.data
      reads := s.reads.eraseIdx i
      returned := s.returned ++ [(r.since, r.data)] } := by
  obtain ⟨recorded, -, wholly⟩ := k.reads r (List.mem_of_getElem? at_i)
  have version := wholly last
  refine k.leave (fun _ mtime content time stored => ?_) (k.returned_append ?_)
  · rw [recorded] at time
    cases time
    cases stored
    exact List.mem_of_getElem? version
  · refine List.mem_map.mpr ⟨(r.mtime, r.data), ?_, rfl⟩
    refine List.mem_of_getElem? (i := 0) ?_
    rw [List.getElem?_drop, Nat.add_zero]
    exact version

lemma modify {mtime : Nat} {content : Bytes} (k : Kept s)
    (steady : s.steady (.modify mtime content) = true) :
    Kept { s with past := s.past ++ [s.file], file := (mtime, content) } := by
  simp only [FileCache.steady, Bool.and_eq_true, List.all_eq_true, decide_eq_true_eq] at steady
  obtain ⟨whole, new⟩ := steady
  have more : ∀ e ∈ s.versions, e ∈ s.versions ++ [(mtime, content)] := fun e =>
    List.mem_append_left _
  refine ⟨?_, fun r mem => ?_, fun still mtime content time stored => ?_, fun e mem => ?_⟩
  · show ((s.versions ++ [(mtime, content)]).map Prod.fst).Nodup
    rw [List.map_append]
    exact k.times.append (List.nodup_singleton _) (by simpa using new)
  · obtain ⟨recorded, -, wholly⟩ := k.reads r mem
    refine ⟨recorded, fun more => ?_, fun last => ?_⟩
    · rw [whole r mem] at more
      cases more
    · -- a content that is whole was that of an earlier version, which stays where it is
      have version := wholly last
      obtain ⟨lt, -⟩ := List.getElem?_eq_some_iff.mp version
      rw [List.getElem?_append_left lt]
      exact version
  · exact more _ (k.settled still mtime content time stored)
  · show e.2 ∈ ((s.versions ++ [(mtime, content)]).drop e.1).map Prod.snd
    rw [List.drop_append, List.map_append]
    exact List.mem_append_left _ (k.returned e mem)

lemma step {a : FileAction} (k : Kept s) (steady : s.steady a = true) (st : s.next a = some s') :
    Kept s' := by
  cases a with
  | call opened =>
    cases st
    exact k.call steady
  | chunk i ok =>
    simp only [FileCache.next] at st
    split at st
    · cases st
    · rename_i r at_i
      split at st
      · cases st
      · rename_i more
        cases st
        exact k.chunk at_i (Bool.eq_false_iff.mpr more) steady
  | raise i =>
    simp only [FileCache.next] at st
    split at st
    · cases st
    · rename_i r at_i
      split at st
      · cases st
      · cases st
        refine k.raise at_i ?_
        simpa [FileCache.steady, at_i] using steady
  | finish i =>
    simp only [FileCache.next] at st
    split at st
    · cases st
    · rename_i r at_i
      split at st
      · rename_i last
        cases st
        exact k.finish at_i last
      · cases st
  | modify mtime content =>
    simp only [FileCache.next] at st
    split at st
    · cases st
    · cases st
      exact k.modify steady

lemma coherent (k : Kept s) : Coherent s := by
  refine ⟨k.returned, fun quiet => k.settled fun r mem => ?_⟩
  rw [quiet] at mem
  cases mem

end Kept

/-- In a run whose steps are all steady the cache is coherent in every state. -/
theorem cache_coherent (s : FileCache)
    (run : (fileCache.restrict fun s a => s.steady a = true).Reachable s) : Coherent s := by
  refine Kept.coherent (run.invariant ?_ ?_)
  · rintro _ ⟨file, rfl⟩
    exact ⟨List.nodup_singleton _, nofun, nofun, nofun⟩
  · intro s a s' k st
    obtain ⟨steady, next⟩ := System.restrict_next.mp st
    exact k.step steady next

/-- A file is read, modified, and read by two calls one after the other. -/
theorem cache_coherent_page : ∃ s : FileCache, Coherent s ∧
    s.returned = [(0, bytes "a"), (1, bytes "bc"), (1, bytes "bc")] := by
  obtain ⟨s, run, h⟩ := System.Reachable.exists_of_run
    (S := fileCache.restrict fun s a => s.steady a = true) (.init ⟨(7, bytes "a"), rfl⟩)
    [.call true, .chunk 0 true, .finish 0, .modify 8 (bytes "bc"), .call true, .chunk 0 true, .finish 0,
      .call true]
    (fun s => decide (s.returned = [(0, bytes "a"), (1, bytes "bc"), (1, bytes "bc")])) (by decide +kernel)
  exact ⟨s, cache_coherent s run, of_decide_eq_true h⟩

/-- A call that comes while another refreshes the entry gets what the file was before. -/
theorem old_content_returned : ¬ ∀ s : FileCache, fileCache.Reachable s → Coherent s := by
  intro claim
  obtain ⟨s, run, h⟩ := System.Reachable.exists_of_run (S := fileCache) (.init ⟨(7, bytes "a"), rfl⟩)
    [.call true, .chunk 0 true, .finish 0, .modify 8 (bytes "b"), .call true, .call true]
    (fun s => decide (s.returned = [(0, bytes "a"), (1, bytes "a")] ∧
      s.versions = [(7, bytes "a"), (8, bytes "b")])) (by decide +kernel)
  obtain ⟨returned, versions⟩ := of_decide_eq_true h
  have old := (claim s run).returned (1, bytes "a") (by simp [returned])
  rw [versions] at old
  exact absurd old (by decide)

end CovNet.Http
