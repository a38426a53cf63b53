import CovNet.Client.Response
import CovNet.Http.Framing
import Mathlib.Data.List.DropRight

/-!
# The framing of a response

`parse_response_headers` (`netutils.ecs`) keeps the headers in a map under their lower-cased names and
refuses a second `content-length` or `transfer-encoding`, or both together. What it does not see cannot be
refused: a line that `http_header_line_reg` does not match is passed over, and a name with a space before
its colon is another name.

`framing_unambiguous_iff` says for every block that is taken when what it announces is what its lines say:
if and only if the lines about the framing are matched under their names.
-/

namespace CovNet.Client
open Lib Text Http

/-- The header lines of a block. -/
def blockLines (headersRaw : Bytes) : List Bytes := (split '\n' headersRaw).tail.map trim

/-- The header lines with a name, trimmed and lower-cased. -/
def namedLines (name headersRaw : Bytes) : List Bytes :=
  (blockLines headersRaw).filter fun l => fieldName l = some name

/-- The value of a header line. -/
def lineValue (l : Bytes) : Bytes := trim (l.dropWhile (· != ':')).tail

/-- The last of the codings that a value lists. -/
def lastCoding (value : Bytes) : Option Bytes := (split ',' value).getLast?.map fun c => tolower (trim c)

/-- What is announced for a block is what its lines say, and they do not contradict each other. -/
structure Unambiguous (asInteger : Bytes → Option Int) (headersRaw : Bytes) (m : Meta) : Prop where
  lengths : (namedLines (bytes "content-length") headersRaw).length ≤ 1
  codings : (namedLines (bytes "transfer-encoding") headersRaw).length ≤ 1
  one : namedLines (bytes "content-length") headersRaw = [] ∨
    namedLines (bytes "transfer-encoding") headersRaw = []
  chunked : m.isChunked = true ↔ namedLines (bytes "transfer-encoding") headersRaw ≠ []
  coding : ∀ l ∈ namedLines (bytes "transfer-encoding") headersRaw,
    lastCoding (lineValue l) = some (bytes "chunked")
  length : ∀ l ∈ namedLines (bytes "content-length") headersRaw,
    asInteger (lineValue l) = some m.contentLength ∧ 0 ≤ m.contentLength ∧
      m.contentLength ≤ httpMaxBodySize
  absent : m.contentLength = -1 ↔ namedLines (bytes "content-length") headersRaw = []

/-- The line is matched under its name. -/
def Matched (l : Bytes) : Prop := ((httpHeaderLineReg l).map fun f => tolower f.1) = fieldName l

instance (l : Bytes) : Decidable (Matched l) := inferInstanceAs (Decidable (_ = _))

/-- A name that the framing of a response depends on. -/
def Framing (name : Bytes) : Prop := name = bytes "content-length" ∨ name = bytes "transfer-encoding"

/-- The lines about the framing are matched under their names. -/
def Visible (headersRaw : Bytes) : Prop :=
  ∀ l ∈ blockLines headersRaw, fieldName l = some (bytes "content-length") ∨
    fieldName l = some (bytes "transfer-encoding") → Matched l

instance (headersRaw : Bytes) : Decidable (Visible headersRaw) :=
  inferInstanceAs (Decidable (∀ l ∈ blockLines headersRaw, _ → Matched l))

/-! ## Lines -/

section Lines
variable {l name value : Bytes}

/-- A matched line has the name it is matched under, and its value. -/
lemma httpHeaderLineReg_eq (h : httpHeaderLineReg l = some (name, value)) :
    fieldName l = some (trim (tolower name)) ∧ trim value = lineValue l := by
  unfold httpHeaderLineReg at h
  split at h
  · rename_i c rest hd
    dsimp only at h
    split at h
    · cases h
      have colon : ':' ∈ l := mem_of_dropWhile_ne hd
      refine ⟨by rw [fieldName, if_pos colon, tolower_trim], ?_⟩
      rw [lineValue, hd, List.tail_cons]
      simp only [trim, List.dropWhile_idempotent]
    · cases h
  · cases h

end Lines

/-! ## The map of headers -/

section Headers
variable {asInteger : Bytes → Option Int} {headers headers' : List (Bytes × Bytes)}
  {name : Bytes} {ls : List Bytes}

/-- The values of the lines matched under a name. -/
def matchedValues (name : Bytes) (ls : List Bytes) : List Bytes :=
  ls.filterMap fun line => (httpHeaderLineReg (trim line)).bind fun f =>
    if tolower f.1 = name then some (trim f.2) else none

/-- A name is looked up where another one is taken out. -/
lemma lookup_filter_ne {α : Type} {list : List (Bytes × α)} {name other : Bytes} (ne : name ≠ other) :
    (list.filter (·.1 ≠ other)).lookup name = list.lookup name := by
  induction list with
  | nil => rfl
  | cons f list ih =>
    rw [List.filter_cons]
    split
    · rw [List.lookup_cons, List.lookup_cons, ih]
    · rename_i out
      have same : f.1 = other := by simpa using out
      have no : (name == f.1) = false := by simpa [same] using ne
      rw [List.lookup_cons, no, ih]

/-- A line that is taken is the first one under its name, or leaves what is under the name alone. -/
lemma addHeader_cases {line : Bytes} (framing : Framing name) (h : addHeader headers line = some headers') :
    (∃ value, matchedValues name [line] = [value] ∧ headers.lookup name = none ∧
      headers'.lookup name = some value) ∨
    (matchedValues name [line] = [] ∧ headers'.lookup name = headers.lookup name) := by
  unfold addHeader at h
  dsimp only at h
  split at h
  · rename_i blank
    cases h
    exact .inr ⟨by simp [matchedValues, List.isEmpty_iff.mp blank, httpHeaderLineReg], rfl⟩
  · split at h
    · rename_i reg
      cases h
      exact .inr ⟨by simp [matchedValues, reg], rfl⟩
    · rename_i raw value reg
      split at h
      · cases h
      · rename_i first
        cases h
        -- a second header of a name about the framing is refused
        by_cases e : tolower raw = name
        · subst e
          have new : headers.lookup (tolower raw) = none := by
            by_contra old
            have some' := Option.ne_none_iff_isSome.mp old
            exact first (by simpa [some', Framing] using framing)
          exact .inl ⟨trim value, by simp [matchedValues, reg], new, List.lookup_cons_self⟩
        · have no : (name == tolower raw) = false := by simpa using Ne.symm e
          refine .inr ⟨by simp [matchedValues, reg, e], ?_⟩
          rw [List.lookup_cons, no]
          exact lookup_filter_ne (Ne.symm e)

/-- A name about the framing is in the map with the value of the one line matched under it. -/
lemma foldlM_addHeader (framing : Framing name) (h : ls.foldlM addHeader headers = some headers') :
    (∃ value, matchedValues name ls = [value] ∧ headers.lookup name = none ∧
      headers'.lookup name = some value) ∨
    (matchedValues name ls = [] ∧ headers'.lookup name = headers.lookup name) := by
  induction ls generalizing headers with
  | nil =>
    cases h
    exact .inr ⟨rfl, rfl⟩
  | cons line ls ih =>
    rw [List.foldlM_cons] at h
    obtain ⟨mid, first, rest⟩ := Option.bind_eq_some_iff.mp h
    have front : matchedValues name (line :: ls) = matchedValues name [line] ++ matchedValues name ls :=
      List.filterMap_append (l := [line])
    rw [front]
    -- once the name is in the map, no later line can have it
    rcases addHeader_cases framing first with ⟨value, one, new, there⟩ | ⟨none, same⟩
    · rcases ih rest with ⟨_, -, absent, -⟩ | ⟨nil, same⟩
      · rw [there] at absent
        cases absent
      · exact .inl ⟨value, by rw [one, nil]; rfl, new, same.trans there⟩
    · rcases ih rest with ⟨value, one, absent, there⟩ | ⟨nil, same'⟩
      · exact .inl ⟨value, by rw [none, one]; rfl, same ▸ absent, there⟩
      · exact .inr ⟨by rw [none, nil]; rfl, same'.trans same⟩

/-- A value is that of a line with the name that is matched. -/
lemma mem_matchedValues {value : Bytes} (plain : trim name = name) (mem : value ∈ matchedValues name ls) :
    ∃ l ∈ ls.map trim, fieldName l = some name ∧ Matched l := by
  obtain ⟨line, mem', e⟩ := List.mem_filterMap.mp mem
  obtain ⟨⟨raw, v⟩, reg, e⟩ := Option.bind_eq_some_iff.mp e
  dsimp only at e
  split at e
  · rename_i same
    have named : fieldName (trim line) = some name := by
      rw [(httpHeaderLineReg_eq reg).1, same, plain]
    refine ⟨trim line, List.mem_map_of_mem mem', named, ?_⟩
    rw [Matched, reg, named, ← same]
    rfl
  · cases e

/-- Where the lines with the name are matched, the values are theirs. -/
lemma matchedValues_eq (plain : trim name = name)
    (visible : ∀ l ∈ ls.map trim, fieldName l = some name → Matched l) :
    matchedValues name ls = ((ls.map trim).filter fun l => fieldName l = some name).map lineValue := by
  induction ls with
  | nil => rfl
  | cons line ls ih =>
    rw [List.map_cons, List.forall_mem_cons] at visible
    have tail := ih visible.2
    rw [List.map_cons, List.filter_cons]
    by_cases named : fieldName (trim line) = some name
    · have matched := visible.1 named
      rw [Matched, named] at matched
      obtain ⟨⟨raw, v⟩, reg, same⟩ := Option.map_eq_some_iff.mp matched
      have value : trim v = lineValue (trim line) := (httpHeaderLineReg_eq reg).2
      rw [matchedValues, List.filterMap_cons_some (b := lineValue (trim line)), if_pos (by simpa using named),
        List.map_cons, ← tail]
      · rfl
      · rw [reg, ← value]
        exact if_pos same
    · rw [matchedValues, List.filterMap_cons_none, if_neg (by simpa using named), ← tail]
      · rfl
      · rw [Option.bind_eq_none_iff]
        rintro ⟨raw, v⟩ reg
        refine if_neg fun same => named ?_
        rw [(httpHeaderLineReg_eq reg).1, same, plain]

end Headers

/-! ## Blocks -/

section Blocks
variable {asInteger : Bytes → Option Int} {headersRaw : Bytes} {m : Meta}

/-- What is announced for a block that is taken. -/
lemma parseResponseHeaders_spec (h : parseResponseHeaders asInteger headersRaw = some m) :
    (matchedValues (bytes "content-length") (split '\n' headersRaw).tail = [] ∧ m.contentLength = -1 ∨
      ∃ value, matchedValues (bytes "content-length") (split '\n' headersRaw).tail = [value] ∧
        asInteger value = some m.contentLength ∧ 0 ≤ m.contentLength ∧
        m.contentLength ≤ httpMaxBodySize) ∧
    (matchedValues (bytes "transfer-encoding") (split '\n' headersRaw).tail = [] ∧ m.isChunked = false ∨
      ∃ value, matchedValues (bytes "transfer-encoding") (split '\n' headersRaw).tail = [value] ∧
        m.isChunked = true ∧ lastCoding value = some (bytes "chunked")) ∧
    (matchedValues (bytes "content-length") (split '\n' headersRaw).tail = [] ∨ m.isChunked = false) := by
  unfold parseResponseHeaders at h
  split at h
  · cases h
  · rename_i statusLine ls lines
    obtain ⟨code, -, h⟩ := Option.bind_eq_some_iff.mp h
    obtain ⟨headers, fold, h⟩ := Option.bind_eq_some_iff.mp h
    obtain ⟨contentLength, length, h⟩ := Option.bind_eq_some_iff.mp h
    obtain ⟨isChunked, chunks, h⟩ := Option.bind_eq_some_iff.mp h
    rw [lines, List.tail_cons]
    have atLength := foldlM_addHeader (.inl rfl) fold
    have atChunks := foldlM_addHeader (.inr rfl) fold
    have noLength : matchedValues (bytes "content-length") ls = [] ↔
        headers.lookup (bytes "content-length") = none := by
      rcases atLength with ⟨value, one, -, there⟩ | ⟨nil, same⟩
      · simp [one, there]
      · simp [nil, same]
    split at h
    · cases h
    · rename_i both
      cases h
      refine ⟨?_, ?_, ?_⟩
      · unfold announcedLength at length
        rcases atLength with ⟨value, one, -, there⟩ | ⟨nil, same⟩
        · rw [there] at length
          dsimp only at length
          split at length
          · cases length
          · rename_i n number
            split at length
            · cases length
            · rename_i range
              cases length
              obtain ⟨low, high⟩ := not_or.mp range
              exact .inr ⟨value, one, number, Int.not_lt.mp low, Int.not_lt.mp high⟩
        · rw [same] at length
          cases length
          exact .inl ⟨nil, rfl⟩
      · unfold announcedChunks at chunks
        rcases atChunks with ⟨value, one, -, there⟩ | ⟨nil, same⟩
        · rw [there] at chunks
          dsimp only at chunks
          split at chunks
          · cases chunks
          · rename_i last found
            split at chunks
            · rename_i chunked
              cases chunks
              exact .inr ⟨value, one, rfl, by rw [lastCoding, found, ← chunked]; rfl⟩
            · cases chunks
        · rw [same] at chunks
          cases chunks
          exact .inl ⟨nil, rfl⟩
      · rw [noLength]
        cases isChunked with
        | false => exact .inr rfl
        | true =>
          rw [Bool.true_and, Option.not_isSome_iff_eq_none] at both
          exact .inl both

end Blocks

/-- What is announced for a block that is taken is what its lines say exactly when the lines about the
framing are matched under their names. -/
theorem framing_unambiguous_iff (asInteger : Bytes → Option Int) (headersRaw : Bytes) (m : Meta)
    (h : parseResponseHeaders asInteger headersRaw = some m) :
    Unambiguous asInteger headersRaw m ↔ Visible headersRaw := by
  obtain ⟨lengths, codings, one⟩ := parseResponseHeaders_spec h
  constructor
  · intro u l mem about
    obtain ⟨name, named, framing⟩ : ∃ name, fieldName l = some name ∧ Framing name :=
      about.elim (fun named => ⟨_, named, .inl rfl⟩) fun named => ⟨_, named, .inr rfl⟩
    have here : l ∈ namedLines name headersRaw := List.mem_filter.mpr ⟨mem, by simpa using named⟩
    -- a line that is matched under the name is this one, for there is no other one
    have found : ∀ value, (namedLines name headersRaw).length ≤ 1 → trim name = name →
        value ∈ matchedValues name (split '\n' headersRaw).tail → Matched l := by
      intro value few plain mem'
      obtain ⟨k, memk, namedk, matched⟩ := mem_matchedValues plain mem'
      have there : k ∈ namedLines name headersRaw := List.mem_filter.mpr ⟨memk, by simpa using namedk⟩
      obtain ⟨x, only⟩ := List.length_eq_one_iff.mp (few.antisymm (List.length_pos_of_mem here))
      rw [only, List.mem_singleton] at here there
      rw [here, ← there]
      exact matched
    rcases framing with rfl | rfl
    · rcases lengths with ⟨-, absent⟩ | ⟨value, only, -⟩
      · rw [u.absent.mp absent] at here
        cases here
      · exact found value u.lengths (by decide) (by simp [only])
    · rcases codings with ⟨-, off⟩ | ⟨value, only, -⟩
      · rw [u.chunked.mpr (List.ne_nil_of_mem here)] at off
        cases off
      · exact found value u.codings (by decide) (by simp [only])
  · intro visible
    have lines : ∀ name, Framing name → trim name = name →
        matchedValues name (split '\n' headersRaw).tail = (namedLines name headersRaw).map lineValue := by
      intro name framing plain
      refine matchedValues_eq plain fun l mem named => visible l mem ?_
      rcases framing with rfl | rfl
      · exact .inl named
      · exact .inr named
    rw [lines _ (.inl rfl) (by decide)] at lengths one
    rw [lines _ (.inr rfl) (by decide)] at codings
    refine ⟨?_, ?_, ?_, ?_, ?_, ?_, ?_⟩
    · rcases lengths with ⟨nil, -⟩ | ⟨value, only, -⟩
      · simp [List.map_eq_nil_iff.mp nil]
      · simpa using (congrArg List.length only).le
    · rcases codings with ⟨nil, -⟩ | ⟨value, only, -⟩
      · simp [List.map_eq_nil_iff.mp nil]
      · simpa using (congrArg List.length only).le
    · refine one.imp List.map_eq_nil_iff.mp fun off => ?_
      rcases codings with ⟨nil, -⟩ | ⟨value, -, chunked, -⟩
      · exact List.map_eq_nil_iff.mp nil
      · rw [off] at chunked
        cases chunked
    · rcases codings with ⟨nil, off⟩ | ⟨value, only, chunked, -⟩
      · simp [off, List.map_eq_nil_iff.mp nil]
      · refine ⟨fun _ nil => ?_, fun _ => chunked⟩
        simp [nil] at only
    · intro l mem
      rcases codings with ⟨nil, -⟩ | ⟨value, only, -, last⟩
      · rw [List.map_eq_nil_iff.mp nil] at mem
        cases mem
      · have here : lineValue l ∈ [value] := only ▸ List.mem_map_of_mem mem
        rw [List.mem_singleton.mp here]
        exact last
    · intro l mem
      rcases lengths with ⟨nil, -⟩ | ⟨value, only, number⟩
      · rw [List.map_eq_nil_iff.mp nil] at mem
        cases mem
      · have here : lineValue l ∈ [value] := only ▸ List.mem_map_of_mem mem
        rw [List.mem_singleton.mp here]
        exact number
    · rcases lengths with ⟨nil, absent⟩ | ⟨value, only, -, low, -⟩
      · simp [absent, List.map_eq_nil_iff.mp nil]
      · refine ⟨fun absent => by omega, fun nil => ?_⟩
        simp [nil] at only

/-- A block with a length, and one without. -/
theorem framing_unambiguous_ok :
    ∃ m, parseResponseHeaders unsignedInteger
        (bytes "HTTP/1.1 200 OK\r\nContent-Type: text/html\r\nCONTENT-LENGTH:  4 \r\n\r\n") = some m ∧
      m.contentLength = 4 ∧
      Unambiguous unsignedInteger
        (bytes "HTTP/1.1 200 OK\r\nContent-Type: text/html\r\nCONTENT-LENGTH:  4 \r\n\r\n") m := by
  have h : ∃ m, parseResponseHeaders unsignedInteger
      (bytes "HTTP/1.1 200 OK\r\nContent-Type: text/html\r\nCONTENT-LENGTH:  4 \r\n\r\n") = some m ∧
        m.contentLength = 4 := ⟨_, rfl, rfl⟩
  obtain ⟨m, h, four⟩ := h
  exact ⟨m, h, four, (framing_unambiguous_iff unsignedInteger _ m h).mpr (by decide +kernel)⟩

/-- A transfer coding with a space before its colon is not seen. -/
theorem framing_hides_coding :
    ¬ ∀ (asInteger : Bytes → Option Int) (headersRaw : Bytes) (m : Meta),
      parseResponseHeaders asInteger headersRaw = some m → Unambiguous asInteger headersRaw m := by
  intro claim
  have h : ∃ m, parseResponseHeaders unsignedInteger
      (bytes "HTTP/1.1 200 OK\r\nTransfer-Encoding : chunked\r\n\r\n") = some m ∧ m.isChunked = false :=
    ⟨_, rfl, rfl⟩
  obtain ⟨m, h, off⟩ := h
  have there := (claim unsignedInteger _ m h).chunked.mpr (by decide +kernel)
  rw [off] at there
  cases there

end CovNet.Client
