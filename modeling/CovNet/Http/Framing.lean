import CovNet.Http.Reader
import Mathlib.Data.List.TakeWhile

/-!
# Framing of requests

Where a request ends is agreed between the two ends of a connection: the header block ends at the
first blank line, and the body has the length its header announces. `Aligned` says that the session a
call returns is framed that way, with the names of header lines trimmed and lower-cased.

The reader trims every line, and takes a header line under its lower-cased name only. So a line of
spaces ends the block early, and a header whose name has a space before its colon, or whose value has
a stray line break, is not taken under its name. `readHttpHeader_aligned_iff` says that nothing else
goes wrong.
-/

namespace CovNet.Http
open Lib Text Async

/-- A line with text on it. -/
def nonblank (l : Bytes) : Bool := !(trim l).isEmpty

/-- The header lines of a request behind its request line, without the spaces around them. -/
def fieldLines (s : Bytes) : List Bytes := ((lines s).takeWhile nonblank).tail.map trim

/-- The line that ends the header block. -/
def blankLine (s : Bytes) : Option Bytes := ((lines s).dropWhile nonblank).head?

/-- The name of a header line, trimmed and lower-cased. -/
def fieldName (l : Bytes) : Option Bytes :=
  if ':' ∈ l then some (tolower (trim (l.takeWhile (· != ':')))) else none

/-- The value of a header line. -/
def fieldValue (l : Bytes) : Bytes := headerValue (l.dropWhile (· != ':')).tail

/-- The header lines that announce a length. -/
def lengthLines (s : Bytes) : List Bytes :=
  (fieldLines s).filter fun l => fieldName l = some (bytes "content-length")

/-- A call that found the stream `s` and left `rest` returned a session that is framed as both ends
agree. -/
structure Aligned (asInteger : Bytes → Option Int) (s : Bytes) (session : Session) (rest : Bytes) :
    Prop where
  /-- The header block ends at the first blank line. -/
  block : ∃ head body, cut (crlf ++ crlf) s = some (head, body) ∧
    s = head ++ (session.postData.getD [] ++ rest)
  /-- No line names a transfer coding. -/
  coding : ∀ l ∈ fieldLines s, fieldName l ≠ some (bytes "transfer-encoding")
  /-- At most one line announces a length, and that is the length of the session. -/
  length : lengthLines s = [] ∧ session.contentLength = none ∨
    ∃ l n, lengthLines s = [l] ∧ asInteger (fieldValue l) = some n ∧
      session.contentLength = some n

/-- A line that is taken under its name. -/
def Taken (l : Bytes) : Prop := (header l).map Prod.fst = fieldName l

instance (l : Bytes) : Decidable (Taken l) := inferInstanceAs (Decidable (_ = _))

/-- The block ends in a line that is blank to everyone, and the lines about the framing are taken
under their names. -/
def Plainly (s : Bytes) : Prop :=
  blankLine s = some [] ∧ ∀ l ∈ fieldLines s,
    fieldName l = some (bytes "transfer-encoding") ∨ fieldName l = some (bytes "content-length") →
      Taken l

instance (s : Bytes) : Decidable (Plainly s) := inferInstanceAs (Decidable (_ ∧ _))

/-! ## Names and values -/

section Names
variable {l name value : Bytes}

/-- A line is taken under the lower-cased text before its colon. -/
lemma header_eq (h : header l = some (name, value)) :
    fieldName l = some (trim name) ∧ value = fieldValue l := by
  obtain ⟨⟨raw, v⟩, hreg, e⟩ := Option.map_eq_some_iff.mp h
  cases e
  unfold requestHeaderReg at hreg
  split at hreg
  · rename_i rest hd
    split at hreg
    · cases hreg
      have colon : ':' ∈ l := mem_of_dropWhile_ne hd
      refine ⟨?_, by simp [fieldValue, hd]⟩
      rw [fieldName, if_pos colon, tolower_trim]
    · cases hreg
  · cases hreg

/-- So a line taken under a name without spaces around it has that name. -/
lemma fieldName_of_header (h : header l = some (name, value)) (ht : trim name = name) :
    fieldName l = some name := by
  rw [(header_eq h).1, ht]

/-- A line taken under its name has it in its header. -/
lemma Taken.header_eq (h : Taken l) (hn : fieldName l = some name) :
    header l = some (name, fieldValue l) := by
  rw [Taken, hn] at h
  obtain ⟨⟨n, v⟩, hh, e⟩ := Option.map_eq_some_iff.mp h
  cases e
  rw [hh, (Http.header_eq hh).2]

end Names

/-! ## The header block -/

section Block

/-- A text in which no line break ends early. -/
def OneLine (l : Bytes) : Prop := find crlf (l ++ crlf) = some l.length

/-- Lines, each with its break. -/
def joinLines (ls : List Bytes) : Bytes := ls.flatMap (· ++ crlf)

@[simp] lemma joinLines_nil : joinLines [] = [] := rfl

@[simp] lemma joinLines_cons (l : Bytes) (ls : List Bytes) :
    joinLines (l :: ls) = l ++ crlf ++ joinLines ls := by
  simp [joinLines]

lemma oneLine_of_cut {s l rest : Bytes} (h : cut crlf s = some (l ++ crlf, rest)) : OneLine l := by
  obtain ⟨i, hi, e⟩ := Option.map_eq_some_iff.mp (cut_self h)
  have len := congrArg (List.length ∘ Prod.fst) e
  have le := find_le hi
  simp only [Function.comp_apply, List.length_take, List.length_append] at len le
  have eq : i = l.length := by omega
  rw [OneLine, hi, eq]

/-- A line break does not start within a line. -/
lemma OneLine.no_break {l : Bytes} (h : OneLine l) {j : Nat} (lt : j < l.length) (t : Bytes) :
    ¬ crlf <+: (l ++ crlf ++ t).drop j :=
  (find_spec (find_append (t := t) h)).2 j lt

/-- A line is cut off with its break. -/
lemma OneLine.cut {l : Bytes} (h : OneLine l) (s : Bytes) :
    cut crlf (l ++ crlf ++ s) = some (l ++ crlf, s) := by
  have found : find crlf (l ++ crlf ++ s) = some l.length := find_append h
  have len : l.length + crlf.length = (l ++ crlf).length := by rw [List.length_append]
  rw [Lib.cut, found, Option.map_some, len, List.take_left, List.drop_left]

/-- Trimming takes the line break. -/
lemma trim_append_crlf (l : Bytes) : trim (l ++ crlf) = trim l := by
  unfold trim
  by_cases blank : ∀ c ∈ l, isSpace c = true
  · have h1 : l.dropWhile isSpace = [] := by simpa using blank
    have h2 : (l ++ crlf).dropWhile isSpace = [] := by
      rw [List.dropWhile_append, h1]
      rfl
    rw [h1, h2]
  · have h1 : l.dropWhile isSpace ≠ [] := by simpa using blank
    rw [List.dropWhile_append, if_neg (by simpa using h1), List.reverse_append]
    rfl

/-- What the header loop of the parser takes off a stream. -/
lemma parseLines_spec {ending : Ending} {headerSize : Nat} {header header' : List Bytes}
    {s rest : Bytes} (h : parseLines ending headerSize header s = .ok (header', rest)) :
    ∃ ls last, header' = header ++ ls.map trim ∧ s = joinLines ls ++ last ++ crlf ++ rest ∧
      lines s = ls ++ last :: lines rest ∧ (∀ l ∈ ls, nonblank l = true ∧ OneLine l) ∧
      nonblank last = false ∧ OneLine last := by
  induction hn : s.length using Nat.strong_induction_on generalizing s headerSize header with
  | _ n ih =>
    subst hn
    cases e : cut crlf s with
    | none =>
      rw [parseLines_none e] at h
      cases h
    | some p =>
      obtain ⟨raw, s'⟩ := p
      obtain ⟨l, rfl, hlines⟩ := lines_cut e
      obtain ⟨hs, -⟩ := cut_spec e
      rw [parseLines_some e, trim_append_crlf] at h
      split at h
      · cases h
      · split at h
        · rename_i blank
          cases h
          refine ⟨[], l, by simp, by simpa using hs, by simpa using hlines, by simp, ?_,
            oneLine_of_cut e⟩
          simp [nonblank, blank]
        · rename_i text
          obtain ⟨ls, last, hh, hs', hl', hne, hb, ho⟩ :=
            ih s'.length (cut_length_lt e (by decide)) h rfl
          refine ⟨l :: ls, last, by simp [hh], ?_, by simp [hlines, hl'], ?_, hb, ho⟩
          · rw [joinLines_cons, hs, hs']
            simp
          · rw [List.forall_mem_cons]
            exact ⟨⟨by simpa [nonblank] using text, oneLine_of_cut e⟩, hne⟩

/-- The first blank line behind lines with text on them. -/
lemma cut_blank {ls : List Bytes} (ne : ls ≠ []) (h : ∀ l ∈ ls, nonblank l = true ∧ OneLine l)
    (t : Bytes) : cut (crlf ++ crlf) (joinLines ls ++ crlf ++ t) = some (joinLines ls ++ crlf, t) := by
  suffices go : find (crlf ++ crlf) (joinLines ls ++ crlf ++ t) = some ((joinLines ls).length - 2) ∧
      2 ≤ (joinLines ls).length by
    have e : (joinLines ls).length - 2 + (crlf ++ crlf).length = (joinLines ls ++ crlf).length := by
      have hc : crlf.length = 2 := rfl
      simp only [List.length_append]
      omega
    simp only [cut, go.1, Option.map_some, e]
    rw [List.take_left, List.drop_left]
  have hc : crlf.length = 2 := rfl
  induction ls with
  | nil => exact absurd rfl ne
  | cons l ls ih =>
    obtain ⟨-, one⟩ := h l (by simp)
    have len : 2 ≤ (joinLines (l :: ls)).length := by
      simp only [joinLines_cons, List.length_append]
      omega
    refine ⟨?_, len⟩
    -- no break starts within the line
    have within : ∀ u j, j < l.length → ¬ crlf ++ crlf <+: (l ++ crlf ++ u).drop j := by
      intro u j lt pre
      exact one.no_break lt u ((List.prefix_append crlf crlf).trans pre)
    have drop : ∀ u k, (l ++ crlf ++ u).drop (l.length + 2 + k) = u.drop k := by
      intro u k
      rw [← List.drop_drop, ← hc, ← List.length_append, List.drop_left]
    rcases ls with _ | ⟨l', ls⟩
    · have e : joinLines [l] ++ crlf ++ t = l ++ crlf ++ (crlf ++ t) := by simp
      rw [e]
      apply find_of_first
      · refine ⟨t, ?_⟩
        simp only [joinLines_cons, joinLines_nil, List.append_nil, List.length_append, hc,
          Nat.add_sub_cancel, List.append_assoc, List.drop_left]
      · simp only [joinLines_cons, joinLines_nil, List.append_nil, List.length_append]
        omega
      · intro j lt
        apply within
        simp only [joinLines_cons, joinLines_nil, List.append_nil, List.length_append] at lt
        omega
    · obtain ⟨hfind, hlen⟩ := ih (by simp) fun k hk => h k (by simp [hk])
      obtain ⟨text, one'⟩ := h l' (by simp)
      have pos : 0 < l'.length := by
        rw [List.length_pos_iff]
        rintro rfl
        simp [nonblank, trim] at text
      have e : joinLines (l :: l' :: ls) ++ crlf ++ t =
          l ++ crlf ++ (joinLines (l' :: ls) ++ crlf ++ t) := by simp
      have hi : (joinLines (l :: l' :: ls)).length - 2 =
          l.length + 2 + ((joinLines (l' :: ls)).length - 2) := by
        rw [joinLines_cons l (l' :: ls), List.length_append, List.length_append]
        omega
      obtain ⟨pre, first⟩ := find_spec hfind
      rw [e, hi]
      apply find_of_first
      · rw [drop]
        exact pre
      · have le := find_le hfind
        simp only [List.length_append] at le ⊢
        omega
      · intro j lt
        rcases Nat.lt_or_ge j l.length with lt' | ge
        · exact within _ _ lt'
        · obtain ⟨k, rfl⟩ := Nat.exists_eq_add_of_le ge
          rw [List.append_assoc, ← List.drop_drop, List.drop_left]
          rcases k with _ | _ | k
          · -- the next line has text on it
            intro p
            have p' : crlf <+: (l' ++ crlf ++ (joinLines ls ++ crlf ++ t)).drop 0 := by
              have := (List.prefix_append_right_inj crlf).mp (by simpa using p)
              simpa using this
            exact one'.no_break pos _ p'
          · intro p
            simp [crlf] at p
          · have := first k (by omega)
            simpa [crlf] using this

/-- A block that ends in two line breaks ends in a line without spaces. -/
lemma eq_nil_of_suffix {ls : List Bytes} {last : Bytes} (one : OneLine last)
    (h : crlf ++ crlf <:+ joinLines ls ++ last ++ crlf) : last = [] := by
  obtain ⟨t, e⟩ := h
  rw [← List.append_assoc] at e
  have e' : t ++ ['\r'] ++ ['\n'] = joinLines ls ++ last := by
    simpa [crlf] using (List.append_inj' e rfl).1
  rcases List.eq_nil_or_concat last with rfl | ⟨l, c, rfl⟩
  · rfl
  · exfalso
    rw [List.concat_eq_append, ← List.append_assoc] at e'
    obtain ⟨e1, e2⟩ := List.append_inj' e' rfl
    obtain rfl : '\n' = c := by simpa using e2
    rcases List.eq_nil_or_concat l with rfl | ⟨l, d, rfl⟩
    · -- what is before the last line ends in a break, or is nothing
      rw [List.append_nil] at e1
      rcases List.eq_nil_or_concat ls with rfl | ⟨ks, k, rfl⟩
      · simp at e1
      · have e3 : t ++ ['\r'] = joinLines ks ++ k ++ ['\r'] ++ ['\n'] := by
          simpa [joinLines, crlf] using e1
        have := (List.append_inj' e3 rfl).2
        simp at this
    · -- the last line would have a break of its own
      rw [List.concat_eq_append, ← List.append_assoc] at e1
      obtain rfl : '\r' = d := by simpa using (List.append_inj' e1 rfl).2
      apply one.no_break (j := l.length) (by simp) []
      exact ⟨crlf, by simp [crlf]⟩

end Block

/-! ## Requests -/

section Request
variable {asInteger : Bytes → Option Int} {maxBodySize : Int} {ending : Ending} {s rest : Bytes}
  {session : Session}

/-- A request the parser takes: its lines, the blank line and the body, and the session made of the
lines. -/
lemma parseRequest_spec (h : parseRequest asInteger maxBodySize ending s = .ok (session, rest)) :
    ∃ requestLine ls last made, createHttpSession asInteger ((requestLine :: ls).map trim) = some made ∧
      session = { made with postData := session.postData } ∧
      s = joinLines (requestLine :: ls) ++ last ++ crlf ++ (session.postData.getD [] ++ rest) ∧
      (lines s).takeWhile nonblank = requestLine :: ls ∧ blankLine s = some last ∧
      (∀ l ∈ requestLine :: ls, nonblank l = true ∧ OneLine l) ∧ OneLine last := by
  unfold parseRequest at h
  cases hl : parseLines ending 0 [] s with
  | error stop =>
    simp only [hl] at h
    cases h
  | ok p =>
    obtain ⟨header, s'⟩ := p
    obtain ⟨ls, last, hh, hs, hlines, hne, hb, ho⟩ := parseLines_spec hl
    rw [List.nil_append] at hh
    subst hh
    simp only [hl] at h
    split at h
    · cases h
    · rename_i ne
      obtain ⟨requestLine, ls, rfl⟩ := List.exists_cons_of_ne_nil (l := ls) (by simpa using ne)
      have ht : (lines s).takeWhile nonblank = requestLine :: ls := by
        rw [hlines, List.takeWhile_append_of_pos fun l hl => (hne l hl).1, List.takeWhile_cons, hb]
        simp
      have hd : blankLine s = some last := by
        rw [blankLine, hlines, List.dropWhile_append_of_pos fun l hl => (hne l hl).1,
          List.dropWhile_cons, hb]
        simp
      cases hm : createHttpSession asInteger ((requestLine :: ls).map trim) with
      | none =>
        simp only [hm] at h
        cases h
      | some made =>
        have noBody := (createHttpSession_text hm).2.2
        refine ⟨requestLine, ls, last, made, hm, ?_⟩
        -- the lines are settled; what remains is how the body is taken
        suffices done : session = { made with postData := session.postData } ∧
            s' = session.postData.getD [] ++ rest by
          exact ⟨done.1, done.2 ▸ hs, ht, hd, hne, ho⟩
        simp only [hm] at h
        cases hc : made.contentLength with
        | none =>
          simp only [hc] at h
          cases h
          exact ⟨by rw [← hc], by simp [noBody]⟩
        | some n =>
          simp only [hc] at h
          split at h
          · cases h
          · split at h
            · cases hp : parsePostData ending n.toNat s' with
              | error stop =>
                simp only [hp] at h
                cases h
              | ok q =>
                obtain ⟨postData, s''⟩ := q
                simp only [hp] at h
                cases h
                refine ⟨rfl, ?_⟩
                unfold parsePostData at hp
                split at hp
                · cases hp
                  exact (List.take_append_drop _ _).symm
                · cases hp
            · cases h
              exact ⟨by rw [← hc], by simp [noBody]⟩

lemma mem_contentLengths {ls : List Bytes} {value : Bytes} :
    value ∈ contentLengths ls ↔ ∃ l ∈ ls, header l = some (bytes "content-length", value) := by
  simp only [contentLengths, List.mem_filterMap, Option.bind_eq_some_iff, Prod.exists,
    Option.ite_none_right_eq_some, Option.some.injEq]
  constructor
  · rintro ⟨l, hl, name, v, hh, rfl, rfl⟩
    exact ⟨l, hl, hh⟩
  · rintro ⟨l, hl, hh⟩
    exact ⟨l, hl, _, _, hh, rfl, rfl⟩

/-- If the lines with a length are taken under their names, their values are the lengths found. -/
lemma contentLengths_eq {ls : List Bytes}
    (taken : ∀ l ∈ ls, fieldName l = some (bytes "content-length") → Taken l) :
    contentLengths ls = (ls.filter fun l => fieldName l = some (bytes "content-length")).map
      fieldValue := by
  induction ls with
  | nil => rfl
  | cons l ls ih =>
    have tail := ih fun k hk => taken k (by simp [hk])
    by_cases hn : fieldName l = some (bytes "content-length")
    · have hh := (taken l (by simp) hn).header_eq hn
      rw [contentLengths_cons_of_eq hh, tail]
      simp [hn]
    · have no : ∀ value, header l ≠ some (bytes "content-length", value) :=
        fun value hh => hn (fieldName_of_header hh (by decide))
      rw [contentLengths_cons_of_ne no, tail]
      simp [hn]

/-- The block ends where both ends say exactly when its last line has no spaces on it. -/
lemma block_iff {ls : List Bytes} {requestLine last body : Bytes}
    (hs : s = joinLines (requestLine :: ls) ++ last ++ crlf ++ body)
    (hne : ∀ l ∈ requestLine :: ls, nonblank l = true ∧ OneLine l) (one : OneLine last) :
    (∃ head after, cut (crlf ++ crlf) s = some (head, after) ∧ s = head ++ body) ↔ last = [] := by
  constructor
  · rintro ⟨head, after, hc, e⟩
    have eh : head = joinLines (requestLine :: ls) ++ last ++ crlf :=
      List.append_cancel_right (e.symm.trans hs)
    have suf := (cut_spec hc).2
    rw [eh] at suf
    exact eq_nil_of_suffix one suf
  · rintro rfl
    rw [List.append_nil] at hs
    exact ⟨_, _, by rw [hs]; exact cut_blank (by simp) hne body, hs⟩

/-- The lines about the framing are taken under their names exactly when the session says what they
say. -/
lemma framing_iff {requestLine : Bytes} {fields : List Bytes} {made : Session}
    (hm : createHttpSession asInteger (requestLine :: fields) = some made) :
    (∀ l ∈ fields, fieldName l = some (bytes "transfer-encoding") ∨
        fieldName l = some (bytes "content-length") → Taken l) ↔
      (∀ l ∈ fields, fieldName l ≠ some (bytes "transfer-encoding")) ∧
      ((fields.filter fun l => fieldName l = some (bytes "content-length")) = [] ∧
          made.contentLength = none ∨
        ∃ l n, (fields.filter fun l => fieldName l = some (bytes "content-length")) = [l] ∧
          asInteger (fieldValue l) = some n ∧ made.contentLength = some n) := by
  obtain ⟨noTe, lengths⟩ := createHttpSession_framing hm
  constructor
  · intro taken
    refine ⟨fun l hl hn => ?_, ?_⟩
    · exact noTe l hl _ ((taken l hl (.inl hn)).header_eq hn)
    · rw [contentLengths_eq fun l hl hn => taken l hl (.inr hn)] at lengths
      rcases lengths with ⟨nil, e⟩ | ⟨value, n, one, hi, -, -, e⟩
      · exact .inl ⟨List.map_eq_nil_iff.mp nil, e⟩
      · obtain ⟨l, hl, rfl⟩ := List.map_eq_singleton_iff.mp one
        exact .inr ⟨l, n, hl, hi, e⟩
  · rintro ⟨noName, lines⟩ l hl (hn | hn)
    · exact absurd hn (noName l hl)
    · have mem : l ∈ fields.filter fun l => fieldName l = some (bytes "content-length") := by
        simp [hl, hn]
      rcases lines with ⟨nil, -⟩ | ⟨l', n, one, -, e⟩
      · rw [nil] at mem
        cases mem
      · -- the one length the session has comes from a line taken under that name
        rcases lengths with ⟨-, e'⟩ | ⟨value, -, hv, -⟩
        · simp [e] at e'
        · obtain ⟨k, hk, hh⟩ := mem_contentLengths.mp (hv ▸ List.mem_singleton_self value)
          have hkn := fieldName_of_header hh (by decide)
          have memk : k ∈ fields.filter fun l => fieldName l = some (bytes "content-length") := by
            simp [hk, hkn]
          rw [one, List.mem_singleton] at mem memk
          subst mem memk
          rw [Taken, hh, hkn]
          rfl

/-- A session the reader returns is framed as both ends agree exactly when the block ends in a line
without spaces and the lines about the framing are taken under their names. -/
theorem readHttpHeader_aligned_iff (asInteger : Bytes → Option Int) (maxBodySize : Int)
    (late : Nat → Bool) (sock sock' : Socket) (st st' : State) (session : Session)
    (h : readHttpHeader asInteger maxBodySize late sock st = .ok (session, sock', st')) :
    Aligned asInteger (unread sock st) session (unread sock' st') ↔ Plainly (unread sock st) := by
  obtain ⟨requestLine, ls, last, made, hm, eq, hs, ht, hb, hne, one⟩ := parseRequest_spec (readHttpHeader_parses h)
  have hcl : session.contentLength = made.contentLength := by rw [eq]
  have hf : fieldLines (unread sock st) = ls.map trim := by
    rw [fieldLines, ht]
    rfl
  have blank : blankLine (unread sock st) = some [] ↔ last = [] := by
    rw [hb, Option.some.injEq]
  rw [Plainly, blank, hf, framing_iff hm, ← hcl,
    ← block_iff hs hne one]
  constructor
  · rintro ⟨block, coding, length⟩
    rw [hf] at coding
    rw [lengthLines, hf] at length
    exact ⟨block, coding, length⟩
  · rintro ⟨block, coding, length⟩
    rw [← hf] at coding length
    exact ⟨block, coding, length⟩

/-- A conversion that knows a few numbers. -/
def someInteger (s : Bytes) : Option Int :=
  if s = bytes "0" then some 0 else if s = bytes "5" then some 5 else none

/-- A request with a body is framed as both ends agree. -/
theorem readHttpHeader_aligned_post :
    ∃ session sock' st', readHttpHeader someInteger 100 (fun _ => false)
        ⟨[bytes "POST / HTTP/1.1\r\nContent-Length: 5\r\n\r", bytes "\nhelloGET"], .eof⟩ State.new =
          .ok (session, sock', st') ∧
      Aligned someInteger (bytes "POST / HTTP/1.1\r\nContent-Length: 5\r\n\r\nhelloGET") session
        (unread sock' st') := by
  have h : ∃ session sock' st', readHttpHeader someInteger 100 (fun _ => false)
      ⟨[bytes "POST / HTTP/1.1\r\nContent-Length: 5\r\n\r", bytes "\nhelloGET"], .eof⟩ State.new =
        .ok (session, sock', st') := ⟨_, _, _, rfl⟩
  obtain ⟨session, sock', st', h⟩ := h
  exact ⟨session, sock', st', h, (readHttpHeader_aligned_iff someInteger 100 _ _ _ _ _ _ h).mpr
    (by decide)⟩

/-- A transfer coding whose name has a space before its colon is passed over. -/
theorem readHttpHeader_passes_coding :
    ¬ ∀ (asInteger : Bytes → Option Int) (maxBodySize : Int) (late : Nat → Bool)
        (sock sock' : Socket) (st st' : State) (session : Session),
      readHttpHeader asInteger maxBodySize late sock st = .ok (session, sock', st') →
        Aligned asInteger (unread sock st) session (unread sock' st') := by
  intro h
  have al := h someInteger 100 (fun _ => false)
    ⟨[bytes "POST / HTTP/1.1\r\nTransfer-Encoding : chunked\r\n\r\n0\r\n\r\n"], .eof⟩ _ State.new
    _ _ rfl
  exact absurd (al.coding (bytes "Transfer-Encoding : chunked") (by decide)) (by decide)

end Request

end CovNet.Http
