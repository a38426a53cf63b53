import CovNet.Lib.Grouping
import CovNet.Text.Bytes

/-!
# TLS options

`parse_ssl_options` (`network.cpp`): the options a script passes to `connect_ssl`, null or a `hash_map`, become
`ssl_options`. The entries of the map come in the order of the hash table.

An entry sets a field that no other entry sets, so after any entries the fields are those that the table says
(`fieldsOf`, `foldlM_readOption`). What is accepted, and as which options, does not depend on the order
(`parseSslOptions_perm`).
-/

namespace CovNet.Tls
open Lib Text

/-- A value of the script language, as far as the options tell them apart. -/
inductive Value where
  | void
  /-- A pointer, and the object it leads to. -/
  | pointer (target : Option Nat)
  | string (val : Bytes)
  /-- A value of another type. -/
  | other (val : Nat)
  deriving DecidableEq, Repr

/-- An entry of a `hash_map`. -/
abbrev Entry := Sigma fun _ : Value => Value

/-- What a script passes as options. -/
inductive OptionsVar where
  | value (val : Value)
  | hashMap (entries : HashMap Value Value)

/-- `is_null_var`. -/
def isNullVar : Value → Bool
  | .void => true
  | .pointer target => target.isNone
  | _ => false

/-- `ssl_trust_mode`. -/
inductive TrustMode where
  | auto
  | openssl
  | custom
  | insecure
  deriving DecidableEq, Repr

/-- `ssl_options`. -/
structure SslOptions where
  trustMode : TrustMode := .auto
  verifyPeer : Bool := true
  verifyHost : Bool := true
  caFile : Bytes := []
  caPath : Bytes := []
  deriving DecidableEq, Repr

/-- The name of a trust mode. -/
def readTrustMode (mode : Bytes) : Option TrustMode :=
  if mode = bytes "auto" then some .auto
  else if mode = bytes "openssl" then some .openssl
  else if mode = bytes "custom" then some .custom
  else if mode = bytes "insecure" then some .insecure
  else none

/-- The entry `trust_mode`. -/
def setTrustMode (options : SslOptions) : TrustMode → SslOptions
  | .insecure => { options with trustMode := .insecure, verifyPeer := false, verifyHost := false }
  | mode => { options with trustMode := mode }

/-- The text of a file or directory entry, or the error. -/
def readPath (key : Bytes) (value : Value) : Except Bytes Bytes :=
  if isNullVar value then .ok []
  else
    match value with
    | .string text => .ok text
    | _ => .error (bytes "TLS option \"" ++ key ++ bytes "\" must be string or null.")

/-- One turn of the loop over the entries; the flag is `has_trust_mode`. -/
def readOption (st : SslOptions × Bool) (entry : Entry) : Except Bytes (SslOptions × Bool) :=
  let (options, hasTrustMode) := st
  match entry.1 with
  | .string key =>
    if key = bytes "trust_mode" then
      match entry.2 with
      | .string mode =>
        match readTrustMode mode with
        | some mode => .ok (setTrustMode options mode, true)
        | none => .error (bytes "Unsupported TLS trust_mode: " ++ mode)
      | _ => .error (bytes "TLS option \"trust_mode\" must be string.")
    else if key = bytes "ca_file" then
      (readPath key entry.2).map fun text => ({ options with caFile := text }, hasTrustMode)
    else if key = bytes "ca_path" then
      (readPath key entry.2).map fun text => ({ options with caPath := text }, hasTrustMode)
    else if key = bytes "verify_peer" ∨ key = bytes "verify_host" then
      .error (bytes "TLS option \"" ++ key ++ bytes "\" is not exposed through CNI.")
    else .error (bytes "Unknown TLS option: " ++ key)
  | _ => .error (bytes "TLS option keys must be strings.")

/-- The checks behind the loop. -/
def checkOptions (st : SslOptions × Bool) : Except Bytes SslOptions :=
  let (options, hasTrustMode) := st
  if (options.caFile ≠ [] ∨ options.caPath ≠ []) ∧ hasTrustMode = false then
    .error (bytes "TLS options \"ca_file\" and \"ca_path\" require trust_mode=\"custom\".")
  else if (options.caFile ≠ [] ∨ options.caPath ≠ []) ∧ options.trustMode ≠ .custom then
    .error (bytes "TLS options \"ca_file\" and \"ca_path\" can only be used with trust_mode=\"custom\".")
  else if options.trustMode = .custom ∧ options.caFile = [] ∧ options.caPath = [] then
    .error (bytes "TLS trust_mode \"custom\" requires ca_file or ca_path.")
  else if options.trustMode = .insecure ∧ (options.caFile ≠ [] ∨ options.caPath ≠ []) then
    .error (bytes "TLS trust_mode \"insecure\" cannot be combined with ca_file or ca_path.")
  else .ok options

/-- `parse_ssl_options`. -/
def parseSslOptions : OptionsVar → Except Bytes SslOptions
  | .value val => if isNullVar val then .ok {} else .error (bytes "TLS options must be null or hash_map.")
  | .hashMap entries => (entries.entries.foldlM readOption ({}, false)).bind checkOptions

/-! ## The fields by the table -/

/-- A key as the source spells it. -/
def keyOf (text : String) : Value := .string (bytes text)

/-- The trust mode that an entry says. -/
def trustModeOf : Option Value → TrustMode
  | some (.string mode) => (readTrustMode mode).getD .auto
  | _ => .auto

/-- The path that an entry says. -/
def pathOf : Option Value → Bytes
  | some (.string text) => text
  | _ => []

/-- The fields that three entries say, where they are there. -/
def fieldsBy (mode file path : Option Value) : SslOptions × Bool :=
  (⟨trustModeOf mode, trustModeOf mode ≠ .insecure, trustModeOf mode ≠ .insecure, pathOf file, pathOf path⟩, mode.isSome)

/-- The fields that a table says. -/
def fieldsOf (entries : List Entry) : SslOptions × Bool :=
  fieldsBy (entries.dlookup (keyOf "trust_mode")) (entries.dlookup (keyOf "ca_file"))
    (entries.dlookup (keyOf "ca_path"))

/-- An entry that is accepted. -/
inductive Accepted (e : Entry) : Prop where
  | trustMode {mode tm} :
    e.1 = keyOf "trust_mode" →
    e.2 = .string mode →
    readTrustMode mode = some tm →
    Accepted e
  | caFile {text} :
    e.1 = keyOf "ca_file" →
    readPath (bytes "ca_file") e.2 = .ok text →
    Accepted e
  | caPath {text} :
    e.1 = keyOf "ca_path" →
    readPath (bytes "ca_path") e.2 = .ok text →
    Accepted e

lemma mode_ne_file : keyOf "trust_mode" ≠ keyOf "ca_file" := by decide

lemma mode_ne_path : keyOf "trust_mode" ≠ keyOf "ca_path" := by decide

lemma file_ne_path : keyOf "ca_file" ≠ keyOf "ca_path" := by decide

/-- A path that is read is the one that the entry says. -/
lemma readPath_ok {key : Bytes} {value : Value} {text : Bytes} (h : readPath key value = .ok text) :
    text = pathOf (some value) := by
  unfold readPath at h
  split at h
  · rename_i null
    cases h
    cases value with
    | string text => cases null
    | void | pointer _ | other _ => rfl
  · split at h
    · cases h
      rfl
    · cases h

/-- An entry `trust_mode` is a string that names a mode. -/
lemma accepted_trustMode {value : Value} (h : Accepted ⟨keyOf "trust_mode", value⟩) :
    ∃ mode tm, value = .string mode ∧ readTrustMode mode = some tm := by
  cases h with
  | trustMode _ text read => exact ⟨_, _, text, read⟩
  | caFile key _ => exact absurd key mode_ne_file
  | caPath key _ => exact absurd key mode_ne_path

/-- What the entry `trust_mode` does. -/
lemma readOption_mode (st : SslOptions × Bool) (value : Value) :
    readOption st ⟨keyOf "trust_mode", value⟩ =
      match value with
      | .string mode =>
        match readTrustMode mode with
        | some mode => .ok (setTrustMode st.1 mode, true)
        | none => .error (bytes "Unsupported TLS trust_mode: " ++ mode)
      | _ => .error (bytes "TLS option \"trust_mode\" must be string.") := by
  simp only [readOption, keyOf, if_true]

/-- The entry `trust_mode`, where it is the first of its kind. -/
lemma readOption_trustMode (file path : Option Value) (value : Value) (st : SslOptions × Bool) :
    readOption (fieldsBy none file path) ⟨keyOf "trust_mode", value⟩ = .ok st ↔
      Accepted ⟨keyOf "trust_mode", value⟩ ∧ st = fieldsBy (some value) file path := by
  rw [readOption_mode]
  cases value with
  | string mode =>
    simp only
    cases read : readTrustMode mode with
    | none =>
      refine iff_of_false (fun h => by cases h) ?_
      rintro ⟨acc, -⟩
      obtain ⟨_, tm, e, known⟩ := accepted_trustMode acc
      cases e
      rw [read] at known
      cases known
    | some tm =>
      have turn : (setTrustMode (fieldsBy none file path).1 tm, true) = fieldsBy (some (.string mode)) file path := by
        simp only [fieldsBy, read, trustModeOf, Option.getD_some, Option.isSome_some]
        cases tm <;> rfl
      rw [and_iff_right (.trustMode rfl rfl read), ← turn, eq_comm (a := st)]
      exact iff_of_eq (Except.ok.injEq _ _)
  | void | pointer _ | other _ =>
    refine iff_of_false (fun h => by cases h) ?_
    rintro ⟨acc, -⟩
    obtain ⟨_, _, e, -⟩ := accepted_trustMode acc
    cases e

/-- A path entry sets what it says, or it is refused. -/
lemma map_readPath {σ : Type} (key : Bytes) (value : Value) (set : Bytes → σ) (st : σ) :
    (readPath key value).map set = .ok st ↔ (∃ text, readPath key value = .ok text) ∧ st = set (pathOf (some value)) := by
  cases read : readPath key value with
  | error text =>
    refine iff_of_false (fun h => by cases h) ?_
    rintro ⟨⟨_, h⟩, -⟩
    cases h
  | ok text =>
    rw [readPath_ok read, and_iff_right ⟨_, rfl⟩, eq_comm (a := st)]
    exact iff_of_eq (Except.ok.injEq _ _)

/-- The entry `ca_file`. -/
lemma readOption_caFile (mode path : Option Value) (value : Value) (st : SslOptions × Bool) :
    readOption (fieldsBy mode none path) ⟨keyOf "ca_file", value⟩ = .ok st ↔
      Accepted ⟨keyOf "ca_file", value⟩ ∧ st = fieldsBy mode (some value) path := by
  refine (map_readPath (bytes "ca_file") value _ st).trans (and_congr_left fun _ => ⟨?_, fun acc => ?_⟩)
  · rintro ⟨text, read⟩
    exact .caFile rfl read
  · cases acc with
    | trustMode key _ _ => exact absurd key.symm mode_ne_file
    | caFile _ read => exact ⟨_, read⟩
    | caPath key _ => exact absurd key file_ne_path

/-- The entry `ca_path`. -/
lemma readOption_caPath (mode file : Option Value) (value : Value) (st : SslOptions × Bool) :
    readOption (fieldsBy mode file none) ⟨keyOf "ca_path", value⟩ = .ok st ↔
      Accepted ⟨keyOf "ca_path", value⟩ ∧ st = fieldsBy mode file (some value) := by
  refine (map_readPath (bytes "ca_path") value _ st).trans (and_congr_left fun _ => ⟨?_, fun acc => ?_⟩)
  · rintro ⟨text, read⟩
    exact .caPath rfl read
  · cases acc with
    | trustMode key _ _ => exact absurd key.symm mode_ne_path
    | caFile key _ => exact absurd key.symm file_ne_path
    | caPath _ read => exact ⟨_, read⟩

/-- Any other entry is refused. -/
lemma readOption_other {st st' : SslOptions × Bool} {e : Entry} (h : readOption st e = .ok st') :
    e.1 = keyOf "trust_mode" ∨ e.1 = keyOf "ca_file" ∨ e.1 = keyOf "ca_path" := by
  obtain ⟨key, value⟩ := e
  cases key with
  | string key =>
    unfold readOption at h
    simp only at h
    split at h
    · rename_i e
      exact .inl (congrArg Value.string e)
    split at h
    · rename_i e
      exact .inr (.inl (congrArg Value.string e))
    split at h
    · rename_i e
      exact .inr (.inr (congrArg Value.string e))
    split at h <;> cases h
  | void | pointer _ | other _ => cases h

lemma Accepted.key {e : Entry} (h : Accepted e) :
    e.1 = keyOf "trust_mode" ∨ e.1 = keyOf "ca_file" ∨ e.1 = keyOf "ca_path" := by
  cases h with
  | trustMode key _ _ => exact .inl key
  | caFile key _ => exact .inr (.inl key)
  | caPath key _ => exact .inr (.inr key)

/-- A new entry is looked up under its key only. -/
lemma dlookup_concat_self {l : List Entry} {key : Value} (new : l.dlookup key = none) (value : Value) :
    (l ++ [(⟨key, value⟩ : Entry)]).dlookup key = some value := by
  rw [List.dlookup_append, new, List.dlookup_cons_eq, Option.none_or]

lemma dlookup_concat_ne (l : List Entry) {key other : Value} (ne : other ≠ key) (value : Value) :
    (l ++ [(⟨key, value⟩ : Entry)]).dlookup other = l.dlookup other := by
  rw [List.dlookup_append, List.dlookup_cons_ne _ (⟨key, value⟩ : Entry) ne, List.dlookup_nil, Option.or_none]

/-- A new entry is accepted and sets its field, or it is refused. -/
lemma readOption_concat {l : List Entry} {e : Entry} (new : l.dlookup e.1 = none) (st : SslOptions × Bool) :
    readOption (fieldsOf l) e = .ok st ↔ Accepted e ∧ st = fieldsOf (l ++ [e]) := by
  obtain ⟨key, value⟩ := e
  by_cases known : key = keyOf "trust_mode" ∨ key = keyOf "ca_file" ∨ key = keyOf "ca_path"
  · unfold fieldsOf
    rcases known with rfl | rfl | rfl
    · rw [dlookup_concat_self new, dlookup_concat_ne l mode_ne_file.symm, dlookup_concat_ne l mode_ne_path.symm,
        show l.dlookup (keyOf "trust_mode") = none from new]
      exact readOption_trustMode _ _ value st
    · rw [dlookup_concat_self new, dlookup_concat_ne l mode_ne_file, dlookup_concat_ne l file_ne_path.symm,
        show l.dlookup (keyOf "ca_file") = none from new]
      exact readOption_caFile _ _ value st
    · rw [dlookup_concat_self new, dlookup_concat_ne l mode_ne_path, dlookup_concat_ne l file_ne_path,
        show l.dlookup (keyOf "ca_path") = none from new]
      exact readOption_caPath _ _ value st
  · exact iff_of_false (fun h => known (readOption_other h)) fun h => known h.1.key

/-- The loop accepts the entries one by one, and leaves the fields that they say. -/
lemma foldlM_readOption {l : List Entry} (nd : l.NodupKeys) (st : SslOptions × Bool) :
    l.foldlM readOption ({}, false) = .ok st ↔ (∀ e ∈ l, Accepted e) ∧ st = fieldsOf l := by
  induction l using List.reverseRecOn generalizing st with
  | nil =>
    rw [and_iff_right fun e mem => absurd mem List.not_mem_nil, eq_comm (a := st)]
    exact iff_of_eq (Except.ok.injEq _ _)
  | append_singleton l e ih =>
    have front : l.NodupKeys := nd.sublist (List.sublist_append_left l [e])
    have new : l.dlookup e.1 = none := by
      rw [List.dlookup_eq_none]
      have swapped : (e :: l).NodupKeys := (List.perm_nodupKeys (List.perm_append_singleton e l)).mp nd
      exact List.notMem_keys_of_nodupKeys_cons swapped
    rw [List.foldlM_append, List.forall_mem_append, List.forall_mem_singleton, and_assoc, ← readOption_concat new]
    constructor
    · intro h
      cases run : l.foldlM readOption ({}, false) with
      | error text =>
        rw [run] at h
        cases h
      | ok mid =>
        obtain ⟨acc, rfl⟩ := (ih front mid).mp run
        rw [run] at h
        have turn := (bind_pure (readOption (fieldsOf l) e)).symm.trans h
        exact ⟨acc, turn⟩
    · rintro ⟨acc, turn⟩
      rw [(ih front _).mpr ⟨acc, rfl⟩]
      exact (bind_pure (readOption (fieldsOf l) e)).trans turn

/-! ## What is accepted -/

/-- The checks agree with the documentation of the two paths: they come with the trust mode `custom`, and it does
not come without them. -/
lemma checkOptions_ok {st : SslOptions × Bool} {o : SslOptions} :
    checkOptions st = .ok o ↔
      o = st.1 ∧ (st.1.caFile ≠ [] ∨ st.1.caPath ≠ [] → st.2 = true ∧ st.1.trustMode = .custom) ∧
        (st.1.trustMode = .custom → st.1.caFile ≠ [] ∨ st.1.caPath ≠ []) := by
  obtain ⟨options, has⟩ := st
  unfold checkOptions
  simp only
  by_cases paths : options.caFile ≠ [] ∨ options.caPath ≠ []
  · by_cases custom : options.trustMode = .custom
    · cases has with
      | false => simp [paths]
      | true =>
        have some_path : ¬ (options.caFile = [] ∧ options.caPath = []) := by
          rintro ⟨file, path⟩
          exact paths.elim (fun ne => ne file) fun ne => ne path
        simp [paths, custom, some_path, eq_comm]
    · cases has <;> simp [paths, custom]
  · have none : options.caFile = [] ∧ options.caPath = [] := by simpa [not_or] using paths
    by_cases custom : options.trustMode = .custom
    · simp [none.1, none.2, custom]
    · simp [none.1, none.2, custom, eq_comm]

lemma parseSslOptions_hashMap {m : HashMap Value Value} {o : SslOptions} :
    parseSslOptions (.hashMap m) = .ok o ↔
      (∀ e ∈ m.entries, Accepted e) ∧ checkOptions (fieldsOf m.entries) = .ok o := by
  simp only [parseSslOptions]
  constructor
  · intro h
    cases run : m.entries.foldlM readOption ({}, false) with
    | error text =>
      rw [run] at h
      cases h
    | ok st =>
      obtain ⟨acc, rfl⟩ := (foldlM_readOption m.nodupKeys st).mp run
      rw [run] at h
      exact ⟨acc, h⟩
  · rintro ⟨acc, check⟩
    rw [(foldlM_readOption m.nodupKeys _).mpr ⟨acc, rfl⟩]
    exact check

/-- The order of the entries makes no difference. -/
lemma parseSslOptions_perm {m m' : HashMap Value Value} (p : m.entries.Perm m'.entries) (o : SslOptions) :
    parseSslOptions (.hashMap m) = .ok o ↔ parseSslOptions (.hashMap m') = .ok o := by
  have same : fieldsOf m.entries = fieldsOf m'.entries := by
    unfold fieldsOf
    rw [List.perm_dlookup _ m.nodupKeys p, List.perm_dlookup _ m.nodupKeys p, List.perm_dlookup _ m.nodupKeys p]
  have all : (∀ e ∈ m.entries, Accepted e) ↔ ∀ e ∈ m'.entries, Accepted e :=
    ⟨fun acc e mem => acc e (p.mem_iff.mpr mem), fun acc e mem => acc e (p.mem_iff.mp mem)⟩
  rw [parseSslOptions_hashMap, parseSslOptions_hashMap, same, all]

/-- How a trust mode is spelled. -/
def TrustMode.name : TrustMode → Bytes
  | .auto => bytes "auto"
  | .openssl => bytes "openssl"
  | .custom => bytes "custom"
  | .insecure => bytes "insecure"

lemma readTrustMode_eq {mode : Bytes} {tm : TrustMode} : readTrustMode mode = some tm ↔ mode = tm.name := by
  constructor
  · intro h
    unfold readTrustMode at h
    repeat' split at h
    all_goals
      cases h
      try assumption
  · rintro rfl
    cases tm <;> decide

/-- The options are a map with the trust mode. -/
def HasTrustMode (tm : TrustMode) (options : OptionsVar) : Prop :=
  ∃ m, options = .hashMap m ∧ m.lookup (keyOf "trust_mode") = some (.string tm.name)

/-- A trust mode that is not the default is there because an entry says so. -/
lemma trustModeOf_eq {entry : Option Value} {tm : TrustMode} (ne : tm ≠ .auto) :
    trustModeOf entry = tm ↔ entry = some (.string tm.name) := by
  constructor
  · intro h
    unfold trustModeOf at h
    split at h
    · rename_i mode
      cases read : readTrustMode mode with
      | none =>
        rw [read] at h
        exact absurd h.symm ne
      | some tm' =>
        rw [read] at h
        obtain rfl : tm' = tm := h
        rw [readTrustMode_eq.mp read]
    · exact absurd h.symm ne
  · rintro rfl
    rw [trustModeOf, readTrustMode_eq.mpr rfl, Option.getD_some]

/-- What accepted options are: the trust mode is the one in the map, and verification and the paths are as it is. -/
lemma parseSslOptions_ok {v : OptionsVar} {o : SslOptions} (h : parseSslOptions v = .ok o) :
    (∀ tm, tm ≠ .auto → (o.trustMode = tm ↔ HasTrustMode tm v)) ∧
      (o.verifyPeer = true ↔ o.trustMode ≠ .insecure) ∧ (o.verifyHost = true ↔ o.trustMode ≠ .insecure) ∧
      (o.caFile ≠ [] ∨ o.caPath ≠ [] ↔ o.trustMode = .custom) := by
  cases v with
  | value val =>
    simp only [parseSslOptions] at h
    split at h
    · cases h
      refine ⟨fun tm ne => iff_of_false ne.symm ?_, by decide, by decide, by decide⟩
      rintro ⟨m, e, -⟩
      cases e
    · cases h
  | hashMap m =>
    obtain ⟨-, check⟩ := parseSslOptions_hashMap.mp h
    obtain ⟨rfl, up, down⟩ := checkOptions_ok.mp check
    refine ⟨fun tm ne => ?_, decide_eq_true_iff, decide_eq_true_iff, fun paths => (up paths).2, down⟩
    refine (trustModeOf_eq ne).trans ⟨fun look => ⟨m, rfl, look⟩, ?_⟩
    rintro ⟨_, e, look⟩
    cases e
    exact look

end CovNet.Tls
