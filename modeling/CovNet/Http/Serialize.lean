import CovNet.Http.Session
import CovNet.Lib.Grouping

/-!
# Sessions between the processes

`http_session.serialize` and `http_session.deserialize`: a session as the JSON object the master sends to
a slave. `json_value.make_string` takes a string, so a session without a host cannot be written. What was
written is read back, but for the body, which is not part of it (`deserialize_serialize`).
-/

namespace CovNet.Http
open Lib Text

/-- A value of `codec.json`. -/
inductive JsonValue where
  | string (s : Bytes)
  | int (n : Int)
  | object (members : List (Bytes × JsonValue))

/-- The object of the request headers. -/
def headersObject (headers : List (Bytes × Bytes)) : JsonValue :=
  .object (headers.map fun h => (h.1, .string h.2))

/-- `http_session.serialize`: none where it raises. -/
def serialize (s : Session) : Option JsonValue :=
  s.host.map fun host =>
    .object (
      [(bytes "url", .string s.url), (bytes "args", .string s.args), (bytes "host", .string host),
        (bytes "method", .string s.method), (bytes "version", .string s.version),
        (bytes "connection", .string s.connection)] ++
      (match s.contentLength with
        | some n => if 0 < n then [(bytes "content_length", .int n)] else []
        | none => []) ++
      [(bytes "request_headers", headersObject s.requestHeaders)])

/-- `get_member`: none is `null`. -/
def JsonValue.getMember : JsonValue → Bytes → Option JsonValue
  | .object members, name => members.lookup name
  | _, _ => none

/-- `get_member_names`. -/
def JsonValue.getMemberNames : JsonValue → List Bytes
  | .object members => members.map Prod.fst
  | _ => []

/-- `as_string`: none where it raises. -/
def JsonValue.asString : JsonValue → Option Bytes
  | .string s => some s
  | _ => none

/-- `as_int`. -/
def JsonValue.asInt : JsonValue → Option Int
  | .int n => some n
  | _ => none

/-- `obj.get_member(name).as_string()`. -/
def JsonValue.stringMember (obj : JsonValue) (name : Bytes) : Option Bytes :=
  (obj.getMember name).bind JsonValue.asString

/-- `http_session.deserialize`, on the value of the text: none where it raises. -/
def deserialize (obj : JsonValue) : Option Session := do
  let url ← obj.stringMember (bytes "url")
  let args ← obj.stringMember (bytes "args")
  let host ← obj.stringMember (bytes "host")
  let method ← obj.stringMember (bytes "method")
  let version ← obj.stringMember (bytes "version")
  let connection ← obj.stringMember (bytes "connection")
  let contentLength ←
    match obj.getMember (bytes "content_length") with
    | some n => n.asInt.map some
    | none => some none
  let requestHeaders ←
    match obj.getMember (bytes "request_headers") with
    | some hdrs => hdrs.getMemberNames.mapM fun key => (hdrs.stringMember key).map (key, ·)
    | none => some []
  some ⟨url, args, some host, method, version, connection, none, contentLength, requestHeaders⟩

/-! ## What is read back -/

/-- Two values that are read alike: the members of an object have no order. -/
inductive JsonValue.Same : JsonValue → JsonValue → Prop
  | string (s : Bytes) : Same (.string s) (.string s)
  | int (n : Int) : Same (.int n) (.int n)
  | object {members members' : List (Bytes × JsonValue)} :
    (members.map Prod.fst).Perm (members'.map Prod.fst) →
    (∀ name v v', members.lookup name = some v → members'.lookup name = some v' → Same v v') →
    Same (.object members) (.object members')

section Same
open JsonValue
variable {v v' : JsonValue} {name : Bytes}

/-- Values that are read alike have the same members. -/
lemma JsonValue.Same.getMember (h : Same v v') (name : Bytes) :
    (v.getMember name = none ∧ v'.getMember name = none) ∨
      ∃ a a', v.getMember name = some a ∧ v'.getMember name = some a' ∧ Same a a' := by
  cases h with
  | string s => exact .inl ⟨rfl, rfl⟩
  | int n => exact .inl ⟨rfl, rfl⟩
  | @object members members' names inner =>
    show (members.lookup name = none ∧ members'.lookup name = none) ∨
      ∃ a a', members.lookup name = some a ∧ members'.lookup name = some a' ∧ Same a a'
    by_cases mem : name ∈ members.map Prod.fst
    · obtain ⟨a, e⟩ := exists_lookup mem
      obtain ⟨a', e'⟩ := exists_lookup (names.mem_iff.mp mem)
      exact .inr ⟨a, a', e, e', inner name a a' e e'⟩
    · exact .inl ⟨lookup_eq_none.mpr mem, lookup_eq_none.mpr fun mem' => mem (names.mem_iff.mpr mem')⟩

/-- A value is read as itself. -/
lemma JsonValue.Same.refl : ∀ v, Same v v
  | .string s => .string s
  | .int n => .int n
  | .object members => by
    refine .object (List.Perm.refl _) fun name v v' e e' => ?_
    obtain rfl : v = v' := Option.some.inj (e.symm.trans e')
    have smaller : sizeOf v < sizeOf members := by
      have mem : sizeOf (name, v) < sizeOf members := List.sizeOf_lt_of_mem (mem_of_lookup e)
      have pair : sizeOf (name, v) = 1 + sizeOf name + sizeOf v := rfl
      omega
    exact JsonValue.Same.refl v
  termination_by v => sizeOf v

lemma JsonValue.Same.stringMember (h : Same v v') (name : Bytes) :
    v'.stringMember name = v.stringMember name := by
  unfold JsonValue.stringMember
  rcases h.getMember name with ⟨e, e'⟩ | ⟨a, a', e, e', same⟩
  · rw [e, e']
  · rw [e, e']
    cases same with
    | _ => rfl

end Same

section Headers
variable {headers : List (Bytes × Bytes)}

lemma stringMember_headersObject (headers : List (Bytes × Bytes)) (name : Bytes) :
    (headersObject headers).stringMember name = headers.lookup name := by
  show ((headers.map fun h => (h.1, JsonValue.string h.2)).lookup name).bind JsonValue.asString = _
  induction headers with
  | nil => rfl
  | cons h headers ih =>
    rw [List.map_cons, List.lookup_cons, List.lookup_cons]
    split
    · rfl
    · exact ih

/-- Distinct names find their values. -/
lemma lookup_of_mem {h : Bytes × Bytes} (nodup : (headers.map Prod.fst).Nodup) (mem : h ∈ headers) :
    headers.lookup h.1 = some h.2 := by
  induction headers with
  | nil => cases mem
  | cons g headers ih =>
    rw [List.map_cons, List.nodup_cons] at nodup
    rcases List.mem_cons.mp mem with rfl | mem
    · exact List.lookup_cons_self
    · have ne : (h.1 == g.1) = false := by
        apply beq_false_of_ne
        intro e
        exact nodup.1 (e ▸ List.mem_map_of_mem mem)
      rw [List.lookup_cons, ne]
      exact ih nodup.2 mem

lemma mapM_eq_map {α β : Type} {f : α → Option β} {g : α → β} {l : List α}
    (h : ∀ a ∈ l, f a = some (g a)) : l.mapM f = some (l.map g) := by
  induction l with
  | nil => rfl
  | cons a l ih =>
    rw [List.forall_mem_cons] at h
    rw [List.mapM_cons, h.1, ih h.2]
    rfl

/-- The headers are read back, in some order. -/
lemma headers_back {hdrs : JsonValue} (nodup : (headers.map Prod.fst).Nodup)
    (same : (headersObject headers).Same hdrs) :
    ∃ back, (hdrs.getMemberNames.mapM fun key => (hdrs.stringMember key).map (key, ·)) = some back ∧
      back.Perm headers := by
  have each : ∀ key, hdrs.stringMember key = headers.lookup key := fun key => by
    rw [same.stringMember, stringMember_headersObject]
  -- an object has its members in some order
  have names : (headers.map Prod.fst).Perm hdrs.getMemberNames := by
    cases same with
    | object names inner =>
      rw [List.map_map] at names
      exact names
  refine ⟨hdrs.getMemberNames.map fun key => (key, (headers.lookup key).getD []), ?_, ?_⟩
  · apply mapM_eq_map
    intro key mem
    obtain ⟨h, hmem, rfl⟩ := List.mem_map.mp (names.mem_iff.mpr mem)
    rw [each, lookup_of_mem nodup hmem]
    rfl
  · have all : ((headers.map Prod.fst).map fun key => (key, (headers.lookup key).getD [])) = headers := by
      rw [List.map_map]
      conv_rhs => rw [← List.map_id headers]
      apply List.map_congr_left
      intro h mem
      simp only [Function.comp_apply, lookup_of_mem nodup mem, Option.getD_some, id_eq]
    have perm := names.symm.map fun key => (key, (headers.lookup key).getD [])
    rwa [all] at perm

end Headers

/-- What the slave makes of a session: the fields the text has. -/
def received (s : Session) (headers : List (Bytes × Bytes)) : Session :=
  { s with
    postData := none
    contentLength := s.contentLength.filter (0 < ·)
    requestHeaders := headers }

/-- The members of a session that was written. -/
lemma serialize_members {s : Session} {v : JsonValue} (h : serialize s = some v) :
    (v.stringMember (bytes "url") = some s.url ∧ v.stringMember (bytes "args") = some s.args ∧
      v.stringMember (bytes "host") = s.host ∧ v.stringMember (bytes "method") = some s.method ∧
      v.stringMember (bytes "version") = some s.version ∧
      v.stringMember (bytes "connection") = some s.connection) ∧
    v.getMember (bytes "content_length") = (s.contentLength.filter (0 < ·)).map .int ∧
    v.getMember (bytes "request_headers") = some (headersObject s.requestHeaders) := by
  obtain ⟨host, hhost, rfl⟩ := Option.map_eq_some_iff.mp h
  rw [hhost]
  refine ⟨⟨rfl, rfl, rfl, rfl, rfl, rfl⟩, ?_⟩
  cases s.contentLength with
  | none => exact ⟨rfl, rfl⟩
  | some n =>
    by_cases pos : 0 < n
    · simp only [if_pos pos, Option.filter_some, decide_eq_true pos, if_true]
      exact ⟨rfl, rfl⟩
    · simp only [if_neg pos, Option.filter_some, decide_eq_false pos]
      exact ⟨rfl, rfl⟩

/-- A session that was written is read back, but for its body. -/
lemma deserialize_serialize {s : Session} {v v' : JsonValue} (h : serialize s = some v)
    (same : v.Same v') (nodup : (s.requestHeaders.map Prod.fst).Nodup) :
    ∃ headers, deserialize v' = some (received s headers) ∧ headers.Perm s.requestHeaders := by
  obtain ⟨⟨url, args, host, method, version, connection⟩, length, hdrs⟩ := serialize_members h
  have some_host : ∃ host, s.host = some host := by
    obtain ⟨host, e, -⟩ := Option.map_eq_some_iff.mp h
    exact ⟨host, e⟩
  obtain ⟨name, ename⟩ := some_host
  -- the length is there if and only if it was written
  have length' : v'.getMember (bytes "content_length") = (s.contentLength.filter (0 < ·)).map .int := by
    rcases same.getMember (bytes "content_length") with ⟨e, e'⟩ | ⟨a, a', e, e', inner⟩
    · rw [e', ← length, e]
    · rw [length] at e
      obtain ⟨n, en, rfl⟩ := Option.map_eq_some_iff.mp e
      cases inner
      rw [e', en]
      rfl
  obtain ⟨a', e', inner⟩ : ∃ a', v'.getMember (bytes "request_headers") = some a' ∧
      (headersObject s.requestHeaders).Same a' := by
    rcases same.getMember (bytes "request_headers") with ⟨e, -⟩ | ⟨a, a', e, e', inner⟩
    · rw [hdrs] at e
      cases e
    · rw [hdrs] at e
      cases e
      exact ⟨a', e', inner⟩
  obtain ⟨back, eback, perm⟩ := headers_back nodup inner
  refine ⟨back, ?_, perm⟩
  simp only [deserialize, same.stringMember, url, args, host, ename, method, version, connection, length', e',
    eback, received, Option.bind_eq_bind, Option.bind_some]
  cases s.contentLength.filter (0 < ·) with
  | none => rfl
  | some n => rfl

/-! ## Which sessions can be written -/

lemma serialize_isSome {s : Session} : (serialize s).isSome = s.host.isSome := by
  simp [serialize]

/-- A line that is taken as the host. -/
def isHost (line : Bytes) : Bool := (header line).any fun h => h.1 == bytes "host"

section Host
variable {asInteger : Bytes → Option Int} {line : Bytes} {st st' : Session × Bool}

/-- Only a host line sets the host. -/
lemma readHeader_host (h : readHeader asInteger st line = some st') :
    st'.1.host.isSome = (st.1.host.isSome || isHost line) := by
  obtain ⟨session, has⟩ := st
  unfold readHeader at h
  unfold isHost header
  cases e : requestHeaderReg line with
  | none =>
    simp only [e] at h
    cases h
    simp
  | some nv =>
    obtain ⟨name, value⟩ := nv
    simp only [e] at h
    simp only [Option.map_some, Option.any_some]
    split at h
    · rename_i host
      cases h
      simp [host]
    rename_i other
    have no : (tolower name == bytes "host") = false := beq_false_of_ne other
    rw [no, Bool.or_false]
    split at h
    · cases h
      rfl
    split at h
    · split at h
      · cases h
      split at h
      · cases h
      split at h
      · cases h
      cases h
      rfl
    split at h
    · cases h
    cases h
    rfl

lemma foldlM_readHeader_host {lines : List Bytes}
    (h : lines.foldlM (readHeader asInteger) st = some st') :
    st'.1.host.isSome = (st.1.host.isSome || lines.any isHost) := by
  induction lines generalizing st with
  | nil =>
    cases h
    simp
  | cons line lines ih =>
    obtain ⟨mid, hstep, hrest⟩ := Option.bind_eq_some_iff.mp h
    rw [ih hrest, readHeader_host hstep, List.any_cons, Bool.or_assoc]

/-- A session has a host if and only if one of its header lines is taken as one. -/
lemma createHttpSession_host {requestLine : Bytes} {lines : List Bytes} {session : Session}
    (h : createHttpSession asInteger (requestLine :: lines) = some session) :
    session.host.isSome = lines.any isHost := by
  simp only [createHttpSession] at h
  split at h
  · cases h
  split at h
  · cases h
  rename_i session' has hfold
  have same : session.host = session'.host := by
    split at h <;> cases h <;> rfl
  rw [same, foldlM_readHeader_host hfold]
  rfl

end Host

end CovNet.Http
