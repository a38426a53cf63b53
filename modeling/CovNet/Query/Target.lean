import Mathlib.Algebra.BigOperators.Group.List.Basic
import Mathlib.Algebra.GroupWithZero.Nat
import CovNet.Http.Session
import CovNet.Query.Args

/-!
# Query strings of requests

The request line is split at its first question mark by `request_line_reg`, and `parse_http_args` splits what it is
given at the first question mark once more. On the target of the request it finds the mark in front of the
arguments; on `session.args` it finds one that belongs to them. What is in front of that one is lost, so the two maps
are the same exactly where the arguments have none (`target_args_agree_iff`).

`bulk` tells the maps apart: what a query string says, counted in decoded bytes. A map determines it
(`bulk_eq_of_lookup`), and cutting a query string at a question mark makes it less (`bulk_mark_lt`).
-/

namespace CovNet.Query
open Lib Text Http Client

/-- The target of a request line: what is between its first two spaces. -/
def requestTarget (line : Bytes) : Bytes := ((line.dropWhile (· != ' ')).drop 1).takeWhile (· != ' ')

/-! ## Request lines -/

/-- A line that is accepted has its parts. -/
lemma requestLineReg_spec {line method url args version : Bytes}
    (h : requestLineReg line = some (method, url, args, version)) :
    (∀ c ∈ method, c.isUpper = true) ∧ (∀ c ∈ url, c ≠ ' ' ∧ c ≠ '?') ∧ ' ' ∉ args ∧
      (line = method ++ ' ' :: (url ++ bytes " HTTP/" ++ version) ∧ args = [] ∨
        line = method ++ ' ' :: (url ++ '?' :: args ++ bytes " HTTP/" ++ version)) := by
  have upper : ∀ c ∈ line.takeWhile Char.isUpper, c.isUpper = true := fun c => List.mem_takeWhile_imp
  have front := List.takeWhile_append_dropWhile (p := Char.isUpper) (l := line)
  simp only [requestLineReg] at h
  split at h
  · rename_i rest erest
    rw [erest] at front
    have parts := List.takeWhile_append_dropWhile (p := fun c => c != ' ' && c != '?') (l := rest)
    have inside : ∀ c ∈ rest.takeWhile (fun c => c != ' ' && c != '?'), c ≠ ' ' ∧ c ≠ '?' := by
      intro c mem
      simpa using List.mem_takeWhile_imp mem
    split at h
    · rename_i v ev
      split at h
      · simp only [Option.some.injEq, Prod.mk.injEq] at h
        obtain ⟨rfl, rfl, eargs, rfl⟩ := h
        refine ⟨upper, inside, ?_⟩
        split at ev
        · rename_i query equery
          rw [equery] at parts eargs
          have taken : query.takeWhile (· != ' ') = args := eargs
          have ends : query.dropWhile (· != ' ') = bytes " HTTP/" ++ v := stripText_iff.mp ev
          have tail := List.takeWhile_append_dropWhile (p := fun c => c != ' ') (l := query)
          rw [taken, ends] at tail
          refine ⟨fun mem => ?_, .inr ?_⟩
          · rw [← taken] at mem
            simpa using List.mem_takeWhile_imp mem
          · refine front.symm.trans (congrArg (fun t => line.takeWhile Char.isUpper ++ ' ' :: t) ?_)
            refine parts.symm.trans ?_
            rw [← tail]
            simp
        · rename_i no
          have nothing : args = [] := by
            rw [← eargs]
            split
            · rename_i query equery
              exact absurd equery (no query)
            · rfl
          refine ⟨by simp [nothing], .inl ⟨?_, nothing⟩⟩
          have ends : rest.dropWhile (fun c => c != ' ' && c != '?') = bytes " HTTP/" ++ v := stripText_iff.mp ev
          rw [ends] at parts
          refine front.symm.trans (congrArg (fun t => line.takeWhile Char.isUpper ++ ' ' :: t) ?_)
          exact parts.symm.trans (List.append_assoc _ _ _).symm
      · cases h
    · cases h
  · cases h

/-- A method has no spaces. -/
lemma space_of_isUpper {method : Bytes} (upper : ∀ c ∈ method, c.isUpper = true) :
    ∀ c ∈ method, (c != ' ') = true := by
  intro c mem
  have ne : c ≠ ' ' := by
    rintro rfl
    exact absurd (upper ' ' mem) (by decide)
  simpa using ne

/-- The target of a request that is accepted, if it has a query, is the url and the arguments. -/
lemma requestTarget_eq {asInteger : Bytes → Option Int} {line : Bytes} {header : List Bytes} {session : Session}
    (acc : createHttpSession asInteger (line :: header) = some session) (query : '?' ∈ requestTarget line) :
    requestTarget line = session.url ++ '?' :: session.args ∧ '?' ∉ session.url := by
  obtain ⟨method, version, reg⟩ := createHttpSession_target acc
  obtain ⟨upper, plain, solid, parts⟩ := requestLineReg_spec reg
  have unmarked : '?' ∉ session.url := fun mem => (plain '?' mem).2 rfl
  have target : ∀ t rest, ' ' ∉ t → line = method ++ ' ' :: (t ++ ' ' :: rest) → requestTarget line = t := by
    rintro t rest no rfl
    have all : ∀ c ∈ t, (c != ' ') = true := fun c mem => by simpa using ne_of_mem_of_not_mem mem no
    rw [requestTarget, (span_stop (space_of_isUpper upper) (c := ' ') rfl _).2, List.drop_one, List.tail_cons]
    exact (span_stop all (c := ' ') rfl rest).1
  have no_space : ' ' ∉ session.url := fun mem => (plain ' ' mem).1 rfl
  rcases parts with ⟨eline, -⟩ | eline
  · -- no query
    rw [target session.url (bytes "HTTP/" ++ version) no_space (by rw [eline]; simp [bytes])] at query
    exact absurd query unmarked
  · refine ⟨target (session.url ++ '?' :: session.args) (bytes "HTTP/" ++ version) ?_ ?_, unmarked⟩
    · simp [no_space, solid]
    · rw [eline]
      simp [bytes]

/-! ## What a query string says -/

/-- Decoded bytes, and one more for each segment. -/
def bulk (qs : Bytes) : Nat := ((segmentPairs qs).map fun p => p.1.length + p.2.length + 1).sum

/-- Maps that say the same have the same bulk. -/
lemma bulk_eq_of_lookup {input input' : Bytes}
    (h : ∀ key, (parseHttpArgs input).lookup key = (parseHttpArgs input').lookup key) :
    bulk (queryOf input) = bulk (queryOf input') := by
  have same : (segmentPairs (queryOf input)).Perm (segmentPairs (queryOf input')) := by
    apply perm_of_valuesOf
    intro key
    apply argOf_injective
    rw [← lookup_parseHttpArgs, ← lookup_parseHttpArgs, h key]
  exact (same.map _).sum_eq

/-- The decoded bytes of a segment. -/
def weight (p : Bytes) : Nat := (keyValue p).1.length + (keyValue p).2.length

/-- Segments count one by one. -/
lemma bulk_append_amp (s t : Bytes) : bulk (s ++ '&' :: t) = bulk s + bulk t := by
  rw [bulk, segmentPairs, split, pieces_append_cons (by decide), List.map_append, List.map_append, List.sum_append]
  rfl

lemma bulk_single {s : Bytes} (ne : s ≠ []) (amp : '&' ∉ s) : bulk s = weight s + 1 := by
  have one : split '&' s = [s] := by
    refine pieces_single (fun c mem => ?_) ne
    simpa using ne_of_mem_of_not_mem mem amp
  rw [bulk, segmentPairs, one]
  rfl

lemma bulk_le {s : Bytes} (amp : '&' ∉ s) : bulk s ≤ weight s + 1 := by
  by_cases nil : s = []
  · subst nil
    exact Nat.zero_le _
  · exact (bulk_single nil amp).le

/-- A byte that is no digit and is decoded as it is counts for itself, beside what is around it. -/
lemma length_urlDecode_plain {c : Char} (hex : hexCharToInt c = none) (percent : c ≠ '%') (plus : c ≠ '+')
    (s t : Bytes) : (urlDecode (s ++ c :: t)).length = (urlDecode s).length + (urlDecode t).length + 1 := by
  rw [urlDecode_append hex, urlDecode_literal percent plus, List.length_append, List.length_cons]
  omega

lemma length_urlDecode_mark (s t : Bytes) :
    (urlDecode (s ++ '?' :: t)).length = (urlDecode s).length + (urlDecode t).length + 1 :=
  length_urlDecode_plain (by decide) (by decide) (by decide) s t

lemma weight_cut {k : Bytes} (no : '=' ∉ k) (v : Bytes) :
    weight (k ++ '=' :: v) = (urlDecode k).length + (urlDecode v).length := by
  rw [weight, keyValue_cut no]

lemma weight_bare {p : Bytes} (no : '=' ∉ p) : weight p = (urlDecode p).length := by
  rw [weight, keyValue_bare no]
  rfl

/-- A segment weighs no more than all of its bytes. -/
lemma weight_le (p : Bytes) : weight p ≤ (urlDecode p).length := by
  by_cases eq : '=' ∈ p
  · obtain ⟨k, v, rfl, no⟩ := List.eq_append_cons_of_mem eq
    rw [weight_cut no, length_urlDecode_plain (by decide) (by decide) (by decide)]
    omega
  · exact (weight_bare eq).le

/-- The part of a segment behind a question mark weighs less. -/
lemma weight_mark_lt (x p : Bytes) : weight p < weight (x ++ '?' :: p) := by
  have rest := weight_le p
  by_cases eq : '=' ∈ x
  · -- the mark is in the value
    obtain ⟨k, v, rfl, no⟩ := List.eq_append_cons_of_mem eq
    rw [List.append_assoc, List.cons_append, weight_cut no, length_urlDecode_mark]
    omega
  · by_cases eq' : '=' ∈ p
    · -- in the key
      obtain ⟨k, v, rfl, no⟩ := List.eq_append_cons_of_mem eq'
      have key : '=' ∉ x ++ '?' :: k := by simp [eq, no]
      have e : x ++ '?' :: (k ++ '=' :: v) = (x ++ '?' :: k) ++ '=' :: v := by simp
      rw [e, weight_cut key, weight_cut no, length_urlDecode_mark]
      omega
    · have bare : '=' ∉ x ++ '?' :: p := by simp [eq, eq']
      rw [weight_bare bare, weight_bare eq', length_urlDecode_mark]
      omega

/-- A query string says less from a question mark on. -/
lemma bulk_mark_lt (a b : Bytes) : bulk b < bulk (a ++ '?' :: b) := by
  -- induction on the length of what is in front, one segment after the other
  induction e : a.length using Nat.strong_induction_on generalizing a with
  | _ n ih =>
    by_cases amp : '&' ∈ a
    · obtain ⟨a0, a1, rfl, -⟩ := List.eq_append_cons_of_mem amp
      have less := ih a1.length (by rw [← e, List.length_append, List.length_cons]; omega) a1 rfl
      rw [List.append_assoc, List.cons_append, bulk_append_amp]
      omega
    · by_cases amp' : '&' ∈ b
      · obtain ⟨b0, b1, rfl, no⟩ := List.eq_append_cons_of_mem amp'
        have inside : '&' ∉ a ++ '?' :: b0 := by simp [amp, no]
        have shape : a ++ '?' :: (b0 ++ '&' :: b1) = (a ++ '?' :: b0) ++ '&' :: b1 := by simp
        have le := bulk_le no
        have lt := weight_mark_lt a b0
        rw [shape, bulk_append_amp, bulk_append_amp, bulk_single (by simp) inside]
        omega
      · have inside : '&' ∉ a ++ '?' :: b := by simp [amp, amp']
        have le := bulk_le amp'
        have lt := weight_mark_lt a b
        rw [bulk_single (by simp) inside]
        omega

/-! ## The two maps -/

lemma queryOf_mark {url : Bytes} (no : '?' ∉ url) (args : Bytes) : queryOf (url ++ '?' :: args) = args := by
  have rest : (url ++ '?' :: args).drop (url.length + 1) = args := by
    rw [List.drop_append, List.drop_eq_nil_of_le (by omega)]
    simp
  simp only [queryOf, find_first no, rest]

lemma queryOf_bare {args : Bytes} (no : '?' ∉ args) : queryOf args = args := by
  rw [queryOf, find_of_notMem no]

/-- For a request that is accepted and has a query, the arguments parsed from the target and from the session are the
same exactly where the arguments have no question mark. -/
theorem target_args_agree_iff {asInteger : Bytes → Option Int} {line : Bytes} {header : List Bytes} {session : Session}
    (acc : createHttpSession asInteger (line :: header) = some session) (query : '?' ∈ requestTarget line) :
    (∀ key, (parseHttpArgs (requestTarget line)).lookup key = (parseHttpArgs session.args).lookup key) ↔
      '?' ∉ session.args := by
  obtain ⟨target, unmarked⟩ := requestTarget_eq acc query
  rw [target]
  constructor
  · intro same mark
    obtain ⟨a, b, e, no⟩ := List.eq_append_cons_of_mem mark
    have bulks := bulk_eq_of_lookup same
    rw [queryOf_mark unmarked, e, queryOf_mark no] at bulks
    exact (bulk_mark_lt a b).ne' bulks
  · intro mark key
    rw [lookup_parseHttpArgs, lookup_parseHttpArgs, queryOf_mark unmarked, queryOf_bare mark]

/-- A query without a question mark. -/
theorem target_args_agree_page :
    (parseHttpArgs (requestTarget (bytes "GET /x?a=1 HTTP/1.1"))).lookup (bytes "a") =
      (parseHttpArgs (bytes "a=1")).lookup (bytes "a") := by
  have acc : createHttpSession (fun _ => none) [bytes "GET /x?a=1 HTTP/1.1"] =
      some ⟨bytes "/x", bytes "a=1", none, bytes "GET", bytes "1.1", bytes "keep-alive", none, none, []⟩ := by decide
  exact (target_args_agree_iff acc (by decide)).mpr (by decide) (bytes "a")

/-- A question mark in a value: the session loses the key in front of it. -/
theorem target_args_differ :
    ¬ ∀ (line : Bytes) (session : Session), createHttpSession (fun _ => none) [line] = some session →
      '?' ∈ requestTarget line →
      ∀ key, (parseHttpArgs (requestTarget line)).lookup key = (parseHttpArgs session.args).lookup key := by
  intro all
  have e := all (bytes "GET /x?a=1?b=2 HTTP/1.1")
    ⟨bytes "/x", bytes "a=1?b=2", none, bytes "GET", bytes "1.1", bytes "keep-alive", none, none, []⟩ (by decide)
    (by decide) (bytes "a")
  exact absurd e (by decide)

end CovNet.Query
