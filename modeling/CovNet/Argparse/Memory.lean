import CovNet.Argparse.Parser

/-!
# Parsing without memory

`ArgumentParser.parse_args` keeps the values it reads in the objects of the parser, and an exception leaves them half
written. A later call does not see them. Two parsers of one configuration agree after `reset` on all objects in use
(`Agree`), and parsers that agree take the same turns and end the same way, whatever is in the other objects. So a
call ends as it would on the parser before any calls (`parseArgs_memoryless`).
-/

namespace CovNet.Argparse
open Lib Text

/-- Two parsers that agree on what is in use. -/
structure Agree (p q : ArgumentParser) : Prop where
  argsArr : p.argsArr = q.argsArr
  optsMap : p.optsMap = q.optsMap
  heap : ∀ addr ∈ p.argsArr ++ p.optAddrs, p.heap addr = q.heap addr

namespace Agree
variable {p q : ArgumentParser} {addr : Nat}

lemma refl (p : ArgumentParser) : Agree p p := ⟨rfl, rfl, fun _ _ => rfl⟩

/-- An object found under a name is in use. -/
lemma opt (h : Agree p q) {name : Bytes} (look : p.optsMap.lookup name = some addr) : p.heap addr = q.heap addr :=
  h.heap addr (List.mem_append_right _ (ArgumentParser.mem_optAddrs look))

/-- Setting a value in both. -/
lemma setValue (h : Agree p q) (use : p.heap addr = q.heap addr) (val : Value) :
    Agree (p.setValue addr val) (q.setValue addr val) := by
  refine ⟨h.argsArr, h.optsMap, fun addr' mem => ?_⟩
  by_cases e : addr' = addr
  · rw [e, ArgumentParser.setValue_heap_self, ArgumentParser.setValue_heap_self, use]
  · rw [ArgumentParser.setValue_heap_ne e, ArgumentParser.setValue_heap_ne e]
    exact h.heap addr' mem

lemma optAddrs (h : Agree p q) : p.optAddrs = q.optAddrs := congrArg (fun m => m.entries.map Sigma.snd) h.optsMap

end Agree

/-- After `reset` parsers of one configuration agree. -/
lemma agree_reset {p q : ArgumentParser} (h : p.config = q.config) : Agree p.reset q.reset := by
  obtain ⟨args, opts, heap⟩ := ArgumentParser.config_eq h
  have addrs : p.optAddrs = q.optAddrs := congrArg (fun m => m.entries.map Sigma.snd) opts
  refine ⟨by simp [args], by simp [opts], fun addr mem => ?_⟩
  have used : addr ∈ p.argsArr ++ p.optAddrs := by
    simpa [ArgumentParser.optAddrs] using mem
  rw [ArgumentParser.reset_heap used, ArgumentParser.reset_heap (args ▸ addrs ▸ used)]
  have same := heap addr
  rw [(ArgumentParser.config_heap h addr).2.1]
  exact congrArg (fun it : KeyStore => { it with value := (q.heap addr).defaultVal }) same

/-- Two loops at the same point, of parsers that agree. -/
structure Level (st tt : Loop) : Prop where
  parser : Agree st.parser tt.parser
  readVal : st.readVal = tt.readVal
  argsIdx : st.argsIdx = tt.argsIdx
  key : st.key = tt.key

/-- Loops on a level take the same turn, and are on a level again. -/
lemma parseToken_level {st tt : Loop} (h : Level st tt) (arg : Bytes) :
    (∃ e, parseToken st arg = .error e ∧ parseToken tt arg = .error e) ∨
      ∃ st' tt', parseToken st arg = .ok st' ∧ parseToken tt arg = .ok tt' ∧ Level st' tt' := by
  obtain ⟨agree, readVal, argsIdx, key⟩ := h
  obtain ⟨p, r, i, k⟩ := st
  obtain ⟨q, r', i', k'⟩ := tt
  obtain rfl : r = r' := readVal
  obtain rfl : i = i' := argsIdx
  obtain rfl : k = k' := key
  have args : p.argsArr = q.argsArr := agree.argsArr
  have opts : p.optsMap = q.optsMap := agree.optsMap
  unfold parseToken
  simp only [← args, ← opts]
  by_cases free : r = false
  · simp only [if_pos free]
    by_cases opt : isOption arg
    · simp only [if_pos opt]
      cases look : p.optsMap.lookup (filter arg) with
      | none => exact .inl ⟨_, rfl, rfl⟩
      | some addr =>
        have use := agree.opt look
        simp only at use
        simp only [← use]
        by_cases switch : (p.heap addr).store = some true
        · simp only [if_pos switch]
          cases (p.heap addr).defaultVal with
          | boolean val => exact .inr ⟨_, _, rfl, rfl, agree.setValue use _, rfl, rfl, rfl⟩
          | null | string _ | other _ => exact .inl ⟨_, rfl, rfl⟩
        · simp only [if_neg switch]
          exact .inr ⟨_, _, rfl, rfl, agree, rfl, rfl, rfl⟩
    · simp only [if_neg opt]
      cases slot : p.argsArr[i]? with
      | none => exact .inl ⟨_, rfl, rfl⟩
      | some addr =>
        have use := agree.heap addr (List.mem_append_left _ (List.mem_of_getElem? slot))
        exact .inr ⟨_, _, rfl, rfl, agree.setValue use _, rfl, rfl, rfl⟩
  · simp only [if_neg free]
    split
    · exact .inl ⟨_, rfl, rfl⟩
    · cases look : p.optsMap.lookup k with
      | none => exact .inl ⟨_, rfl, rfl⟩
      | some addr => exact .inr ⟨_, _, rfl, rfl, agree.setValue (agree.opt look) _, rfl, rfl, rfl⟩

/-- So do their loops to the end. -/
lemma parseTokens_level {st tt : Loop} (h : Level st tt) (args : List Bytes) :
    Level (parseTokens st args).1 (parseTokens tt args).1 ∧ (parseTokens st args).2 = (parseTokens tt args).2 := by
  induction args generalizing st tt with
  | nil => exact ⟨h, rfl⟩
  | cons arg args ih =>
    rcases parseToken_level h arg with ⟨e, es, et⟩ | ⟨st', tt', es, et, h'⟩
    · simp only [parseTokens, es, et]
      exact ⟨h, trivial⟩
    · simp only [parseTokens, es, et]
      exact ih h'

/-- What is collected is read from the objects in use. -/
lemma foldlM_collect {p q : ArgumentParser} {addrs : List Nat} (h : ∀ addr ∈ addrs, p.heap addr = q.heap addr)
    (kind : String) (name : KeyStore → Bytes) (result : HashMap Bytes Value) :
    addrs.foldlM (collect kind name p) result = addrs.foldlM (collect kind name q) result := by
  induction addrs generalizing result with
  | nil => rfl
  | cons addr addrs ih =>
    have here : collect kind name p result addr = collect kind name q result addr := by
      rw [collect, collect, h addr List.mem_cons_self]
    rw [List.foldlM_cons, List.foldlM_cons, here]
    exact congrArg _ (funext fun result => ih (fun a mem => h a (List.mem_cons_of_mem addr mem)) result)

/-- Loops on a level end the same way. -/
lemma finish_level (absent : Except Error Bool) {st tt : Loop} (h : Level st tt) :
    finish absent st = finish absent tt := by
  have same : results st.parser = results tt.parser := by
    unfold results
    rw [← h.parser.argsArr, ← h.parser.optAddrs,
      foldlM_collect (fun addr mem => h.parser.heap addr (List.mem_append_left _ mem))]
    exact congrArg _ (funext fun result =>
      foldlM_collect (fun addr mem => h.parser.heap addr (List.mem_append_right _ mem)) _ _ result)
  unfold finish
  rw [h.readVal, h.key, same]

/-- On parsers of one configuration a call ends the same way. -/
lemma parseArgs_of_config {p q : ArgumentParser} (h : p.config = q.config) (absent : Except Error Bool)
    (args : List Bytes) : (parseArgs absent p args).1 = (parseArgs absent q args).1 := by
  have level : Level (start p) (start q) := ⟨agree_reset h, rfl, rfl, rfl⟩
  obtain ⟨ends, error⟩ := parseTokens_level level (args.drop 1)
  unfold parseArgs
  cases es : parseTokens (start p) (args.drop 1) with
  | mk st e =>
    cases et : parseTokens (start q) (args.drop 1) with
    | mk tt e' =>
      rw [es, et] at ends error
      obtain rfl : e = e' := error
      cases e with
      | none => exact finish_level absent ends
      | some e => rfl

/-- The parser after earlier calls, however they have ended. -/
def afterCalls (absent : Except Error Bool) (p : ArgumentParser) (earlier : List (List Bytes)) : ArgumentParser :=
  earlier.foldl (fun p args => (parseArgs absent p args).2) p

/-- Earlier calls leave the configuration alone. -/
lemma afterCalls_config (absent : Except Error Bool) (p : ArgumentParser) (earlier : List (List Bytes)) :
    (afterCalls absent p earlier).config = p.config := by
  induction earlier generalizing p with
  | nil => rfl
  | cons args earlier ih => exact (ih _).trans (parseArgs_config absent p args)

/-- `parse_args` has no memory: after any calls, whether they returned or threw, a call ends as on the parser before
them. -/
theorem parseArgs_memoryless (absent : Except Error Bool) (p : ArgumentParser) (earlier : List (List Bytes))
    (args : List Bytes) :
    (parseArgs absent (afterCalls absent p earlier) args).1 = (parseArgs absent p args).1 :=
  parseArgs_of_config (afterCalls_config absent p earlier) absent args

end CovNet.Argparse
