import Mathlib.Logic.Function.Basic
import CovNet.Lib.Grouping
import CovNet.Lib.System
import CovNet.Text.Bytes

/-!
# The argument parser

`ArgumentParser` (`argparse.ecs`). Its `KeyStore` objects are shared: an option is reached under its key and under
its aliases, so the objects are in a heap, and the parser has their addresses. `parsers` is the system of the calls
that set a parser up. The table of the options is a hash table, which may be iterated in any order: the step
`rehash` brings its entries into another one.

A token is read under the turn before it: `parseToken` is one turn of the loop of `parse_args`, and an exception
leaves the parser as the turns before have left it. Printing the help text is not modelled; a call that prints it
ends in `exited`. What the language makes of the condition `result_map.help` where the map has no such key is the
parameter `absent`.
-/

namespace CovNet.Argparse
open Lib Text

/-- A value of the script language. -/
inductive Value where
  | null
  | boolean (val : Bool)
  | string (val : Bytes)
  | other (val : Nat)
  deriving DecidableEq, Repr

/-- An exception: thrown by the parser, or raised by the language. -/
inductive Error where
  | exception (text : Bytes)
  | language
  deriving DecidableEq, Repr

/-- `KeyStore`. -/
structure KeyStore where
  key : Bytes
  defaultVal : Value
  store : Option Bool
  required : Bool
  helpText : Bytes
  value : Value
  deriving DecidableEq, Repr

/-- `ArgumentParser`, and the objects it has made. -/
structure ArgumentParser where
  heap : Nat → KeyStore
  next : Nat
  argsArr : List Nat
  optsMap : HashMap Bytes Nat
  aliasMap : HashMap Bytes Bytes

/-- `filter` as `parse_args` calls it: no blanks and no control characters. -/
def filter (str : Bytes) : Bytes := str.filter fun ch => !isSpace ch && !(ch.toNat < 32 || ch.toNat == 127)

/-- `remove_prefix`. -/
def removePrefix (str : Bytes) : Bytes := str.dropWhile (· == '-')

/-- `str.find("-", 0) == 0`. -/
def isOption (str : Bytes) : Bool := find ['-'] str = some 0

namespace ArgumentParser

/-- `gcnew`. -/
def gcnew (p : ArgumentParser) (store : KeyStore) : ArgumentParser :=
  { p with heap := Function.update p.heap p.next store, next := p.next + 1 }

/-- `add_argument`. -/
def addArgument (p : ArgumentParser) (key : Bytes) (required : Bool) (helpText : Bytes) : Except Error ArgumentParser :=
  if isOption key then .error (.exception (bytes "ArgumentParser: arguments can not contains \"-\""))
  else .ok { p.gcnew ⟨key, .null, none, required, helpText, .null⟩ with argsArr := p.argsArr ++ [p.next] }

/-- `add_option`. -/
def addOption (p : ArgumentParser) (key : Bytes) (store required : Bool) (helpText : Bytes) :
    Except Error ArgumentParser :=
  if find ['-'] key = none then .error (.exception (bytes "ArgumentParser: options must contains \"-\""))
  else .ok { p.gcnew ⟨key, if store then .boolean false else .null, some store, required, helpText, .null⟩ with
    optsMap := p.optsMap.insert key p.next }

/-- The default of an object is set. -/
def setDefault (p : ArgumentParser) (val : Value) (addr : Nat) : ArgumentParser :=
  { p with heap := Function.update p.heap addr { p.heap addr with defaultVal := val } }

/-- `set_defaults`. -/
def setDefaults (p : ArgumentParser) (key : Bytes) (val : Value) : ArgumentParser :=
  if isOption key then
    match p.optsMap.lookup key with
    | some addr => p.setDefault val addr
    | none => p
  else p.argsArr.foldl (fun p addr => if key = (p.heap addr).key then p.setDefault val addr else p) p

/-- `set_option_alias`. -/
def setOptionAlias (p : ArgumentParser) (key aliasKey : Bytes) : Except Error ArgumentParser :=
  if find ['-'] key = none then .error (.exception (bytes "ArgumentParser: options must contains \"-\""))
  else
    match p.optsMap.lookup key with
    | some addr => .ok { p with optsMap := p.optsMap.insert aliasKey addr, aliasMap := p.aliasMap.insert key aliasKey }
    | none => .ok p

/-- A parser before `initialize`. -/
def empty : ArgumentParser := ⟨fun _ => ⟨[], .null, none, false, [], .null⟩, 0, [], ∅, ∅⟩

/-- `initialize`. -/
def initParser : Except Error ArgumentParser :=
  (empty.addOption (bytes "--help") true false (bytes "Show help message")).bind
    (·.setOptionAlias (bytes "--help") (bytes "-h"))

end ArgumentParser

/-- The calls that set a parser up, and the order of the table. -/
inductive Call where
  | addArgument (key : Bytes) (required : Bool) (helpText : Bytes)
  | addOption (key : Bytes) (store required : Bool) (helpText : Bytes)
  | setDefaults (key : Bytes) (val : Value)
  | setOptionAlias (key aliasKey : Bytes)
  | rehash (optsMap : HashMap Bytes Nat)

/-- The parsers that are set up by calls that do not throw. -/
def parsers : System ArgumentParser Call where
  init p := ArgumentParser.initParser = .ok p
  next p c :=
    match c with
    | .addArgument key required helpText => (p.addArgument key required helpText).toOption
    | .addOption key store required helpText => (p.addOption key store required helpText).toOption
    | .setDefaults key val => some (p.setDefaults key val)
    | .setOptionAlias key aliasKey => (p.setOptionAlias key aliasKey).toOption
    | .rehash optsMap => if optsMap.entries.Perm p.optsMap.entries then some { p with optsMap } else none

/-! ## Parsing -/

namespace ArgumentParser

/-- The value of an object is set. -/
def setValue (p : ArgumentParser) (addr : Nat) (val : Value) : ArgumentParser :=
  { p with heap := Function.update p.heap addr { p.heap addr with value := val } }

/-- The addresses of the options, once for each name, in the order of the table. -/
def optAddrs (p : ArgumentParser) : List Nat := p.optsMap.entries.map Sigma.snd

/-- `reset`. -/
def reset (p : ArgumentParser) : ArgumentParser :=
  (p.argsArr ++ p.optAddrs).foldl (fun q addr => q.setValue addr (q.heap addr).defaultVal) p

end ArgumentParser

/-- The variables of the loop of `parse_args`. -/
structure Loop where
  parser : ArgumentParser
  readVal : Bool
  argsIdx : Nat
  key : Bytes

/-- What is thrown at an option that is not followed by a value. -/
def requiresValue (key : Bytes) : Error :=
  .exception (bytes "ArgumentParser: option \"" ++ key ++ bytes "\" requires a value.")

/-- One turn of the loop. -/
def parseToken (st : Loop) (arg : Bytes) : Except Error Loop :=
  let p := st.parser
  if st.readVal = false then
    if isOption arg then
      match p.optsMap.lookup (filter arg) with
      | none => .error (.exception (bytes "ArgumentParser: option \"" ++ filter arg ++ bytes "\" not supported."))
      | some addr =>
        if (p.heap addr).store = some true then
          match (p.heap addr).defaultVal with
          | .boolean val => .ok { st with parser := p.setValue addr (.boolean !val), key := filter arg }
          | _ => .error .language
        else .ok { st with readVal := true, key := filter arg }
    else
      match p.argsArr[st.argsIdx]? with
      | none => .error (.exception (bytes "ArgumentParser: too much arguments."))
      | some addr => .ok { st with parser := p.setValue addr (.string arg), argsIdx := st.argsIdx + 1 }
  else if isOption arg ∧ (p.optsMap.lookup (filter arg)).isSome then .error (requiresValue st.key)
  else
    match p.optsMap.lookup st.key with
    | none => .error .language
    | some addr => .ok { st with parser := p.setValue addr (.string arg), readVal := false }

/-- The loop: where it ends, and the exception it ends with. -/
def parseTokens : Loop → List Bytes → Loop × Option Error
  | st, [] => (st, none)
  | st, arg :: args =>
    match parseToken st arg with
    | .ok st' => parseTokens st' args
    | .error e => (st, some e)

/-- An entry of the result, or the exception where a required value is missing. -/
def collect (kind : String) (name : KeyStore → Bytes) (p : ArgumentParser) (result : HashMap Bytes Value) (addr : Nat) :
    Except Error (HashMap Bytes Value) :=
  if (p.heap addr).required = true ∧ (p.heap addr).value = .null then
    .error (.exception (bytes "ArgumentParser: " ++ bytes kind ++ bytes " \"" ++ (p.heap addr).key ++ bytes "\" required."))
  else .ok (result.insert (name (p.heap addr)) (p.heap addr).value)

/-- The two loops that fill `result_map`. -/
def results (p : ArgumentParser) : Except Error (HashMap Bytes Value) :=
  (p.argsArr.foldlM (collect "argument" KeyStore.key p) ∅).bind fun result =>
    p.optAddrs.foldlM (collect "option" (fun it => removePrefix it.key) p) result

/-- The condition `result_map.help`. -/
def helpSet (absent : Except Error Bool) (result : HashMap Bytes Value) : Except Error Bool :=
  match result.lookup (bytes "help") with
  | none => absent
  | some (.boolean val) => .ok val
  | some _ => .error .language

/-- How `parse_args` ends. -/
inductive Outcome where
  | returned (result : HashMap Bytes Value)
  | exited
  | threw (e : Error)
  deriving DecidableEq

/-- `parse_args` behind the loop. -/
def finish (absent : Except Error Bool) (st : Loop) : Outcome :=
  if st.readVal then .threw (requiresValue st.key)
  else
    match results st.parser with
    | .error e => .threw e
    | .ok result =>
      match helpSet absent result with
      | .error e => .threw e
      | .ok true => .exited
      | .ok false => .returned result

/-- The loop before its first turn. -/
def start (p : ArgumentParser) : Loop := ⟨p.reset, false, 0, []⟩

/-- `parse_args`: how it ends, and the parser it leaves. -/
def parseArgs (absent : Except Error Bool) (p : ArgumentParser) (args : List Bytes) : Outcome × ArgumentParser :=
  match parseTokens (start p) (args.drop 1) with
  | (st, some e) => (.threw e, st.parser)
  | (st, none) => (finish absent st, st.parser)

/-! ## What parsing leaves alone -/

namespace ArgumentParser
variable {p q : ArgumentParser} {addr addr' : Nat} {val : Value}

/-- The parser without the values of its objects. -/
def config (p : ArgumentParser) : ArgumentParser := { p with heap := fun addr => { p.heap addr with value := .null } }

@[simp] lemma setValue_argsArr : (p.setValue addr val).argsArr = p.argsArr := rfl

@[simp] lemma setValue_optsMap : (p.setValue addr val).optsMap = p.optsMap := rfl

@[simp] lemma setValue_optAddrs : (p.setValue addr val).optAddrs = p.optAddrs := rfl

lemma setValue_heap_self : (p.setValue addr val).heap addr = { p.heap addr with value := val } :=
  Function.update_self _ _ _

lemma setValue_heap_ne (ne : addr' ≠ addr) : (p.setValue addr val).heap addr' = p.heap addr' :=
  Function.update_of_ne ne _ _

/-- A value is no part of the configuration. -/
@[simp] lemma config_setValue : (p.setValue addr val).config = p.config := by
  have same : ∀ addr', { (p.setValue addr val).heap addr' with value := Value.null } =
      { p.heap addr' with value := Value.null } := by
    intro addr'
    by_cases e : addr' = addr
    · rw [e, setValue_heap_self]
    · rw [setValue_heap_ne e]
  simp only [config, same]
  rfl

/-- Parsers of one configuration differ in values only. -/
lemma config_eq (h : p.config = q.config) :
    p.argsArr = q.argsArr ∧ p.optsMap = q.optsMap ∧
      ∀ addr, { p.heap addr with value := Value.null } = { q.heap addr with value := Value.null } := by
  have args := congrArg argsArr h
  have opts := congrArg optsMap h
  have objects := congrArg heap h
  exact ⟨args, opts, fun addr => congrFun objects addr⟩

/-- The fields of an object that are configured. -/
lemma config_heap (h : p.config = q.config) (addr : Nat) :
    (p.heap addr).key = (q.heap addr).key ∧ (p.heap addr).defaultVal = (q.heap addr).defaultVal ∧
      (p.heap addr).store = (q.heap addr).store ∧ (p.heap addr).required = (q.heap addr).required := by
  have e := (config_eq h).2.2 addr
  simp only [KeyStore.mk.injEq] at e
  exact ⟨e.1, e.2.1, e.2.2.1, e.2.2.2.1⟩

/-- A name leads to one of the addresses of the options. -/
lemma mem_optAddrs {name : Bytes} (h : p.optsMap.lookup name = some addr) : addr ∈ p.optAddrs :=
  List.mem_map.mpr ⟨⟨name, addr⟩, AList.mem_lookup_iff.mp h, rfl⟩

lemma exists_of_mem_optAddrs (h : addr ∈ p.optAddrs) : ∃ name, p.optsMap.lookup name = some addr := by
  obtain ⟨⟨name, addr⟩, mem, rfl⟩ := List.mem_map.mp h
  exact ⟨name, AList.mem_lookup_iff.mpr mem⟩

/-- Setting the values of some objects to their defaults. -/
lemma foldl_reset (addrs : List Nat) (p : ArgumentParser) :
    (addrs.foldl (fun q addr => q.setValue addr (q.heap addr).defaultVal) p).config = p.config ∧
      ∀ addr, (addrs.foldl (fun q addr => q.setValue addr (q.heap addr).defaultVal) p).heap addr =
        if addr ∈ addrs then { p.heap addr with value := (p.heap addr).defaultVal } else p.heap addr := by
  induction addrs generalizing p with
  | nil => exact ⟨rfl, fun _ => rfl⟩
  | cons a addrs ih =>
    obtain ⟨conf, heap⟩ := ih (p.setValue a (p.heap a).defaultVal)
    refine ⟨conf.trans config_setValue, fun addr => ?_⟩
    rw [List.foldl_cons, heap]
    by_cases e : addr = a
    · rw [e, setValue_heap_self, if_pos List.mem_cons_self]
      split <;> rfl
    · rw [setValue_heap_ne e]
      simp only [List.mem_cons, e, false_or]

@[simp] lemma config_reset : p.reset.config = p.config := (foldl_reset _ p).1

@[simp] lemma reset_argsArr : p.reset.argsArr = p.argsArr := (config_eq config_reset).1

@[simp] lemma reset_optsMap : p.reset.optsMap = p.optsMap := (config_eq config_reset).2.1

/-- An object that is in use has its default. -/
lemma reset_heap (h : addr ∈ p.argsArr ++ p.optAddrs) :
    p.reset.heap addr = { p.heap addr with value := (p.heap addr).defaultVal } := by
  rw [reset, (foldl_reset _ p).2, if_pos h]

end ArgumentParser

/-- What a turn does: it sets a value, or takes note of an option that needs one. -/
lemma parseToken_cases {st st' : Loop} {arg : Bytes} (h : parseToken st arg = .ok st') :
    (st.readVal = false ∧ isOption arg = true ∧ ∃ addr, st.parser.optsMap.lookup (filter arg) = some addr ∧
      ((st.parser.heap addr).store = some true ∧ (∃ val, (st.parser.heap addr).defaultVal = .boolean val ∧
          st' = { st with parser := st.parser.setValue addr (.boolean !val), key := filter arg }) ∨
        (st.parser.heap addr).store ≠ some true ∧ st' = { st with readVal := true, key := filter arg })) ∨
    (st.readVal = false ∧ isOption arg = false ∧ ∃ addr, st.parser.argsArr[st.argsIdx]? = some addr ∧
      st' = { st with parser := st.parser.setValue addr (.string arg), argsIdx := st.argsIdx + 1 }) ∨
    (st.readVal = true ∧ ¬ (isOption arg = true ∧ (st.parser.optsMap.lookup (filter arg)).isSome = true) ∧
      ∃ addr, st.parser.optsMap.lookup st.key = some addr ∧
        st' = { st with parser := st.parser.setValue addr (.string arg), readVal := false }) := by
  unfold parseToken at h
  simp only at h
  split at h
  · rename_i free
    split at h
    · rename_i opt
      left
      split at h
      · cases h
      · rename_i addr look
        refine ⟨free, opt, addr, look, ?_⟩
        split at h
        · rename_i switch
          left
          refine ⟨switch, ?_⟩
          split at h
          · rename_i val def_
            cases h
            exact ⟨val, def_, rfl⟩
          · cases h
        · rename_i valued
          cases h
          exact .inr ⟨valued, rfl⟩
    · rename_i arg_
      right
      left
      split at h
      · cases h
      · rename_i addr slot
        cases h
        exact ⟨free, by simpa using arg_, addr, slot, rfl⟩
  · rename_i busy
    right
    right
    split at h
    · cases h
    · rename_i allowed
      split at h
      · cases h
      · rename_i addr look
        cases h
        exact ⟨by simpa using busy, allowed, addr, look, rfl⟩

/-- A turn leaves the configuration alone. -/
lemma parseToken_config {st st' : Loop} {arg : Bytes} (h : parseToken st arg = .ok st') :
    st'.parser.config = st.parser.config := by
  rcases parseToken_cases h with ⟨-, -, addr, -, ⟨-, val, -, rfl⟩ | ⟨-, rfl⟩⟩ | ⟨-, -, addr, -, rfl⟩ | ⟨-, -, addr, -, rfl⟩
  · exact ArgumentParser.config_setValue
  · rfl
  · exact ArgumentParser.config_setValue
  · exact ArgumentParser.config_setValue

lemma parseTokens_config (st : Loop) (args : List Bytes) :
    (parseTokens st args).1.parser.config = st.parser.config := by
  induction args generalizing st with
  | nil => rfl
  | cons arg args ih =>
    rw [parseTokens]
    cases turn : parseToken st arg with
    | ok st' => exact (ih st').trans (parseToken_config turn)
    | error e => rfl

/-- So does a call, however it ends. -/
lemma parseArgs_config (absent : Except Error Bool) (p : ArgumentParser) (args : List Bytes) :
    (parseArgs absent p args).2.config = p.config := by
  have conf := parseTokens_config (start p) (args.drop 1)
  unfold parseArgs
  split <;>
    · rename_i e
      rw [e] at conf
      exact conf.trans ArgumentParser.config_reset

end CovNet.Argparse
