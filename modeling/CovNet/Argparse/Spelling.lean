import Mathlib.Data.List.Dedup
import CovNet.Argparse.Lines

/-!
# Which command lines are read as they are written

`add_option` accepts every name with a hyphen somewhere in it, and `set_option_alias` every alias; `parse_args` looks
up only the tokens that start with a hyphen, without their blanks and control characters. A name that is registered is
of use exactly if it starts with a hyphen and is found behind the filter, and a value that starts with a hyphen
exactly if nothing is found behind it (`parseArgs_faithful_iff`).

For the necessity of the conditions a complete line is built around the name or the value in question: every
argument, and every other option that is required, has a value that occurs nowhere else, so that what the token does
instead can be seen in the result.
-/

namespace CovNet.Argparse
open Lib Text

namespace ArgumentParser
variable {p : ArgumentParser} {K V : Set Bytes} {items base : List Item} {item : Item} {st : Loop} {addr s : Nat}
  {u : Bytes}

/-- Every complete line over the names `K` and the values `V` that start with a hyphen is accepted, and gives what
it lists. -/
def Faithful (absent : Except Error Bool) (p : ArgumentParser) (K V : Set Bytes) : Prop :=
  ∀ (program : Bytes) (items : List Item), p.Lists K V items →
    ∃ result, (parseArgs absent p (program :: items.flatMap Item.tokens)).1 = .returned result ∧ p.Yields items result

/-- There is a name for every option that is required. -/
def Covers (p : ArgumentParser) (K : Set Bytes) : Prop :=
  ∀ name addr, p.optsMap.lookup name = some addr → (p.heap addr).required = true →
    (p.heap addr).store = some false → ∃ other ∈ K, p.optsMap.lookup other = some addr

/-! ## Lines around one option -/

/-- A line that is complete but for the option `s`: every value on it is `u`. -/
structure Base (p : ArgumentParser) (K V : Set Bytes) (u : Bytes) (s : Nat) (base : List Item) : Prop where
  allowed : ∀ item ∈ base, p.Allowed K V item
  arguments : arguments base = List.replicate p.argsArr.length u
  once : ((p.settings base).map Prod.fst).Nodup
  new : s ∉ (p.settings base).map Prod.fst
  vals : ∀ entry ∈ p.settings base, entry.2 = .string u
  all : ∀ name addr, p.optsMap.lookup name = some addr → (p.heap addr).required = true →
    (p.heap addr).store = some false → addr ≠ s → addr ∈ (p.settings base).map Prod.fst

/-- Arguments alone, with one value. -/
lemma exists_arguments (plain : isOption u = false) (K V : Set Bytes) (n : Nat) :
    ∃ items, (∀ item ∈ items, p.Allowed K V item) ∧ Argparse.arguments items = List.replicate n u ∧
      p.settings items = [] := by
  induction n with
  | zero => exact ⟨[], fun item mem => absurd mem List.not_mem_nil, rfl, rfl⟩
  | succ n ih =>
    obtain ⟨items, allowed, args, unset⟩ := ih
    refine ⟨.argument u :: items, List.forall_mem_cons.mpr ⟨plain, allowed⟩, ?_, unset⟩
    exact congrArg (u :: ·) args

/-- Options alone, with one value. -/
lemma exists_options (plain : isOption u = false) (fresh : p.optsMap.lookup u = none) (V : Set Bytes) {addrs : List Nat}
    (named : ∀ addr ∈ addrs, (p.heap addr).store = some false ∧ ∃ name ∈ K, p.optsMap.lookup name = some addr) :
    ∃ items, (∀ item ∈ items, p.Allowed K V item) ∧ Argparse.arguments items = [] ∧
      p.settings items = addrs.map fun addr => (addr, .string u) := by
  induction addrs with
  | nil => exact ⟨[], fun item mem => absurd mem List.not_mem_nil, rfl, rfl⟩
  | cons addr addrs ih =>
    obtain ⟨items, allowed, none, set_⟩ := ih fun a mem => named a (List.mem_cons_of_mem addr mem)
    obtain ⟨valued, name, inK, look⟩ := named addr List.mem_cons_self
    refine ⟨.option name u :: items, List.forall_mem_cons.mpr ⟨?_, allowed⟩, none, ?_⟩
    · exact ⟨inK, ⟨addr, look, valued⟩, fresh, fun opt => absurd opt (by rw [plain]; exact Bool.false_ne_true)⟩
    · rw [← List.singleton_append, settings_append, setting_option look, set_]
      rfl

/-- The options that have to be on a line beside `s`. -/
def needed (p : ArgumentParser) (s : Nat) : List Nat :=
  p.optAddrs.dedup.filter fun addr => (p.heap addr).required = true ∧ (p.heap addr).store = some false ∧ addr ≠ s

lemma mem_needed :
    addr ∈ p.needed s ↔
      addr ∈ p.optAddrs ∧ (p.heap addr).required = true ∧ (p.heap addr).store = some false ∧ addr ≠ s := by
  rw [needed, List.mem_filter, List.mem_dedup, decide_eq_true_iff]

/-- There is such a line. -/
lemma exists_base (covers : p.Covers K) (plain : isOption u = false) (fresh : p.optsMap.lookup u = none) (V : Set Bytes)
    (s : Nat) : ∃ base, p.Base K V u s base := by
  obtain ⟨first, allowed, full, unset⟩ := exists_arguments plain K V p.argsArr.length
  have named : ∀ addr ∈ p.needed s,
      (p.heap addr).store = some false ∧ ∃ name ∈ K, p.optsMap.lookup name = some addr := by
    intro addr mem
    obtain ⟨inOpts, required, valued, -⟩ := mem_needed.mp mem
    obtain ⟨name, look⟩ := exists_of_mem_optAddrs inOpts
    exact ⟨valued, covers name addr look required valued⟩
  obtain ⟨second, allowed', none, set_⟩ := exists_options plain fresh V named
  have settings : p.settings (first ++ second) = (p.needed s).map fun addr => (addr, Value.string u) := by
    rw [settings_append, unset, set_, List.nil_append]
  have keys : (p.settings (first ++ second)).map Prod.fst = p.needed s := by
    rw [settings, List.map_map]
    exact List.map_id' (p.needed s)
  refine ⟨first ++ second, ?_, ?_, ?_, ?_, ?_, ?_⟩
  · exact List.forall_mem_append.mpr ⟨allowed, allowed'⟩
  · rw [arguments_append, full, none, List.append_nil]
  · rw [keys]
    exact (List.nodup_dedup _).filter _
  · rw [keys]
    exact fun mem => (mem_needed.mp mem).2.2.2 rfl
  · intro entry mem
    rw [settings] at mem
    obtain ⟨addr, -, rfl⟩ := List.mem_map.mp mem
    rfl
  · intro name addr look required valued ne
    rw [keys]
    exact mem_needed.mpr ⟨mem_optAddrs look, required, valued, ne⟩

/-- With the option, the line is complete. -/
lemma Base.lists_append (b : p.Base K V u s base) (allowed : p.Allowed K V item) (none : Argparse.arguments [item] = [])
    {val : Value} (setting : p.settings [item] = [(s, val)]) : p.Lists K V (base ++ [item]) := by
  have args : Argparse.arguments (base ++ [item]) = List.replicate p.argsArr.length u := by
    rw [arguments_append, none, List.append_nil, b.arguments]
  have keys : (p.settings (base ++ [item])).map Prod.fst = (p.settings base).map Prod.fst ++ [s] := by
    rw [settings_append, setting, List.map_append]
    rfl
  refine ⟨?_, ?_, ?_, ?_, ?_⟩
  · rw [List.forall_mem_append, List.forall_mem_singleton]
    exact ⟨b.allowed, allowed⟩
  · rw [keys]
    refine List.nodup_append.mpr ⟨b.once, List.nodup_singleton s, ?_⟩
    rintro a mem b' mem' rfl
    rw [List.mem_singleton.mp mem'] at mem
    exact b.new mem
  · rw [args, List.length_replicate]
  · rw [args, List.length_replicate, List.drop_length]
    exact fun addr mem => absurd mem List.not_mem_nil
  · intro name addr look required valued
    rw [keys, List.mem_append, List.mem_singleton]
    by_cases e : addr = s
    · exact .inr e
    · exact .inl (b.all name addr look required valued e)

/-- Without an option that need not be there, it is complete. -/
lemma Base.lists (b : p.Base K V u s base) (switch : (p.heap s).store = some true) : p.Lists K V base := by
  refine ⟨b.allowed, b.once, ?_, ?_, ?_⟩
  · rw [b.arguments, List.length_replicate]
  · rw [b.arguments, List.length_replicate, List.drop_length]
    exact fun addr mem => absurd mem List.not_mem_nil
  · intro name addr look required valued
    apply b.all name addr look required valued
    rintro rfl
    rw [switch] at valued
    cases valued

/-! ## What the last tokens do -/

/-- A call that gives what a line lists has left its values. -/
lemma ends_of_yields (h : p.SetUp) (distinct : p.Distinct) {absent : Except Error Bool} {program : Bytes}
    {tokens : List Bytes} {result : HashMap Bytes Value}
    (returned : (parseArgs absent p (program :: tokens)).1 = .returned result) (yields : p.Yields items result) :
    ∃ st, parseTokens (start p) tokens = (st, none) ∧ p.Ends items st ∧ results st.parser = .ok result ∧
      helpSet absent result = .ok false := by
  obtain ⟨st, run, free, collected, off⟩ := parseArgs_returned.mp returned
  have conf : st.parser.config = p.config := by
    have e := parseTokens_config (start p) tokens
    rw [run] at e
    exact e.trans config_reset
  have setUp := h.of_config conf
  have names := distinct.of_config conf
  refine ⟨st, run, ⟨conf, free, fun i addr slot => ?_, fun addr mem => ?_⟩, collected, off⟩
  · have mem := List.mem_of_getElem? slot
    have used : addr ∈ st.parser.used := used_config conf ▸ List.mem_append_left _ mem
    have val := lookup_results setUp names collected used
    rw [resultName_config conf, h.resultName_arg mem, yields.args i addr slot] at val
    exact (Option.some.inj val).symm
  · obtain ⟨name, look⟩ := exists_of_mem_optAddrs mem
    have used : addr ∈ st.parser.used := used_config conf ▸ List.mem_append_right _ mem
    have val := lookup_results setUp names collected used
    rw [resultName_config conf, h.resultName_opt look, yields.opts name addr look] at val
    exact (Option.some.inj val).symm

/-- In the middle of a line, an option that waits for its value is one that takes a value. -/
structure Midway (p : ArgumentParser) (st : Loop) : Prop where
  config : st.parser.config = p.config
  waits : st.readVal = true → ∃ addr, p.optsMap.lookup st.key = some addr ∧ (p.heap addr).store ≠ some true

/-- What a token does, in the terms of the parser before the call. -/
lemma Midway.cases (m : p.Midway st) {st' : Loop} {arg : Bytes} (h : parseToken st arg = .ok st') :
    (st.readVal = false ∧ isOption arg = true ∧ ∃ addr, p.optsMap.lookup (filter arg) = some addr ∧
      ((p.heap addr).store = some true ∧ (∃ val, (p.heap addr).defaultVal = .boolean val ∧
          st' = { st with parser := st.parser.setValue addr (.boolean !val), key := filter arg }) ∨
        (p.heap addr).store ≠ some true ∧ st' = { st with readVal := true, key := filter arg })) ∨
    (st.readVal = false ∧ isOption arg = false ∧ ∃ addr, p.argsArr[st.argsIdx]? = some addr ∧
      st' = { st with parser := st.parser.setValue addr (.string arg), argsIdx := st.argsIdx + 1 }) ∨
    (st.readVal = true ∧ ¬ (isOption arg = true ∧ (p.optsMap.lookup (filter arg)).isSome = true) ∧
      ∃ addr, p.optsMap.lookup st.key = some addr ∧ (p.heap addr).store ≠ some true ∧
        st' = { st with parser := st.parser.setValue addr (.string arg), readVal := false }) := by
  obtain ⟨args, opts, -⟩ := config_eq m.config
  have turn := parseToken_cases h
  rw [args, opts] at turn
  rcases turn with ⟨free, opt, addr, look, does⟩ | turn | ⟨busy, taken, addr, look, e⟩
  · obtain ⟨-, default_, store, -⟩ := config_heap m.config addr
    rw [default_, store] at does
    exact .inl ⟨free, opt, addr, look, does⟩
  · exact .inr (.inl turn)
  · obtain ⟨other, look', valued⟩ := m.waits busy
    obtain rfl : addr = other := Option.some.inj (look.symm.trans look')
    exact .inr (.inr ⟨busy, taken, addr, look, valued, e⟩)

/-- A token leaves the loop midway. -/
lemma Midway.step (m : p.Midway st) {st' : Loop} {arg : Bytes} (h : parseToken st arg = .ok st') : p.Midway st' := by
  refine ⟨(parseToken_config h).trans m.config, fun busy => ?_⟩
  rcases m.cases h with ⟨free, -, addr, look, ⟨-, val, -, rfl⟩ | ⟨valued, rfl⟩⟩ | ⟨free, -, addr, -, rfl⟩ |
    ⟨-, -, addr, -, -, rfl⟩
  · rw [free] at busy
    cases busy
  · exact ⟨addr, look, valued⟩
  · rw [free] at busy
    cases busy
  · cases busy

/-- The loop passes through the middle of a line. -/
lemma exists_midway (m : p.Midway st) {front back : List Bytes} {st' : Loop}
    (run : parseTokens st (front ++ back) = (st', none)) :
    ∃ mid, p.Midway mid ∧ parseTokens mid back = (st', none) := by
  induction front generalizing st with
  | nil => exact ⟨st, m, run⟩
  | cons arg front ih =>
    rw [List.cons_append, parseTokens] at run
    cases turn : parseToken st arg with
    | ok mid =>
      rw [turn] at run
      exact ih (m.step turn) run
    | error e =>
      rw [turn] at run
      cases run

/-- An argument has the value of the line. -/
lemma Base.argVal (b : p.Base K V u s base) (none : Argparse.arguments [item] = []) {i : Nat}
    (slot : p.argsArr[i]? = some addr) : p.argVal (base ++ [item]) i addr = .string u := by
  have lt := (List.getElem?_eq_some_iff.mp slot).1
  rw [ArgumentParser.argVal, arguments_append, none, List.append_nil, b.arguments, List.getElem?_replicate, if_pos lt]
  rfl

/-- Another option has the value of the line, or its default. -/
lemma Base.optVal_ne (b : p.Base K V u s base) {val : Value} (setting : p.settings [item] = [(s, val)])
    (ne : addr ≠ s) :
    p.optVal (base ++ [item]) addr = .string u ∨ p.optVal (base ++ [item]) addr = (p.heap addr).defaultVal := by
  rw [optVal_other setting ne, optVal]
  cases set_ : (p.settings base).lookup addr with
  | none => exact .inr rfl
  | some val => exact .inl (b.vals (addr, val) (mem_of_lookup set_))

/-- The option has the value that was put behind the line. -/
lemma Base.optVal_self (b : p.Base K V u s base) {val : Value} (setting : p.settings [item] = [(s, val)]) :
    p.optVal (base ++ [item]) s = val := optVal_last setting b.new

section Stray
variable {val : Value} {x : Bytes}

/-- No argument has another value. -/
lemma Base.arg_ne (b : p.Base K V u s base) (none : Argparse.arguments [item] = []) (ends : p.Ends (base ++ [item]) st)
    {i : Nat} (slot : p.argsArr[i]? = some addr) (ne : x ≠ u) : (st.parser.heap addr).value ≠ .string x := by
  rw [ends.args i addr slot, b.argVal none slot]
  intro e
  exact ne (Value.string.inj e).symm

/-- No other option that takes a value has another one. -/
lemma Base.opt_ne (b : p.Base K V u s base) (h : p.SetUp) (setting : p.settings [item] = [(s, val)])
    (ends : p.Ends (base ++ [item]) st) {name : Bytes} (look : p.optsMap.lookup name = some addr)
    (valued : (p.heap addr).store ≠ some true) (other : addr ≠ s) (ne : x ≠ u) :
    (st.parser.heap addr).value ≠ .string x := by
  rw [ends.opts addr (mem_optAddrs look)]
  rcases b.optVal_ne setting other with e | e
  · rw [e]
    intro e
    exact ne (Value.string.inj e).symm
  · rw [e, h.defaults addr (h.opts_lt name addr look)]
    obtain ⟨store, is⟩ := h.opts_store name addr look
    rw [is] at valued ⊢
    cases store with
    | true => exact absurd rfl valued
    | false => exact Value.noConfusion

end Stray

/-- A switch at the end of a line that is read as it is written has a good name. -/
lemma Base.goodName_switch (b : p.Base K V u s base) (h : p.SetUp) {name : Bytes}
    (look : p.optsMap.lookup name = some s) (switch : (p.heap s).store = some true) (ne : name ≠ u) {mid : Loop}
    (m : p.Midway mid) (turn : parseToken mid name = .ok st) (ends : p.Ends (base ++ [.switch name]) st) :
    p.GoodName name := by
  have setting := setting_switch look
  rcases m.cases turn with ⟨-, opt, addr, found, ⟨on, val, off, rfl⟩ | ⟨-, rfl⟩⟩ | ⟨-, -, addr, slot, rfl⟩ |
    ⟨-, -, addr, waiting, valued, rfl⟩
  · by_cases e : addr = s
    · exact ⟨opt, by rw [found, look, e]⟩
    · -- another switch is on
      have on := ends.opts addr (mem_optAddrs found)
      rw [setValue_heap_self] at on
      rcases b.optVal_ne setting e with e' | e'
      · rw [e'] at on
        cases on
      · rw [e', off] at on
        cases val <;> cases on
  · cases ends.readVal
  · -- the name is an argument
    exact absurd (congrArg KeyStore.value setValue_heap_self) (b.arg_ne rfl ends slot ne)
  · -- the name is the value of another option
    have other : addr ≠ s := by
      rintro rfl
      exact valued switch
    exact absurd (congrArg KeyStore.value setValue_heap_self) (b.opt_ne h setting ends waiting valued other ne)

/-- An option and its value, likewise. -/
lemma Base.goodName_option (b : p.Base K V u s base) (h : p.SetUp) {name v : Bytes}
    (look : p.optsMap.lookup name = some s) (plain : isOption v = false) (ne : v ≠ u)
    {mid mid' : Loop} (m : p.Midway mid) (first : parseToken mid name = .ok mid') (second : parseToken mid' v = .ok st)
    (ends : p.Ends (base ++ [.option name v]) st) : p.GoodName name := by
  have setting : p.settings [.option name v] = [(s, .string v)] := setting_option look
  have m' := m.step first
  rcases m'.cases second with ⟨-, opt, -⟩ | ⟨-, -, addr, slot, rfl⟩ | ⟨busy, -, addr, waiting, valued, rfl⟩
  · rw [plain] at opt
    cases opt
  · -- the value is an argument
    exact absurd (congrArg KeyStore.value setValue_heap_self) (b.arg_ne rfl ends slot ne)
  · -- the value is one of an option, which can only be this one
    have this_ : addr = s := by
      by_contra other
      exact absurd (congrArg KeyStore.value setValue_heap_self) (b.opt_ne h setting ends waiting valued other ne)
    rcases m.cases first with ⟨free, opt, addr', found, ⟨-, val, -, rfl⟩ | ⟨-, rfl⟩⟩ | ⟨free, -, addr', -, rfl⟩ |
      ⟨-, -, addr', -, -, rfl⟩
    · rw [free] at busy
      cases busy
    · refine ⟨opt, ?_⟩
      rw [look, ← this_]
      exact waiting
    · rw [free] at busy
      cases busy
    · cases busy

/-- A value that is not registered is not found behind the filter either. -/
lemma Base.goodValue (b : p.Base K V u s base) (h : p.SetUp) {name w : Bytes} (look : p.optsMap.lookup name = some s)
    (valued : (p.heap s).store = some false) (good : p.GoodName name) (ne : name ≠ u)
    (unregistered : p.optsMap.lookup w = none) {mid mid' : Loop} (m : p.Midway mid)
    (first : parseToken mid name = .ok mid') (second : parseToken mid' w = .ok st)
    (ends : p.Ends (base ++ [.option name w]) st) : p.GoodValue w := by
  intro opt
  by_contra found
  have setting : p.settings [.option name w] = [(s, .string w)] := setting_option look
  have m' := m.step first
  rcases m'.cases second with ⟨free, -, addr, found', ⟨on, val, off, rfl⟩ | ⟨-, rfl⟩⟩ | ⟨-, plain, -⟩ | ⟨-, taken, -⟩
  · -- the value is a switch: then the name has been the value of some option
    rcases m.cases first with ⟨-, -, addr', look', ⟨on', -⟩ | ⟨-, rfl⟩⟩ | ⟨-, plain, -⟩ | ⟨-, -, addr', waiting, valued', rfl⟩
    · obtain rfl : addr' = s := by
        rw [good.2, look] at look'
        exact (Option.some.inj look').symm
      rw [valued] at on'
      cases on'
    · cases free
    · rw [good.1] at plain
      cases plain
    · have apart : addr' ≠ addr := by
        rintro rfl
        exact valued' on
      have kept : (((mid.parser.setValue addr' (.string name)).setValue addr (.boolean !val)).heap addr').value =
          .string name := by
        rw [setValue_heap_ne apart, setValue_heap_self]
      by_cases e : addr' = s
      · have is := ends.opts s (mem_optAddrs look)
        rw [b.optVal_self setting, ← e] at is
        obtain rfl : w = name := Value.string.inj (is.symm.trans kept)
        rw [look] at unregistered
        cases unregistered
      · exact b.opt_ne h setting ends waiting valued' e ne kept
  · cases ends.readVal
  · rw [opt] at plain
    cases plain
  · exact taken ⟨opt, Option.isSome_iff_ne_none.mpr found⟩

/-- The registered names are not arbitrarily long. -/
lemma exists_length_lt (names : List Bytes) : ∃ n, ∀ name ∈ names, name.length < n := by
  induction names with
  | nil => exact ⟨0, fun _ mem => absurd mem List.not_mem_nil⟩
  | cons name names ih =>
    obtain ⟨n, all⟩ := ih
    refine ⟨n + name.length + 1, List.forall_mem_cons.mpr ⟨by omega, fun other mem => ?_⟩⟩
    have lt := all other mem
    omega

/-- Letters alone are no option. -/
lemma isOption_letters (n : Nat) : isOption (List.replicate n 'a') = false := by
  cases n with
  | zero => rfl
  | succ n =>
    rw [isOption, decide_eq_false_iff_not, find_eq_zero, List.replicate_succ]
    rintro ⟨t, e⟩
    cases e

/-- There are two values that are not registered and do not start with a hyphen. -/
lemma exists_fresh (p : ArgumentParser) :
    ∃ u v : Bytes, u ≠ v ∧ (isOption u = false ∧ p.optsMap.lookup u = none) ∧
      isOption v = false ∧ p.optsMap.lookup v = none := by
  obtain ⟨n, all⟩ := exists_length_lt p.optsMap.keys
  have fresh : ∀ m, n ≤ m → p.optsMap.lookup (List.replicate m 'a') = none := by
    intro m le
    rw [AList.lookup_eq_none]
    intro mem
    have lt := all _ (AList.mem_keys.mp mem)
    rw [List.length_replicate] at lt
    omega
  refine ⟨_, _, ?_, ⟨isOption_letters n, fresh n (Nat.le_refl n)⟩, isOption_letters (n + 1), fresh (n + 1) (Nat.le_succ n)⟩
  intro e
  have lengths := congrArg List.length e
  rw [List.length_replicate, List.length_replicate] at lengths
  omega

/-! ## Names, values and `--help` -/

/-- A line that is read as it is written, up to its last item. -/
lemma Faithful.last {absent : Except Error Bool} (faithful : Faithful absent p K V) (h : p.SetUp) (distinct : p.Distinct)
    (lists : p.Lists K V (base ++ [item])) :
    ∃ mid st, p.Midway mid ∧ parseTokens mid item.tokens = (st, none) ∧ p.Ends (base ++ [item]) st := by
  obtain ⟨result, returned, yields⟩ := faithful [] _ lists
  obtain ⟨st, run, ends, -⟩ := ends_of_yields h distinct returned yields
  have begin : p.Midway (start p) := ⟨config_reset, fun busy => by cases busy⟩
  rw [List.flatMap_append, List.flatMap_singleton] at run
  obtain ⟨mid, m, rest⟩ := exists_midway begin run
  exact ⟨mid, st, m, rest, ends⟩

/-- One token to the end. -/
lemma parseTokens_one {mid : Loop} {x : Bytes} (run : parseTokens mid [x] = (st, none)) : parseToken mid x = .ok st := by
  rw [parseTokens] at run
  cases turn : parseToken mid x with
  | ok st' =>
    rw [turn] at run
    cases run
    rfl
  | error e =>
    rw [turn] at run
    cases run

/-- Two tokens. -/
lemma parseTokens_two {mid : Loop} {x y : Bytes} (run : parseTokens mid [x, y] = (st, none)) :
    ∃ mid', parseToken mid x = .ok mid' ∧ parseToken mid' y = .ok st := by
  rw [parseTokens] at run
  cases turn : parseToken mid x with
  | ok mid' =>
    rw [turn] at run
    exact ⟨mid', rfl, parseTokens_one run⟩
  | error e =>
    rw [turn] at run
    cases run

/-- The names are good. -/
lemma Faithful.goodName {absent : Except Error Bool} (faithful : Faithful absent p K V) (h : p.SetUp)
    (distinct : p.Distinct) (covers : p.Covers K) {name : Bytes} (inK : name ∈ K)
    (look : p.optsMap.lookup name = some s) (ne : s ≠ 0) : p.GoodName name := by
  obtain ⟨u, v, apart, ⟨plain, fresh⟩, plain', fresh'⟩ := exists_fresh p
  obtain ⟨base, b⟩ := exists_base covers plain fresh V s
  have name_ne : name ≠ u := by
    rintro rfl
    rw [look] at fresh
    cases fresh
  obtain ⟨store, is⟩ := h.opts_store name s look
  cases store with
  | true =>
    have allowed : p.Allowed K V (.switch name) := ⟨inK, s, look, ne, is⟩
    have lists := b.lists_append allowed rfl (setting_switch look)
    obtain ⟨mid, st, m, run, ends⟩ := faithful.last h distinct lists
    exact b.goodName_switch h look is name_ne m (parseTokens_one run) ends
  | false =>
    have allowed : p.Allowed K V (.option name v) :=
      ⟨inK, ⟨s, look, is⟩, fresh', fun opt => absurd opt (by rw [plain']; exact Bool.false_ne_true)⟩
    have lists := b.lists_append allowed rfl (setting_option look)
    obtain ⟨mid, st, m, run, ends⟩ := faithful.last h distinct lists
    obtain ⟨mid', first, second⟩ := parseTokens_two run
    exact b.goodName_option h look plain' apart.symm m first second ends

/-- The values are good. -/
lemma Faithful.goodValue {absent : Except Error Bool} (faithful : Faithful absent p K V) (h : p.SetUp)
    (distinct : p.Distinct) (covers : p.Covers K) {name w : Bytes} (inK : name ∈ K)
    (look : p.optsMap.lookup name = some s) (valued : (p.heap s).store = some false) (inV : w ∈ V)
    (unregistered : p.optsMap.lookup w = none) : p.GoodValue w := by
  obtain ⟨u, -, -, ⟨plain, fresh⟩, -⟩ := exists_fresh p
  obtain ⟨base, b⟩ := exists_base covers plain fresh V s
  have name_ne : name ≠ u := by
    rintro rfl
    rw [look] at fresh
    cases fresh
  have ne : s ≠ 0 := by
    rintro rfl
    rw [h.help.2.1] at valued
    cases valued
  have good := faithful.goodName h distinct covers inK look ne
  have allowed : p.Allowed K V (.option name w) := ⟨inK, ⟨s, look, valued⟩, unregistered, fun _ => inV⟩
  have lists := b.lists_append allowed rfl (setting_option look)
  obtain ⟨mid, st, m, run, ends⟩ := faithful.last h distinct lists
  obtain ⟨mid', first, second⟩ := parseTokens_two run
  exact b.goodValue h look valued good name_ne unregistered m first second ends

/-- Something is returned. -/
lemma Faithful.helpOff {absent : Except Error Bool} (faithful : Faithful absent p K V) (h : p.SetUp)
    (distinct : p.Distinct) (covers : p.Covers K) : HelpOff absent p := by
  obtain ⟨u, -, -, ⟨plain, fresh⟩, -⟩ := exists_fresh p
  obtain ⟨base, b⟩ := exists_base covers plain fresh V 0
  have lists := b.lists h.help.2.1
  obtain ⟨result, returned, yields⟩ := faithful [] _ lists
  obtain ⟨st, -, ends, collected, off⟩ := ends_of_yields h distinct returned yields
  exact (helpSet_iff h distinct ends (lists.unset h) collected).mp off

end ArgumentParser

open ArgumentParser

/-- Command lines parse back to what was written, for every parser that is set up without an exception and whose
result names are distinct, exactly if the names on them start with a hyphen and are found behind the filter, and
their values are not found behind it. -/
theorem parseArgs_faithful_iff {p : ArgumentParser} (h : registrations.Reachable p) (distinct : p.Distinct)
    (absent : Except Error Bool) {K : Set Bytes} (covers : p.Covers K) (V : Set Bytes) :
    Faithful absent p K V ↔
      HelpOff absent p ∧
      (∀ name ∈ K, ∀ addr, p.optsMap.lookup name = some addr → addr ≠ 0 → p.GoodName name) ∧
      ∀ name ∈ K, ∀ addr, p.optsMap.lookup name = some addr → (p.heap addr).store = some false →
        ∀ val ∈ V, p.optsMap.lookup val = none → p.GoodValue val := by
  have setUp := setUp_of_reachable h
  constructor
  · intro faithful
    refine ⟨faithful.helpOff setUp distinct covers, fun name inK addr look ne => ?_, ?_⟩
    · exact faithful.goodName setUp distinct covers inK look ne
    · intro name inK addr look valued val inV unregistered
      exact faithful.goodValue setUp distinct covers inK look valued inV unregistered
  · rintro ⟨off, names, vals⟩ program items lists
    refine parseArgs_items setUp distinct off lists (fun item mem => ?_) program
    have allowed := lists.allowed item mem
    cases item with
    | argument val => trivial
    | switch name =>
      obtain ⟨inK, addr, look, ne, -⟩ := allowed
      exact names name inK addr look ne
    | option name val =>
      obtain ⟨inK, ⟨addr, look, valued⟩, unregistered, inV⟩ := allowed
      have ne : addr ≠ 0 := by
        rintro rfl
        rw [setUp.help.2.1] at valued
        cases valued
      exact ⟨names name inK addr look ne, fun opt => vals name inK addr look valued val (inV opt) unregistered opt⟩

/-! ## A parser with two options -/

/-- A parser as a script starts with it. -/
def newParser : ArgumentParser := initParser.toOption.getD .empty

/-- With the option `--port`. -/
def portParser : ArgumentParser :=
  (newParser.addOption (bytes "--port") false false (bytes "Port")).toOption.getD .empty

/-- And with an option whose name has a hyphen in the middle. -/
def logParser : ArgumentParser :=
  (portParser.addOption (bytes "log-file") false false (bytes "Log")).toOption.getD .empty

lemma logParser_reachable : registrations.Reachable logParser := by
  have first : registrations.Reachable newParser := .init rfl
  have second : registrations.Reachable portParser :=
    .step (a := .addOption (bytes "--port") false false (bytes "Port")) first rfl
  exact .step (a := .addOption (bytes "log-file") false false (bytes "Log")) second rfl

lemma logParser_distinct : logParser.Distinct := by
  have all : ∀ a < 3, ∀ b < 3, logParser.resultName a = logParser.resultName b → a = b := by decide
  exact fun a b ha hb => all a ha b hb

/-- Nothing is required of it. -/
lemma logParser_optional {name : Bytes} {addr : Nat} (look : logParser.optsMap.lookup name = some addr) :
    (logParser.heap addr).required = false := by
  have lt := (setUp_of_reachable logParser_reachable).opts_lt name addr look
  have all : ∀ a < 3, (logParser.heap a).required = false := by decide
  exact all addr lt

/-- A line that sets one of its options. -/
lemma logParser_lists {K V : Set Bytes} {name val : Bytes} {addr : Nat} (inK : name ∈ K)
    (look : logParser.optsMap.lookup name = some addr) (valued : (logParser.heap addr).store = some false)
    (unregistered : logParser.optsMap.lookup val = none) (inV : isOption val = true → val ∈ V) :
    logParser.Lists K V [.option name val] := by
  refine ⟨?_, ?_, Nat.le_refl 0, fun addr mem => absurd mem List.not_mem_nil, ?_⟩
  · rw [List.forall_mem_singleton]
    exact ⟨inK, ⟨addr, look, valued⟩, unregistered, inV⟩
  · rw [setting_option look]
    exact List.nodup_singleton addr
  · intro name addr look required
    rw [logParser_optional look] at required
    cases required

/-- A port of one digit and a hyphen. -/
theorem parseArgs_faithful_port :
    ∃ result, (parseArgs (.ok false) logParser [bytes "prog", bytes "--port", bytes "-1"]).1 = .returned result ∧
      result.lookup (bytes "port") = some (.string (bytes "-1")) := by
  have covers : logParser.Covers {bytes "--port"} := by
    intro name addr look required
    rw [logParser_optional look] at required
    cases required
  have faithful := (parseArgs_faithful_iff logParser_reachable logParser_distinct (.ok false) covers {bytes "-1"}).mpr
    ⟨.inr rfl, by rintro name rfl addr - -; exact ⟨by decide, by decide⟩,
      by rintro name rfl addr - - val rfl -; exact fun _ => by decide⟩
  have lists : logParser.Lists {bytes "--port"} {bytes "-1"} [.option (bytes "--port") (bytes "-1")] :=
    @logParser_lists _ _ _ _ 1 rfl rfl rfl (by decide) fun _ => rfl
  obtain ⟨result, returned, yields⟩ := faithful (bytes "prog") _ lists
  exact ⟨result, returned, yields.opts (bytes "--port") 1 rfl⟩

/-- An option that `add_option` accepts is never recognised, and a value with a blank is taken for the option that it
is without it. -/
theorem parseArgs_unfaithful :
    (parseArgs (.ok false) logParser [bytes "prog", bytes "log-file", bytes "x"]).1 =
      .threw (.exception (bytes "ArgumentParser: too much arguments.")) ∧
    (parseArgs (.ok false) logParser [bytes "prog", bytes "--port", bytes "--po rt"]).1 =
      .threw (requiresValue (bytes "--port")) ∧
    ¬ ∀ p, registrations.Reachable p → p.Distinct → ∀ absent, HelpOff absent p →
      Faithful absent p Set.univ Set.univ := by
  have log : (parseArgs (.ok false) logParser [bytes "prog", bytes "log-file", bytes "x"]).1 =
      .threw (.exception (bytes "ArgumentParser: too much arguments.")) := by rfl
  refine ⟨log, by rfl, fun all => ?_⟩
  have faithful := all logParser logParser_reachable logParser_distinct (.ok false) (.inr rfl)
  have lists : logParser.Lists Set.univ Set.univ [.option (bytes "log-file") (bytes "x")] :=
    @logParser_lists _ _ _ _ 2 trivial rfl rfl (by decide) fun _ => trivial
  obtain ⟨result, returned, -⟩ := faithful (bytes "prog") _ lists
  cases log.symm.trans returned

end CovNet.Argparse
