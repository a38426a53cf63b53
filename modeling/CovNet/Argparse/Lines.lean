import CovNet.Argparse.Results

/-!
# Command lines

A command line is written as a list of items: values for the arguments in order, switches, and options with their
values, interleaved in any way. `Lists` says which of them are complete: what the names lead to is of the right kind,
nothing is set twice, `--help` is not set, and nothing required is missing. `Yields` is the result they call for.

Where every name is found again behind `filter`, and no value is taken for an option, the loop of `parse_args` reads
the items one by one (`parseTokens_items`), and the call returns the result (`parseArgs_items`).
-/

namespace CovNet.Argparse
open Lib Text

/-- A part of a command line. -/
inductive Item where
  | argument (val : Bytes)
  | switch (name : Bytes)
  | option (name val : Bytes)

/-- How an item is written. -/
def Item.tokens : Item → List Bytes
  | .argument val => [val]
  | .switch name => [name]
  | .option name val => [name, val]

/-- The values of the arguments. -/
def arguments (items : List Item) : List Bytes :=
  items.filterMap fun
    | .argument val => some val
    | _ => none

namespace ArgumentParser
variable {p : ArgumentParser} {K V : Set Bytes} {items done : List Item} {item : Item} {st : Loop} {addr : Nat}

/-- What an item says of an option. -/
def setting (p : ArgumentParser) : Item → Option (Nat × Value)
  | .argument _ => none
  | .switch name => (p.optsMap.lookup name).map fun addr => (addr, .boolean true)
  | .option name val => (p.optsMap.lookup name).map fun addr => (addr, .string val)

/-- The values of the options, by address. -/
def settings (p : ArgumentParser) (items : List Item) : List (Nat × Value) := items.filterMap p.setting

/-- An item that may be on a line, with a name of `K`; a value that starts with a hyphen is one of `V`. -/
def Allowed (p : ArgumentParser) (K V : Set Bytes) : Item → Prop
  | .argument val => isOption val = false
  | .switch name => name ∈ K ∧ ∃ addr, p.optsMap.lookup name = some addr ∧ addr ≠ 0 ∧ (p.heap addr).store = some true
  | .option name val =>
    name ∈ K ∧ (∃ addr, p.optsMap.lookup name = some addr ∧ (p.heap addr).store = some false) ∧
      p.optsMap.lookup val = none ∧ (isOption val = true → val ∈ V)

/-- A complete line. -/
structure Lists (p : ArgumentParser) (K V : Set Bytes) (items : List Item) : Prop where
  allowed : ∀ item ∈ items, p.Allowed K V item
  once : ((p.settings items).map Prod.fst).Nodup
  few : (arguments items).length ≤ p.argsArr.length
  required_args : ∀ addr ∈ p.argsArr.drop (arguments items).length, (p.heap addr).required = false
  required_opts : ∀ name addr, p.optsMap.lookup name = some addr → (p.heap addr).required = true →
    (p.heap addr).store = some false → addr ∈ (p.settings items).map Prod.fst

/-- The value of an argument: the one on the line, or the default. -/
def argVal (p : ArgumentParser) (items : List Item) (i addr : Nat) : Value :=
  ((arguments items)[i]?.map Value.string).getD (p.heap addr).defaultVal

/-- The value of an option. -/
def optVal (p : ArgumentParser) (items : List Item) (addr : Nat) : Value :=
  ((p.settings items).lookup addr).getD (p.heap addr).defaultVal

/-- The result has exactly what the line lists, and defaults. -/
structure Yields (p : ArgumentParser) (items : List Item) (result : HashMap Bytes Value) : Prop where
  args : ∀ (i addr : Nat), p.argsArr[i]? = some addr → result.lookup (p.heap addr).key = some (p.argVal items i addr)
  opts : ∀ name addr, p.optsMap.lookup name = some addr →
    result.lookup (removePrefix (p.heap addr).key) = some (p.optVal items addr)
  only : ∀ name ∈ result, (∃ addr ∈ p.argsArr, name = (p.heap addr).key) ∨
    ∃ other addr, p.optsMap.lookup other = some addr ∧ name = removePrefix (p.heap addr).key

/-- A name that is taken for an option, and finds the option it stands for. -/
def GoodName (p : ArgumentParser) (name : Bytes) : Prop :=
  isOption name = true ∧ p.optsMap.lookup (filter name) = p.optsMap.lookup name

/-- A value that is not taken for an option. -/
def GoodValue (p : ArgumentParser) (val : Bytes) : Prop :=
  isOption val = true → p.optsMap.lookup (filter val) = none

/-- The item has a good name, and a good value. -/
def GoodItem (p : ArgumentParser) : Item → Prop
  | .argument _ => True
  | .switch name => p.GoodName name
  | .option name val => p.GoodName name ∧ p.GoodValue val

/-! ## The loop -/

lemma settings_append (p : ArgumentParser) (xs ys : List Item) :
    p.settings (xs ++ ys) = p.settings xs ++ p.settings ys := List.filterMap_append

lemma arguments_append (xs ys : List Item) : arguments (xs ++ ys) = arguments xs ++ arguments ys :=
  List.filterMap_append

section OptVal
variable {other : Nat} {val : Value}

/-- An option that is not on the line has its default. -/
lemma optVal_unset (unset : addr ∉ (p.settings items).map Prod.fst) : p.optVal items addr = (p.heap addr).defaultVal := by
  rw [optVal, lookup_eq_none.mpr unset, Option.getD_none]

/-- An option that had no value gets the one of the last item. -/
lemma optVal_last (setting : p.settings [item] = [(addr, val)]) (new : addr ∉ (p.settings items).map Prod.fst) :
    p.optVal (items ++ [item]) addr = val := by
  rw [optVal, settings_append, setting, List.lookup_append, lookup_eq_none.mpr new, List.lookup_cons_self]
  rfl

/-- The others have what they had. -/
lemma optVal_other (setting : p.settings [item] = [(addr, val)]) (ne : other ≠ addr) :
    p.optVal (items ++ [item]) other = p.optVal items other := by
  have none : [(addr, val)].lookup other = none := lookup_eq_none.mpr fun mem => ne (List.mem_singleton.mp mem)
  rw [optVal, settings_append, setting, List.lookup_append, none, Option.or_none]
  rfl

end OptVal

/-- The loop is between two items, and has left the values that these items call for. -/
structure Ends (p : ArgumentParser) (items : List Item) (st : Loop) : Prop where
  config : st.parser.config = p.config
  readVal : st.readVal = false
  args : ∀ (i addr : Nat), p.argsArr[i]? = some addr → (st.parser.heap addr).value = p.argVal items i addr
  opts : ∀ addr ∈ p.optAddrs, (st.parser.heap addr).value = p.optVal items addr

/-- The loop has read the items of a line. -/
structure Reads (p : ArgumentParser) (items : List Item) (st : Loop) : Prop extends p.Ends items st where
  argsIdx : st.argsIdx = (arguments items).length

/-- Before its first turn it has read nothing. -/
lemma reads_start (p : ArgumentParser) : p.Reads [] (start p) := by
  refine ⟨⟨config_reset, rfl, fun i addr slot => ?_, fun addr mem => ?_⟩, rfl⟩
  · exact congrArg KeyStore.value (reset_heap (List.mem_append_left _ (List.mem_of_getElem? slot)))
  · exact congrArg KeyStore.value (reset_heap (List.mem_append_right _ mem))

/-- Arguments are no options. -/
lemma SetUp.ne_of_mem (h : p.SetUp) {name : Bytes} {other : Nat} (mem : addr ∈ p.argsArr)
    (look : p.optsMap.lookup name = some other) : addr ≠ other := by
  rintro rfl
  obtain ⟨store, e⟩ := h.opts_store name addr look
  rw [h.args_store addr mem] at e
  cases e

/-- The next argument. -/
lemma Reads.argument (h : p.SetUp) (reads : p.Reads done st) {val : Bytes} (plain : isOption val = false)
    (slot : p.argsArr[(arguments done).length]? = some addr) :
    ∃ st', parseToken st val = .ok st' ∧ p.Reads (done ++ [.argument val]) st' := by
  obtain ⟨args, opts, -⟩ := config_eq reads.config
  have here : st.parser.argsArr[st.argsIdx]? = some addr := by rw [args, reads.argsIdx, slot]
  refine ⟨{ st with parser := st.parser.setValue addr (.string val), argsIdx := st.argsIdx + 1 }, ?_, ?_⟩
  · simp [parseToken, reads.readVal, plain, here]
  · have longer : arguments (done ++ [.argument val]) = arguments done ++ [val] := arguments_append _ _
    have same : p.settings (done ++ [.argument val]) = p.settings done := by
      rw [settings_append]
      exact List.append_nil _
    refine ⟨⟨config_setValue.trans reads.config, reads.readVal, fun i other at_ => ?_, fun other mem => ?_⟩, ?_⟩
    · by_cases e : i = (arguments done).length
      · subst e
        obtain rfl : addr = other := Option.some.inj (slot.symm.trans at_)
        rw [setValue_heap_self, argVal, longer, List.getElem?_concat_length]
        rfl
      · have ne : other ≠ addr := by
          rintro rfl
          have lt := (List.getElem?_eq_some_iff.mp at_).1
          exact e ((List.getElem?_inj lt h.args_nodup).mp (at_.trans slot.symm))
        have rest : (arguments done ++ [val])[i]? = (arguments done)[i]? := by
          rcases Nat.lt_or_gt_of_ne e with lt | gt
          · exact List.getElem?_append_left lt
          · rw [List.getElem?_eq_none (by rw [List.length_append]; exact gt), List.getElem?_eq_none gt.le]
        rw [setValue_heap_ne ne, argVal, longer, rest]
        exact reads.args i other at_
    · obtain ⟨name, look⟩ := exists_of_mem_optAddrs mem
      rw [setValue_heap_ne (h.ne_of_mem (List.mem_of_getElem? slot) look).symm, optVal, same]
      exact reads.opts other mem
    · rw [longer, List.length_append, reads.argsIdx]
      rfl

/-- A value is set for an option that had none. -/
lemma Reads.set (h : p.SetUp) (reads : p.Reads done st) {name : Bytes} {val : Value}
    (look : p.optsMap.lookup name = some addr) (no_argument : arguments [item] = [])
    (setting : p.settings [item] = [(addr, val)]) (new : addr ∉ (p.settings done).map Prod.fst) (key : Bytes) :
    p.Reads (done ++ [item]) { st with parser := st.parser.setValue addr val, readVal := false, key := key } := by
  have same : arguments (done ++ [item]) = arguments done := by
    rw [arguments_append, no_argument, List.append_nil]
  refine ⟨⟨config_setValue.trans reads.config, rfl, fun i other at_ => ?_, fun other mem => ?_⟩,
    by rw [same, ← reads.argsIdx]⟩
  · rw [setValue_heap_ne (h.ne_of_mem (List.mem_of_getElem? at_) look), argVal, same]
    exact reads.args i other at_
  · by_cases e : other = addr
    · rw [e, setValue_heap_self, optVal_last setting new]
    · rw [setValue_heap_ne e, optVal_other setting e]
      exact reads.opts other mem

end ArgumentParser

lemma parseTokens_ok {st st' : Loop} {arg : Bytes} (h : parseToken st arg = .ok st') (args : List Bytes) :
    parseTokens st (arg :: args) = parseTokens st' args := by
  rw [parseTokens, h]

namespace ArgumentParser
variable {p : ArgumentParser} {K V : Set Bytes} {items done rest : List Item} {item : Item} {st : Loop} {addr : Nat}

/-- What an item of the line sets. -/
lemma setting_switch {name : Bytes} (look : p.optsMap.lookup name = some addr) :
    p.settings [.switch name] = [(addr, .boolean true)] := by
  simp [settings, setting, look]

lemma setting_option {name val : Bytes} (look : p.optsMap.lookup name = some addr) :
    p.settings [.option name val] = [(addr, .string val)] := by
  simp [settings, setting, look]

/-- A switch. -/
lemma Reads.switch (h : p.SetUp) (reads : p.Reads done st) {name : Bytes} (good : p.GoodName name)
    (look : p.optsMap.lookup name = some addr) (switch : (p.heap addr).store = some true)
    (new : addr ∉ (p.settings done).map Prod.fst) :
    ∃ st', parseToken st name = .ok st' ∧ p.Reads (done ++ [.switch name]) st' := by
  obtain ⟨-, opts, -⟩ := config_eq reads.config
  obtain ⟨-, default_, store, -⟩ := config_heap reads.config addr
  have off : (st.parser.heap addr).defaultVal = .boolean false := by
    rw [default_, h.defaults addr (h.opts_lt name addr look), switch]
    rfl
  refine ⟨_, ?_, reads.set h look rfl (setting_switch look) new (filter name)⟩
  have found : st.parser.optsMap.lookup (filter name) = some addr := by rw [opts, good.2, look]
  have on : (st.parser.heap addr).store = some true := store.trans switch
  simp [parseToken, reads.readVal, good.1, found, on, off]

/-- An option and its value. -/
lemma Reads.option (h : p.SetUp) (reads : p.Reads done st) {name val : Bytes} (good : p.GoodName name)
    (plain : p.GoodValue val) (look : p.optsMap.lookup name = some addr) (valued : (p.heap addr).store = some false)
    (new : addr ∉ (p.settings done).map Prod.fst) :
    ∃ st' st'', parseToken st name = .ok st' ∧ parseToken st' val = .ok st'' ∧
      p.Reads (done ++ [.option name val]) st'' := by
  obtain ⟨-, opts, -⟩ := config_eq reads.config
  obtain ⟨-, -, store, -⟩ := config_heap reads.config addr
  have found : st.parser.optsMap.lookup (filter name) = some addr := by rw [opts, good.2, look]
  have off : (st.parser.heap addr).store = some false := store.trans valued
  have first : parseToken st name = .ok { st with readVal := true, key := filter name } := by
    simp [parseToken, reads.readVal, good.1, found, off]
  refine ⟨_, _, first, ?_, reads.set h look rfl (setting_option look) new (filter name)⟩
  have taken : ¬ (isOption val = true ∧ (st.parser.optsMap.lookup (filter val)).isSome = true) := by
    rintro ⟨opt, some_⟩
    rw [opts, plain opt] at some_
    cases some_
  simp only [parseToken, taken, if_false, found]
  rfl

/-- The items of a line are read one by one. -/
lemma parseTokens_items (h : p.SetUp) (lists : p.Lists K V (done ++ rest)) (good : ∀ item ∈ rest, p.GoodItem item)
    (reads : p.Reads done st) :
    ∃ st', parseTokens st (rest.flatMap Item.tokens) = (st', none) ∧ p.Reads (done ++ rest) st' := by
  induction rest generalizing done st with
  | nil =>
    rw [List.append_nil]
    exact ⟨st, rfl, reads⟩
  | cons item rest ih =>
    have whole : done ++ item :: rest = (done ++ [item]) ++ rest := by rw [List.append_assoc, List.singleton_append]
    have goods := (List.forall_mem_cons.mp good).2
    have allowed := lists.allowed item (by simp)
    -- what the item sets has not been set before
    have new : ∀ addr val, p.settings [item] = [(addr, val)] → addr ∉ (p.settings done).map Prod.fst := by
      intro addr val setting mem
      have once := lists.once
      rw [whole, settings_append, settings_append, setting, List.map_append, List.map_append, List.append_assoc] at once
      exact (List.disjoint_of_nodup_append once) mem (by simp)
    rw [whole] at lists ⊢
    cases item with
    | argument val =>
      have lt : (arguments done).length < p.argsArr.length := by
        have few := lists.few
        rw [arguments_append, arguments_append, List.length_append, List.length_append] at few
        have one : (arguments [Item.argument val]).length = 1 := rfl
        omega
      obtain ⟨st', turn, reads'⟩ := reads.argument h allowed (List.getElem?_eq_getElem lt)
      obtain ⟨st'', run, reads''⟩ := ih lists goods reads'
      exact ⟨st'', (parseTokens_ok turn _).trans run, reads''⟩
    | switch name =>
      obtain ⟨-, addr, look, -, switch⟩ := allowed
      have name_good : p.GoodName name := good (.switch name) List.mem_cons_self
      obtain ⟨st', turn, reads'⟩ := reads.switch h name_good look switch (new addr _ (setting_switch look))
      obtain ⟨st'', run, reads''⟩ := ih lists goods reads'
      exact ⟨st'', (parseTokens_ok turn _).trans run, reads''⟩
    | option name val =>
      obtain ⟨-, ⟨addr, look, valued⟩, -, -⟩ := allowed
      obtain ⟨name_good, val_good⟩ : p.GoodName name ∧ p.GoodValue val := good (.option name val) List.mem_cons_self
      obtain ⟨st', st'', turn, turn', reads'⟩ :=
        reads.option h name_good val_good look valued (new addr _ (setting_option look))
      obtain ⟨st3, run, reads''⟩ := ih lists goods reads'
      exact ⟨st3, (parseTokens_ok turn _).trans ((parseTokens_ok turn' _).trans run), reads''⟩

/-! ## The result -/

/-- What `result_map.help` is, when `--help` is not set: the built-in switch is there under some name, or the
language takes a map without the key for false. -/
def HelpOff (absent : Except Error Bool) (p : ArgumentParser) : Prop :=
  (∃ name, p.optsMap.lookup name = some 0) ∨ absent = .ok false

/-- Values on a line are never null. -/
lemma settings_ne_null {entry : Nat × Value} (mem : entry ∈ p.settings items) : entry.2 ≠ .null := by
  obtain ⟨item, -, e⟩ := List.mem_filterMap.mp mem
  cases item with
  | argument val => cases e
  | switch name =>
    obtain ⟨addr, -, rfl⟩ := Option.map_eq_some_iff.mp e
    exact Value.noConfusion
  | option name val =>
    obtain ⟨addr, -, rfl⟩ := Option.map_eq_some_iff.mp e
    exact Value.noConfusion

/-- Nothing required is missing from a complete line. -/
lemma Lists.present (lists : p.Lists K V items) (h : p.SetUp) (ends : p.Ends items st) (mem : addr ∈ p.used) :
    ¬ st.parser.Missing addr := by
  rintro ⟨required, null⟩
  rw [(config_heap ends.config addr).2.2.2] at required
  rcases List.mem_append.mp mem with mem | mem
  · obtain ⟨i, slot⟩ := List.mem_iff_getElem?.mp mem
    rw [ends.args i addr slot, argVal] at null
    by_cases lt : i < (arguments items).length
    · rw [List.getElem?_eq_getElem lt] at null
      cases null
    · have behind : addr ∈ p.argsArr.drop (arguments items).length := by
        apply List.mem_of_getElem? (i := i - (arguments items).length)
        rw [List.getElem?_drop, Nat.add_sub_cancel' (Nat.le_of_not_lt lt), slot]
      rw [lists.required_args addr behind] at required
      cases required
  · obtain ⟨name, look⟩ := exists_of_mem_optAddrs mem
    rw [ends.opts addr mem, optVal] at null
    cases set_ : (p.settings items).lookup addr with
    | some val =>
      rw [set_] at null
      exact settings_ne_null (mem_of_lookup set_) null
    | none =>
      rw [set_, Option.getD_none, h.defaults addr (h.opts_lt name addr look)] at null
      obtain ⟨store, e⟩ := h.opts_store name addr look
      rw [e] at null
      cases store with
      | true => cases null
      | false => exact lookup_eq_none.mp set_ (lists.required_opts name addr look required e)

/-- The values that the loop has left are those that the result has. -/
lemma yields_of_ends (h : p.SetUp) (distinct : p.Distinct) (ends : p.Ends items st) {result : HashMap Bytes Value}
    (run : results st.parser = .ok result) : p.Yields items result := by
  have conf := ends.config
  have setUp := h.of_config conf
  have names := distinct.of_config conf
  refine ⟨fun i addr slot => ?_, fun name addr look => ?_, fun name mem => ?_⟩
  · have mem := List.mem_of_getElem? slot
    have used : addr ∈ st.parser.used := used_config conf ▸ List.mem_append_left _ mem
    rw [← h.resultName_arg mem, ← resultName_config conf, lookup_results setUp names run used, ends.args i addr slot]
  · have mem := mem_optAddrs look
    have used : addr ∈ st.parser.used := used_config conf ▸ List.mem_append_right _ mem
    rw [← h.resultName_opt look, ← resultName_config conf, lookup_results setUp names run used, ends.opts addr mem]
  · obtain ⟨addr, used, rfl⟩ := (mem_results setUp run).mp mem
    rw [used_config conf] at used
    rw [resultName_config conf]
    rcases List.mem_append.mp used with mem | mem
    · exact .inl ⟨addr, mem, h.resultName_arg mem⟩
    · obtain ⟨other, look⟩ := exists_of_mem_optAddrs mem
      exact .inr ⟨other, addr, look, h.resultName_opt look⟩

lemma SetUp.resultName_help (h : p.SetUp) : p.resultName 0 = bytes "help" := by
  rw [resultName, h.help.2.1, h.help.1]
  decide

/-- The first object is no argument. -/
lemma SetUp.zero_used (h : p.SetUp) : 0 ∈ p.used ↔ ∃ name, p.optsMap.lookup name = some 0 := by
  constructor
  · intro mem
    rcases List.mem_append.mp mem with mem | mem
    · have none := h.args_store 0 mem
      rw [h.help.2.1] at none
      cases none
    · exact exists_of_mem_optAddrs mem
  · rintro ⟨name, look⟩
    exact List.mem_append_right _ (mem_optAddrs look)

/-- Where `--help` is not set, the condition is false, and only there. -/
lemma helpSet_iff (h : p.SetUp) (distinct : p.Distinct) {absent : Except Error Bool} (ends : p.Ends items st)
    (unset : 0 ∉ (p.settings items).map Prod.fst) {result : HashMap Bytes Value}
    (run : results st.parser = .ok result) : helpSet absent result = .ok false ↔ HelpOff absent p := by
  have conf := ends.config
  have setUp := h.of_config conf
  have names := distinct.of_config conf
  unfold helpSet HelpOff
  by_cases there : ∃ name, p.optsMap.lookup name = some 0
  · obtain ⟨name, look⟩ := there
    have mem : 0 ∈ p.optAddrs := mem_optAddrs look
    have used : 0 ∈ st.parser.used := used_config conf ▸ List.mem_append_right _ mem
    have val := lookup_results setUp names run used
    have off : p.optVal items 0 = .boolean false := by
      rw [optVal_unset unset, h.defaults 0 h.made, h.help.2.1]
      rfl
    rw [resultName_config conf, h.resultName_help, ends.opts 0 mem, off] at val
    rw [val]
    exact iff_of_true rfl (.inl ⟨name, look⟩)
  · have no : result.lookup (bytes "help") = none := by
      rw [AList.lookup_eq_none, mem_results setUp run]
      rintro ⟨addr, used, e⟩
      rw [resultName_config conf, ← h.resultName_help] at e
      rw [used_config conf] at used
      have same := distinct 0 addr h.made (h.used_lt used) e
      rw [← same] at used
      exact there (h.zero_used.mp used)
    rw [no, or_iff_right there]

/-- A complete line does not set `--help`. -/
lemma Lists.unset (lists : p.Lists K V items) (h : p.SetUp) : 0 ∉ (p.settings items).map Prod.fst := by
  intro mem
  obtain ⟨entry, hentry, zero⟩ := List.mem_map.mp mem
  obtain ⟨item, hitem, e⟩ := List.mem_filterMap.mp hentry
  have allowed := lists.allowed item hitem
  cases item with
  | argument val => cases e
  | switch name =>
    obtain ⟨-, addr, look, ne, -⟩ := allowed
    simp only [setting, look] at e
    cases e
    exact ne zero
  | option name val =>
    obtain ⟨-, ⟨addr, look, valued⟩, -⟩ := allowed
    simp only [setting, look] at e
    cases e
    obtain rfl : addr = 0 := zero
    rw [h.help.2.1] at valued
    cases valued

/-- How a call returns. -/
lemma parseArgs_returned {absent : Except Error Bool} {program : Bytes} {args : List Bytes}
    {result : HashMap Bytes Value} :
    (parseArgs absent p (program :: args)).1 = .returned result ↔
      ∃ st, parseTokens (start p) args = (st, none) ∧ st.readVal = false ∧ results st.parser = .ok result ∧
        helpSet absent result = .ok false := by
  unfold parseArgs
  rw [List.drop_one, List.tail_cons]
  constructor
  · intro h
    split at h
    · cases h
    · rename_i st run
      refine ⟨st, run, ?_⟩
      unfold finish at h
      split at h
      · cases h
      · rename_i free
        split at h
        · cases h
        · rename_i map collected
          split at h
          · cases h
          · cases h
          · rename_i off
            cases h
            exact ⟨by simpa using free, collected, off⟩
  · rintro ⟨st, run, free, collected, off⟩
    simp [run, finish, free, collected, off]

/-- A complete line of good names and values is read as it is written. -/
lemma parseArgs_items (h : p.SetUp) (distinct : p.Distinct) {absent : Except Error Bool} (off : HelpOff absent p)
    (lists : p.Lists K V items) (good : ∀ item ∈ items, p.GoodItem item) (program : Bytes) :
    ∃ result, (parseArgs absent p (program :: items.flatMap Item.tokens)).1 = .returned result ∧
      p.Yields items result := by
  have whole : p.Lists K V ([] ++ items) := lists
  obtain ⟨st, run, reads⟩ := parseTokens_items h whole good (reads_start p)
  rw [List.nil_append] at reads
  have setUp := h.of_config reads.config
  have present : ∀ addr ∈ st.parser.used, ¬ st.parser.Missing addr := by
    intro addr mem
    rw [used_config reads.config] at mem
    exact lists.present h reads.toEnds mem
  have collected := (results_ok setUp).mpr ⟨present, rfl⟩
  have unset := lists.unset h
  refine ⟨_, parseArgs_returned.mpr ⟨st, run, reads.readVal, collected, ?_⟩, yields_of_ends h distinct reads.toEnds collected⟩
  exact (helpSet_iff h distinct reads.toEnds unset collected).mpr off

end ArgumentParser

end CovNet.Argparse
