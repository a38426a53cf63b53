import CovNet.Argparse.Setup

/-!
# Results

The two loops at the end of `parse_args` put the values of all arguments and options into the result, under their
names without the leading hyphens. Where the names are distinct, the result has each value (`lookup_results`), and
nothing else (`mem_results`).
-/

namespace CovNet.Argparse
open Lib Text

namespace ArgumentParser
variable {p q : ArgumentParser} {addr : Nat} {result : HashMap Bytes Value}

/-- The addresses of what can be set. -/
def used (p : ArgumentParser) : List Nat := p.argsArr ++ p.optAddrs

/-- The name of an argument or option in the result. -/
def resultName (p : ArgumentParser) (addr : Nat) : Bytes :=
  match (p.heap addr).store with
  | none => (p.heap addr).key
  | some _ => removePrefix (p.heap addr).key

/-- The result names of what was registered are pairwise distinct. -/
def Distinct (p : ArgumentParser) : Prop :=
  ∀ a b, a < p.next → b < p.next → p.resultName a = p.resultName b → a = b

lemma SetUp.used_lt (h : p.SetUp) (mem : addr ∈ p.used) : addr < p.next := by
  rcases List.mem_append.mp mem with mem | mem
  · exact h.args_lt addr mem
  · obtain ⟨name, look⟩ := exists_of_mem_optAddrs mem
    exact h.opts_lt name addr look

lemma SetUp.resultName_arg (h : p.SetUp) (mem : addr ∈ p.argsArr) : p.resultName addr = (p.heap addr).key := by
  rw [resultName, h.args_store addr mem]

lemma SetUp.resultName_opt (h : p.SetUp) {name : Bytes} (look : p.optsMap.lookup name = some addr) :
    p.resultName addr = removePrefix (p.heap addr).key := by
  obtain ⟨store, e⟩ := h.opts_store name addr look
  rw [resultName, e]

/-- A required value that is missing. -/
def Missing (p : ArgumentParser) (addr : Nat) : Prop := (p.heap addr).required = true ∧ (p.heap addr).value = .null

/-- What a loop collects, if nothing is missing. -/
lemma foldlM_collect_ok (kind : String) (name : KeyStore → Bytes) (addrs : List Nat) (start : HashMap Bytes Value) :
    addrs.foldlM (collect kind name p) start = .ok result ↔
      (∀ addr ∈ addrs, ¬ p.Missing addr) ∧
        result = (addrs.map fun addr => (name (p.heap addr), (p.heap addr).value)).foldl
          (fun m e => m.insert e.1 e.2) start := by
  induction addrs generalizing start with
  | nil =>
    rw [and_iff_right fun a mem => absurd mem List.not_mem_nil, eq_comm (a := result)]
    exact iff_of_eq (Except.ok.injEq _ _)
  | cons a addrs ih =>
    rw [List.foldlM_cons, List.forall_mem_cons]
    by_cases missing : p.Missing a
    · have stop : ∃ e, collect kind name p start a = .error e := ⟨_, if_pos missing⟩
      obtain ⟨e, stop⟩ := stop
      rw [stop]
      exact iff_of_false (fun h => by cases h) fun h => h.1.1 missing
    · have on : collect kind name p start a = .ok (start.insert (name (p.heap a)) (p.heap a).value) := if_neg missing
      rw [on, and_iff_right missing]
      exact ih _

/-- The entries of the result, in the order in which they are put in. -/
lemma results_ok (h : p.SetUp) :
    results p = .ok result ↔
      (∀ addr ∈ p.used, ¬ p.Missing addr) ∧
        result = (p.used.map fun addr => (p.resultName addr, (p.heap addr).value)).foldl
          (fun m e => m.insert e.1 e.2) ∅ := by
  have args : (p.argsArr.map fun addr => ((p.heap addr).key, (p.heap addr).value)) =
      p.argsArr.map fun addr => (p.resultName addr, (p.heap addr).value) := by
    refine List.map_congr_left fun addr mem => ?_
    rw [h.resultName_arg mem]
  have opts : (p.optAddrs.map fun addr => (removePrefix (p.heap addr).key, (p.heap addr).value)) =
      p.optAddrs.map fun addr => (p.resultName addr, (p.heap addr).value) := by
    refine List.map_congr_left fun addr mem => ?_
    obtain ⟨name, look⟩ := exists_of_mem_optAddrs mem
    rw [h.resultName_opt look]
  unfold results used
  rw [List.map_append, List.foldl_append, List.forall_mem_append, ← args, ← opts]
  constructor
  · intro run
    cases first : p.argsArr.foldlM (collect "argument" KeyStore.key p) ∅ with
    | error e =>
      rw [first] at run
      cases run
    | ok mid =>
      rw [first] at run
      obtain ⟨present, rfl⟩ := (foldlM_collect_ok _ _ _ _).mp first
      obtain ⟨present', e⟩ := (foldlM_collect_ok _ _ _ _).mp run
      exact ⟨⟨present, present'⟩, e⟩
  · rintro ⟨⟨present, present'⟩, e⟩
    rw [(foldlM_collect_ok _ _ _ _).mpr ⟨present, rfl⟩]
    exact (foldlM_collect_ok _ _ _ _).mpr ⟨present', e⟩

/-- Of the values put in under a name the last one stays. -/
lemma lookup_foldl_insert (pairs : List (Bytes × Value)) (name : Bytes) :
    (pairs.foldl (fun m e => m.insert e.1 e.2) (∅ : HashMap Bytes Value)).lookup name =
      (valuesOf name pairs).getLast? := by
  refine @lookup_foldl _ _ _ _ List.getLast? _ ?_ ?_ ∅ (fun _ => rfl) pairs name
  · intro m e vals _
    rw [List.getLast?_concat]
    exact AList.lookup_insert m
  · intro m e key ne
    exact AList.lookup_insert_ne ne

/-- The result has each value under its name. -/
lemma lookup_results (h : p.SetUp) (distinct : p.Distinct) (run : results p = .ok result) (mem : addr ∈ p.used) :
    result.lookup (p.resultName addr) = some (p.heap addr).value := by
  obtain ⟨-, rfl⟩ := (results_ok h).mp run
  rw [lookup_foldl_insert]
  -- every entry under the name is the value at this address
  have all : ∀ val ∈ valuesOf (p.resultName addr) (p.used.map fun addr => (p.resultName addr, (p.heap addr).value)),
      val = (p.heap addr).value := by
    intro val hval
    obtain ⟨e, he, rfl⟩ := List.mem_map.mp hval
    obtain ⟨inside, same⟩ := List.mem_filter.mp he
    obtain ⟨other, mem', rfl⟩ := List.mem_map.mp inside
    rw [distinct other addr (h.used_lt mem') (h.used_lt mem) (of_decide_eq_true same)]
  have some_val : valuesOf (p.resultName addr)
      (p.used.map fun addr => (p.resultName addr, (p.heap addr).value)) ≠ [] := by
    rw [Ne, valuesOf_eq_nil, not_not, List.map_map]
    exact List.mem_map.mpr ⟨addr, mem, rfl⟩
  rw [List.getLast?_eq_some_getLast some_val, all _ (List.getLast_mem some_val)]

/-- The result has no other names. -/
lemma mem_results (h : p.SetUp) (run : results p = .ok result) {name : Bytes} :
    name ∈ result ↔ ∃ addr ∈ p.used, name = p.resultName addr := by
  obtain ⟨-, rfl⟩ := (results_ok h).mp run
  rw [← AList.lookup_isSome, lookup_foldl_insert, List.getLast?_isSome, Ne, valuesOf_eq_nil, not_not, List.map_map,
    List.mem_map]
  constructor
  · rintro ⟨addr, mem, rfl⟩
    exact ⟨addr, mem, rfl⟩
  · rintro ⟨addr, mem, rfl⟩
    exact ⟨addr, mem, rfl⟩

/-- What holds of a parser that is set up holds of every parser of its configuration. -/
lemma SetUp.of_config (h : p.SetUp) (conf : q.config = p.config) : q.SetUp := by
  obtain ⟨args, opts, -⟩ := config_eq conf
  have next := congrArg ArgumentParser.next conf
  have next : q.next = p.next := next
  refine ⟨?_, ?_, args ▸ h.args_nodup, ?_, ?_, ?_, next ▸ h.made, ?_⟩
  · intro addr mem
    rw [next]
    exact h.args_lt addr (args ▸ mem)
  · intro name addr look
    rw [next]
    exact h.opts_lt name addr (opts ▸ look)
  · intro addr mem
    rw [(config_heap conf addr).2.2.1]
    exact h.args_store addr (args ▸ mem)
  · intro name addr look
    rw [(config_heap conf addr).2.2.1]
    exact h.opts_store name addr (opts ▸ look)
  · intro addr lt
    rw [(config_heap conf addr).2.1, (config_heap conf addr).2.2.1]
    exact h.defaults addr (next ▸ lt)
  · obtain ⟨key, -, store, required⟩ := config_heap conf 0
    rw [key, store, required]
    exact h.help

lemma resultName_config (conf : q.config = p.config) (addr : Nat) : q.resultName addr = p.resultName addr := by
  obtain ⟨key, -, store, -⟩ := config_heap conf addr
  rw [resultName, resultName, key, store]

lemma Distinct.of_config (distinct : p.Distinct) (conf : q.config = p.config) : q.Distinct := by
  have next := congrArg ArgumentParser.next conf
  have next : q.next = p.next := next
  intro a b ha hb same
  rw [resultName_config conf, resultName_config conf] at same
  exact distinct a b (next ▸ ha) (next ▸ hb) same

lemma used_config (conf : q.config = p.config) : q.used = p.used := by
  obtain ⟨args, opts, -⟩ := config_eq conf
  rw [used, used, optAddrs, optAddrs, args, opts]

end ArgumentParser

end CovNet.Argparse
