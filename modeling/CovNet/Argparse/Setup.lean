import CovNet.Argparse.Parser

/-!
# Parsers that are set up

What holds of every parser that is set up by calls of `add_argument`, `add_option` and `set_option_alias`
(`SetUp`): its addresses are those of objects it has made, arguments and options are told apart by `store`, the first
object is the option `--help`, and the defaults are those that `add_argument` and `add_option` give.
-/

namespace CovNet.Argparse
open Lib Text

/-- A call of `set_defaults`. -/
def Call.setsDefault : Call → Bool
  | .setDefaults _ _ => true
  | _ => false

/-- The parsers that are set up without `set_defaults`. -/
def registrations : System ArgumentParser Call := parsers.restrict fun _ c => c.setsDefault = false

namespace ArgumentParser
variable {p q : ArgumentParser} {addr : Nat}

/-- The default of an object that is made. -/
def madeDefault : Option Bool → Value
  | some true => .boolean false
  | _ => .null

/-- What holds of a parser that is set up. -/
structure SetUp (p : ArgumentParser) : Prop where
  args_lt : ∀ addr ∈ p.argsArr, addr < p.next
  opts_lt : ∀ name addr, p.optsMap.lookup name = some addr → addr < p.next
  args_nodup : p.argsArr.Nodup
  args_store : ∀ addr ∈ p.argsArr, (p.heap addr).store = none
  opts_store : ∀ name addr, p.optsMap.lookup name = some addr → ∃ store, (p.heap addr).store = some store
  defaults : ∀ addr < p.next, (p.heap addr).defaultVal = madeDefault (p.heap addr).store
  made : 0 < p.next
  help : (p.heap 0).key = bytes "--help" ∧ (p.heap 0).store = some true ∧ (p.heap 0).required = false

/-- What a call adds: objects behind the old ones, and addresses that lead to old or new objects of the right kind. -/
structure Extends (p q : ArgumentParser) : Prop where
  old : ∀ addr < p.next, q.heap addr = p.heap addr
  next : p.next ≤ q.next
  defaults : ∀ addr, p.next ≤ addr → addr < q.next → (q.heap addr).defaultVal = madeDefault (q.heap addr).store
  args_nodup : q.argsArr.Nodup
  args : ∀ addr ∈ q.argsArr, addr ∈ p.argsArr ∨ p.next ≤ addr ∧ addr < q.next ∧ (q.heap addr).store = none
  opts : ∀ name addr, q.optsMap.lookup name = some addr → (∃ other, p.optsMap.lookup other = some addr) ∨
    p.next ≤ addr ∧ addr < q.next ∧ ∃ store, (q.heap addr).store = some store

/-- A parser that is set up stays so when something is added. -/
lemma SetUp.extend (h : p.SetUp) (ext : Extends p q) : q.SetUp := by
  have made := ext.old 0 h.made
  refine ⟨?_, ?_, ext.args_nodup, ?_, ?_, ?_, h.made.trans_le ext.next, made ▸ h.help⟩
  · intro addr mem
    rcases ext.args addr mem with mem | ⟨-, lt, -⟩
    · exact (h.args_lt addr mem).trans_le ext.next
    · exact lt
  · intro name addr look
    rcases ext.opts name addr look with ⟨other, look⟩ | ⟨-, lt, -⟩
    · exact (h.opts_lt other addr look).trans_le ext.next
    · exact lt
  · intro addr mem
    rcases ext.args addr mem with mem | ⟨-, -, none⟩
    · rw [ext.old addr (h.args_lt addr mem)]
      exact h.args_store addr mem
    · exact none
  · intro name addr look
    rcases ext.opts name addr look with ⟨other, look⟩ | ⟨-, -, store⟩
    · rw [ext.old addr (h.opts_lt other addr look)]
      exact h.opts_store other addr look
    · exact store
  · intro addr lt
    by_cases before : addr < p.next
    · rw [ext.old addr before]
      exact h.defaults addr before
    · exact ext.defaults addr (Nat.le_of_not_lt before) lt

/-- A new argument. -/
lemma SetUp.addArgument (h : p.SetUp) {key helpText : Bytes} {required : Bool}
    (made : p.addArgument key required helpText = .ok q) : q.SetUp := by
  unfold ArgumentParser.addArgument at made
  split at made
  · cases made
  cases made
  have new : Function.update p.heap p.next ⟨key, .null, none, required, helpText, .null⟩ p.next =
    ⟨key, .null, none, required, helpText, .null⟩ := Function.update_self _ _ _
  refine h.extend ⟨fun addr lt => Function.update_of_ne lt.ne _ _, Nat.le_succ _, ?_, ?_, ?_, ?_⟩
  · intro addr ge lt
    obtain rfl : addr = p.next := Nat.le_antisymm (Nat.le_of_lt_succ lt) ge
    simp only [gcnew, new]
    rfl
  · refine List.nodup_append.mpr ⟨h.args_nodup, List.nodup_singleton _, ?_⟩
    intro a mem b mem'
    rw [List.mem_singleton.mp mem']
    exact (h.args_lt a mem).ne
  · intro addr mem
    rcases List.mem_append.mp mem with mem | mem
    · exact .inl mem
    · rw [List.mem_singleton.mp mem]
      exact .inr ⟨Nat.le_refl _, Nat.lt_succ_self _, congrArg KeyStore.store new⟩
  · exact fun name addr look => .inl ⟨name, look⟩

/-- A new option, under a name that may have been another's. -/
lemma SetUp.addOption (h : p.SetUp) {key helpText : Bytes} {store required : Bool}
    (made : p.addOption key store required helpText = .ok q) : q.SetUp := by
  unfold ArgumentParser.addOption at made
  split at made
  · cases made
  cases made
  have new : Function.update p.heap p.next
      ⟨key, if store then .boolean false else .null, some store, required, helpText, .null⟩ p.next =
    ⟨key, if store then .boolean false else .null, some store, required, helpText, .null⟩ := Function.update_self _ _ _
  refine h.extend ⟨fun addr lt => Function.update_of_ne lt.ne _ _, Nat.le_succ _, ?_, h.args_nodup,
    fun addr mem => .inl mem, ?_⟩
  · intro addr ge lt
    obtain rfl : addr = p.next := Nat.le_antisymm (Nat.le_of_lt_succ lt) ge
    simp only [gcnew, new]
    cases store <;> rfl
  · intro name addr look
    by_cases e : name = key
    · rw [e] at look
      obtain rfl : p.next = addr := Option.some.inj ((AList.lookup_insert _).symm.trans look)
      exact .inr ⟨Nat.le_refl _, Nat.lt_succ_self _, store, congrArg KeyStore.store new⟩
    · exact .inl ⟨name, (AList.lookup_insert_ne e).symm.trans look⟩

/-- Another name for an option. -/
lemma SetUp.setOptionAlias (h : p.SetUp) {key aliasKey : Bytes}
    (made : p.setOptionAlias key aliasKey = .ok q) : q.SetUp := by
  unfold ArgumentParser.setOptionAlias at made
  split at made
  · cases made
  split at made
  · rename_i addr found
    cases made
    refine h.extend ⟨fun _ _ => rfl, Nat.le_refl _, fun addr ge lt => absurd lt (Nat.not_lt.mpr ge), h.args_nodup,
      fun addr mem => .inl mem, ?_⟩
    intro name addr' look
    by_cases e : name = aliasKey
    · rw [e] at look
      obtain rfl : addr = addr' := Option.some.inj ((AList.lookup_insert _).symm.trans look)
      exact .inl ⟨key, found⟩
    · exact .inl ⟨name, (AList.lookup_insert_ne e).symm.trans look⟩
  · cases made
    exact h

/-- The table in another order. -/
lemma SetUp.rehash (h : p.SetUp) {optsMap : HashMap Bytes Nat} (perm : optsMap.entries.Perm p.optsMap.entries) :
    ({ p with optsMap } : ArgumentParser).SetUp := by
  refine h.extend ⟨fun _ _ => rfl, Nat.le_refl _, fun addr ge lt => absurd lt (Nat.not_lt.mpr ge), h.args_nodup,
    fun addr mem => .inl mem, ?_⟩
  intro name addr look
  exact .inl ⟨name, (AList.perm_lookup perm).symm.trans look⟩

/-- The parser that a script starts with. -/
lemma setUp_initParser (h : initParser = .ok p) : p.SetUp := by
  have e : initParser = .ok {
      heap := Function.update empty.heap 0 ⟨bytes "--help", .boolean false, some true, false,
        bytes "Show help message", .null⟩
      next := 1
      argsArr := []
      optsMap := ((∅ : HashMap Bytes Nat).insert (bytes "--help") 0).insert (bytes "-h") 0
      aliasMap := (∅ : HashMap Bytes Bytes).insert (bytes "--help") (bytes "-h") } := rfl
  rw [e] at h
  cases h
  have zero : ∀ name addr, (((∅ : HashMap Bytes Nat).insert (bytes "--help") 0).insert (bytes "-h") 0).lookup name =
      some addr → addr = 0 := by
    intro name addr look
    by_cases short : name = bytes "-h"
    · rw [short, AList.lookup_insert] at look
      exact (Option.some.inj look).symm
    · rw [AList.lookup_insert_ne short] at look
      by_cases long : name = bytes "--help"
      · rw [long, AList.lookup_insert] at look
        exact (Option.some.inj look).symm
      · rw [AList.lookup_insert_ne long] at look
        cases look
  refine ⟨by simp, ?_, List.nodup_nil, by simp, ?_, ?_, Nat.one_pos, ⟨rfl, rfl, rfl⟩⟩
  · intro name addr look
    rw [zero name addr look]
    exact Nat.one_pos
  · intro name addr look
    rw [zero name addr look]
    exact ⟨true, rfl⟩
  · intro addr lt
    obtain rfl : addr = 0 := Nat.lt_one_iff.mp lt
    rfl

end ArgumentParser

/-- Every parser that is set up without `set_defaults`. -/
lemma setUp_of_reachable {p : ArgumentParser} (h : registrations.Reachable p) : p.SetUp := by
  refine System.Reachable.invariant (I := ArgumentParser.SetUp) (fun p => ArgumentParser.setUp_initParser) ?_ h
  intro p c q setUp step
  obtain ⟨plain, step⟩ := System.restrict_next.mp step
  have made : ∀ {x : Except Error ArgumentParser}, x.toOption = some q → x = .ok q := by
    intro x e
    cases x with
    | ok p =>
      cases e
      rfl
    | error e => cases e
  cases c with
  | addArgument key required helpText => exact setUp.addArgument (made step)
  | addOption key store required helpText => exact setUp.addOption (made step)
  | setDefaults key val => cases plain
  | setOptionAlias key aliasKey => exact setUp.setOptionAlias (made step)
  | rehash optsMap =>
    simp only [parsers] at step
    split at step
    · rename_i perm
      cases step
      exact setUp.rehash perm
    · cases step

end CovNet.Argparse
