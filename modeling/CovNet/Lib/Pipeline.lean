import Mathlib.Data.List.Nodup
import Mathlib.Tactic.Lemma

/-!
# Ordered pipelines

A pipeline hands tickets out to parties that work on them at the same time and finish in any order,
and issues them in the order in which they were enqueued. The front ticket of its queue may have been
issued and wait to be retired; a first part of the queue has been taken, the rest waits. A pipeline can
break: its queue is dropped and nothing is taken or issued after that.

`Ordered` is the invariant of a pipeline, with a flag that tells whether the front ticket has been
issued. Every operation has a rule that says what it does to the invariant and to the tickets that wait.
`Ordered.issued_prefix_enqueued` is what the invariant is for.
-/

namespace CovNet.Lib

/-- A queue of tickets with its history. -/
structure Pipeline (τ : Type*) where
  queue : List τ
  taken : Nat
  enqueued : List τ
  issued : List τ
  broken : Bool

namespace Pipeline
variable {τ : Type*} {p : Pipeline τ} {t : τ} {busy : Bool}

/-- The tickets nobody has taken. -/
def waiting (p : Pipeline τ) : List τ := if p.broken then p.queue else p.queue.drop p.taken

/-- The tickets in the queue that have been taken. -/
def out (p : Pipeline τ) : List τ := if p.broken then [] else p.queue.take p.taken

/-- A ticket joins the queue. -/
def enqueue (p : Pipeline τ) (t : τ) : Pipeline τ :=
  { p with queue := p.queue ++ [t], enqueued := p.enqueued ++ [t] }

/-- The first ticket that waits is taken. -/
def take (p : Pipeline τ) : Pipeline τ := { p with taken := p.taken + 1 }

/-- A ticket is issued. -/
def issue (p : Pipeline τ) (t : τ) : Pipeline τ := { p with issued := p.issued ++ [t] }

/-- The front ticket leaves the queue. -/
def retire (p : Pipeline τ) : Pipeline τ :=
  { p with queue := p.queue.tail, taken := p.taken - 1 }

/-- The pipeline breaks. -/
def breakDown (p : Pipeline τ) : Pipeline τ := { p with queue := [], broken := true }

/-- What is issued is an initial part of what was enqueued, and the queue is the rest: the front ticket
has been issued, and taken before, if and only if the pipeline is busy. A broken pipeline has at most one
ticket, which the index of the taken ones is past. -/
structure Ordered (busy : Bool) (p : Pipeline τ) : Prop where
  front : busy = true → p.queue ≠ [] ∧ 0 < p.taken
  whole : p.broken = false →
    ∃ past, past ++ p.queue = p.enqueued ∧ p.issued = past ++ p.queue.take busy.toNat
  rest : p.broken = true →
    busy = false ∧ p.issued <+: p.enqueued ∧ 0 < p.taken ∧ p.queue.length ≤ 1 ∧
      p.queue ⊆ p.enqueued

namespace Ordered

/-- The order of issue is the order of arrival, without gap or repetition. -/
theorem issued_prefix_enqueued (h : p.Ordered busy) : p.issued <+: p.enqueued := by
  cases b : p.broken with
  | true => exact (h.rest b).2.1
  | false =>
    obtain ⟨past, e, i⟩ := h.whole b
    rw [i, ← e]
    exact (List.prefix_append_right_inj past).mpr (List.take_prefix _ _)

lemma queue_subset (h : p.Ordered busy) : p.queue ⊆ p.enqueued := by
  cases b : p.broken with
  | true => exact (h.rest b).2.2.2.2
  | false =>
    obtain ⟨past, e, -⟩ := h.whole b
    rw [← e]
    exact List.subset_append_right past p.queue

/-- The queue repeats no ticket if the history does not. -/
lemma queue_nodup (h : p.Ordered busy) (nd : p.enqueued.Nodup) : p.queue.Nodup := by
  cases b : p.broken with
  | true =>
    obtain ⟨-, -, -, len, -⟩ := h.rest b
    match p.queue, len with
    | [], _ => exact List.nodup_nil
    | [x], _ => exact List.nodup_singleton x
  | false =>
    obtain ⟨past, e, -⟩ := h.whole b
    exact (e ▸ nd).of_append_right

/-- A ticket is taken only from a pipeline that works. -/
lemma live_of_taken_lt (h : p.Ordered busy) (lt : p.taken < p.queue.length) :
    p.broken = false := by
  cases b : p.broken with
  | true =>
    obtain ⟨-, -, pos, len, -⟩ := h.rest b
    omega
  | false => rfl

/-- A broken pipeline takes a ticket more only when its queue is empty. -/
lemma enqueue (h : p.Ordered busy) (late : p.broken = true → p.queue = []) :
    (p.enqueue t).Ordered busy where
  front b := ⟨by simp [Pipeline.enqueue], (h.front b).2⟩
  whole b := by
    obtain ⟨past, e, i⟩ := h.whole b
    refine ⟨past, by simp [Pipeline.enqueue, ← e], ?_⟩
    cases busy with
    | false => simpa [Pipeline.enqueue] using i
    | true =>
      obtain ⟨x, rest, q⟩ := List.exists_cons_of_ne_nil (h.front rfl).1
      simpa [Pipeline.enqueue, q] using i
  rest b := by
    obtain ⟨idle, pre, pos, -, -⟩ := h.rest b
    have none := late b
    refine ⟨idle, pre.trans (List.prefix_append _ _), pos, ?_, ?_⟩
    · simp [Pipeline.enqueue, none]
    · simp [Pipeline.enqueue, none]

lemma take (h : p.Ordered busy) : p.take.Ordered busy where
  front b := ⟨(h.front b).1, Nat.succ_pos _⟩
  whole := h.whole
  rest b := by
    obtain ⟨idle, pre, -, len, sub⟩ := h.rest b
    exact ⟨idle, pre, Nat.succ_pos _, len, sub⟩

/-- The front ticket may be issued once it does not wait. -/
lemma issue {rest : List τ} (h : p.Ordered false) (front : p.queue = t :: rest)
    (free : t ∉ p.waiting) : (p.issue t).Ordered true := by
  have live : p.broken = false := by
    cases b : p.broken with
    | true =>
      refine absurd ?_ free
      rw [waiting, b, if_pos rfl, front]
      exact List.mem_cons_self
    | false => rfl
  have pos : 0 < p.taken := by
    rw [waiting, live, front] at free
    cases e : p.taken with
    | zero => simp [e] at free
    | succ k => exact Nat.succ_pos k
  refine ⟨fun _ => ⟨by simp [Pipeline.issue, front], pos⟩, fun b => ?_, fun b => ?_⟩
  · obtain ⟨past, e, i⟩ := h.whole b
    refine ⟨past, e, ?_⟩
    simpa [Pipeline.issue, front] using i
  · exact absurd (live.symm.trans b) (by decide)

lemma retire (h : p.Ordered true) : p.retire.Ordered false where
  front b := by cases b
  whole b := by
    obtain ⟨past, e, i⟩ := h.whole b
    obtain ⟨x, rest, q⟩ := List.exists_cons_of_ne_nil (h.front rfl).1
    refine ⟨past ++ [x], ?_, ?_⟩
    · simpa [Pipeline.retire, q] using e
    · simpa [Pipeline.retire, q] using i
  rest b := by cases (h.rest b).1

lemma breakDown (h : p.Ordered true) : p.breakDown.Ordered false where
  front b := by cases b
  whole b := by cases b
  rest _ :=
    ⟨rfl, h.issued_prefix_enqueued, (h.front rfl).2, Nat.zero_le _, List.nil_subset _⟩

/-- A busy pipeline works. -/
lemma live_of_busy (h : p.Ordered true) : p.broken = false := by
  cases b : p.broken with
  | true => cases (h.rest b).1
  | false => rfl

end Ordered

lemma waiting_subset : p.waiting ⊆ p.queue := by
  unfold waiting
  split
  · exact List.Subset.refl _
  · exact List.drop_subset _ _

lemma mem_waiting_enqueue {x : τ} (h : x ∈ (p.enqueue t).waiting) : x ∈ p.waiting ∨ x = t := by
  unfold waiting enqueue at *
  cases b : p.broken with
  | true => simpa [b] using h
  | false =>
    simp only [b, Bool.false_eq_true, if_false, List.drop_append, List.mem_append] at h ⊢
    rcases h with old | new
    · exact .inl old
    · exact .inr (List.mem_singleton.mp (List.mem_of_mem_drop new))

/-- The ticket that is taken is the first that waits. -/
lemma waiting_eq_cons (live : p.broken = false) (h : p.queue[p.taken]? = some t) :
    p.waiting = t :: p.take.waiting := by
  obtain ⟨lt, e⟩ := List.getElem?_eq_some_iff.mp h
  simp only [waiting, take, live, Bool.false_eq_true, if_false]
  rw [List.drop_eq_getElem_cons lt, e]

lemma waiting_retire (live : p.broken = false) (pos : 0 < p.taken) :
    p.retire.waiting = p.waiting := by
  simp only [waiting, retire, live, Bool.false_eq_true, if_false]
  rw [← List.drop_one, List.drop_drop]
  exact congrArg (p.queue.drop ·) (by omega)

/-- A ticket that joins a queue behind the taken ones is not one of them. -/
lemma out_enqueue (bound : p.broken = false → p.taken ≤ p.queue.length) :
    (p.enqueue t).out = p.out := by
  unfold out enqueue
  cases b : p.broken with
  | true => rfl
  | false =>
    simp only [Bool.false_eq_true, if_false]
    exact List.take_append_of_le_length (bound b)

lemma mem_out_take {x : τ} (live : p.broken = false) (h : p.queue[p.taken]? = some t)
    (mem : x ∈ p.take.out) : x ∈ p.out ∨ x = t := by
  simp only [out, take, live, Bool.false_eq_true, if_false, List.take_add_one, h] at mem ⊢
  simpa using mem

lemma out_retire_subset : p.retire.out ⊆ p.out := by
  unfold out retire
  cases p.broken with
  | true => exact List.Subset.refl _
  | false =>
    simp only [Bool.false_eq_true, if_false]
    cases p.queue with
    | nil => simp
    | cons x rest =>
      cases p.taken with
      | zero => simp
      | succ k => exact List.subset_cons_self _ _

end Pipeline

/-! ## Pipelines that share their parties

Several pipelines `κ`, with tickets of their own, share the parties `ι` and one writer. A party holds the
ticket it has taken until it answers it; the writer issues the front ticket of a pipeline once it has an
answer. -/

/-- The pipelines, the tickets the parties hold, the answers, and the pipeline the writer is on. -/
structure Desk (κ ι τ α : Type*) where
  line : κ → Pipeline τ
  holds : ι → Option τ
  answer : τ → Option α
  writer : Option κ

namespace Desk
variable {κ ι τ α : Type*} [DecidableEq κ] {d : Desk κ ι τ α} {c : κ} {i : ι} {t : τ} {a : α}

/-- No ticket is enqueued twice, each pipeline is ordered, and a ticket that waits is held by nobody and
has no answer. -/
structure Sound (d : Desk κ ι τ α) : Prop where
  nodup : ∀ c, (d.line c).enqueued.Nodup
  apart : ∀ {c c' t}, t ∈ (d.line c).enqueued → t ∈ (d.line c').enqueued → c = c'
  ordered : ∀ c, (d.line c).Ordered (decide (d.writer = some c))
  unheld : ∀ {c i t}, t ∈ (d.line c).waiting → d.holds i ≠ some t
  blank : ∀ {c t}, t ∈ (d.line c).waiting → d.answer t = none

/-- A ticket that has been taken waits nowhere. -/
lemma Sound.not_waiting_of_taken (s : d.Sound) (live : (d.line c).broken = false)
    (h : (d.line c).queue[(d.line c).taken]? = some t) (c' : κ) :
    t ∉ (Function.update d.line c (d.line c).take c').waiting := by
  have first := Pipeline.waiting_eq_cons live h
  have here : t ∈ (d.line c).waiting := first ▸ List.mem_cons_self
  have inside := (s.ordered c).queue_subset (Pipeline.waiting_subset here)
  intro mem
  by_cases e : c' = c
  · subst e
    rw [Function.update_self] at mem
    have nd := (s.ordered c').queue_nodup (s.nodup c')
    have sub : (d.line c').waiting.Sublist (d.line c').queue := by
      rw [Pipeline.waiting, live]
      exact List.drop_sublist _ _
    exact (List.nodup_cons.mp (first ▸ nd.sublist sub)).1 mem
  · rw [Function.update_of_ne e] at mem
    exact e (s.apart ((s.ordered c').queue_subset (Pipeline.waiting_subset mem)) inside)

/-- A ticket that is held waits nowhere. -/
lemma Sound.not_waiting_of_held (s : d.Sound) (h : d.holds i = some t) (c : κ) :
    t ∉ (d.line c).waiting := by
  intro mem
  exact s.unheld mem h

/-- A ticket that has an answer waits nowhere. -/
lemma Sound.not_waiting_of_answer (s : d.Sound) (h : d.answer t = some a) (c : κ) :
    t ∉ (d.line c).waiting := by
  intro mem
  rw [s.blank mem] at h
  cases h

/-- The front ticket of a pipeline that the writer is not on has not been issued. -/
lemma Sound.not_issued {rest : List τ} (s : d.Sound) (off : d.writer = none)
    (front : (d.line c).queue = t :: rest) (h : d.answer t = some a) (c' : κ) :
    t ∉ (d.line c').issued := by
  have ord := s.ordered c
  have inside : t ∈ (d.line c).enqueued := ord.queue_subset (front ▸ List.mem_cons_self)
  intro mem
  obtain rfl := s.apart ((s.ordered c').issued_prefix_enqueued.subset mem) inside
  cases b : (d.line c').broken with
  | true =>
    refine s.not_waiting_of_answer h c' ?_
    rw [Pipeline.waiting, b, if_pos rfl, front]
    exact List.mem_cons_self
  | false =>
    obtain ⟨past, e, i⟩ := ord.whole b
    rw [off] at i
    simp only [reduceCtorEq, decide_false, Bool.toNat_false, List.take_zero, List.append_nil] at i
    have nd := s.nodup c'
    rw [← e, front, List.nodup_append'] at nd
    exact nd.2.2 (i ▸ mem) List.mem_cons_self

/-- One pipeline changes, with the writer: its history stays and no more tickets wait. -/
lemma Sound.move {p : Pipeline τ} {writer : Option κ} (s : d.Sound)
    (history : p.enqueued = (d.line c).enqueued) (wait : p.waiting ⊆ (d.line c).waiting)
    (ord : p.Ordered (decide (writer = some c)))
    (others : ∀ e, e ≠ c → (writer = some e ↔ d.writer = some e)) :
    Sound { d with line := Function.update d.line c p, writer := writer } := by
  have enq : ∀ e, (Function.update d.line c p e).enqueued = (d.line e).enqueued := by
    intro e
    by_cases eq : e = c
    · subst eq
      rw [Function.update_self, history]
    · rw [Function.update_of_ne eq]
  have sub : ∀ e, (Function.update d.line c p e).waiting ⊆ (d.line e).waiting := by
    intro e
    by_cases eq : e = c
    · subst eq
      rwa [Function.update_self]
    · rw [Function.update_of_ne eq]
      exact List.Subset.refl _
  refine ⟨fun e => ?_, fun {e e' x} h h' => ?_, fun e => ?_, fun {e i x} h => s.unheld (sub e h),
    fun {e x} h => s.blank (sub e h)⟩
  · rw [enq e]
    exact s.nodup e
  · rw [enq] at h h'
    exact s.apart h h'
  · by_cases eq : e = c
    · subst eq
      simpa only [Function.update_self] using ord
    · simp only [Function.update_of_ne eq, others e eq]
      exact s.ordered e

/-- A party takes a ticket that waits nowhere. -/
lemma Sound.hold [DecidableEq ι] (s : d.Sound) (free : ∀ c, t ∉ (d.line c).waiting) :
    Sound { d with holds := Function.update d.holds i (some t) } := by
  refine ⟨s.nodup, s.apart, s.ordered, fun {c j x} h held => ?_, s.blank⟩
  by_cases e : j = i
  · subst e
    simp only [Function.update_self, Option.some.injEq] at held
    exact free c (held ▸ h)
  · simp only [Function.update_of_ne e] at held
    exact s.unheld h held

/-- A party gives its ticket back. -/
lemma Sound.leave [DecidableEq ι] (s : d.Sound) :
    Sound { d with holds := Function.update d.holds i none } := by
  refine ⟨s.nodup, s.apart, s.ordered, fun {c j x} h held => ?_, s.blank⟩
  by_cases e : j = i
  · subst e
    simp at held
  · simp only [Function.update_of_ne e] at held
    exact s.unheld h held

/-- A ticket that waits nowhere is answered. -/
lemma Sound.put [DecidableEq τ] (s : d.Sound) (free : ∀ c, t ∉ (d.line c).waiting) :
    Sound { d with answer := Function.update d.answer t (some a) } := by
  refine ⟨s.nodup, s.apart, s.ordered, s.unheld, fun {c x} h => ?_⟩
  have ne : x ≠ t := by
    rintro rfl
    exact free c h
  simp only [Function.update_of_ne ne]
  exact s.blank h

/-- A new ticket joins a pipeline. -/
lemma Sound.enqueue [DecidableEq τ] (s : d.Sound) (fresh : ∀ c, t ∉ (d.line c).enqueued)
    (free : ∀ i, d.holds i ≠ some t) (late : (d.line c).broken = true → (d.line c).queue = []) :
    Sound { d with
      line := Function.update d.line c ((d.line c).enqueue t)
      answer := Function.update d.answer t none } := by
  have mem : ∀ {e x}, x ∈ (Function.update d.line c ((d.line c).enqueue t) e).enqueued →
      x ∈ (d.line e).enqueued ∨ x = t ∧ e = c := by
    intro e x h
    by_cases eq : e = c
    · subst eq
      rw [Function.update_self] at h
      rcases List.mem_append.mp h with old | new
      · exact .inl old
      · exact .inr ⟨List.mem_singleton.mp new, rfl⟩
    · rw [Function.update_of_ne eq] at h
      exact .inl h
  have wait : ∀ {e x}, x ∈ (Function.update d.line c ((d.line c).enqueue t) e).waiting →
      x ∈ (d.line e).waiting ∨ x = t := by
    intro e x h
    by_cases eq : e = c
    · subst eq
      rw [Function.update_self] at h
      exact Pipeline.mem_waiting_enqueue h
    · rw [Function.update_of_ne eq] at h
      exact .inl h
  refine ⟨fun e => ?_, fun {e e' x} h h' => ?_, fun e => ?_, fun {e i x} h => ?_, fun {e x} h => ?_⟩
  · by_cases eq : e = c
    · subst eq
      simp only [Function.update_self, Pipeline.enqueue]
      exact List.nodup_append'.mpr ⟨s.nodup e, List.nodup_singleton t, by simpa using fresh e⟩
    · simpa only [Function.update_of_ne eq] using s.nodup e
  · -- a ticket is in one pipeline only, and the new one was in none
    rcases mem h with old | ⟨rfl, rfl⟩ <;> rcases mem h' with old' | ⟨e1, rfl⟩
    · exact s.apart old old'
    · exact absurd (e1 ▸ old) (fresh e)
    · exact absurd old' (fresh e')
    · rfl
  · by_cases eq : e = c
    · subst eq
      simpa only [Function.update_self] using (s.ordered e).enqueue late
    · simpa only [Function.update_of_ne eq] using s.ordered e
  · rcases wait h with old | rfl
    · exact s.unheld old
    · exact free i
  · by_cases eq : x = t
    · subst eq
      exact Function.update_self ..
    · simp only [Function.update_of_ne eq]
      exact s.blank ((wait h).resolve_right eq)

end Desk

end CovNet.Lib
