import Mathlib.Data.List.Perm.Subperm
import CovNet.Master.Correlation

/-!
# The bookkeeping of the connections

`conn_list` is rotated and pruned by the request workers and extended by the accept worker alone, which is
why it has no connection twice and never grows past `max_connections` (`Listing`). `request_count` counts
the requests of a connection: a connection that may still be read from has not reached `max_keep_alive`, and
the request that reaches it takes `keep_alive` down (`Counts`). With `Readers` this gives
`connection_bookkeeping`.
-/

namespace CovNet.Master
open Lib Text Http Socket

/-! ## The list -/

/-- The list repeats nothing, and there is room for the connection that is being accepted. -/
structure Listing (cfg : Config) (m : State) : Prop where
  nodup : m.connList.Nodup
  size : m.connList.length ≤ cfg.maxConnections
  room : m.accept = .accepting → m.connList.length < cfg.maxConnections

/-- The scan takes connections out of the list, and adds none. -/
lemma scanConns_subperm {conns : Nat → HttpConn} {l list : List Nat} {r : Option Nat}
    (h : State.scanConns conns l = (list, r)) : (list ++ r.toList).Subperm l := by
  induction l generalizing list r with
  | nil =>
    cases h
    exact List.Subperm.refl _
  | cons c l ih =>
    rw [State.scanConns] at h
    split at h
    · exact (ih h).trans (List.sublist_cons_self c l).subperm
    · split at h
      · cases h
        exact (List.perm_append_singleton c l).subperm
      · cases h
        exact (List.subperm_cons c).mpr (ih rfl)

lemma requestStep_connList {cfg : Config} {m m' : State} {w : Nat} {p : Parsed}
    (h : m.requestStep cfg w p = some m') : m'.connList.Subperm m.connList := by
  have same := List.Subperm.refl m.connList
  unfold State.requestStep at h
  split at h
  · split at h
    · cases h
      exact same
    · split at h
      · rename_i scan
        cases h
        simpa using scanConns_subperm scan
      · rename_i scan
        cases h
        exact scanConns_subperm scan
  · split at h
    · cases h
    · cases h
      exact same
    · cases h
      exact same
    · cases h
      exact same
    · split at h
      · cases h
      · cases h
        exact same
  · cases h
    exact same
  · cases h
    exact same
  · cases h

namespace Listing
variable {cfg : Config} {m m' : State}

lemma init : Listing cfg {} where
  nodup := List.nodup_nil
  size := Nat.zero_le _
  room e := by cases e

/-- The list is pruned or rotated. -/
lemma shrink (l : Listing cfg m) (accept : m'.accept = m.accept)
    (list : m'.connList.Subperm m.connList) : Listing cfg m' where
  nodup := by
    obtain ⟨kept, perm, sub⟩ := list
    exact perm.nodup_iff.mp (l.nodup.sublist sub)
  size := list.length_le.trans l.size
  room e := lt_of_le_of_lt list.length_le (l.room (accept ▸ e))

lemma congr (l : Listing cfg m) (accept : m'.accept = m.accept)
    (list : m'.connList = m.connList) : Listing cfg m' :=
  l.shrink accept (list ▸ List.Subperm.refl _)

/-- The accept worker adds a connection only where there is room. -/
lemma acceptStep {ok : Bool} (l : Listing cfg m) (r : Readers m) (h : m.acceptStep cfg ok = some m') :
    Listing cfg m' := by
  unfold State.acceptStep at h
  split at h
  · split at h
    · cases h
      exact ⟨l.nodup, l.size, fun e => by cases e⟩
    · split at h
      · cases h
        exact l
      · rename_i few
        cases h
        exact ⟨l.nodup, l.size, fun _ => Nat.lt_of_not_le few⟩
  · rename_i accepting
    split at h
    · cases h
      have new : m.nextConn ∉ m.connList := fun mem => Nat.lt_irrefl _ (r.listed _ mem)
      refine ⟨?_, ?_, fun e => by cases e⟩
      · exact List.nodup_append'.mpr ⟨l.nodup, List.nodup_singleton _, by simpa using new⟩
      · rw [List.length_append]
        exact l.room accepting
    · cases h
      exact ⟨l.nodup, l.size, fun e => by cases e⟩
  · cases h

lemma step {a : Action} (l : Listing cfg m) (r : Readers m) (h : m.next cfg a = some m') :
    Listing cfg m' := by
  have move := next_move h
  cases a with
  | accept ok => exact l.acceptStep r h
  | request w p =>
    refine l.shrink ?_ (requestStep_connList h)
    cases move with
    | request move => cases move <;> rfl
  | response =>
    cases move with
    | response move =>
      cases move with
      | serve turns serves => cases turns <;> cases serves <;> exact l.congr rfl rfl
      | ended _ | idle | shut _ _ => exact l.congr rfl rfl
  | dispatch w r =>
    cases move with
    | dispatch move =>
      rcases move.aside with a | ⟨c, -, -, a⟩
      · exact l.congr a.accept a.connList
      · exact l.congr a.accept a.connList
  | tick | stop | spawn | readDone | readLate | refuseDone | responseDone | reply =>
    cases move <;> exact l.congr rfl rfl

end Listing

/-! ## The number of requests -/

/-- A connection that may be read from, or is being read from, has not had its last request. -/
structure Counts (cfg : Config) (m : State) : Prop where
  limit : ∀ c, (m.conns c).requestCount ≤ cfg.maxKeepAlive
  keep : ∀ {c}, (m.conns c).keepAlive = true → (m.conns c).requestCount < cfg.maxKeepAlive
  held : ∀ {w c}, (m.request w).conn = some c → (m.conns c).requestCount < cfg.maxKeepAlive

/-- The last request a connection may have says close. -/
lemma closes_limited {cfg : Config} {count : Nat} {s : Session} (last : cfg.maxKeepAlive ≤ count) :
    closes (State.limited cfg count s) = true := by
  rw [State.limited, if_pos last]
  exact beq_self_eq_true _

namespace Counts
variable {cfg : Config} {m m' : State} {w c : Nat}

lemma init (positive : 1 ≤ cfg.maxKeepAlive) : Counts cfg {} where
  limit _ := Nat.zero_le _
  keep _ := positive
  held e := by cases e

/-- No request is counted. -/
lemma mono (k : Counts cfg m)
    (count : ∀ c, (m'.conns c).requestCount = (m.conns c).requestCount)
    (keep : ∀ c, (m'.conns c).keepAlive = true → (m.conns c).keepAlive = true)
    (held : ∀ w c, (m'.request w).conn = some c →
      (m.request w).conn = some c ∨ (m.conns c).keepAlive = true) : Counts cfg m' where
  limit c := by
    rw [count]
    exact k.limit c
  keep {c} e := by
    rw [count]
    exact k.keep (keep c e)
  held {w c} e := by
    rw [count]
    rcases held w c e with old | picked
    · exact k.held old
    · exact k.keep picked

lemma congr (k : Counts cfg m) (conns : m'.conns = m.conns) (request : m'.request = m.request) :
    Counts cfg m' := by
  refine k.mono (fun _ => by rw [conns]) (fun _ => ?_) (fun _ _ e => ?_)
  · rw [conns]
    exact id
  · rw [request] at e
    exact .inl e

/-- A connection changes, and nobody comes to it. -/
lemma touch {conn : HttpConn} (k : Counts cfg m) (conns : m'.conns = Function.update m.conns c conn)
    (count : conn.requestCount = (m.conns c).requestCount)
    (keep : conn.keepAlive = true → (m.conns c).keepAlive = true)
    (request : m'.request = m.request) : Counts cfg m' := by
  refine k.mono (fun d => ?_) (fun d e => ?_) (fun _ _ e => ?_)
  · rw [conns]
    exact congrFun (update_read_same HttpConn.requestCount m.conns count) d
  · rw [conns] at e
    by_cases eq : d = c
    · subst eq
      rw [Function.update_self] at e
      exact keep e
    · rwa [Function.update_of_ne eq] at e
  · rw [request] at e
    exact .inl e

/-- A request worker moves on a connection that it has in hand. -/
lemma place {p : HttpConn × RequestPc} {list : List Nat} (k : Counts cfg m)
    (handled : Handled (m.conns c) p.1) (place : ∀ d, p.2.conn = some d → d = c)
    (held : (m.request w).conn = some c ∨ (m.conns c).keepAlive = true) :
    Counts cfg ({ m with connList := list }.place w c p) := by
  refine k.mono (fun d => ?_) (fun d e => ?_) (fun u d e => ?_)
  · exact congrFun (update_read_same HttpConn.requestCount m.conns handled.requestCount) d
  · simp only [State.place] at e
    by_cases eq : d = c
    · subst eq
      rwa [Function.update_self, handled.keepAlive] at e
    · rwa [Function.update_of_ne eq] at e
  · simp only [State.place] at e
    by_cases eu : u = w
    · subst eu
      rw [Function.update_self] at e
      rw [place d e]
      exact held
    · rw [Function.update_of_ne eu] at e
      exact .inl e

/-- A worker leaves its connection as it is. -/
lemma leave {pc : RequestPc} (k : Counts cfg m) (out : pc.conn = none) :
    Counts cfg { m with request := Function.update m.request w pc } := by
  refine k.mono (fun _ => rfl) (fun _ => id) (fun u d e => .inl ?_)
  by_cases eu : u = w
  · subst eu
    simp only [Function.update_self, out] at e
    cases e
  · simpa only [Function.update_of_ne eu] using e

/-- A request is counted, and its reader leaves. -/
lemma enqueue {s : Session} (k : Counts cfg m) (r : Readers m) (on : (m.request w).conn = some c) :
    Counts cfg (m.enqueue cfg w c s) := by
  have before := k.held on
  refine ⟨fun d => ?_, fun {d} keep => ?_, fun {u d} e => ?_⟩
  · simp only [State.enqueue, State.place]
    by_cases eq : d = c
    · subst eq
      rw [Function.update_self]
      exact before
    · rw [Function.update_of_ne eq]
      exact k.limit d
  · simp only [State.enqueue, State.place] at keep ⊢
    by_cases eq : d = c
    · subst eq
      rw [Function.update_self] at keep ⊢
      show (m.conns d).requestCount + 1 < cfg.maxKeepAlive
      -- the last request a connection may have makes it close
      by_contra last
      have close : closes (State.limited cfg ((m.conns d).requestCount + 1) s) = true :=
        closes_limited (Nat.le_of_not_lt last)
      simp [HttpConn.push, close] at keep
    · rw [Function.update_of_ne eq] at keep ⊢
      exact k.keep keep
  · simp only [State.enqueue, State.place] at e ⊢
    by_cases eu : u = w
    · subst eu
      rw [Function.update_self] at e
      cases e
    · rw [Function.update_of_ne eu] at e
      have ne : d ≠ c := by
        rintro rfl
        exact eu (r.uniq e on)
      rw [Function.update_of_ne ne]
      exact k.held e

lemma request {p : Parsed} (k : Counts cfg m) (r : Readers m) (h : RequestMove cfg m w p m') :
    Counts cfg m' := by
  have inHand : ∀ {c conn list}, InHand m w c conn list →
      (m.request w).conn = some c ∨ (m.conns c).keepAlive = true := by
    intro c conn list hand
    cases hand with
    | pick _ _ _ keep _ => exact .inr keep
    | keep reading => exact .inl (by rw [reading]; rfl)
  cases h with
  | ended _ => exact k.leave rfl
  | scan _ => exact k.congr rfl rfl
  | read hand _ _ =>
    refine k.place ((r.inHand hand).2.2.2.2.trans ⟨rfl, rfl, rfl, rfl, rfl, rfl, rfl⟩) (fun d e => ?_)
      (inHand hand)
    cases e
    rfl
  | raise hand _ => exact k.place (r.inHand hand).2.2.2.2 (fun d e => by cases e) (inHand hand)
  | @fail c conn list code hand _ =>
    have handles : Handles c conn (conn.refuse c m.now code) := refuse_handles
    exact k.place ((r.inHand hand).2.2.2.2.trans handles.handled) handles.place (inHand hand)
  | enqueue reading _ _ => exact k.enqueue r (by rw [reading]; rfl)
  | fault _ => exact k.leave rfl
  | @shut c code p h =>
    rcases h with ⟨ok, refusing, h⟩ | ⟨sh, shutting, h⟩
    · have handles : Handles c (m.conns c) (shutFor c code p) := shutFor_handles h
      exact k.place handles.handled handles.place (.inl (by rw [refusing]; rfl))
    · have handles : Handles c (m.conns c) (shutFor c code p) := shutFor_handles h
      exact k.place handles.handled handles.place (.inl (by rw [shutting]; rfl))

lemma turnsTo {m1 : State} (k : Counts cfg m) (h : TurnsTo m c m1) : Counts cfg m1 := by
  cases h with
  | pick _ _ _ => exact k
  | written _ => exact k.touch rfl rfl id rfl
  | dropped _ => exact k.touch rfl rfl (fun e => by cases e) rfl
  | paused _ => exact k.congr rfl rfl

lemma serve (k : Counts cfg m) (h : ServeMove m c m') : Counts cfg m' := by
  cases h with
  | pause _ _ | raise _ _ _ | done _ => exact k.congr rfl rfl
  | write _ _ _ => exact k.touch rfl rfl id rfl
  | close _ _ shuts =>
    have handled := (closeFor_spec (c := c) shuts).1
    exact k.touch rfl handled.requestCount (fun e => handled.keepAlive ▸ e) rfl

lemma response (k : Counts cfg m) (h : ResponseMove m m') : Counts cfg m' := by
  cases h with
  | ended _ => exact k.congr rfl rfl
  | idle => exact k
  | serve turns serves => exact (k.turnsTo turns).serve serves
  | @shut c sh r _ shuts =>
    have handled := (closeFor_spec (c := c) shuts).1
    exact k.touch rfl handled.requestCount (fun e => handled.keepAlive ▸ e) rfl

lemma step {a : Action} (k : Counts cfg m) (r : Readers m) (h : Move cfg m a m') : Counts cfg m' := by
  cases h with
  | tick | stop | accept | spawn | spawned | reply => exact k.congr rfl rfl
  | accepted =>
    have blank := r.fresh m.nextConn le_rfl
    refine k.touch rfl ?_ (fun _ => ?_) rfl
    · rw [blank]
    · rw [blank]
  | request move => exact k.request r move
  | response move => exact k.response move
  | dispatch move =>
    rcases move.aside with a | ⟨c, -, -, a⟩
    · exact k.congr a.conns a.request
    · refine k.touch a.conns rfl id a.request
  | readDone reading =>
    refine k.place ⟨rfl, rfl, rfl, rfl, rfl, rfl, rfl⟩ (fun d e => ?_) (.inl (by rw [reading]; rfl))
    cases e
    rfl
  | readLate _ => exact k.touch rfl rfl id rfl
  | refuseDone refusing =>
    refine k.place ⟨rfl, rfl, rfl, rfl, rfl, rfl, rfl⟩ (fun d e => ?_) (.inl (by rw [refusing]; rfl))
    cases e
    rfl
  | responseDone _ => exact k.touch rfl rfl id rfl

end Counts

/-- In every state of every run the list of connections repeats nothing and is not too long, at most one
request worker is on a connection, and a connection has had at most `max_keep_alive` requests; once it has
had that many nobody reads from it. -/
theorem connection_bookkeeping (cfg : Config) (positive : 1 ≤ cfg.maxKeepAlive) (m : State)
    (run : (master cfg).Reachable m) :
    m.connList.Nodup ∧ m.connList.length ≤ cfg.maxConnections ∧
    (∀ w u c, (m.request w).conn = some c → (m.request u).conn = some c → w = u) ∧
    ∀ c, (m.conns c).requestCount ≤ cfg.maxKeepAlive ∧
      ((m.conns c).requestCount = cfg.maxKeepAlive → ∀ w, (m.request w).conn ≠ some c) := by
  have all : Readers m ∧ Listing cfg m ∧ Counts cfg m := by
    refine run.invariant (I := fun m => Readers m ∧ Listing cfg m ∧ Counts cfg m) ?_ ?_
    · rintro _ rfl
      exact ⟨.init, .init, .init positive⟩
    intro m a m' ⟨r, l, k⟩ st
    exact ⟨r.step (next_move st), l.step r st, k.step r (next_move st)⟩
  obtain ⟨r, l, k⟩ := all
  refine ⟨l.nodup, l.size, fun w u c on on' => r.uniq on on', fun c => ⟨k.limit c, ?_⟩⟩
  intro last w on
  exact absurd last (k.held on).ne

/-- A connection has had the one request it may have. -/
theorem connection_bookkeeping_last :
    ∃ m, (master { maxKeepAlive := 1 }).Reachable m ∧ (m.conns 0).requestCount = 1 ∧
      m.connList = [0] ∧ ∀ w, (m.request w).conn ≠ some 0 := by
  obtain ⟨m, run, h⟩ := System.Reachable.exists_of_run (S := master { maxKeepAlive := 1 }) (.init rfl)
    (opening ++ asks (page (bytes "keep-alive")))
    (fun m => decide ((m.conns 0).requestCount = 1 ∧ m.connList = [0])) (by decide +kernel)
  obtain ⟨count, list⟩ := of_decide_eq_true h
  have books := connection_bookkeeping { maxKeepAlive := 1 } (by decide) m run
  exact ⟨m, run, count, list, (books.2.2.2 0).2 count⟩

end CovNet.Master
