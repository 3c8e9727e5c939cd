/-
# When a cancelled query leaves the queue

A query whose future was dropped never sends its finish.  Its span leaves the queue when it is the
oldest and a start finds the queue full, so what decides is how many of the queries started after
it are still tracked: after `MAX_IN_FLIGHT` further starts all of them must be.  One finish that
takes a later span is enough to keep it, and when later queries finish one by one it is kept for
good (`one_by_one_keeps`).  `leaves_queue_iff` is the exact rule.
-/
import Muxa.DieselSentry.Finish

namespace Muxa.DieselSentry

open Lib.Text Lib.Run

/-! ## 1. Whose span a finish takes -/

/-- A finish takes span `n`: it is alone, or the oldest one with the SQL reported. -/
def FinishesIt (n : Nat) (query : Display) (st : State) : Prop :=
  ∃ e ∈ st.queries, e.2.id = n ∧
    (st.queries = [e] ∨
      e.2.statement = query.sql ∧ ∀ e' ∈ st.queries, e'.2.statement = query.sql → n ≤ e'.2.id)

/-- A finish takes a span started after `n`: one with the SQL reported, and no older one. -/
def FinishesLater (n : Nat) (query : Display) (st : State) : Prop :=
  ∃ e ∈ st.queries, n < e.2.id ∧ e.2.statement = query.sql ∧
    ∀ e' ∈ st.queries, e'.2.statement = query.sql → e.2.id ≤ e'.2.id

section Queue

variable {sqlKey : Str → UInt64} {evs : List (Env × Event)} {st st' : State}

/-- The span numbered `e.2.id` has `A` before it and `B` after it. -/
theorem Tracked.split_ids (h : Tracked sqlKey evs st) {A B : List (UInt64 × Span)}
    {e : UInt64 × Span} (hq : st.queries = A ++ e :: B) :
    (∀ a ∈ A, a.2.id < e.2.id) ∧ (∀ b ∈ B, e.2.id < b.2.id) ∧
      B.Pairwise fun a b => a.2.id < b.2.id := by
  have hids := h.ids
  rw [hq, List.pairwise_append, List.pairwise_cons] at hids
  exact ⟨fun a ha => hids.2.2 a ha e List.mem_cons_self, hids.2.1.1, hids.2.1.2⟩

/-- The entry with span `n` is the one the split is at. -/
theorem Tracked.eq_of_id (h : Tracked sqlKey evs st) {A B : List (UInt64 × Span)}
    {e x : UInt64 × Span} (hq : st.queries = A ++ e :: B) (hx : x ∈ st.queries)
    (hid : x.2.id = e.2.id) : x = e := by
  obtain ⟨hA, hB, -⟩ := h.split_ids hq
  rw [hq] at hx
  rcases List.mem_append.mp hx with hx | hx
  · exact absurd hid (hA x hx).ne
  rcases List.mem_cons.mp hx with hx | hx
  · exact hx
  · exact absurd hid (hB x hx).ne'

/-- A finish reports a span before `e`: neither `e` nor a later one is taken. -/
theorem not_taken_of_before (h : Tracked sqlKey evs st) {A B : List (UInt64 × Span)}
    {e a : UInt64 × Span} (hq : st.queries = A ++ e :: B) {query : Display} (ha : a ∈ A)
    (hsql : a.2.statement = query.sql) :
    ¬ FinishesIt e.2.id query st ∧ ¬ FinishesLater e.2.id query st := by
  have hlt := (h.split_ids hq).1 a ha
  have hmem : a ∈ st.queries := hq ▸ List.mem_append_left _ ha
  constructor
  · rintro ⟨x, hx, hid, halone | ⟨-, holdest⟩⟩
    · rw [halone] at hmem
      have := congrArg (fun y => y.2.id) (List.mem_singleton.mp hmem)
      omega
    · exact absurd (holdest a hmem hsql) (by omega)
  · rintro ⟨x, -, hid, -, holdest⟩
    exact absurd (holdest a hmem hsql) (by omega)

/-- It reports `e` and no span before it: `e` is taken. -/
theorem taken_of_own (h : Tracked sqlKey evs st) {A B : List (UInt64 × Span)} {e : UInt64 × Span}
    (hq : st.queries = A ++ e :: B) {query : Display} (hA : ∀ a ∈ A, a.2.statement ≠ query.sql)
    (hsql : e.2.statement = query.sql) : FinishesIt e.2.id query st := by
  refine ⟨e, by simp [hq], rfl, .inr ⟨hsql, fun x hx hxsql => ?_⟩⟩
  rw [hq] at hx
  rcases List.mem_append.mp hx with hx | hx
  · exact absurd hxsql (hA x hx)
  rcases List.mem_cons.mp hx with rfl | hx
  · exact Nat.le_refl _
  · exact ((h.split_ids hq).2.1 x hx).le

/-- It does not report `e`, which is not alone: `e` is not taken. -/
theorem not_taken_of_ne (h : Tracked sqlKey evs st) {A B : List (UInt64 × Span)}
    {e : UInt64 × Span} (hq : st.queries = A ++ e :: B) {query : Display}
    (hlen : ¬ st.queries.length ≤ 1) (hsql : e.2.statement ≠ query.sql) :
    ¬ FinishesIt e.2.id query st := by
  rintro ⟨x, hx, hid, halone | ⟨hxsql, -⟩⟩
  · exact hlen (by simp [halone])
  · exact hsql (h.eq_of_id hq hx hid ▸ hxsql)

/-- It reports a span after `e` and none up to it: a later one is taken. -/
theorem later_of_after (h : Tracked sqlKey evs st) {A B : List (UInt64 × Span)}
    {e : UInt64 × Span} (hq : st.queries = A ++ e :: B) {query : Display}
    (hA : ∀ a ∈ A, a.2.statement ≠ query.sql) (hsql : e.2.statement ≠ query.sql)
    (hB : ∃ b ∈ B, b.2.statement = query.sql) : FinishesLater e.2.id query st := by
  obtain ⟨-, hafter, hids⟩ := h.split_ids hq
  obtain ⟨b, hb, hbsql⟩ := hB
  obtain ⟨x, B₁, B₂, hB₁, hx, hsplit, -⟩ := @List.exists_of_eraseP _
    (fun e : UInt64 × Span => e.2.statement == query.sql) B b hb (by simpa using hbsql)
  refine ⟨x, by simp [hq, hsplit], hafter x (by simp [hsplit]), by simpa using hx, ?_⟩
  intro y hy hysql
  rw [hq] at hy
  rcases List.mem_append.mp hy with hy | hy
  · exact absurd hysql (hA y hy)
  rcases List.mem_cons.mp hy with rfl | hy
  · exact absurd hysql hsql
  rw [hsplit] at hy hids
  rcases List.mem_append.mp hy with hy | hy
  · exact absurd (by simpa using hysql) (hB₁ y hy)
  rcases List.mem_cons.mp hy with rfl | hy
  · exact Nat.le_refl _
  · exact ((List.pairwise_cons.mp (List.pairwise_append.mp hids).2.1).1 y hy).le

/-- It reports no span after `e`: no later one is taken. -/
theorem not_later_of_none (h : Tracked sqlKey evs st) {A B : List (UInt64 × Span)}
    {e : UInt64 × Span} (hq : st.queries = A ++ e :: B) {query : Display}
    (hB : ¬ ∃ b ∈ B, b.2.statement = query.sql) : ¬ FinishesLater e.2.id query st := by
  rintro ⟨x, hx, hid, hxsql, -⟩
  rw [hq] at hx
  rcases List.mem_append.mp hx with hx | hx
  · exact absurd ((h.split_ids hq).1 x hx) (by omega)
  rcases List.mem_cons.mp hx with rfl | hx
  · exact absurd hid (Nat.lt_irrefl _)
  · exact hB ⟨x, hx, hxsql⟩

/-- With two spans or more tracked, a finish erases the oldest one with its SQL. -/
theorem finishTakes_pipelined {T : List Str} (h : Tracked sqlKey evs st)
    (hkey : KeysDistinct sqlKey T) (hstarts : ∀ sql ∈ starts evs, sql ∈ T) {query : Display}
    (hT : query.sql ∈ T) (hlen : ¬ st.queries.length ≤ 1) :
    (finishTakes sqlKey query st.queries).2 =
      st.queries.eraseP fun e => e.2.statement == query.sql := by
  rw [finishTakes, if_neg hlen, takeMatching_eq h.keys (fun e he => ?_) hkey hT]
  exact hstarts _ (List.mem_of_getElem? (h.started e he))

/-- **What a finish does to span `e`**: it takes it, takes a later one, or does neither. -/
theorem finish_cases {T : List Str} (h : Tracked sqlKey evs st) (hkey : KeysDistinct sqlKey T)
    (hstarts : ∀ sql ∈ starts evs, sql ∈ T) {query : Display} (hT : query.sql ∈ T)
    {A B : List (UInt64 × Span)} {e : UInt64 × Span} (hq : st.queries = A ++ e :: B) :
    (FinishesIt e.2.id query st ∧ (finishTakes sqlKey query st.queries).2 = A ++ B) ∨
    (¬ FinishesIt e.2.id query st ∧ FinishesLater e.2.id query st ∧
      ∃ B', (finishTakes sqlKey query st.queries).2 = A ++ e :: B' ∧
        B'.length + 1 = B.length) ∨
    (¬ FinishesIt e.2.id query st ∧ ¬ FinishesLater e.2.id query st ∧
      ∃ A', (finishTakes sqlKey query st.queries).2 = A' ++ e :: B) := by
  by_cases hlen : st.queries.length ≤ 1
  · -- alone: the front is taken, whatever its SQL
    have hAB : A = [] ∧ B = [] := by
      rw [hq, List.length_append, List.length_cons] at hlen
      exact ⟨List.eq_nil_of_length_eq_zero (by omega), List.eq_nil_of_length_eq_zero (by omega)⟩
    obtain ⟨rfl, rfl⟩ := hAB
    exact .inl ⟨⟨e, by simp [hq], rfl, .inl hq⟩, by simp [finishTakes, takeFront, hq]⟩
  have hrest := finishTakes_pipelined h hkey hstarts hT hlen
  rw [hq] at hrest
  by_cases hA : ∃ a ∈ A, a.2.statement = query.sql
  · obtain ⟨a, ha, hsql⟩ := hA
    obtain ⟨hit, hlater⟩ := not_taken_of_before h hq ha hsql
    rw [List.eraseP_append_left (by simpa using hsql) _ ha] at hrest
    exact .inr (.inr ⟨hit, hlater, _, by rw [hq, hrest]⟩)
  have hA : ∀ a ∈ A, a.2.statement ≠ query.sql := fun a ha hsql => hA ⟨a, ha, hsql⟩
  rw [List.eraseP_append_right _ (by simpa using hA)] at hrest
  by_cases hsql : e.2.statement = query.sql
  · rw [List.eraseP_cons_of_pos (by simpa using hsql)] at hrest
    exact .inl ⟨taken_of_own h hq hA hsql, by rw [hq, hrest]⟩
  have hit := not_taken_of_ne h hq hlen hsql
  rw [List.eraseP_cons_of_neg (by simpa using hsql)] at hrest
  by_cases hB : ∃ b ∈ B, b.2.statement = query.sql
  · refine .inr (.inl ⟨hit, later_of_after h hq hA hsql hB, _, by rw [hq, hrest], ?_⟩)
    obtain ⟨b, hb, hbsql⟩ := hB
    exact List.length_eraseP_add_one hb (by simpa using hbsql)
  · have hnone : ∀ b ∈ B, ¬ (b.2.statement == query.sql) := fun b hb hbsql =>
      hB ⟨b, hb, by simpa using hbsql⟩
    rw [List.eraseP_of_forall_not hnone] at hrest
    exact .inr (.inr ⟨hit, not_later_of_none h hq hB, A, by rw [hq, hrest]⟩)

/-! ## 2. How many later spans are tracked -/

/-- Span `n` is tracked, `k` tracked starts after its own: the spans after it are those `k`, or
fewer when a finish has taken a later one. -/
def Waits (n k : Nat) (later : Prop) (st : State) : Prop :=
  ∃ A e B, st.queries = A ++ e :: B ∧ e.2.id = n ∧ B.length ≤ k ∧ (later ↔ B.length < k)

theorem Waits.mem {n k : Nat} {later : Prop} (h : Waits n k later st) :
    ∃ e ∈ st.queries, e.2.id = n := by
  obtain ⟨A, e, B, hq, hid, -⟩ := h
  exact ⟨e, by simp [hq], hid⟩

/-- The queue after a tracked start, around a span that has fewer than the bound after it. -/
theorem start_keeps {A B : List (UInt64 × Span)} {e new : UInt64 × Span}
    (hq : st.queries = A ++ e :: B) (hB : B.length + 1 < maxInFlight)
    (hqueries : st'.queries =
      (if st.queries.length = maxInFlight then st.queries.tail else st.queries) ++ [new]) :
    ∃ A', st'.queries = A' ++ e :: (B ++ [new]) := by
  split at hqueries
  · rename_i hfull
    cases A with
    | nil =>
      -- a full queue with room after `e` has a span before it
      rw [hq, List.nil_append, List.length_cons] at hfull
      omega
    | cons a A => exact ⟨A, by simp [hqueries, hq]⟩
  · exact ⟨A, by simp [hqueries, hq]⟩

/-- Fewer than `MAX_IN_FLIGHT` tracked starts do not evict a span. -/
theorem Waits.start {n k : Nat} {later : Prop} (h : Waits n k later st)
    (hk : k + 1 < maxInFlight) {new : UInt64 × Span}
    (hqueries : st'.queries =
      (if st.queries.length = maxInFlight then st.queries.tail else st.queries) ++ [new]) :
    Waits n (k + 1) later st' := by
  obtain ⟨A, e, B, hq, hid, hle, hlater⟩ := h
  obtain ⟨A', hq'⟩ := start_keeps hq (by omega) hqueries
  refine ⟨A', e, B ++ [new], hq', hid, ?_, ?_⟩
  · rw [List.length_append, List.length_singleton]
    omega
  · rw [List.length_append, List.length_singleton, hlater, Nat.add_lt_add_iff_right]

/-- **The `MAX_IN_FLIGHT`-th tracked start evicts a span exactly when no finish took a later
one.** -/
theorem Waits.last_start {n k : Nat} {later : Prop} (h : Waits n k later st)
    (htracked : Tracked sqlKey evs st) (hk : k + 1 = maxInFlight) {new : UInt64 × Span}
    (hnew : n < new.2.id)
    (hqueries : st'.queries =
      (if st.queries.length = maxInFlight then st.queries.tail else st.queries) ++ [new]) :
    (∀ e ∈ st'.queries, e.2.id ≠ n) ↔ ¬ later := by
  obtain ⟨A, e, B, hq, rfl, hle, hlater⟩ := h
  rw [hlater, Nat.not_lt]
  constructor
  · intro hgone
    by_contra hlt
    obtain ⟨A', hq'⟩ := start_keeps hq (by omega) hqueries
    exact hgone e (by simp [hq']) rfl
  · intro hge
    have hroom := htracked.room
    obtain ⟨-, hB, -⟩ := htracked.split_ids hq
    rw [hq, List.length_append, List.length_cons] at hroom
    obtain rfl : A = [] := List.eq_nil_of_length_eq_zero (by omega)
    have hfull : st.queries.length = maxInFlight := by
      rw [hq, List.nil_append, List.length_cons]
      omega
    rw [if_pos hfull, hq, List.nil_append, List.tail_cons] at hqueries
    rw [hqueries]
    refine List.forall_mem_append.mpr ⟨fun b hb => (hB b hb).ne', ?_⟩
    exact List.forall_mem_singleton.mpr hnew.ne'

/-- A number that was given out and is not in the queue does not come back. -/
theorem gone_step {n : Nat} (hn : n < st.opened) (h : ∀ e ∈ st.queries, e.2.id ≠ n)
    (ev : Env × Event) (hstep : onConnectionEvent sqlKey st ev = some st') :
    n < st'.opened ∧ ∀ e ∈ st'.queries, e.2.id ≠ n := by
  obtain ⟨env, ev⟩ := ev
  cases ev with
  | startQuery query =>
    cases hon : env.enabled with
    | false =>
      obtain rfl := startQuery_disabled hon hstep
      exact ⟨hn, h⟩
    | true =>
      obtain ⟨span, hid, -, -, hqueries, hopened⟩ := startQuery_enabled hon hstep
      refine ⟨by omega, ?_⟩
      rw [hqueries]
      refine List.forall_mem_append.mpr ⟨fun e he => h e ?_, List.forall_mem_singleton.mpr ?_⟩
      · split at he
        · exact List.mem_of_mem_tail he
        · exact he
      · exact hid ▸ hn.ne'
  | finishQuery query error =>
    obtain ⟨hqueries, -, hopened⟩ := finishQuery_eq hstep
    refine ⟨hopened ▸ hn, fun e he => h e ?_⟩
    exact (finishTakes_sublist query st.queries).subset (hqueries ▸ he)
  | _ =>
    obtain ⟨hqueries, hopened⟩ := otherEvent_eq rfl hstep
    exact ⟨hopened ▸ hn, fun e he => h e (hqueries ▸ he)⟩

end Queue

/-! ## 3. The whole run -/

section Runs

variable (sqlKey : Str → UInt64) (dbSystem : Option Str)

/-- Some finish of `mid`, which follows `base`, met a state in which `P` held for its query. -/
def SomeFinish (P : Display → State → Prop) (base mid : List (Env × Event)) : Prop :=
  ∃ m env query error, m ++ [(env, .finishQuery query error)] <+: mid ∧
    P query (stateAfter sqlKey dbSystem (base ++ m))

variable {sqlKey dbSystem}

theorem not_someFinish_nil {P : Display → State → Prop} {base : List (Env × Event)} :
    ¬ SomeFinish sqlKey dbSystem P base [] := by
  rintro ⟨m, env, query, error, hm, -⟩
  simp at hm

theorem someFinish_concat {P : Display → State → Prop} {base mid : List (Env × Event)}
    {ev : Env × Event} :
    SomeFinish sqlKey dbSystem P base (mid ++ [ev]) ↔
      SomeFinish sqlKey dbSystem P base mid ∨
        ∃ env query error, ev = (env, .finishQuery query error) ∧
          P query (stateAfter sqlKey dbSystem (base ++ mid)) := by
  constructor
  · rintro ⟨m, env, query, error, hm, hP⟩
    rcases List.prefix_concat_iff.mp hm with hm | hm
    · obtain ⟨rfl, hev⟩ := List.append_inj' hm rfl
      exact .inr ⟨env, query, error, (List.singleton_inj.mp hev).symm, hP⟩
    · exact .inl ⟨m, env, query, error, hm, hP⟩
  · rintro (⟨m, env, query, error, hm, hP⟩ | ⟨env, query, error, rfl, hP⟩)
    · exact ⟨m, env, query, error, hm.trans (List.prefix_append _ _), hP⟩
    · exact ⟨mid, env, query, error, List.prefix_rfl, hP⟩

theorem someFinish_other {P : Display → State → Prop} {base mid : List (Env × Event)} {env : Env}
    {ev : Event} (hev : ∀ query error, ev ≠ .finishQuery query error) :
    SomeFinish sqlKey dbSystem P base (mid ++ [(env, ev)]) ↔
      SomeFinish sqlKey dbSystem P base mid := by
  rw [someFinish_concat, or_iff_left]
  rintro ⟨env', query, error, heq, -⟩
  exact hev query error (congrArg Prod.snd heq)

theorem someFinish_finish {P : Display → State → Prop} {base mid : List (Env × Event)} {env : Env}
    {query : Display} {error : Option Str} :
    SomeFinish sqlKey dbSystem P base (mid ++ [(env, .finishQuery query error)]) ↔
      SomeFinish sqlKey dbSystem P base mid ∨
        P query (stateAfter sqlKey dbSystem (base ++ mid)) := by
  rw [someFinish_concat]
  refine or_congr_right ⟨?_, fun hP => ⟨env, query, error, rfl, hP⟩⟩
  rintro ⟨env', query', error', heq, hP⟩
  cases heq
  exact hP

/-- Span `n` was taken by a finish, or waits with the later spans that no finish took after it. -/
def TakenOrWaits (sqlKey : Str → UInt64) (dbSystem : Option Str) (n : Nat)
    (base mid : List (Env × Event)) : Prop :=
  (SomeFinish sqlKey dbSystem (FinishesIt n) base mid ∧
    ∀ e ∈ (stateAfter sqlKey dbSystem (base ++ mid)).queries, e.2.id ≠ n) ∨
  (¬ SomeFinish sqlKey dbSystem (FinishesIt n) base mid ∧
    Waits n (starts mid).length (SomeFinish sqlKey dbSystem (FinishesLater n) base mid)
      (stateAfter sqlKey dbSystem (base ++ mid)))

theorem waits_finish {base mid : List (Env × Event)} {n : Nat} {env : Env} {query : Display}
    {error : Option Str}
    (hkey : KeysDistinct sqlKey (texts (base ++ mid ++ [(env, .finishQuery query error)])))
    (hit : ¬ SomeFinish sqlKey dbSystem (FinishesIt n) base mid)
    (h : Waits n (starts mid).length (SomeFinish sqlKey dbSystem (FinishesLater n) base mid)
      (stateAfter sqlKey dbSystem (base ++ mid))) :
    TakenOrWaits sqlKey dbSystem n base (mid ++ [(env, .finishQuery query error)]) := by
  have htracked := tracked_run sqlKey dbSystem (base ++ mid)
  have hstep := stateAfter_concat sqlKey dbSystem (base ++ mid) (env, .finishQuery query error)
  have hstarts : starts (mid ++ [(env, .finishQuery query error)]) = starts mid := by
    simp [starts]
  have htexts : ∀ sql ∈ starts (base ++ mid),
      sql ∈ texts (base ++ mid ++ [(env, .finishQuery query error)]) := fun sql hsql =>
    texts_subset (List.prefix_append _ _) (starts_subset_texts hsql)
  have htext : query.sql ∈ texts (base ++ mid ++ [(env, .finishQuery query error)]) := by
    simp [texts]
  obtain ⟨A, e, B, hq, rfl, hle, hlater⟩ := h
  rw [List.append_assoc] at hstep
  obtain ⟨hqueries, -, -⟩ := finishQuery_eq hstep
  obtain ⟨hA, hB, -⟩ := htracked.split_ids hq
  unfold TakenOrWaits
  rw [someFinish_finish, someFinish_finish, hstarts]
  rcases finish_cases htracked hkey htexts htext hq with
    ⟨htakes, hrest⟩ | ⟨hnot, htakes, B', hrest, hlen⟩ | ⟨hnot, hnotLater, A', hrest⟩
  · refine .inl ⟨.inr htakes, ?_⟩
    rw [hqueries, hrest]
    exact List.forall_mem_append.mpr ⟨fun a ha => (hA a ha).ne, fun b hb => (hB b hb).ne'⟩
  · refine .inr ⟨not_or.mpr ⟨hit, hnot⟩, A, e, B', hqueries.trans hrest, rfl, by omega, ?_⟩
    exact iff_of_true (.inr htakes) (by omega)
  · refine .inr ⟨not_or.mpr ⟨hit, hnot⟩, A', e, B, hqueries.trans hrest, rfl, hle, ?_⟩
    rw [or_iff_left hnotLater, hlater]

theorem waits_startQuery {base mid : List (Env × Event)} {n : Nat} {env : Env} {query : Display}
    (hcount : (starts (mid ++ [(env, .startQuery query)])).length < maxInFlight)
    (hit : ¬ SomeFinish sqlKey dbSystem (FinishesIt n) base mid)
    (h : Waits n (starts mid).length (SomeFinish sqlKey dbSystem (FinishesLater n) base mid)
      (stateAfter sqlKey dbSystem (base ++ mid))) :
    TakenOrWaits sqlKey dbSystem n base (mid ++ [(env, .startQuery query)]) := by
  have hstep := stateAfter_concat sqlKey dbSystem (base ++ mid) (env, .startQuery query)
  rw [List.append_assoc] at hstep
  have hother : ∀ query' error, Event.startQuery query ≠ .finishQuery query' error := by simp
  refine .inr ⟨(someFinish_other hother).not.mpr hit, ?_⟩
  rw [someFinish_other hother]
  cases hon : env.enabled with
  | false =>
    have hstarts : starts (mid ++ [(env, .startQuery query)]) = starts mid := by
      simp [starts, hon]
    rw [startQuery_disabled hon hstep, hstarts]
    exact h
  | true =>
    have hstarts : (starts (mid ++ [(env, .startQuery query)])).length =
        (starts mid).length + 1 := by
      simp [starts, hon]
    obtain ⟨span, -, -, -, hqueries, -⟩ := startQuery_enabled hon hstep
    rw [hstarts] at hcount ⊢
    exact h.start hcount hqueries

theorem waits_other {base mid : List (Env × Event)} {n : Nat} {env : Env} {ev : Event}
    (hev : ev.isQuery = false) (hit : ¬ SomeFinish sqlKey dbSystem (FinishesIt n) base mid)
    (h : Waits n (starts mid).length (SomeFinish sqlKey dbSystem (FinishesLater n) base mid)
      (stateAfter sqlKey dbSystem (base ++ mid))) :
    TakenOrWaits sqlKey dbSystem n base (mid ++ [(env, ev)]) := by
  have hstep := stateAfter_concat sqlKey dbSystem (base ++ mid) (env, ev)
  rw [List.append_assoc] at hstep
  have hother : ∀ query error, ev ≠ .finishQuery query error := by
    rintro query error rfl
    cases hev
  have hstarts : starts (mid ++ [(env, ev)]) = starts mid := by
    cases ev with
    | startQuery query => cases hev
    | _ => simp [starts]
  refine .inr ⟨(someFinish_other hother).not.mpr hit, ?_⟩
  rw [someFinish_other hother, hstarts]
  obtain ⟨A, e, B, hq, hwaits⟩ := h
  exact ⟨A, e, B, (otherEvent_eq hev hstep).1.trans hq, hwaits⟩

/-- One event before the last start. -/
theorem taken_or_waits_step {base mid : List (Env × Event)} {n : Nat}
    (hn : n < (starts base).length) {ev : Env × Event}
    (hkey : KeysDistinct sqlKey (texts (base ++ mid ++ [ev])))
    (hcount : (starts (mid ++ [ev])).length < maxInFlight)
    (h : TakenOrWaits sqlKey dbSystem n base mid) :
    TakenOrWaits sqlKey dbSystem n base (mid ++ [ev]) := by
  have htracked := tracked_run sqlKey dbSystem (base ++ mid)
  have hstep := stateAfter_concat sqlKey dbSystem (base ++ mid) ev
  rw [List.append_assoc] at hstep
  rcases h with ⟨hit, hgone⟩ | ⟨hit, hwaits⟩
  · refine .inl ⟨someFinish_concat.mpr (.inl hit), (gone_step ?_ hgone ev hstep).2⟩
    rw [htracked.opened, starts_append, List.length_append]
    omega
  obtain ⟨env, ev⟩ := ev
  cases ev with
  | finishQuery query error => exact waits_finish hkey hit hwaits
  | startQuery query => exact waits_startQuery hcount hit hwaits
  | _ => exact waits_other rfl hit hwaits

/-- **Up to the last start**, span `n` was taken or waits. -/
theorem taken_or_waits {base mid : List (Env × Event)} {n : Nat} (hn : n < (starts base).length)
    (hkey : KeysDistinct sqlKey (texts (base ++ mid)))
    (hstart : Waits n 0 False (stateAfter sqlKey dbSystem base))
    (hcount : (starts mid).length < maxInFlight) : TakenOrWaits sqlKey dbSystem n base mid := by
  induction mid using List.reverseRecOn with
  | nil =>
    refine .inr ⟨not_someFinish_nil, ?_⟩
    rw [List.append_nil, iff_false_intro not_someFinish_nil]
    exact hstart
  | append_singleton mid ev ih =>
    rw [← List.append_assoc] at hkey
    refine taken_or_waits_step hn hkey hcount (ih ?_ ?_)
    · exact hkey.subset (texts_subset (List.prefix_append _ _))
    · rw [starts_append, List.length_append] at hcount
      omega

/-- A tracked start puts its span at the back, with nothing after it. -/
theorem waits_of_start (sqlKey : Str → UInt64) (dbSystem : Option Str)
    (pre : List (Env × Event)) (query : Display) {env : Env} (hon : env.enabled = true) :
    Waits (starts pre).length 0 False
      (stateAfter sqlKey dbSystem (pre ++ [(env, .startQuery query)])) := by
  have htracked := tracked_run sqlKey dbSystem pre
  obtain ⟨span, hid, -, -, hqueries, -⟩ :=
    startQuery_enabled hon (stateAfter_concat sqlKey dbSystem pre (env, .startQuery query))
  exact ⟨_, _, [], hqueries, hid.trans htracked.opened, Nat.le_refl _, by simp⟩

theorem gone_forever {evs : List (Env × Event)} {n : Nat} (hn : n < (starts evs).length)
    (h : ∀ e ∈ (stateAfter sqlKey dbSystem evs).queries, e.2.id ≠ n) (post : List (Env × Event)) :
    ∀ e ∈ (stateAfter sqlKey dbSystem (evs ++ post)).queries, e.2.id ≠ n := by
  induction post using List.reverseRecOn with
  | nil => rwa [List.append_nil]
  | append_singleton post ev ih =>
    have htracked := tracked_run sqlKey dbSystem (evs ++ post)
    have hstep := stateAfter_concat sqlKey dbSystem (evs ++ post) ev
    rw [List.append_assoc] at hstep
    refine (gone_step ?_ ih ev hstep).2
    rw [htracked.opened, starts_append, List.length_append]
    omega

/-- **A span leaves the queue by the `MAX_IN_FLIGHT`-th tracked start after its own, for good, if
and only if a finish before that start took it, or none took a span started after it.** -/
theorem leaves_queue_iff (sqlKey : Str → UInt64) (dbSystem : Option Str)
    (pre mid : List (Env × Event)) (env env' : Env) (query query' : Display)
    (hon : env.enabled = true) (hon' : env'.enabled = true)
    (hcount : (starts (mid ++ [(env', .startQuery query')])).length = maxInFlight)
    (hkey : KeysDistinct sqlKey (texts (pre ++ [(env, .startQuery query)] ++ mid))) :
    (∀ post, ∀ e ∈ (stateAfter sqlKey dbSystem (pre ++ [(env, .startQuery query)] ++
        (mid ++ [(env', .startQuery query')]) ++ post)).queries, e.2.id ≠ (starts pre).length) ↔
      SomeFinish sqlKey dbSystem (FinishesIt (starts pre).length)
          (pre ++ [(env, .startQuery query)]) mid ∨
        ¬ SomeFinish sqlKey dbSystem (FinishesLater (starts pre).length)
          (pre ++ [(env, .startQuery query)]) mid := by
  have hstart := waits_of_start sqlKey dbSystem pre query hon
  have hn : (starts pre).length < (starts (pre ++ [(env, .startQuery query)])).length := by
    simp [starts, hon]
  generalize pre ++ [(env, .startQuery query)] = base at hn hkey hstart ⊢
  have hmid : (starts mid).length + 1 = maxInFlight := by
    rw [← hcount, starts_append, List.length_append]
    simp [starts, hon']
  have htracked := tracked_run sqlKey dbSystem (base ++ mid)
  have hstep := stateAfter_concat sqlKey dbSystem (base ++ mid) (env', .startQuery query')
  have hopened : (starts pre).length < (stateAfter sqlKey dbSystem (base ++ mid)).opened := by
    rw [htracked.opened, starts_append, List.length_append]
    omega
  have hfinal : (∀ post, ∀ e ∈ (stateAfter sqlKey dbSystem (base ++
        (mid ++ [(env', .startQuery query')]) ++ post)).queries, e.2.id ≠ (starts pre).length) ↔
      ∀ e ∈ (stateAfter sqlKey dbSystem (base ++ mid ++ [(env', .startQuery query')])).queries,
        e.2.id ≠ (starts pre).length := by
    rw [← List.append_assoc base]
    refine ⟨fun h => by simpa using h [], fun h => gone_forever ?_ h⟩
    rw [starts_append, starts_append, List.length_append, List.length_append]
    omega
  rw [hfinal]
  rcases taken_or_waits hn hkey hstart (by omega) with ⟨hit, hgone⟩ | ⟨hit, hwaits⟩
  · exact iff_of_true (gone_step hopened hgone _ hstep).2 (.inl hit)
  · obtain ⟨span, hid, -, -, hqueries, -⟩ := startQuery_enabled hon' hstep
    rw [hwaits.last_start htracked hmid (hid ▸ hopened) hqueries, or_iff_right hit]

end Runs

/-! ## 4. Queries that finish one by one -/

/-- `k` queries, each finished before the next one starts. -/
def oneByOne (env : Env) (query : Display) : Nat → List (Env × Event)
  | 0 => []
  | k + 1 => oneByOne env query k ++ [(env, .startQuery query), (env, .finishQuery query none)]

/-- **A cancelled query is kept for good** while the queries after it finish one by one. -/
theorem one_by_one_keeps (sqlKey : Str → UInt64) (dbSystem : Option Str) (env : Env)
    (hon : env.enabled = true) {query query' : Display}
    (hne : sqlKey query.sql ≠ sqlKey query'.sql) (k : Nat) :
    ∃ span : Span, span.id = 0 ∧
      (stateAfter sqlKey dbSystem ([(env, .startQuery query)] ++ oneByOne env query' k)).queries =
        [(sqlKey query.sql, span)] := by
  induction k with
  | zero =>
    obtain ⟨span, hid, -, -, hqueries, -⟩ :=
      startQuery_enabled hon (stateAfter_concat sqlKey dbSystem [] (env, .startQuery query))
    exact ⟨span, hid, hqueries⟩
  | succ k ih =>
    obtain ⟨span, hid, hq⟩ := ih
    obtain ⟨new, -, -, -, hstart, -⟩ := startQuery_enabled hon (stateAfter_concat sqlKey dbSystem
      ([(env, .startQuery query)] ++ oneByOne env query' k) (env, .startQuery query'))
    obtain ⟨hfinish, -, -⟩ := finishQuery_eq (stateAfter_concat sqlKey dbSystem
      ([(env, .startQuery query)] ++ oneByOne env query' k ++ [(env, .startQuery query')])
      (env, .finishQuery query' none))
    -- two spans are tracked, so the finish takes the one with its own SQL
    have hboth : (stateAfter sqlKey dbSystem ([(env, .startQuery query)] ++ oneByOne env query' k ++
        [(env, .startQuery query')])).queries =
          [(sqlKey query.sql, span), (sqlKey query'.sql, new)] := by
      rw [hstart, hq]
      rfl
    refine ⟨span, hid, ?_⟩
    rw [hboth] at hfinish
    simpa [oneByOne, finishTakes, takeMatching, hne] using hfinish

theorem texts_oneByOne (env : Env) (query : Display) (k : Nat) :
    ∀ sql ∈ texts (oneByOne env query k), sql = query.sql := by
  induction k with
  | zero => simp [oneByOne, texts]
  | succ k ih =>
    intro sql hsql
    simp only [oneByOne, texts, List.filterMap_append, List.mem_append] at hsql
    rcases hsql with hsql | hsql
    · exact ih sql hsql
    · simpa using hsql

theorem starts_oneByOne (env : Env) (hon : env.enabled = true) (query : Display) (k : Nat) :
    (starts (oneByOne env query k)).length = k := by
  induction k with
  | zero => rfl
  | succ k ih =>
    rw [oneByOne, starts_append, List.length_append, ih]
    simp [starts, hon]

theorem keysDistinct_pair {sqlKey : Str → UInt64} {T : List Str} {a b : Str}
    (hne : sqlKey a ≠ sqlKey b) (hT : ∀ sql ∈ T, sql = a ∨ sql = b) : KeysDistinct sqlKey T := by
  intro x hx y hy hxy
  rcases hT x hx with rfl | rfl <;> rcases hT y hy with rfl | rfl
  · rfl
  · exact absurd hxy hne
  · exact absurd hxy.symm hne
  · rfl

def listening : Env := { enabled := true, capacity := 64 }

def cancelledQuery : Display := .ofChunks false false ["SELECT 1".toList]

def laterQuery : Display := .ofChunks false false ["SELECT 22".toList]

theorem texts_cancelled (mid : List (Env × Event))
    (hmid : ∀ sql ∈ texts mid, sql = laterQuery.sql) :
    KeysDistinct (fun sql => sql.length.toUInt64)
      (texts ([] ++ [(listening, .startQuery cancelledQuery)] ++ mid)) := by
  have hne : cancelledQuery.sql.length.toUInt64 ≠ laterQuery.sql.length.toUInt64 := by decide
  refine keysDistinct_pair hne fun sql hsql => ?_
  simp only [texts, List.filterMap_append, List.nil_append, List.mem_append] at hsql
  rcases hsql with hsql | hsql
  · exact .inl (by simpa using hsql)
  · exact .inr (hmid sql hsql)

/-- **A query whose finish never arrives is still tracked** after `MAX_IN_FLIGHT` others have
started, when each finished before the next one. -/
theorem cancelled_kept :
    (starts (oneByOne listening laterQuery maxInFlight)).length = maxInFlight ∧
      KeysDistinct (fun sql => sql.length.toUInt64) (texts
        ([] ++ [(listening, .startQuery cancelledQuery)] ++
          oneByOne listening laterQuery maxInFlight)) ∧
      cancelledQuery.sql ∉ texts (oneByOne listening laterQuery maxInFlight) ∧
      ∃ e ∈ (stateAfter (fun sql => sql.length.toUInt64) none
        ([] ++ [(listening, .startQuery cancelledQuery)] ++
          oneByOne listening laterQuery maxInFlight)).queries, e.2.id = 0 := by
  have htexts := texts_oneByOne listening laterQuery maxInFlight
  refine ⟨starts_oneByOne listening rfl laterQuery maxInFlight, texts_cancelled _ htexts,
    fun hmem => absurd (htexts _ hmem) (by decide), ?_⟩
  obtain ⟨span, hid, hq⟩ := one_by_one_keeps (fun sql => sql.length.toUInt64) none listening rfl
    (by decide : cancelledQuery.sql.length.toUInt64 ≠ laterQuery.sql.length.toUInt64) maxInFlight
  rw [List.nil_append, hq]
  exact ⟨_, List.mem_singleton_self _, hid⟩

/-- A cancelled query and 32 more that have not finished: the first one is evicted. -/
theorem cancelled_evicted :
    ¬ ∃ post, ∃ e ∈ (stateAfter (fun sql => sql.length.toUInt64) none
      ([] ++ [(listening, .startQuery cancelledQuery)] ++
        (List.replicate 31 (listening, .startQuery laterQuery) ++
          [(listening, .startQuery laterQuery)]) ++ post)).queries, e.2.id = 0 := by
  simp only [not_exists, not_and]
  refine (leaves_queue_iff (fun sql => sql.length.toUInt64) none [] _ listening listening
    cancelledQuery laterQuery rfl rfl ?_ (texts_cancelled _ ?_)).mpr (.inr ?_)
  · simp [starts, listening, maxInFlight]
  · simp [texts]
  · rintro ⟨m, env, query, error, hm, -⟩
    have hmem := hm.subset (List.mem_append_right m (List.mem_singleton_self _))
    cases (List.eq_of_mem_replicate hmem)

end Muxa.DieselSentry
