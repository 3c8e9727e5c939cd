/-
# What a finish takes off the queue

`Tracker.lean` follows well-formed runs.  Here the run is any list of events: queries that are
never finished, queries started while nobody listens, more starts than the queue holds, finishes
of queries that are not tracked.  `Tracked` is what every such run keeps.

A finish "leaves the queue alone rather than closing another query's span", but only while two
spans or more are tracked: a lone span is taken whatever the finish reports.
`finish_closes_own_iff` says that this is the only way a finish closes another query's span.
-/
import Muxa.DieselSentry.Tracker

namespace Muxa.DieselSentry

open Lib.Text Lib.Run

/-! ## 1. What one event changes -/

section Events

variable {sqlKey : Str → UInt64} {st st' : State}

theorem startQuery_disabled {env : Env} {query : Display} (hoff : env.enabled = false)
    (h : onConnectionEvent sqlKey st (env, .startQuery query) = some st') : st' = st := by
  simp only [onConnectionEvent, startQuery, hoff] at h
  exact (Option.some.inj h).symm

/-- A start that is tracked: a full queue drops its front, and the new span goes to the back. -/
theorem startQuery_enabled {env : Env} {query : Display} (hon : env.enabled = true)
    (h : onConnectionEvent sqlKey st (env, .startQuery query) = some st') :
    ∃ span : Span, span.id = st.opened ∧ span.statement = query.sql ∧ span.error = none ∧
      st'.queries = (if st.queries.length = maxInFlight then st.queries.tail else st.queries) ++
        [(sqlKey query.sql, span)] ∧ st'.opened = st.opened + 1 := by
  simp only [onConnectionEvent, startQuery, hon, writeSql_eq, Bool.not_true, Bool.false_eq_true,
    if_false, Option.map_some] at h
  refine ⟨⟨st.opened, query.sql, st.dbSystem.getD otherSql, operation query.sql, st.txDepth, none⟩,
    rfl, rfl, rfl, ?_, ?_⟩
  · rw [← Option.some.inj h]
    split <;> rfl
  · rw [← Option.some.inj h]
    split <;> rfl

def finishTakes (sqlKey : Str → UInt64) (query : Display) (queries : List (UInt64 × Span)) :
    Option Span × List (UInt64 × Span) :=
  if queries.length ≤ 1 then takeFront queries else takeMatching (sqlKey query.sql) queries

theorem finishQuery_eq {env : Env} {query : Display} {error : Option Str}
    (h : onConnectionEvent sqlKey st (env, .finishQuery query error) = some st') :
    st'.queries = (finishTakes sqlKey query st.queries).2 ∧
      st'.closed = st.closed ++
        ((finishTakes sqlKey query st.queries).1.map (·.record error)).toList ∧
      st'.opened = st.opened := by
  simp only [onConnectionEvent, finishQuery] at h
  unfold finishTakes
  split at h
  · rename_i hlen
    rw [if_pos hlen, ← Option.some.inj h]
    exact ⟨rfl, rfl, rfl⟩
  · rename_i hlen
    rw [writeSql_eq, Option.map_some] at h
    rw [if_neg hlen, ← Option.some.inj h]
    exact ⟨rfl, rfl, rfl⟩

def Event.isQuery : Event → Bool
  | .startQuery _ | .finishQuery _ _ => true
  | _ => false

theorem otherEvent_eq {env : Env} {ev : Event} (hev : ev.isQuery = false)
    (h : onConnectionEvent sqlKey st (env, ev) = some st') :
    st'.queries = st.queries ∧ st'.opened = st.opened := by
  cases ev with
  | startQuery query => simp [Event.isQuery] at hev
  | finishQuery query error => simp [Event.isQuery] at hev
  | _ =>
    simp only [onConnectionEvent] at h
    rw [← Option.some.inj h]
    exact ⟨rfl, rfl⟩

end Events

/-! ## 2. Runs -/

section Runs

variable (sqlKey : Str → UInt64) (dbSystem : Option Str)

def stateAfter (evs : List (Env × Event)) : State :=
  (tryRun (onConnectionEvent sqlKey) { dbSystem := dbSystem } evs).getD {}

/-- **No run panics.** -/
theorem tryRun_eq (evs : List (Env × Event)) :
    tryRun (onConnectionEvent sqlKey) { dbSystem := dbSystem } evs =
      some (stateAfter sqlKey dbSystem evs) := by
  have hstep : ∀ (st : State) (_ : Unit) (ev : Env × Event), True → True →
      ∃ st', onConnectionEvent sqlKey st ev = some st' ∧ True := by
    rintro st - ⟨env, ev⟩ - -
    cases ev with
    | startQuery query =>
      simp only [onConnectionEvent, startQuery, writeSql_eq, Option.map_some]
      split <;> exact ⟨_, rfl, trivial⟩
    | finishQuery query error =>
      simp only [onConnectionEvent, finishQuery, writeSql_eq, Option.map_some]
      split <;> exact ⟨_, rfl, trivial⟩
    | _ => exact ⟨_, rfl, trivial⟩
  obtain ⟨st, hst, -⟩ := @tryRun_simulates State Unit (Env × Event) (onConnectionEvent sqlKey)
    (fun _ _ => ()) (fun _ _ => True) (fun _ _ => True) hstep evs { dbSystem := dbSystem } ()
    trivial (along_of_forall fun _ _ => trivial)
  rw [stateAfter, hst, Option.getD_some]

theorem stateAfter_concat (evs : List (Env × Event)) (ev : Env × Event) :
    onConnectionEvent sqlKey (stateAfter sqlKey dbSystem evs) ev =
      some (stateAfter sqlKey dbSystem (evs ++ [ev])) := by
  have h := tryRun_eq sqlKey dbSystem (evs ++ [ev])
  rwa [tryRun_concat, tryRun_eq, Option.bind_some] at h

end Runs

/-- The SQL of the queries a list of events starts while somebody listens: the tracked starts, in
order. -/
def starts (evs : List (Env × Event)) : List Str :=
  evs.filterMap fun ev =>
    match ev with
    | (env, .startQuery query) => if env.enabled then some query.sql else none
    | _ => none

theorem starts_subset_texts {evs : List (Env × Event)} {sql : Str} (h : sql ∈ starts evs) :
    sql ∈ texts evs := by
  obtain ⟨⟨env, ev⟩, hev, hsql⟩ := List.mem_filterMap.mp h
  cases ev with
  | startQuery query =>
    refine List.mem_filterMap.mpr ⟨_, hev, ?_⟩
    cases hon : env.enabled <;> simp_all
  | _ => simp at hsql

theorem texts_subset {evs evs' : List (Env × Event)} (h : evs <+: evs') {sql : Str}
    (hsql : sql ∈ texts evs) : sql ∈ texts evs' := by
  obtain ⟨ev, hev, heq⟩ := List.mem_filterMap.mp hsql
  exact List.mem_filterMap.mpr ⟨ev, h.subset hev, heq⟩

/-- **What every run keeps**: the queue is bounded, its spans are distinct and in start order, each
under its key, without an error, and with the SQL its query was started with. -/
structure Tracked (sqlKey : Str → UInt64) (evs : List (Env × Event)) (st : State) : Prop where
  keys : ∀ e ∈ st.queries, e.1 = sqlKey e.2.statement
  errors : ∀ e ∈ st.queries, e.2.error = none
  started : ∀ e ∈ st.queries, (starts evs)[e.2.id]? = some e.2.statement
  ids : st.queries.Pairwise fun a b => a.2.id < b.2.id
  room : st.queries.length ≤ maxInFlight
  opened : st.opened = (starts evs).length

section Tracked

variable {sqlKey : Str → UInt64}

@[simp] theorem starts_append (evs evs' : List (Env × Event)) :
    starts (evs ++ evs') = starts evs ++ starts evs' := List.filterMap_append

/-- A queue that only lost spans is still tracked. -/
theorem Tracked.sublist {evs evs' : List (Env × Event)} {st st' : State} (h : Tracked sqlKey evs st)
    (hqueries : st'.queries.Sublist st.queries) (hopened : st'.opened = st.opened)
    (hstarts : starts evs' = starts evs) : Tracked sqlKey evs' st' where
  keys e he := h.keys e (hqueries.subset he)
  errors e he := h.errors e (hqueries.subset he)
  started e he := hstarts ▸ h.started e (hqueries.subset he)
  ids := h.ids.sublist hqueries
  room := hqueries.length_le.trans h.room
  opened := by rw [hopened, h.opened, hstarts]

theorem Tracked.id_lt {evs : List (Env × Event)} {st : State} (h : Tracked sqlKey evs st) :
    ∀ e ∈ st.queries, e.2.id < (starts evs).length := by
  intro e he
  exact (List.getElem?_eq_some_iff.mp (h.started e he)).1

theorem finishTakes_sublist (query : Display) (queries : List (UInt64 × Span)) :
    (finishTakes sqlKey query queries).2.Sublist queries := by
  unfold finishTakes
  split
  · exact List.tail_sublist queries
  · exact List.eraseP_sublist

theorem evicted_sublist (queries : List (UInt64 × Span)) :
    (if queries.length = maxInFlight then queries.tail else queries).Sublist queries := by
  split
  · exact List.tail_sublist _
  · exact List.Sublist.refl _

theorem Tracked.start {evs : List (Env × Event)} {st st' : State} (h : Tracked sqlKey evs st)
    {env : Env} {query : Display} (hon : env.enabled = true)
    (hstep : onConnectionEvent sqlKey st (env, .startQuery query) = some st') :
    Tracked sqlKey (evs ++ [(env, .startQuery query)]) st' := by
  obtain ⟨span, hid, hsql, herr, hqueries, hopened⟩ := startQuery_enabled hon hstep
  have hnew : starts (evs ++ [(env, .startQuery query)]) = starts evs ++ [query.sql] := by
    simp [starts, hon]
  have hold := evicted_sublist st.queries
  constructor
  · rw [hqueries]
    refine List.forall_mem_append.mpr ⟨fun e he => h.keys e (hold.subset he), ?_⟩
    exact List.forall_mem_singleton.mpr (by rw [hsql])
  · rw [hqueries]
    refine List.forall_mem_append.mpr ⟨fun e he => h.errors e (hold.subset he), ?_⟩
    exact List.forall_mem_singleton.mpr herr
  · rw [hqueries, hnew]
    refine List.forall_mem_append.mpr ⟨fun e he => ?_, List.forall_mem_singleton.mpr ?_⟩
    · rw [List.getElem?_append_left (h.id_lt e (hold.subset he))]
      exact h.started e (hold.subset he)
    · simp [hid, h.opened, hsql]
  · rw [hqueries, List.pairwise_append]
    refine ⟨h.ids.sublist hold, List.pairwise_singleton _ _, fun e he e' he' => ?_⟩
    rw [List.mem_singleton.mp he', hid, h.opened]
    exact h.id_lt e (hold.subset he)
  · have hroom := h.room
    have hpos : 0 < maxInFlight := by decide
    rw [hqueries, List.length_append, List.length_singleton]
    split
    · rw [List.length_tail]
      omega
    · omega
  · rw [hopened, h.opened, hnew, List.length_append, List.length_singleton]

theorem Tracked.step {evs : List (Env × Event)} {st st' : State} (h : Tracked sqlKey evs st)
    (ev : Env × Event) (hstep : onConnectionEvent sqlKey st ev = some st') :
    Tracked sqlKey (evs ++ [ev]) st' := by
  obtain ⟨env, ev⟩ := ev
  cases ev with
  | startQuery query =>
    cases hon : env.enabled with
    | false =>
      obtain rfl := startQuery_disabled hon hstep
      exact h.sublist (List.Sublist.refl _) rfl (by simp [starts, hon])
    | true => exact h.start hon hstep
  | finishQuery query error =>
    obtain ⟨hqueries, -, hopened⟩ := finishQuery_eq hstep
    exact h.sublist (hqueries ▸ finishTakes_sublist query st.queries) hopened (by simp [starts])
  | _ =>
    obtain ⟨hqueries, hopened⟩ := otherEvent_eq rfl hstep
    exact h.sublist (hqueries ▸ List.Sublist.refl _) hopened (by simp [starts])

/-- **Every run is tracked.** -/
theorem tracked_run (sqlKey : Str → UInt64) (dbSystem : Option Str) (evs : List (Env × Event)) :
    Tracked sqlKey evs (stateAfter sqlKey dbSystem evs) := by
  induction evs using List.reverseRecOn with
  | nil => exact ⟨by simp [stateAfter, tryRun], by simp [stateAfter, tryRun],
      by simp [stateAfter, tryRun], by simp [stateAfter, tryRun], by simp [stateAfter, tryRun], rfl⟩
  | append_singleton evs ev ih => exact ih.step ev (stateAfter_concat sqlKey dbSystem evs ev)

end Tracked

/-! ## 3. A finish closes its own query -/

/-- What a finish may do: `starts` is the SQL of the tracked starts so far, `st` and `st'` are the
states around it. -/
structure FinishesOwn (starts : List Str) (query : Display) (st st' : State) : Prop where
  /-- A span it takes off the queue was started with the SQL it reports. -/
  taken : ∀ e ∈ st.queries, e ∉ st'.queries → starts[e.2.id]? = some query.sql
  /-- So was a span it closes, with or without an error. -/
  closed : ∃ spans, st'.closed = st.closed ++ spans ∧
    ∀ span ∈ spans, starts[span.id]? = some query.sql
  /-- The others stay as they are. -/
  kept : st'.queries.Sublist st.queries
  /-- With no span of its own it leaves the queue alone. -/
  noMatch : (∀ e ∈ st.queries, starts[e.2.id]? ≠ some query.sql) → st'.queries = st.queries

/-- A lone tracked span is one the finish reports. -/
def LoneIsOwn (query : Display) (st : State) : Prop :=
  ∀ e, st.queries = [e] → e.2.statement = query.sql

section Finish

variable {sqlKey : Str → UInt64}

theorem Span.record_id (span : Span) (error : Option Str) : (span.record error).id = span.id := by
  cases error <;> rfl

/-- What a finish takes when a lone span is its own: the oldest span with its SQL. -/
theorem finishTakes_eq {evs : List (Env × Event)} {T : List Str} {st : State} {query : Display}
    (h : Tracked sqlKey evs st) (hkey : KeysDistinct sqlKey T)
    (hstarts : ∀ sql ∈ starts evs, sql ∈ T) (hT : query.sql ∈ T) (hlone : LoneIsOwn query st) :
    finishTakes sqlKey query st.queries =
      ((st.queries.find? (fun e => e.2.statement == query.sql)).map Prod.snd,
        st.queries.eraseP (fun e => e.2.statement == query.sql)) := by
  unfold finishTakes
  split
  · rename_i hlen
    match hq : st.queries, hlen with
    | [], _ => rfl
    | [e], _ => simp [takeFront, hlone e hq]
  · refine takeMatching_eq h.keys (fun e he => hstarts _ ?_) hkey hT
    exact List.mem_of_getElem? (h.started e he)

/-- **A finish that finds no foreign lone span closes its own query's span or none.** -/
theorem finishesOwn_of_lone {evs : List (Env × Event)} {T : List Str} {st st' : State} {env : Env}
    {query : Display} {error : Option Str} (h : Tracked sqlKey evs st)
    (hkey : KeysDistinct sqlKey T) (hstarts : ∀ sql ∈ starts evs, sql ∈ T) (hT : query.sql ∈ T)
    (hlone : LoneIsOwn query st)
    (hstep : onConnectionEvent sqlKey st (env, .finishQuery query error) = some st') :
    FinishesOwn (starts evs) query st st' := by
  obtain ⟨hqueries, hclosed, -⟩ := finishQuery_eq hstep
  rw [finishTakes_eq h hkey hstarts hT hlone] at hqueries hclosed
  refine ⟨fun e he hout => ?_, ⟨_, hclosed, fun span hspan => ?_⟩, ?_, fun hnone => ?_⟩
  · rw [h.started e he]
    by_contra hne
    rw [hqueries] at hout
    exact hout ((List.mem_eraseP_of_neg (by simpa using hne)).mpr he)
  · simp only [Option.mem_toList, Option.map_map, Option.map_eq_some_iff] at hspan
    obtain ⟨e, hfind, rfl⟩ := hspan
    have hsql : e.2.statement = query.sql := by simpa using List.find?_some hfind
    rw [Function.comp_apply, Span.record_id, h.started e (List.mem_of_find?_eq_some hfind), hsql]
  · rw [hqueries]
    exact List.eraseP_sublist
  · rw [hqueries]
    refine List.eraseP_of_forall_not fun e he => ?_
    have hne := hnone e he
    rw [h.started e he] at hne
    simpa using hne

/-- A finish that takes only its own query's span finds no foreign lone span. -/
theorem lone_of_finishesOwn {evs : List (Env × Event)} {st st' : State} {env : Env}
    {query : Display} {error : Option Str} (h : Tracked sqlKey evs st)
    (hstep : onConnectionEvent sqlKey st (env, .finishQuery query error) = some st')
    (hown : FinishesOwn (starts evs) query st st') : LoneIsOwn query st := by
  intro e hlone
  obtain ⟨hqueries, -, -⟩ := finishQuery_eq hstep
  have hgone : st'.queries = [] := by rw [hqueries, finishTakes, hlone]; rfl
  have he : e ∈ st.queries := hlone ▸ List.mem_singleton_self e
  have hstart := hown.taken e he (by simp [hgone])
  rw [h.started e he] at hstart
  exact Option.some.inj hstart

/-- **A finish closes only its own query's span, in every run in which no finish meets a lone span
of another query, and in no other run.** -/
theorem finish_closes_own_iff (sqlKey : Str → UInt64) (dbSystem : Option Str)
    (evs : List (Env × Event)) (hkey : KeysDistinct sqlKey (texts evs)) :
    (∀ pre env query error, pre ++ [(env, .finishQuery query error)] <+: evs →
      FinishesOwn (starts pre) query (stateAfter sqlKey dbSystem pre)
        (stateAfter sqlKey dbSystem (pre ++ [(env, .finishQuery query error)]))) ↔
    ∀ pre env query error, pre ++ [(env, .finishQuery query error)] <+: evs →
      LoneIsOwn query (stateAfter sqlKey dbSystem pre) := by
  refine forall_congr' fun pre => forall_congr' fun env => forall_congr' fun query =>
    forall_congr' fun error => forall_congr' fun hpre => ?_
  have htracked := tracked_run sqlKey dbSystem pre
  have hstep := stateAfter_concat sqlKey dbSystem pre (env, .finishQuery query error)
  constructor
  · exact lone_of_finishesOwn htracked hstep
  · refine fun hlone => finishesOwn_of_lone htracked hkey (fun sql hsql => ?_) ?_ hlone hstep
    · exact texts_subset ((List.prefix_append _ _).trans hpre) (starts_subset_texts hsql)
    · exact texts_subset hpre (by simp [texts])

/-- A query is tracked, another one is started while nobody listens, and that one fails. -/
def strayStarts : List (Env × Event) :=
  [(⟨true, 64⟩, .startQuery (.ofChunks false false ["SELECT 1".toList])),
   (⟨false, 64⟩, .startQuery (.ofChunks false false ["DELETE FROM t".toList]))]

def strayQuery : Display := .ofChunks false false ["DELETE FROM t".toList]

def strayFinish : Env × Event := (⟨true, 64⟩, .finishQuery strayQuery (some "timeout".toList))

/-- The lone span the finish of the untracked query meets. -/
theorem stray_lone : ∃ e : UInt64 × Span,
    (stateAfter (fun sql => sql.length.toUInt64) none strayStarts).queries = [e] ∧
      e.2.id = 0 ∧ e.2.statement = "SELECT 1".toList := by
  have hview : (stateAfter (fun sql => sql.length.toUInt64) none strayStarts).queries.map
      (fun e => (e.2.id, e.2.statement)) = [(0, "SELECT 1".toList)] := by decide
  obtain ⟨e, hqueries, he⟩ := List.map_eq_singleton_iff.mp hview
  exact ⟨e, hqueries, congrArg Prod.fst he, congrArg Prod.snd he⟩

theorem stray_not_own :
    ¬ ∀ pre env query error,
      pre ++ [(env, .finishQuery query error)] <+: strayStarts ++ [strayFinish] →
        FinishesOwn (starts pre) query (stateAfter (fun sql => sql.length.toUInt64) none pre)
          (stateAfter (fun sql => sql.length.toUInt64) none
            (pre ++ [(env, .finishQuery query error)])) := by
  rw [finish_closes_own_iff _ none _ (by decide)]
  intro h
  obtain ⟨e, hqueries, -, hsql⟩ := stray_lone
  have hlone := h strayStarts _ _ _ List.prefix_rfl e hqueries
  rw [hsql] at hlone
  exact absurd hlone (by decide)

/-- **A failed `DELETE` is put on the span of a `SELECT`.** -/
theorem stray_finish_closes_select :
    KeysDistinct (fun sql => sql.length.toUInt64) (texts (strayStarts ++ [strayFinish])) ∧
      (stateAfter (fun sql => sql.length.toUInt64) none (strayStarts ++ [strayFinish])).closed.map
        (fun span => (span.id, span.statement, span.error)) =
          [(0, "SELECT 1".toList, some "timeout".toList)] ∧
      ¬ FinishesOwn (starts strayStarts) strayQuery
        (stateAfter (fun sql => sql.length.toUInt64) none strayStarts)
        (stateAfter (fun sql => sql.length.toUInt64) none (strayStarts ++ [strayFinish])) := by
  refine ⟨by decide, by decide, fun hown => ?_⟩
  obtain ⟨e, hqueries, hid, -⟩ := stray_lone
  have hgone : (stateAfter (fun sql => sql.length.toUInt64) none
      (strayStarts ++ [strayFinish])).queries = [] :=
    List.map_eq_nil_iff.mp (by decide : List.map (fun e => e.2.id) _ = [])
  have hstart := hown.taken e (hqueries ▸ List.mem_singleton_self e) (by simp [hgone])
  rw [hid] at hstart
  exact absurd hstart (by decide)

end Finish

end Muxa.DieselSentry
