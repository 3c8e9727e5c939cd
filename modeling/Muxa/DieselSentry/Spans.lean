/-
# Every span is accounted for

`Finish.lean` and `Eviction.lean` ask which span a finish closes, and when an unfinished one leaves
the queue.  Here every span the subscriber sees of a connection is traced back to the events, for
any list of events: queries that are never finished or never started, reconnections, transactions
that do not nest.

The order is the key to it.  A start puts its span behind all the others, and a full queue gives
its front to the back of the closed ones, so that a start only adds one span to `State.spans`; a
finish permutes them.  So each span is that of one traced start, closed once or in flight
(`spans_accounted`), and reports what was true at that start: its SQL, the backend of the first URL
the connection was established with unless one was named, and the depth of the transactions.
-/
import Mathlib.Data.List.Perm.Basic
import Muxa.DieselSentry.Finish

namespace Muxa.DieselSentry

open Lib.Text Lib.Run

variable {sqlKey : Str → UInt64} {dbSystem : Option Str}

/-! ## 1. What the events say -/

def Event.url? : Event → Option Str
  | .startEstablishConnection url => some url
  | _ => none

def Event.depth? : Event → Option Nat
  | .beginTransaction depth => some depth
  | .commitTransaction depth | .rollbackTransaction depth => some (depth - 1)
  | _ => none

/-- The backend: the one that was named, or that of the first URL. -/
def systemAfter (dbSystem : Option Str) (evs : List (Env × Event)) : Option Str :=
  dbSystem.or ((evs.filterMap fun ev => ev.2.url?).head?.map dbSystemOf)

/-- The depth of the transactions by the last event about one. -/
def depthAfter (evs : List (Env × Event)) : Nat :=
  (evs.filterMap fun ev => ev.2.depth?).getLast?.getD 0

/-- How many transactions are open. -/
def openStep (n : Nat) : Env × Event → Nat
  | (_, .beginTransaction _) => n + 1
  | (_, .commitTransaction _) | (_, .rollbackTransaction _) => n - 1
  | _ => n

/-- The events about transactions nest: one that begins gives its own level, and the one that ends
is the innermost. -/
def Nests (n : Nat) : Env × Event → Prop
  | (_, .beginTransaction depth) => depth = n + 1
  | (_, .commitTransaction depth) | (_, .rollbackTransaction depth) => depth = n
  | _ => True

/-- **Where transactions nest**, the depth is the number of those that are open. -/
theorem depthAfter_eq_open {evs : List (Env × Event)} (h : Along openStep Nests 0 evs) :
    depthAfter evs = run openStep 0 evs := by
  induction evs using List.reverseRecOn with
  | nil => rfl
  | append_singleton evs ev ih =>
    obtain ⟨hevs, hlast, -⟩ := Along.append.mp h
    have hdepth := ih hevs
    rw [run_concat]
    obtain ⟨env, ev⟩ := ev
    cases ev with
    | beginTransaction depth =>
      rw [Nests] at hlast
      simp [depthAfter, Event.depth?, openStep, hlast]
    | commitTransaction depth =>
      rw [Nests] at hlast
      simp [depthAfter, Event.depth?, openStep, hlast]
    | rollbackTransaction depth =>
      rw [Nests] at hlast
      simp [depthAfter, Event.depth?, openStep, hlast]
    | _ => simpa [depthAfter, Event.depth?, openStep] using hdepth

/-- **What a span reports** of the query it was opened for, after the events `pre`. -/
structure OpenedAt (dbSystem : Option Str) (pre : List (Env × Event)) (query : Display)
    (span : Span) : Prop where
  number : span.id = (starts pre).length
  statement : span.statement = query.sql
  operation : span.operation = operation query.sql
  system : span.dbSystem = (systemAfter dbSystem pre).getD otherSql
  depth : span.txDepth = depthAfter pre
  nested : Along openStep Nests 0 pre → span.txDepth = run openStep 0 pre

/-- The span was opened for a query of the run, while somebody listened. -/
def OpenedBy (dbSystem : Option Str) (evs : List (Env × Event)) (span : Span) : Prop :=
  ∃ pre env query, pre ++ [(env, .startQuery query)] <+: evs ∧ env.enabled = true ∧
    OpenedAt dbSystem pre query span

/-- An error on a span is that of a finish, which met the span in flight. -/
def ClosedBy (sqlKey : Str → UInt64) (dbSystem : Option Str) (evs : List (Env × Event))
    (span : Span) : Prop :=
  ∀ err, span.error = some err →
    ∃ pre env query, pre ++ [(env, .finishQuery query (some err))] <+: evs ∧
      { span with error := none } ∈ (stateAfter sqlKey dbSystem pre).queries.map Prod.snd

/-- How the next event about connecting ends the attempt: with a finish, or with another start. -/
def connectEnds : List (Env × Event) → Option Str
  | [] => none
  | (_, .finishEstablishConnection error) :: _ => error
  | (_, .startEstablishConnection _) :: _ => none
  | _ :: evs => connectEnds evs

/-- The attempts to connect that were made while somebody listened, in order.  One that nobody
listened to has no span, but its URL names the backend to those that follow. -/
def connects (dbSystem : Option Str) : List (Env × Event) → List ConnectSpan
  | [] => []
  | (env, .startEstablishConnection url) :: evs =>
    let system := dbSystem.getD (dbSystemOf url)
    let rest := connects (some system) evs
    if env.enabled then { dbSystem := system, error := connectEnds evs } :: rest else rest
  | _ :: evs => connects dbSystem evs

/-! ## 2. The spans of a connection -/

/-- The query spans of a connection: the closed ones, then those in flight. -/
def State.spans (st : State) : List Span := st.closed ++ st.queries.map Prod.snd

/-- **A start that is traced** adds one span, with what holds then. -/
theorem startQuery_spans {st st' : State} {env : Env} {query : Display} (hon : env.enabled = true)
    (h : onConnectionEvent sqlKey st (env, .startQuery query) = some st') :
    st'.spans = st.spans ++
        [⟨st.opened, query.sql, st.dbSystem.getD otherSql, operation query.sql, st.txDepth,
          none⟩] ∧
      st'.closed = st.closed ++
        (if st.queries.length = maxInFlight then (takeFront st.queries).1.toList else []) ∧
      st'.dbSystem = st.dbSystem ∧ st'.txDepth = st.txDepth := by
  simp only [onConnectionEvent, startQuery, hon, writeSql_eq, Bool.not_true, Bool.false_eq_true,
    if_false, Option.map_some] at h
  rw [← Option.some.inj h]
  split
  · rename_i hfull
    refine ⟨?_, rfl, rfl, rfl⟩
    cases hqueries : st.queries with
    | nil =>
      rw [hqueries] at hfull
      cases hfull
    | cons front rest => simp [State.spans, State.close, takeFront, hqueries, Display.sql]
  · exact ⟨by simp [State.spans, Display.sql], by simp, rfl, rfl⟩

theorem find?_eraseP_perm {α : Type} (p : α → Bool) (l : List α) :
    ((l.find? p).toList ++ l.eraseP p).Perm l := by
  induction l with
  | nil => rfl
  | cons x l ih =>
    cases hp : p x with
    | true => simp [hp]
    | false =>
      rw [List.find?_cons_of_neg (by simp [hp]), List.eraseP_cons_of_neg (by simp [hp])]
      exact List.perm_middle.trans (ih.cons x)

/-- What a finish takes and what it leaves are the queue. -/
theorem finishTakes_perm (query : Display) (queries : List (UInt64 × Span)) :
    ((finishTakes sqlKey query queries).1.toList ++
      (finishTakes sqlKey query queries).2.map Prod.snd).Perm (queries.map Prod.snd) := by
  unfold finishTakes
  split
  · cases queries with
    | nil => rfl
    | cons e queries => rfl
  · have hmap : ∀ e : Option (UInt64 × Span), (e.map Prod.snd).toList = e.toList.map Prod.snd := by
      rintro (_ | e) <;> rfl
    rw [takeMatching, hmap, ← List.map_append]
    exact (find?_eraseP_perm _ queries).map Prod.snd

/-- **A finish permutes the spans**, and may record its error on the one it closes. -/
theorem finishQuery_spans {st st' : State} {env : Env} {query : Display} {error : Option Str}
    (h : onConnectionEvent sqlKey st (env, .finishQuery query error) = some st') :
    ∃ taken : Option Span, ∃ rest : List Span,
      (taken.toList ++ rest).Perm (st.queries.map Prod.snd) ∧
        st'.closed = st.closed ++ (taken.map (·.record error)).toList ∧
        st'.queries.map Prod.snd = rest ∧
        st'.dbSystem = st.dbSystem ∧ st'.txDepth = st.txDepth := by
  obtain ⟨hqueries, hclosed, -⟩ := finishQuery_eq h
  refine ⟨_, _, finishTakes_perm query st.queries, hclosed, by rw [hqueries], ?_⟩
  simp only [onConnectionEvent, finishQuery] at h
  split at h
  · rw [← Option.some.inj h]
    exact ⟨rfl, rfl⟩
  · rw [writeSql_eq, Option.map_some] at h
    rw [← Option.some.inj h]
    exact ⟨rfl, rfl⟩

/-- What the other events leave alone, and what they change. -/
theorem otherEvent_spans {st st' : State} {env : Env} {ev : Event} (hev : ev.isQuery = false)
    (h : onConnectionEvent sqlKey st (env, ev) = some st') :
    st'.queries = st.queries ∧ st'.closed = st.closed ∧
      st'.dbSystem = st.dbSystem.or (ev.url?.map dbSystemOf) ∧
      st'.txDepth = ev.depth?.getD st.txDepth := by
  cases ev with
  | startQuery query => simp [Event.isQuery] at hev
  | finishQuery query error => simp [Event.isQuery] at hev
  | startEstablishConnection url =>
    rw [← Option.some.inj h]
    cases st.dbSystem <;> exact ⟨rfl, rfl, rfl, rfl⟩
  | _ =>
    rw [← Option.some.inj h]
    exact ⟨rfl, rfl, by simp [Event.url?], rfl⟩

/-! ## 3. Runs -/

theorem systemAfter_concat (evs : List (Env × Event)) (env : Env) (ev : Event) :
    systemAfter dbSystem (evs ++ [(env, ev)]) =
      (systemAfter dbSystem evs).or (ev.url?.map dbSystemOf) := by
  have hlast : ([(env, ev)].filterMap fun ev => ev.2.url?).head? = ev.url? := by
    cases ev <;> rfl
  simp only [systemAfter, List.filterMap_append, List.head?_append, hlast, Option.map_or,
    Option.or_assoc]

theorem depthAfter_concat (evs : List (Env × Event)) (env : Env) (ev : Event) :
    depthAfter (evs ++ [(env, ev)]) = ev.depth?.getD (depthAfter evs) := by
  cases ev <;> simp [depthAfter, Event.depth?]

theorem OpenedBy.mono {evs evs' : List (Env × Event)} {span : Span} (hpre : evs <+: evs')
    (h : OpenedBy dbSystem evs span) : OpenedBy dbSystem evs' span := by
  obtain ⟨pre, env, query, hevs, hopened⟩ := h
  exact ⟨pre, env, query, hevs.trans hpre, hopened⟩

theorem OpenedBy.record {evs : List (Env × Event)} {span : Span} (error : Option Str)
    (h : OpenedBy dbSystem evs span) : OpenedBy dbSystem evs (span.record error) := by
  obtain ⟨pre, env, query, hevs, hon, hopened⟩ := h
  refine ⟨pre, env, query, hevs, hon, ?_⟩
  cases error with
  | none => exact hopened
  | some err =>
    obtain ⟨hnumber, hstatement, hoperation, hsystem, hdepth, hnested⟩ := hopened
    exact ⟨hnumber, hstatement, hoperation, hsystem, hdepth, hnested⟩

theorem ClosedBy.mono {evs evs' : List (Env × Event)} {span : Span} (hpre : evs <+: evs')
    (h : ClosedBy sqlKey dbSystem evs span) : ClosedBy sqlKey dbSystem evs' span := by
  intro err herr
  obtain ⟨pre, env, query, hevs, hmet⟩ := h err herr
  exact ⟨pre, env, query, hevs.trans hpre, hmet⟩

/-- **What every run accounts for.** -/
structure Accounted (sqlKey : Str → UInt64) (dbSystem : Option Str) (evs : List (Env × Event))
    (st : State) : Prop where
  /-- Every traced start has one span, closed or in flight. -/
  once : (st.spans.map Span.id).Perm (List.range (starts evs).length)
  opened : ∀ span ∈ st.spans, OpenedBy dbSystem evs span
  closed : ∀ span ∈ st.closed, ClosedBy sqlKey dbSystem evs span
  system : st.dbSystem = systemAfter dbSystem evs
  depth : st.txDepth = depthAfter evs

theorem accounted_init : Accounted sqlKey dbSystem [] { dbSystem := dbSystem } where
  once := List.Perm.refl _
  opened _ h := by cases h
  closed _ h := by cases h
  system := by simp [systemAfter]
  depth := rfl

section Step

variable {evs : List (Env × Event)} {st st' : State} {env : Env} {query : Display}

theorem Accounted.start (h : Accounted sqlKey dbSystem evs st) (htracked : Tracked sqlKey evs st)
    (hon : env.enabled = true)
    (hstep : onConnectionEvent sqlKey st (env, .startQuery query) = some st') :
    Accounted sqlKey dbSystem (evs ++ [(env, .startQuery query)]) st' := by
  obtain ⟨hspans, hclosed, hsystem, hdepth⟩ := startQuery_spans hon hstep
  have hstarts : starts (evs ++ [(env, .startQuery query)]) = starts evs ++ [query.sql] := by
    simp [starts, hon]
  have hpre : evs <+: evs ++ [(env, .startQuery query)] := List.prefix_append _ _
  constructor
  · rw [hspans, hstarts, List.map_append, List.length_append, List.length_singleton,
      List.range_succ, htracked.opened]
    exact h.once.append_right _
  · rw [hspans]
    refine List.forall_mem_append.mpr ⟨fun span hspan => (h.opened span hspan).mono hpre, ?_⟩
    refine List.forall_mem_singleton.mpr ⟨evs, env, query, List.prefix_rfl, hon, ?_⟩
    exact ⟨htracked.opened, rfl, rfl, by rw [h.system], h.depth, fun hnests =>
      h.depth.trans (depthAfter_eq_open hnests)⟩
  · rw [hclosed]
    refine List.forall_mem_append.mpr ⟨fun span hspan => (h.closed span hspan).mono hpre, ?_⟩
    -- a span that is dropped has no error
    intro span hspan err herr
    split at hspan
    · obtain ⟨e, he, rfl⟩ : ∃ e ∈ st.queries, e.2 = span := by
        cases hqueries : st.queries with
        | nil => simp [takeFront, hqueries] at hspan
        | cons e queries =>
          refine ⟨e, List.mem_cons_self, ?_⟩
          simpa [takeFront, hqueries, eq_comm] using hspan
      rw [htracked.errors e he] at herr
      cases herr
    · cases hspan
  · rw [hsystem, h.system, systemAfter_concat]
    simp [Event.url?]
  · rw [hdepth, h.depth, depthAfter_concat]
    rfl

theorem Accounted.finish (h : Accounted sqlKey dbSystem evs (stateAfter sqlKey dbSystem evs))
    (htracked : Tracked sqlKey evs (stateAfter sqlKey dbSystem evs)) {error : Option Str}
    (hstep : onConnectionEvent sqlKey (stateAfter sqlKey dbSystem evs)
      (env, .finishQuery query error) = some st') :
    Accounted sqlKey dbSystem (evs ++ [(env, .finishQuery query error)]) st' := by
  obtain ⟨taken, rest, hperm, hclosed, hrest, hsystem, hdepth⟩ := finishQuery_spans hstep
  have hpre : evs <+: evs ++ [(env, .finishQuery query error)] := List.prefix_append _ _
  have hstarts : starts (evs ++ [(env, .finishQuery query error)]) = starts evs := by
    simp [starts]
  have hids : (taken.map (·.record error)).toList.map Span.id = taken.toList.map Span.id := by
    cases taken with
    | none => rfl
    | some span => simp [Span.record_id]
  have hqueries : ∀ span ∈ taken.toList ++ rest,
      span ∈ (stateAfter sqlKey dbSystem evs).queries.map Prod.snd :=
    fun span hspan => hperm.mem_iff.mp hspan
  have hinflight : ∀ span ∈ (stateAfter sqlKey dbSystem evs).queries.map Prod.snd,
      OpenedBy dbSystem evs span :=
    fun span hspan => h.opened span (List.mem_append_right _ hspan)
  constructor
  · rw [State.spans, hclosed, hrest, hstarts, List.map_append, List.map_append, hids,
      ← List.map_append, ← List.map_append, List.append_assoc]
    refine List.Perm.trans (List.Perm.map _ ?_) h.once
    exact hperm.append_left _
  · rw [State.spans, hclosed, hrest, List.append_assoc]
    refine List.forall_mem_append.mpr ⟨fun span hspan => ?_, ?_⟩
    · exact (h.opened span (List.mem_append_left _ hspan)).mono hpre
    refine List.forall_mem_append.mpr ⟨fun span hspan => ?_, fun span hspan => ?_⟩
    · obtain ⟨span', htaken, rfl⟩ := Option.map_eq_some_iff.mp (Option.mem_toList.mp hspan)
      have hmem : span' ∈ taken.toList := Option.mem_toList.mpr htaken
      exact ((hinflight span' (hqueries span' (List.mem_append_left _ hmem))).mono hpre).record
        error
    · exact (hinflight span (hqueries span (List.mem_append_right _ hspan))).mono hpre
  · rw [hclosed]
    refine List.forall_mem_append.mpr ⟨fun span hspan => (h.closed span hspan).mono hpre, ?_⟩
    intro span hspan err herr
    obtain ⟨span', htaken, rfl⟩ := Option.map_eq_some_iff.mp (Option.mem_toList.mp hspan)
    have hmem := hqueries span' (List.mem_append_left _ (Option.mem_toList.mpr htaken))
    obtain ⟨e, he, rfl⟩ := List.mem_map.mp hmem
    have hnone := htracked.errors e he
    cases error with
    | none =>
      rw [Span.record, hnone] at herr
      cases herr
    | some err' =>
      obtain rfl := Option.some.inj herr
      refine ⟨evs, env, query, List.prefix_rfl, ?_⟩
      have hback : { (e.2.record (some err')) with error := none } = e.2 := by
        rw [Span.record, ← hnone]
      rwa [hback]
  · rw [hsystem, h.system, systemAfter_concat]
    simp [Event.url?]
  · rw [hdepth, h.depth, depthAfter_concat]
    rfl

theorem Accounted.other (h : Accounted sqlKey dbSystem evs st) {ev : Event}
    (hev : ev.isQuery = false) (hstep : onConnectionEvent sqlKey st (env, ev) = some st') :
    Accounted sqlKey dbSystem (evs ++ [(env, ev)]) st' := by
  obtain ⟨hqueries, hclosed, hsystem, hdepth⟩ := otherEvent_spans hev hstep
  have hspans : st'.spans = st.spans := by rw [State.spans, hqueries, hclosed, State.spans]
  have hpre : evs <+: evs ++ [(env, ev)] := List.prefix_append _ _
  have hstarts : starts (evs ++ [(env, ev)]) = starts evs := by
    cases ev <;> simp [starts, Event.isQuery] at hev ⊢
  constructor
  · rw [hspans, hstarts]
    exact h.once
  · rw [hspans]
    exact fun span hspan => (h.opened span hspan).mono hpre
  · rw [hclosed]
    exact fun span hspan => (h.closed span hspan).mono hpre
  · rw [hsystem, h.system, systemAfter_concat]
  · rw [hdepth, h.depth, depthAfter_concat]

/-- A start while nobody listens. -/
theorem Accounted.untraced (h : Accounted sqlKey dbSystem evs st) (hoff : env.enabled = false) :
    Accounted sqlKey dbSystem (evs ++ [(env, .startQuery query)]) st := by
  have hpre : evs <+: evs ++ [(env, .startQuery query)] := List.prefix_append _ _
  have hstarts : starts (evs ++ [(env, .startQuery query)]) = starts evs := by
    simp [starts, hoff]
  constructor
  · rw [hstarts]
    exact h.once
  · exact fun span hspan => (h.opened span hspan).mono hpre
  · exact fun span hspan => (h.closed span hspan).mono hpre
  · rw [h.system, systemAfter_concat]
    simp [Event.url?]
  · rw [h.depth, depthAfter_concat]
    rfl

end Step

/-- **Every run is accounted for.** -/
theorem accounted_run (sqlKey : Str → UInt64) (dbSystem : Option Str) (evs : List (Env × Event)) :
    Accounted sqlKey dbSystem evs (stateAfter sqlKey dbSystem evs) := by
  induction evs using List.reverseRecOn with
  | nil => exact accounted_init
  | append_singleton evs ev ih =>
    have htracked := tracked_run sqlKey dbSystem evs
    have hstep := stateAfter_concat sqlKey dbSystem evs ev
    obtain ⟨env, ev⟩ := ev
    cases ev with
    | startQuery query =>
      cases hon : env.enabled with
      | false =>
        rw [startQuery_disabled hon hstep]
        exact ih.untraced hon
      | true => exact ih.start htracked hon hstep
    | finishQuery query error => exact ih.finish htracked hstep
    | _ => exact ih.other rfl hstep

/-- **A closed span stays** as it was closed. -/
theorem closed_grows (sqlKey : Str → UInt64) (dbSystem : Option Str)
    {pre evs : List (Env × Event)} (h : pre <+: evs) :
    (stateAfter sqlKey dbSystem pre).closed <+: (stateAfter sqlKey dbSystem evs).closed := by
  obtain ⟨post, rfl⟩ := h
  induction post using List.reverseRecOn with
  | nil => rw [List.append_nil]
  | append_singleton post ev ih =>
    have hstep := stateAfter_concat sqlKey dbSystem (pre ++ post) ev
    rw [← List.append_assoc]
    refine ih.trans ?_
    obtain ⟨env, ev⟩ := ev
    cases ev with
    | startQuery query =>
      cases hon : env.enabled with
      | false => rw [startQuery_disabled hon hstep]
      | true =>
        rw [(startQuery_spans hon hstep).2.1]
        exact List.prefix_append _ _
    | finishQuery query error =>
      rw [(finishQuery_eq hstep).2.1]
      exact List.prefix_append _ _
    | _ => rw [(otherEvent_spans rfl hstep).2.1]

/-! ## 4. Connecting -/

theorem queryEvent_connect {st st' : State} {env : Env} {ev : Event} (hev : ev.isQuery = true)
    (h : onConnectionEvent sqlKey st (env, ev) = some st') :
    st'.connect = st.connect ∧ st'.closedConnects = st.closedConnects ∧
      st'.dbSystem = st.dbSystem := by
  cases ev with
  | startQuery query =>
    cases hon : env.enabled with
    | false =>
      rw [startQuery_disabled hon h]
      exact ⟨rfl, rfl, rfl⟩
    | true =>
      simp only [onConnectionEvent, startQuery, hon, writeSql_eq, Bool.not_true,
        Bool.false_eq_true, if_false, Option.map_some] at h
      rw [← Option.some.inj h]
      split <;> exact ⟨rfl, rfl, rfl⟩
  | finishQuery query error =>
    simp only [onConnectionEvent, finishQuery, writeSql_eq, Option.map_some] at h
    split at h <;> rw [← Option.some.inj h] <;> exact ⟨rfl, rfl, rfl⟩
  | _ => simp [Event.isQuery] at hev

/-- **Connect spans, from any state**: the open one ends as the next event about connecting says,
and each start that somebody listens to opens one. -/
theorem connects_run {evs : List (Env × Event)} {st st' : State}
    (h : tryRun (onConnectionEvent sqlKey) st evs = some st') :
    st'.closedConnects ++ st'.connect.toList =
      st.closedConnects ++ (st.connect.map (·.record (connectEnds evs))).toList ++
        connects st.dbSystem evs := by
  induction evs generalizing st with
  | nil =>
    obtain rfl := Option.some.inj h
    cases st.connect <;> simp [connectEnds, connects, ConnectSpan.record]
  | cons ev evs ih =>
    rw [tryRun] at h
    obtain ⟨st₁, hstep, hrest⟩ := Option.bind_eq_some_iff.mp h
    rw [ih hrest]
    obtain ⟨env, ev⟩ := ev
    cases ev with
    | startQuery query =>
      obtain ⟨hconnect, hclosed, hsystem⟩ := queryEvent_connect rfl hstep
      rw [hconnect, hclosed, hsystem]
      rfl
    | finishQuery query error =>
      obtain ⟨hconnect, hclosed, hsystem⟩ := queryEvent_connect rfl hstep
      rw [hconnect, hclosed, hsystem]
      rfl
    | startEstablishConnection url =>
      rw [← Option.some.inj hstep]
      cases hon : env.enabled with
      | false => simp [connectEnds, connects, ConnectSpan.record, hon]
      | true =>
        cases hends : connectEnds evs <;>
          simp [connectEnds, connects, ConnectSpan.record, hends, hon]
    | finishEstablishConnection error =>
      rw [← Option.some.inj hstep]
      simp [connectEnds, connects]
    | _ =>
      rw [← Option.some.inj hstep]
      rfl

/-! ## 5. Every span is accounted for -/

/-- **The spans of a connection, for any list of events.**  Every query that was started while
somebody listened has one span, in flight or closed, and there are no others.  Each reports its
query's SQL and leading keyword, the backend known at its start and the depth of the transactions
then.  The span a finish takes is closed with the error of that finish, a closed span stays as it
is, and no span has an error that is not of a finish which met it in flight.  The connect spans are
those of the attempts to connect made while somebody listened, each with how it ended. -/
theorem spans_accounted (sqlKey : Str → UInt64) (dbSystem : Option Str)
    (evs : List (Env × Event)) :
    let st := stateAfter sqlKey dbSystem evs
    (st.spans.map Span.id).Perm (List.range (starts evs).length) ∧
      (∀ span ∈ st.spans, OpenedBy dbSystem evs span) ∧
      (∀ span ∈ st.closed, ClosedBy sqlKey dbSystem evs span) ∧
      (∀ pre, pre <+: evs → (stateAfter sqlKey dbSystem pre).closed <+: st.closed) ∧
      (∀ pre env query error, pre ++ [(env, .finishQuery query error)] <+: evs →
        ∀ span, (finishTakes sqlKey query (stateAfter sqlKey dbSystem pre).queries).1 = some span →
          span.record error ∈ st.closed) ∧
      st.closedConnects ++ st.connect.toList = connects dbSystem evs := by
  intro st
  have haccounted := accounted_run sqlKey dbSystem evs
  refine ⟨haccounted.once, haccounted.opened, haccounted.closed,
    fun pre hpre => closed_grows sqlKey dbSystem hpre, ?_, ?_⟩
  · intro pre env query error hpre span hspan
    have hstep := stateAfter_concat sqlKey dbSystem pre (env, .finishQuery query error)
    refine (closed_grows sqlKey dbSystem hpre).subset ?_
    rw [(finishQuery_eq hstep).2.1, hspan]
    exact List.mem_append_right _ List.mem_cons_self
  · exact connects_run (tryRun_eq sqlKey dbSystem evs)

end Muxa.DieselSentry
