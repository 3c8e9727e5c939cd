/-
# The queries in flight on one connection

`SentryInstrumentation` mirrors diesel's connection events as tracing spans.  It keeps the
spans of the queries in flight in a bounded queue, each under a hash of its rendered SQL,
because diesel-async pipelines: several `StartQuery` can come before their `FinishQuery`, so a
finish is matched to its start by SQL.  With at most one query in flight it skips the matching
and takes the front.

Next to it stands the specification, `Flight`: the list of started and unfinished queries in
start order, from which a finish removes the oldest one with its own SQL.  It knows nothing of
hashes, of the bound or of the short cut.  `finishQuery_sim` and `startQuery_sim` are the two
step lemmas of the simulation, and `tracker_tracks_flight` puts a whole run together.

What the tracing subscriber sees is part of the state: how many query spans were opened, and
the spans that were closed with the error recorded on them.  The scratch buffer's capacity is
the allocator's choice and comes with the event (`Env`).
-/
import Mathlib.Data.List.Find
import Muxa.Lib.Run
import Muxa.DieselSentry.Render

namespace Muxa.DieselSentry

open Lib.Text Lib.Run

/-! ## 1. Spans and events -/

/-- Past this size the SQL buffer is shrunk back after use. -/
def maxRetainedSql : Nat := 16 * 1024

/-- At most this many query spans are tracked as in flight on one connection. -/
def maxInFlight : Nat := 32

/-- `db.system` for a backend without a name. -/
def otherSql : Str := "other_sql".toList

structure Span where
  /-- Which query span of the connection it is, counted as they are opened. -/
  id : Nat
  statement : Str
  dbSystem : Str
  operation : Str
  txDepth : Nat
  error : Option Str

structure ConnectSpan where
  dbSystem : Str
  error : Option Str

def Span.record (span : Span) : Option Str → Span
  | some err => { span with error := some err }
  | none => span

def ConnectSpan.record (span : ConnectSpan) : Option Str → ConnectSpan
  | some err => { span with error := some err }
  | none => span

/-- diesel's `InstrumentationEvent`. -/
inductive Event where
  | startEstablishConnection (url : Str)
  | finishEstablishConnection (error : Option Str)
  | startQuery (query : Display)
  | finishQuery (query : Display) (error : Option Str)
  | cacheQuery (sql : Str)
  | beginTransaction (depth : Nat)
  | commitTransaction (depth : Nat)
  | rollbackTransaction (depth : Nat)

/-- What surrounds an event: does a subscriber listen to `INFO` spans, and how large is the
scratch buffer once the event has rendered its SQL into it? -/
structure Env where
  enabled : Bool
  capacity : Nat

/-! ## 2. The instrumentation -/

/-- The instrumentation of one connection: the spans that are open on it, and what the spans to
come report besides their SQL. -/
structure SentryInstrumentation where
  /-- In-flight query spans, oldest first, each keyed by a hash of its SQL. -/
  queries : List (UInt64 × Span) := []
  /-- The connect span that is open.  A span that nobody listens to is disabled: the
  instrumentation keeps it too, but nothing is recorded on it, and it stands for no span here. -/
  connect : Option ConnectSpan := none
  /-- Current transaction nesting depth. -/
  txDepth : Nat := 0
  dbSystem : Option Str := none
  /-- The scratch buffer. -/
  sql : Str := []

/-- The instrumentation and what the subscriber has seen of it. -/
structure State extends SentryInstrumentation where
  /-- Query spans opened so far. -/
  opened : Nat := 0
  /-- Query spans closed so far, in the order they were closed. -/
  closed : List Span := []
  /-- Connect spans closed so far. -/
  closedConnects : List ConnectSpan := []

/-- The statement's leading keyword, upper-cased. -/
def operation (sql : Str) : Str :=
  ((sql.dropWhile isWhitespace).takeWhile (fun c => !isWhitespace c)).map Char.toUpper

/-- The `db.system` of the backend `url` points at. -/
def dbSystemOf (url : Str) : Str :=
  let scheme := ((splitOnce ':' url).map Prod.fst).getD []
  if eqIgnoreAsciiCase scheme "postgres".toList || eqIgnoreAsciiCase scheme "postgresql".toList then
    "postgresql".toList
  else if eqIgnoreAsciiCase scheme "mysql".toList || eqIgnoreAsciiCase scheme "mariadb".toList then
    "mysql".toList
  else if eqIgnoreAsciiCase scheme "sqlite".toList || eqIgnoreAsciiCase scheme "file".toList then
    "sqlite".toList
  else otherSql

def releaseLargeBuffer (capacity : Nat) (sql : Str) : Str :=
  if maxRetainedSql < capacity then [] else sql

/-- A span that leaves the instrumentation is closed. -/
def State.close (st : State) (span : Option Span) : State :=
  { st with closed := st.closed ++ span.toList }

/-- `queries.pop_front()`. -/
def takeFront (queries : List (UInt64 × Span)) : Option Span × List (UInt64 × Span) :=
  (queries.head?.map Prod.snd, queries.tail)

/-- `queries.iter().position(|(known, _)| known == key)`, then `queries.remove`. -/
def takeMatching (key : UInt64) (queries : List (UInt64 × Span)) :
    Option Span × List (UInt64 × Span) :=
  ((queries.find? (fun e => e.1 == key)).map Prod.snd, queries.eraseP (fun e => e.1 == key))

section Instrumentation

variable (sqlKey : Str → UInt64)

/-- `start_query`: open a span for the query, if anybody listens, and track it; a full queue drops
its oldest span.  `none` is a panic of the rendering. -/
def startQuery (env : Env) (st : State) (query : Display) : Option State :=
  if !env.enabled then some st
  else (writeSql st.sql query).map fun sql =>
    let span : Span :=
      { id := st.opened, statement := sql, dbSystem := st.dbSystem.getD otherSql,
        operation := operation sql, txDepth := st.txDepth, error := none }
    -- a full queue drops its oldest span
    let st :=
      if st.queries.length = maxInFlight then
        { st.close (takeFront st.queries).1 with queries := (takeFront st.queries).2 }
      else st
    { st with
      queries := st.queries ++ [(sqlKey sql, span)]
      opened := st.opened + 1
      sql := releaseLargeBuffer env.capacity sql }

/-- `finish_query`: close the span of the query, and record the error on it if there is one.  With
two spans or more in the queue it is the oldest one with the query's key, with one it is that one,
whatever its key.  `none` is a panic of the rendering. -/
def finishQuery (env : Env) (st : State) (query : Display) (error : Option Str) : Option State :=
  if st.queries.length ≤ 1 then
    -- not pipelined: the only query in flight is this one
    let (span, queries) := takeFront st.queries
    some (State.close { st with queries } (span.map (·.record error)))
  else (writeSql st.sql query).map fun sql =>
    let (span, queries) := takeMatching (sqlKey sql) st.queries
    State.close { st with queries, sql := releaseLargeBuffer env.capacity sql }
      (span.map (·.record error))

/-- `on_connection_event`.  A span that is replaced or taken out is closed; that a statement was
cached is logged and changes nothing. -/
def onConnectionEvent (st : State) : Env × Event → Option State
  | (env, .startEstablishConnection url) =>
    let dbSystem := st.dbSystem.getD (dbSystemOf url)
    some { st with
      dbSystem := some dbSystem
      connect := if env.enabled then some { dbSystem, error := none } else none
      closedConnects := st.closedConnects ++ st.connect.toList }
  | (_, .finishEstablishConnection error) =>
    some { st with
      connect := none
      closedConnects := st.closedConnects ++ (st.connect.map (·.record error)).toList }
  | (env, .startQuery query) => startQuery sqlKey env st query
  | (env, .finishQuery query error) => finishQuery sqlKey env st query error
  | (_, .cacheQuery _) => some st
  | (_, .beginTransaction depth) => some { st with txDepth := depth }
  | (_, .commitTransaction depth) => some { st with txDepth := depth - 1 }
  | (_, .rollbackTransaction depth) => some { st with txDepth := depth - 1 }

end Instrumentation

/-! ## 3. The specification: what is in flight -/

/-- The queries in flight, by number and SQL, and the finished ones with their error. -/
structure Flight where
  started : Nat := 0
  /-- Started and unfinished, oldest first. -/
  inFlight : List (Nat × Str) := []
  /-- Finished, in the order they finished. -/
  finished : List (Nat × Option Str) := []

def Display.sql (query : Display) : Str := sqlOf (query.text [])

/-- A start goes to the back; a finish takes the oldest query with its own SQL. -/
def Flight.step (f : Flight) : Env × Event → Flight
  | (_, .startQuery query) =>
    { f with started := f.started + 1, inFlight := f.inFlight ++ [(f.started, query.sql)] }
  | (_, .finishQuery query error) =>
    match f.inFlight.find? (fun e => e.2 == query.sql) with
    | none => f
    | some (id, _) =>
      { f with
        inFlight := f.inFlight.eraseP (fun e => e.2 == query.sql)
        finished := f.finished ++ [(id, error)] }
  | _ => f

/-- **Well-formed events**: spans are enabled, a start finds room, and a finish reports the SQL
of a query still in flight. -/
def WellFormed (f : Flight) : Env × Event → Prop
  | (env, .startQuery _) => env.enabled = true ∧ f.inFlight.length < maxInFlight
  | (_, .finishQuery query _) => ∃ e ∈ f.inFlight, e.2 = query.sql
  | _ => True

instance (f : Flight) : ∀ ev : Env × Event, Decidable (WellFormed f ev)
  | (_, .startQuery _) => inferInstanceAs (Decidable (_ ∧ _))
  | (_, .finishQuery query _) => inferInstanceAs (Decidable (∃ e ∈ f.inFlight, e.2 = query.sql))
  | (_, .startEstablishConnection _) | (_, .finishEstablishConnection _) | (_, .cacheQuery _)
  | (_, .beginTransaction _) | (_, .commitTransaction _) | (_, .rollbackTransaction _) =>
    isTrue trivial

def texts (evs : List (Env × Event)) : List Str :=
  evs.filterMap fun ev =>
    match ev.2 with
    | .startQuery query => some query.sql
    | .finishQuery query _ => some query.sql
    | _ => none

/-- Nothing is lost: a started query is in flight or finished. -/
theorem flight_count (evs : List (Env × Event)) :
    (run Flight.step {} evs).inFlight.length + (run Flight.step {} evs).finished.length =
      (run Flight.step {} evs).started := by
  induction evs using List.reverseRecOn with
  | nil => rfl
  | append_singleton evs ev ih =>
    rw [run_concat]
    obtain ⟨env, ev⟩ := ev
    cases ev with
    | startQuery query => simp only [Flight.step, List.length_append, List.length_singleton]; omega
    | finishQuery query error =>
      simp only [Flight.step]
      split
      · exact ih
      · rename_i id sql hfind
        have hmem := List.mem_of_find?_eq_some hfind
        have hp := List.find?_some hfind
        have hlen := @List.length_eraseP_add_one _ (fun e => e.2 == query.sql) _ _ hmem hp
        simp only [List.length_append, List.length_singleton]
        omega
    | _ => exact ih

/-! ## 4. The simulation -/

/-- The tracker holds what is in flight: the queue lists the open spans under their keys, and
the subscriber has seen exactly the finished ones closed. -/
structure Sim (sqlKey : Str → UInt64) (T : List Str) (st : State) (f : Flight) : Prop where
  keys : ∀ e ∈ st.queries, e.1 = sqlKey e.2.statement
  spans : st.queries.map (fun e => (e.2.id, e.2.statement)) = f.inFlight
  errors : ∀ e ∈ st.queries, e.2.error = none
  closed : st.closed.map (fun s => (s.id, s.error)) = f.finished
  opened : st.opened = f.started
  texts : ∀ e ∈ st.queries, e.2.statement ∈ T

def KeysDistinct (sqlKey : Str → UInt64) (T : List Str) : Prop :=
  ∀ a ∈ T, ∀ b ∈ T, sqlKey a = sqlKey b → a = b

instance (sqlKey : Str → UInt64) (T : List Str) : Decidable (KeysDistinct sqlKey T) :=
  inferInstanceAs (Decidable (∀ a ∈ T, ∀ b ∈ T, sqlKey a = sqlKey b → a = b))

theorem KeysDistinct.subset {sqlKey : Str → UInt64} {T T' : List Str} (h : KeysDistinct sqlKey T)
    (hsub : ∀ {sql}, sql ∈ T' → sql ∈ T) : KeysDistinct sqlKey T' :=
  fun a ha b hb => h a (hsub ha) b (hsub hb)

section Simulation

variable {sqlKey : Str → UInt64} {T : List Str}

theorem sim_init (dbSystem : Option Str) : Sim sqlKey T { dbSystem := dbSystem } {} :=
  ⟨by simp, rfl, by simp, rfl, rfl, by simp⟩

/-- **A start goes to the back of the queue**, and evicts nothing. -/
theorem startQuery_sim {st : State} {f : Flight} (h : Sim sqlKey T st f) {env : Env}
    {query : Display} (hwf : WellFormed f (env, .startQuery query)) (hT : query.sql ∈ T) :
    ∃ st', startQuery sqlKey env st query = some st' ∧
      Sim sqlKey T st' (f.step (env, .startQuery query)) := by
  obtain ⟨hen, hroom⟩ := hwf
  have hlen : st.queries.length ≠ maxInFlight := by
    have := congrArg List.length h.spans
    rw [List.length_map] at this
    omega
  simp only [startQuery, hen, Bool.not_true, Bool.false_eq_true, if_false, writeSql_eq,
    Option.map_some, if_neg hlen]
  refine ⟨_, rfl, ?_, ?_, ?_, h.closed, ?_, ?_⟩
  · exact List.forall_mem_append.mpr ⟨h.keys, List.forall_mem_singleton.mpr rfl⟩
  · simp only [List.map_append, List.map_cons, List.map_nil, Flight.step, h.spans, h.opened,
      Display.sql]
  · exact List.forall_mem_append.mpr ⟨h.errors, List.forall_mem_singleton.mpr rfl⟩
  · simp only [Flight.step, h.opened]
  · exact List.forall_mem_append.mpr ⟨h.texts, List.forall_mem_singleton.mpr hT⟩

/-- Tests that agree on the members erase the same one. -/
theorem eraseP_congr {α : Type} {p q : α → Bool} {l : List α} (h : ∀ x ∈ l, p x = q x) :
    l.eraseP p = l.eraseP q := by
  induction l with
  | nil => rfl
  | cons x l ih =>
    rw [List.eraseP_cons, List.eraseP_cons, h x List.mem_cons_self,
      ih fun y hy => h y (List.mem_cons_of_mem _ hy)]

/-- Under distinct keys, matching by key is matching by SQL. -/
theorem takeMatching_eq {queries : List (UInt64 × Span)}
    (hkeys : ∀ e ∈ queries, e.1 = sqlKey e.2.statement) (htexts : ∀ e ∈ queries, e.2.statement ∈ T)
    (hkey : KeysDistinct sqlKey T) {sql : Str} (hT : sql ∈ T) :
    takeMatching (sqlKey sql) queries =
      ((queries.find? (fun e => e.2.statement == sql)).map Prod.snd,
        queries.eraseP (fun e => e.2.statement == sql)) := by
  have hcongr : ∀ e ∈ queries, (e.1 == sqlKey sql) = (e.2.statement == sql) := by
    intro e he
    rw [hkeys e he, Bool.eq_iff_iff, beq_iff_eq, beq_iff_eq]
    exact ⟨hkey _ (htexts e he) _ hT, fun hs => by rw [hs]⟩
  rw [takeMatching, List.find?_congr hcongr, eraseP_congr hcongr]

/-- **The short cut agrees with the matching.**  With one query in flight, the front is the
query the finish reports. -/
theorem takeFront_eq_takeMatching {st : State} {f : Flight} (h : Sim sqlKey T st f) {env : Env}
    {query : Display} {error : Option Str} (hwf : WellFormed f (env, .finishQuery query error))
    (hlen : st.queries.length ≤ 1) :
    takeFront st.queries = takeMatching (sqlKey query.sql) st.queries := by
  obtain ⟨x, hx, hxsql⟩ := hwf
  rw [← h.spans] at hx
  obtain ⟨e, he, rfl⟩ := List.mem_map.mp hx
  have hkey : e.1 = sqlKey query.sql := (h.keys e he).trans (congrArg sqlKey hxsql)
  match hq : st.queries, hlen, he with
  | [y], _, hy =>
    rw [← List.mem_singleton.mp hy]
    simp [takeFront, takeMatching, hkey]

/-- What the finish hands back when it matches: the specification's query, its error recorded. -/
theorem takeMatching_sim {st : State} {f : Flight} (h : Sim sqlKey T st f)
    (hkey : KeysDistinct sqlKey T) {query : Display} {error : Option Str} {env : Env}
    (hwf : WellFormed f (env, .finishQuery query error)) (hT : query.sql ∈ T) (sql' : Str) :
    Sim sqlKey T
      (State.close
        { st with queries := (takeMatching (sqlKey query.sql) st.queries).2, sql := sql' }
        ((takeMatching (sqlKey query.sql) st.queries).1.map (·.record error)))
      (f.step (env, .finishQuery query error)) := by
  have hspec : f.inFlight.find? (fun e => e.2 == query.sql) =
      (st.queries.find? (fun e => e.2.statement == query.sql)).map
        (fun e => (e.2.id, e.2.statement)) := by
    rw [← h.spans, List.find?_map]
    rfl
  obtain ⟨e, he, hesql⟩ : ∃ e, st.queries.find? (fun e => e.2.statement == query.sql) = some e ∧
      e ∈ st.queries := by
    obtain ⟨x, hx, hxsql⟩ := hwf
    rw [← h.spans] at hx
    obtain ⟨e, he, rfl⟩ := List.mem_map.mp hx
    cases hf : st.queries.find? (fun e => e.2.statement == query.sql) with
    | none => exact absurd (beq_iff_eq.mpr hxsql) (List.find?_eq_none.mp hf e he)
    | some e' => exact ⟨e', rfl, List.mem_of_find?_eq_some hf⟩
  simp only [takeMatching_eq h.keys h.texts hkey hT, he, Option.map_some, State.close,
    Flight.step, hspec, Option.toList_some]
  have hsub : ∀ x ∈ st.queries.eraseP (fun e => e.2.statement == query.sql), x ∈ st.queries :=
    fun x hx => List.mem_of_mem_eraseP hx
  refine ⟨fun x hx => h.keys x (hsub x hx), ?_, fun x hx => h.errors x (hsub x hx), ?_,
    h.opened, fun x hx => h.texts x (hsub x hx)⟩
  · rw [← h.spans, List.eraseP_map]
    rfl
  · have herr := h.errors e hesql
    cases error <;> simp [h.closed, Span.record, herr]

/-- **A finish closes the oldest query with its own SQL**, on either path. -/
theorem finishQuery_sim {st : State} {f : Flight} (h : Sim sqlKey T st f)
    (hkey : KeysDistinct sqlKey T) {env : Env} {query : Display} {error : Option Str}
    (hwf : WellFormed f (env, .finishQuery query error)) (hT : query.sql ∈ T) :
    ∃ st', finishQuery sqlKey env st query error = some st' ∧
      Sim sqlKey T st' (f.step (env, .finishQuery query error)) := by
  unfold finishQuery
  split
  · rename_i hlen
    simp only [takeFront_eq_takeMatching h hwf hlen]
    exact ⟨_, rfl, takeMatching_sim h hkey hwf hT st.sql⟩
  · simp only [writeSql_eq, Option.map_some]
    exact ⟨_, rfl, takeMatching_sim h hkey hwf hT _⟩

theorem onConnectionEvent_sim {evs : List (Env × Event)} (hkey : KeysDistinct sqlKey (texts evs))
    (st : State) (f : Flight) (ev : Env × Event) (h : Sim sqlKey (texts evs) st f)
    (hwf : WellFormed f ev ∧ ev ∈ evs) :
    ∃ st', onConnectionEvent sqlKey st ev = some st' ∧ Sim sqlKey (texts evs) st' (f.step ev) := by
  obtain ⟨hwf, hmem⟩ := hwf
  obtain ⟨env, ev⟩ := ev
  cases ev with
  | startQuery query =>
    exact startQuery_sim h hwf (List.mem_filterMap.mpr ⟨_, hmem, rfl⟩)
  | finishQuery query error =>
    exact finishQuery_sim h hkey hwf (List.mem_filterMap.mpr ⟨_, hmem, rfl⟩)
  | _ => exact ⟨_, rfl, h.keys, h.spans, h.errors, h.closed, h.opened, h.texts⟩

end Simulation

/-! ## 5. The queue is what is in flight -/

/-- **In well-formed runs the tracker holds exactly the queries in flight.**  Nothing panics;
the queue lists the started and unfinished queries in start order, none with an error recorded;
the spans closed so far are those of the finished queries, each with its finish's error, so none
was evicted; and the queue is empty once every query has finished. -/
theorem tracker_tracks_flight (sqlKey : Str → UInt64) (dbSystem : Option Str)
    (evs : List (Env × Event)) (hwf : Along Flight.step WellFormed {} evs)
    (hkey : KeysDistinct sqlKey (texts evs)) :
    ∀ pre, pre <+: evs → ∃ st,
      tryRun (onConnectionEvent sqlKey) { dbSystem := dbSystem } pre = some st ∧
      st.queries.map (fun e => (e.2.id, e.2.statement)) = (run Flight.step {} pre).inFlight ∧
      (∀ e ∈ st.queries, e.2.error = none) ∧
      st.closed.map (fun s => (s.id, s.error)) = (run Flight.step {} pre).finished ∧
      ((run Flight.step {} pre).finished.length = (run Flight.step {} pre).started →
        st.queries = []) ∧
      (∀ env query error, pre ++ [(env, .finishQuery query error)] <+: evs →
        st.queries.length ≤ 1 →
        takeFront st.queries = takeMatching (sqlKey query.sql) st.queries) := by
  rintro pre ⟨post, rfl⟩
  have hpre : Along Flight.step (fun f ev => WellFormed f ev ∧ ev ∈ pre ++ post) {} pre :=
    hwf.take.mono_mem fun _ ev hev h => ⟨h, List.mem_append_left _ hev⟩
  obtain ⟨st, hst, hsim⟩ := tryRun_simulates (onConnectionEvent_sim hkey) pre
    { dbSystem := dbSystem } {} (sim_init dbSystem) hpre
  refine ⟨st, hst, hsim.spans, hsim.errors, hsim.closed, fun hall => ?_, ?_⟩
  · have hcount := flight_count pre
    have hlen : st.queries.length = (run Flight.step {} pre).inFlight.length := by
      rw [← hsim.spans, List.length_map]
    exact List.eq_nil_of_length_eq_zero (by omega)
  · rintro env query error ⟨rest, hrest⟩ hlen
    rw [← hrest, List.append_assoc, Along.append] at hwf
    exact takeFront_eq_takeMatching hsim hwf.2.1 hlen

/-- Two pipelined queries that finish in the other order, one of them reported with its binds. -/
def pipelined : List (Env × Event) :=
  let env : Env := { enabled := true, capacity := 64 }
  [(env, .startQuery (.ofChunks false false ["SET a".toList])),
   (env, .startQuery (.ofChunks false false ["SELECT $1".toList])),
   (env, .finishQuery (.ofChunks false false ["SELECT $1 -- binds: [7]".toList]) none),
   (env, .finishQuery (.ofChunks false false ["SET a".toList]) (some "timeout".toList))]

theorem tracker_tracks_pipelined :
    ∃ st, tryRun (onConnectionEvent fun sql => sql.length.toUInt64) {} pipelined = some st ∧
      st.queries = [] ∧
      st.closed.map (fun s => (s.id, s.error)) = [(1, none), (0, some "timeout".toList)] := by
  obtain ⟨st, hst, -, -, hclosed, hempty, -⟩ :=
    tracker_tracks_flight (fun sql => sql.length.toUInt64) none pipelined (by decide) (by decide)
      pipelined List.prefix_rfl
  exact ⟨st, hst, hempty (by decide), hclosed.trans (by decide)⟩

end Muxa.DieselSentry
