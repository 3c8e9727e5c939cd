/-
# Apps that start together

`Migrations.lean` is about replicas of one app.  During a rolling deploy the replicas that start
at once have different migrations, and apps that share a database can each have their own and a
lock key of their own (`with_lock_key`).  Here every run has its own runner.

What is needed is that runs with a migration in common have the same key.  Then whatever the order
of their statements, the runs that commit are the whole updates done one after the other, in the
order of the commits (`startups_serialize`): the runs with other keys neither wait nor interfere,
because nothing they insert is pending for this one.  A plugin publishes its pool after its run
has returned, so the app behind it finds all its migrations, then and ever after.
-/
import Muxa.Core.StringFallbacks
import Muxa.Diesel.Migrations

namespace Muxa.Diesel

open Muxa.Core (DieselConfig)
open Lib.Postgres Lib.Run Lib.Text

variable {ι V : Type}

/-! ## 1. The plugin -/

def MigrationsRunner.withLockKey (runner : MigrationsRunner V) (key : Int64) :
    MigrationsRunner V := { runner with lockKey := key }

/-- The pool, by what it was built with; `none` waits forever. -/
structure DieselPool where
  url : Str
  maxSize : Nat
  waitTimeout : Option Nat
  createTimeout : Option Nat
deriving DecidableEq

/-- `build_pool`: no connection is opened here.  The pool reserves room for all its connections at
once, so the process aborts here when there is no memory for `max_connections` of them, as with
`u32::MAX`; what follows is about processes that go on. -/
def buildPool (cfg : DieselConfig) : DieselPool :=
  let acquireTimeout :=
    if 0 < cfg.acquireTimeoutSecs then some cfg.acquireTimeoutSecs else none
  { url := cfg.url, maxSize := cfg.maxConnections, waitTimeout := acquireTimeout,
    createTimeout := acquireTimeout }

/-- `DieselPlugin::build` with a migrations runner, by where its run is: what it has returned, if
it has.  `failure` is what the error of a failed run displays. -/
def DieselPlugin.build {E : Type} (failure : Str) (cfg : DieselConfig) (phase : Phase V) :
    Option (Except (Core.Error E) DieselPool) :=
  if cfg.url = [] then
    some (.error (.other ("muxa-diesel: `diesel.url` is required (set `[diesel] url` in ".toList ++
      "config.toml, the app's `<APP>_DIESEL__URL` env var, or `DATABASE_URL`)".toList)))
  else match phase with
    | .returned (.ok _) => some (.ok (buildPool cfg))
    | .returned (.error ()) => some (.error (.other failure))
    | _ => none

/-- A pool is published after the run has returned. -/
theorem build_published {E : Type} {failure : Str} {cfg : DieselConfig} {phase : Phase V}
    {pool : DieselPool}
    (h : DieselPlugin.build (E := E) failure cfg phase = some (.ok pool)) :
    pool = buildPool cfg ∧ ∃ n, phase = .returned (.ok n) := by
  unfold DieselPlugin.build at h
  split at h
  · cases h
  · split at h
    · exact ⟨(Except.ok.inj (Option.some.inj h)).symm, _, rfl⟩
    · cases h
    · cases h

variable [DecidableEq V]

/-! ## 2. Runs with different runners -/

/-- Runs with a migration in common have the same lock key. -/
def KeysShared (runners : ι → MigrationsRunner V) : Prop :=
  ∀ i j m, m ∈ (runners i).migrations → m ∈ (runners j).migrations →
    (runners i).lockKey = (runners j).lockKey

def serially (runners : ι → MigrationsRunner V) (init : List V) (commits : List (ι × Nat)) :
    List V :=
  commits.foldl (fun applied c => (runners c.1).migrate applied) init

omit [DecidableEq V] in
theorem PhaseOk.congr [DecidableEq V] {runner : MigrationsRunner V} {committed committed' : List V}
    (heq : runner.pending committed' = runner.pending committed) {phase : Phase V}
    (h : PhaseOk runner committed phase) : PhaseOk runner committed' phase := by
  cases phase with
  | applying txn todo count =>
    rw [PhaseOk] at h ⊢
    rwa [heq]
  | begun txn | pinned txn | waiting txn | locked txn => exact h
  | idle | committed count | returned result | dead => trivial

/-- What others have inserted is not pending for a runner that has no migration in common. -/
theorem pending_append {runner : MigrationsRunner V} {applied inserted : List V}
    (h : ∀ m ∈ inserted, m ∉ runner.migrations) :
    runner.pending (applied ++ inserted) = runner.pending applied := by
  refine List.filter_congr fun m hm => ?_
  have hnot : m ∉ inserted := fun hmem => h m hmem hm
  simp [hnot]

variable [DecidableEq ι]

def stepOf (runners : ι → MigrationsRunner V) (isolation : ι → Isolation) (σ : State ι V)
    (a : ι × Act) : State ι V :=
  (runners a.1).step isolation σ a

/-- **The invariant.**  A lock is with a run that has it and whose key it is; each run is as far
as it says in what is pending for it; and the schema is that of the commits, one after the
other. -/
structure RollInv (runners : ι → MigrationsRunner V) (init : List V) (σ : State ι V) : Prop where
  holder : ∀ key i, σ.db.locks key = some i ↔
    key = (runners i).lockKey ∧ (σ.phase i).holds = true
  phases : ∀ i, PhaseOk (runners i) σ.db.committed (σ.phase i)
  committed : σ.db.committed = serially runners init σ.commits
  counts : ∀ pre c post, σ.commits = pre ++ c :: post →
    c.2 = ((runners c.1).pending (serially runners init pre)).length
  told : ∀ i n, (σ.phase i).tells = some n → (i, n) ∈ σ.commits

section Invariant

variable {runners : ι → MigrationsRunner V} {init : List V} {σ : State ι V} {i : ι}
  {phase : Phase V}

omit [DecidableEq ι] in
theorem rollInv_init : RollInv runners init (State.init init : State ι V) :=
  ⟨by simp [State.init, Phase.holds], fun _ => trivial, rfl, by simp [State.init],
    by simp [State.init, Phase.tells]⟩

/-- A step that commits nothing. -/
theorem RollInv.goto (h : RollInv runners init σ) {db : Db ι Int64 V}
    (hcommitted : db.committed = σ.db.committed)
    (hholder : db.HeldBy (fun j => (runners j).lockKey) fun j =>
      (Function.update σ.phase i phase j).holds)
    (hok : PhaseOk (runners i) σ.db.committed phase)
    (hcontinues : (σ.phase i).Continues phase) :
    RollInv runners init ({ σ with db }.goto i phase) where
  holder := hholder
  phases := hcommitted ▸ phases_goto h.phases hok
  committed := hcommitted.trans h.committed
  counts := h.counts
  told := told_goto h.told hcontinues

omit [DecidableEq V] in
theorem holds_update (phase : Phase V) (j : ι) (hj : j ≠ i) :
    (Function.update σ.phase i phase j).holds = (σ.phase j).holds := by
  rw [Function.update_of_ne hj]

theorem RollInv.holder_same (h : RollInv runners init σ)
    (hsame : phase.holds = (σ.phase i).holds) :
    σ.db.HeldBy (fun j => (runners j).lockKey) fun j =>
      (Function.update σ.phase i phase j).holds := by
  refine Db.HeldBy.congr h.holder fun j => ?_
  by_cases hj : j = i
  · subst hj
    rwa [Function.update_self]
  · exact holds_update phase j hj

/-- **A commit is one update.**  A run with the same key is not between its read and its commit,
and for one with another key nothing that is committed now was pending. -/
theorem RollInv.commit (hshared : KeysShared runners) (h : RollInv runners init σ) {txn : Txn V}
    {count : Nat} (hphase : σ.phase i = .applying txn [] count) :
    RollInv runners init ({ σ with
      db := σ.db.commit i txn, commits := σ.commits ++ [(i, count)] }.goto i
        (.committed count)) := by
  have hok := h.phases i
  rw [hphase] at hok
  obtain ⟨hinserted, hcount⟩ : txn.inserted ++ [] = (runners i).pending σ.db.committed ∧
    count = ((runners i).pending σ.db.committed).length := hok
  rw [List.append_nil] at hinserted
  have hlock : σ.db.locks (runners i).lockKey = some i :=
    (h.holder _ i).mpr ⟨rfl, by rw [hphase]; rfl⟩
  refine ⟨Db.HeldBy.release h.holder (holds_update _) (by simp [State.goto, Phase.holds]),
    fun j => ?_, ?_, ?_, told_commit h.told⟩
  · by_cases hj : j = i
    · subst hj
      rw [goto_self]
      trivial
    simp only [goto_of_ne _ hj, goto_db, Db.commit]
    cases hholds : (σ.phase j).holds with
    | false => exact (h.phases j).of_not_holds hholds
    | true =>
      -- the other run has another key, so no migration in common
      have hother : (runners i).lockKey ≠ (runners j).lockKey := by
        intro heq
        rw [(h.holder _ j).mpr ⟨heq, hholds⟩] at hlock
        exact hj (Option.some.inj hlock)
      refine (h.phases j).congr (pending_append fun m hm hmem => ?_)
      rw [hinserted] at hm
      exact hother (hshared i j m (mem_pending.mp hm).1 hmem)
  · simp only [goto_db, goto_commits, Db.commit, hinserted, serially, List.foldl_append,
      List.foldl_cons, List.foldl_nil]
    rw [← serially, ← h.committed]
    rfl
  · intro pre c post hcommits
    rcases List.eq_nil_or_concat post with rfl | ⟨post, last, rfl⟩
    · obtain ⟨rfl, hc⟩ := List.append_inj' hcommits rfl
      obtain rfl := List.singleton_inj.mp hc
      rw [← h.committed]
      exact hcount
    · rw [List.concat_eq_append, ← List.cons_append, ← List.append_assoc] at hcommits
      obtain ⟨hcommits, -⟩ := List.append_inj' hcommits rfl
      exact h.counts pre c post hcommits

/-- **The next statement of any run keeps the invariant.** -/
theorem RollInv.next (hshared : KeysShared runners) (isolation : ι → Isolation)
    (h : RollInv runners init σ) (i : ι) :
    RollInv runners init ((runners i).next isolation σ i) := by
  have hok := h.phases i
  have hgoes : ∀ {phase : Phase V}, (σ.phase i).ended = false → phase.tells = none →
      (σ.phase i).Continues phase := Phase.continues_of_not_ended
  unfold MigrationsRunner.next
  cases hp : σ.phase i with
  | idle => exact h.goto rfl (h.holder_same (by rw [hp]; rfl)) rfl (hgoes (by rw [hp]; rfl) rfl)
  | begun txn =>
    rw [hp] at hok
    exact h.goto rfl (h.holder_same (by rw [hp]; rfl)) ⟨rfl, hok⟩ (hgoes (by rw [hp]; rfl) rfl)
  | pinned txn =>
    rw [hp] at hok
    exact h.goto rfl (h.holder_same (by rw [hp]; rfl)) hok (hgoes (by rw [hp]; rfl) rfl)
  | waiting txn =>
    rw [hp] at hok
    cases hlock : σ.db.locks (runners i).lockKey with
    | some j => simpa [hlock] using h
    | none =>
      exact h.goto rfl
        (Db.HeldBy.acquire h.holder hlock (holds_update _) (by simp [Phase.holds]))
        hok (hgoes (by rw [hp]; rfl) rfl)
  | locked txn =>
    rw [hp] at hok
    have hview := view_readCommitted hok.1 hok.2 σ.db.committed
    simp only [hview]
    refine h.goto rfl (h.holder_same (by rw [hp]; rfl)) ⟨?_, rfl⟩ (hgoes (by rw [hp]; rfl) rfl)
    rw [hok.2, List.nil_append]
  | applying txn todo count =>
    rw [hp] at hok
    cases todo with
    | nil => exact h.commit hshared hp
    | cons m todo =>
      refine h.goto rfl (h.holder_same (by rw [hp]; rfl)) ⟨?_, hok.2⟩
        (hgoes (by rw [hp]; rfl) rfl)
      rw [Txn.insert, List.append_assoc]
      exact hok.1
  | committed count =>
    refine h.goto rfl (h.holder_same (by rw [hp]; rfl)) trivial ?_
    rw [hp]
    exact ⟨fun _ hn => hn, fun _ => rfl⟩
  | returned result => exact h
  | dead => exact h

theorem RollInv.abort (h : RollInv runners init σ) (i : ι) {phase : Phase V}
    (hphase : phase = .returned (.error ()) ∨ phase = .dead) :
    RollInv runners init (σ.abort i phase) := by
  have hfree : phase.holds = false := by rcases hphase with rfl | rfl <;> rfl
  have hok : PhaseOk (runners i) σ.db.committed phase := by
    rcases hphase with rfl | rfl <;> trivial
  have hcontinues : (σ.phase i).Continues phase := by
    rcases hphase with rfl | rfl <;> exact ⟨fun n hn => (by cases hn), fun _ => rfl⟩
  unfold State.abort
  split
  · exact h
  · exact h
  · rename_i count hp
    exact h.goto rfl (h.holder_same (by rw [hp, hfree]; rfl)) hok hcontinues
  · exact h.goto rfl (Db.HeldBy.release h.holder (holds_update _) (by simpa using hfree)) hok
      hcontinues

theorem RollInv.step (hshared : KeysShared runners) (isolation : ι → Isolation)
    (h : RollInv runners init σ) :
    ∀ a : ι × Act, RollInv runners init (stepOf runners isolation σ a)
  | (i, .next) => h.next hshared isolation i
  | (i, .fail) => h.abort i (.inl rfl)
  | (i, .die) => h.abort i (.inr rfl)

end Invariant

/-! ## 3. Whole schedules -/

section Schedules

variable {runners : ι → MigrationsRunner V} (isolation : ι → Isolation)

theorem rollInv_run (hshared : KeysShared runners) (init : List V) (schedule : List (ι × Act)) :
    RollInv runners init (run (stepOf runners isolation) (State.init init) schedule) :=
  run_invariant (I := RollInv runners init) (fun _ a hI _ => hI.step hshared isolation a) schedule _
    rollInv_init (along_of_forall (p := fun _ => True) fun _ _ => trivial)

/-- **The schema only grows**, in any step of any run. -/
theorem committed_step (σ : State ι V) (a : ι × Act) :
    σ.db.committed <+: (stepOf runners isolation σ a).db.committed := by
  obtain ⟨i, act⟩ := a
  have habort : ∀ phase, (σ.abort i phase).db.committed = σ.db.committed := by
    intro phase
    unfold State.abort
    split <;> rfl
  cases act with
  | next =>
    simp only [stepOf, MigrationsRunner.step, MigrationsRunner.next]
    split
    case h_7 => exact List.prefix_append _ _
    case h_4 => split <;> exact List.prefix_rfl
    all_goals exact List.prefix_rfl
  | fail => exact (habort _).symm ▸ List.prefix_rfl
  | die => exact (habort _).symm ▸ List.prefix_rfl

theorem committed_run (σ : State ι V) (schedule : List (ι × Act)) :
    σ.db.committed <+: (run (stepOf runners isolation) σ schedule).db.committed := by
  induction schedule generalizing σ with
  | nil => exact List.prefix_rfl
  | cons a schedule ih => exact (committed_step isolation σ a).trans (ih _)

omit [DecidableEq ι] in
/-- Updates one after the other apply nothing twice. -/
theorem serially_nodup {init : List V} (h : init.Nodup) (commits : List (ι × Nat)) :
    (serially runners init commits).Nodup := by
  induction commits using List.reverseRecOn with
  | nil => exact h
  | append_singleton commits c ih =>
    rw [serially, List.foldl_append, ← serially]
    refine List.Nodup.append ih (pending_nodup _ _) fun m hm hpending => ?_
    exact (mem_pending.mp hpending).2 hm

omit [DecidableEq ι] in
/-- After a commit of a run, its migrations are there. -/
theorem mem_serially {init : List V} {commits : List (ι × Nat)} {c : ι × Nat} (hc : c ∈ commits)
    {m : V} (hm : m ∈ (runners c.1).migrations) : m ∈ serially runners init commits := by
  induction commits using List.reverseRecOn with
  | nil => cases hc
  | append_singleton commits last ih =>
    rw [serially, List.foldl_append, ← serially]
    by_cases hthere : m ∈ serially runners init commits
    · exact List.mem_append_left _ hthere
    rcases List.mem_append.mp hc with hc | hc
    · exact absurd (ih hc) hthere
    · obtain rfl := List.mem_singleton.mp hc
      exact List.mem_append_right _ (mem_pending.mpr ⟨hm, hthere⟩)

end Schedules

/-- **What apps that start together amount to**: the runs that committed, one after the other, each
complete before the next one reads what is applied. -/
structure Serialized (runners : ι → MigrationsRunner V) (init : List V) (σ : State ι V) :
    Prop where
  /-- The schema is that of the committed runs, one after the other. -/
  serial : σ.db.committed = serially runners init σ.commits
  /-- Each of them applied what was pending for it when its turn came. -/
  counts : ∀ pre c post, σ.commits = pre ++ c :: post →
    c.2 = ((runners c.1).pending (serially runners init pre)).length
  /-- No migration is applied twice. -/
  once : init.Nodup → σ.db.committed.Nodup
  /-- The app behind a published pool finds all its migrations. -/
  published : ∀ i (E : Type) failure cfg pool,
    DieselPlugin.build failure cfg (σ.phase i) = some (.ok pool : Except (Core.Error E) _) →
      pool = buildPool cfg ∧ ∀ m ∈ (runners i).migrations, m ∈ σ.db.committed
  /-- A run waits only for one with its own key, which is not waiting itself. -/
  waits : ∀ i j, σ.db.locks (runners i).lockKey = some j →
    (runners j).lockKey = (runners i).lockKey ∧ (σ.phase j).holds = true

/-- A replica of the old version and one of the new, and another app in the same database. -/
inductive Startup where
  | old
  | new
  | other
deriving DecidableEq

def deployed : Startup → MigrationsRunner Nat
  | .old => { migrations := [1, 2], nodup := by decide, lockKey := 0 }
  | .new => { migrations := [1, 2, 3], nodup := by decide, lockKey := 0 }
  | .other => MigrationsRunner.withLockKey { migrations := [10], nodup := by decide } 7

/-- The new version has the lock when the old one asks for it, and the other app goes by. -/
def deploy : List (Startup × Act) :=
  List.replicate 5 (.new, .next) ++ List.replicate 4 (.old, .next) ++
    List.replicate 8 (.other, .next) ++ List.replicate 4 (.new, .next) ++
      List.replicate 4 (.old, .next)

example :
    let σ := run (stepOf deployed fun _ => .serializable) (State.init [1]) deploy
    σ.db.committed = [1, 10, 2, 3] ∧ σ.commits = [(.other, 1), (.new, 2), (.old, 0)] ∧
      ∀ i, (σ.phase i).ended = true := by
  refine ⟨by decide, by decide, fun i => ?_⟩
  cases i <;> rfl

/-- With different keys a migration in common is applied twice. -/
example :
    let runners : Bool → MigrationsRunner Nat := fun old =>
      { migrations := if old then [1, 2] else [2, 3], nodup := by cases old <;> decide,
        lockKey := if old then 0 else 7 }
    let schedule : List (Bool × Act) :=
      List.replicate 5 (true, .next) ++ List.replicate 5 (false, .next) ++
        List.replicate 3 (true, .next) ++ List.replicate 3 (false, .next)
    (run (stepOf runners fun _ => .readCommitted) (State.init []) schedule).db.committed =
      [1, 2, 2, 3] := by
  decide

end Muxa.Diesel
