/-
# Concurrent migration runs

`MigrationsRunner::run` is one transaction: pin READ COMMITTED, take the advisory lock, read the
applied versions and apply the rest.  Any number of runs go on at once, each one statement at a
time in any order (`step`), under whatever isolation level the server starts transactions with;
any of them can fail at a statement or die between two.  The server's `COMMIT` and the arrival of
its answer are two steps: between them the migrations are in the schema, and the run does not know
it yet.  A connection that breaks there makes `run` an error, though its migrations are applied.

What the runs amount to is `migrate`, the whole update done at once.  The invariant (`Inv`) says
that the committed schema is that of as many atomic updates as runs have committed, because the
one run that holds the lock reads what is committed and nobody commits before it does.
`migrations_exactly_once` is what follows for whole schedules, and `undisturbed_returns` says that
a run which finds the lock free and is left alone gets to its end.
-/
import Mathlib.Logic.Function.Iterate
import Mathlib.Data.List.Nodup
import Muxa.Lib.Postgres
import Muxa.Lib.Run
import Muxa.Lib.Text

namespace Muxa.Diesel

open Lib.Postgres Lib.Run

variable {ι V : Type}

/-! ## 1. The runner -/

/-- 64-bit FNV-1a. -/
def fnv1a64 (bytes : List UInt8) : UInt64 :=
  bytes.foldl (fun hash b => (hash ^^^ b.toUInt64) * 0x00000100000001b3) 0xcbf29ce484222325

/-- An app's migrations, by version in order, and the advisory-lock key. -/
structure MigrationsRunner (V : Type) where
  migrations : List V
  nodup : migrations.Nodup
  lockKey : Int64 := (fnv1a64 (Lib.Text.utf8 "muxa-diesel-migrations".toList)).toInt64

/-- Where a run is, by the last statement that went through.  Between the commit and the end of
`run` the answer of the server is on its way: the migrations are applied, whether it arrives or
not. -/
inductive Phase (V : Type) where
  | idle
  /-- `BEGIN` went through. -/
  | begun (txn : Txn V)
  /-- The isolation level is pinned. -/
  | pinned (txn : Txn V)
  /-- `SELECT pg_advisory_xact_lock($1)` was sent, and waits. -/
  | waiting (txn : Txn V)
  /-- The lock is held. -/
  | locked (txn : Txn V)
  /-- The applied versions were read; these migrations are left, of this many. -/
  | applying (txn : Txn V) (todo : List V) (count : Nat)
  /-- The server has committed this many, and its answer is on the way. -/
  | committed (count : Nat)
  /-- `run` returned how many migrations it applied, or an error. -/
  | returned (result : Except Unit Nat)
  | dead

def Phase.txn : Phase V → Option (Txn V)
  | .begun txn | .pinned txn | .waiting txn | .locked txn | .applying txn _ _ => some txn
  | .idle | .committed _ | .returned _ | .dead => none

def Phase.holds : Phase V → Bool
  | .locked _ | .applying _ _ _ => true
  | .idle | .begun _ | .pinned _ | .waiting _ | .committed _ | .returned _ | .dead => false

/-- What the run has committed, as far as it tells by itself. -/
def Phase.tells : Phase V → Option Nat
  | .committed count | .returned (.ok count) => some count
  | .idle | .begun _ | .pinned _ | .waiting _ | .locked _ | .applying _ _ _
  | .returned (.error ()) | .dead => none

/-- The run will not commit any more. -/
def Phase.ended : Phase V → Bool
  | .committed _ | .returned _ | .dead => true
  | .idle | .begun _ | .pinned _ | .waiting _ | .locked _ | .applying _ _ _ => false

/-- What happens to a run: its next statement goes through (or waits on), or fails, or the
process dies. -/
inductive Act where
  | next
  | fail
  | die
deriving DecidableEq

/-- A run goes on without a commit: it tells no more than before, and one that has ended stays
so. -/
def Phase.Continues (phase phase' : Phase V) : Prop :=
  (∀ n, phase'.tells = some n → phase.tells = some n) ∧ (phase.ended = true → phase'.ended = true)

/-- A run that has not ended may go anywhere where it tells nothing. -/
theorem Phase.continues_of_not_ended {phase phase' : Phase V} (hended : phase.ended = false)
    (htells : phase'.tells = none) : phase.Continues phase' := by
  constructor
  · intro n hn
    rw [htells] at hn
    cases hn
  · intro h
    rw [hended] at h
    cases h

/-- The database, the runs, and the commits so far with how many migrations each applied. -/
structure State (ι V : Type) where
  db : Db ι Int64 V
  phase : ι → Phase V
  commits : List (ι × Nat) := []

def State.init (committed : List V) : State ι V :=
  { db := { committed, locks := fun _ => none }, phase := fun _ => .idle }

variable [DecidableEq ι]

def State.goto (σ : State ι V) (i : ι) (phase : Phase V) : State ι V :=
  { σ with phase := Function.update σ.phase i phase }

@[simp] theorem goto_db (σ : State ι V) (i : ι) (phase : Phase V) :
    (σ.goto i phase).db = σ.db := rfl

@[simp] theorem goto_commits (σ : State ι V) (i : ι) (phase : Phase V) :
    (σ.goto i phase).commits = σ.commits := rfl

@[simp] theorem goto_self (σ : State ι V) (i : ι) (phase : Phase V) :
    (σ.goto i phase).phase i = phase := Function.update_self ..

@[simp] theorem goto_of_ne (σ : State ι V) {i j : ι} (h : j ≠ i) (phase : Phase V) :
    (σ.goto i phase).phase j = σ.phase j := Function.update_of_ne h ..

@[simp] theorem goto_goto (σ : State ι V) (i : ι) (phase phase' : Phase V) :
    (σ.goto i phase).goto i phase' = σ.goto i phase' := by
  simp [State.goto]

variable [DecidableEq V]

def MigrationsRunner.pending (runner : MigrationsRunner V) (applied : List V) : List V :=
  runner.migrations.filter fun m => m ∉ applied

/-- The next statement of run `i` goes through.  The lock is the only one that may have to wait,
and a run that waits stays where it is. -/
def MigrationsRunner.next (runner : MigrationsRunner V) (isolation : ι → Isolation)
    (σ : State ι V) (i : ι) : State ι V :=
  match σ.phase i with
  | .idle => σ.goto i (.begun { isolation := isolation i })
  | .begun txn => σ.goto i (.pinned (txn.setIsolation .readCommitted))
  | .pinned txn => σ.goto i (.waiting (txn.query σ.db.committed))
  | .waiting txn =>
    match σ.db.locks runner.lockKey with
    | none => { σ with db := σ.db.acquire runner.lockKey i }.goto i (.locked txn)
    | some _ => σ
  | .locked txn =>
    let todo := runner.pending (txn.view σ.db.committed)
    σ.goto i (.applying txn todo todo.length)
  | .applying txn (m :: todo) count => σ.goto i (.applying (txn.insert m) todo count)
  | .applying txn [] count =>
    { σ with db := σ.db.commit i txn, commits := σ.commits ++ [(i, count)] }.goto i
      (.committed count)
  | .committed count => σ.goto i (.returned (.ok count))
  | .returned _ | .dead => σ

/-- A run fails or dies.  Its transaction is rolled back, unless the server has committed it. -/
def State.abort (σ : State ι V) (i : ι) (phase : Phase V) : State ι V :=
  match σ.phase i with
  | .returned _ | .dead => σ
  | .committed _ => σ.goto i phase
  | _ => { σ with db := σ.db.rollback i }.goto i phase

def MigrationsRunner.step (runner : MigrationsRunner V) (isolation : ι → Isolation)
    (σ : State ι V) : ι × Act → State ι V
  | (i, .next) => runner.next isolation σ i
  | (i, .fail) => σ.abort i (.returned (.error ()))
  | (i, .die) => σ.abort i .dead

/-! ## 2. The whole update at once -/

/-- **What a run is for**: apply what is pending, at once. -/
def MigrationsRunner.migrate (runner : MigrationsRunner V) (applied : List V) : List V :=
  applied ++ runner.pending applied

omit [DecidableEq ι] in
theorem pending_nodup (runner : MigrationsRunner V) (applied : List V) :
    (runner.pending applied).Nodup := runner.nodup.filter _

theorem mem_pending {runner : MigrationsRunner V} {applied : List V} {m : V} :
    m ∈ runner.pending applied ↔ m ∈ runner.migrations ∧ m ∉ applied := by
  simp [MigrationsRunner.pending]

theorem pending_migrate (runner : MigrationsRunner V) (applied : List V) :
    runner.pending (runner.migrate applied) = [] := by
  rw [List.eq_nil_iff_forall_not_mem]
  intro m hm
  obtain ⟨hmig, hnot⟩ := mem_pending.mp hm
  rw [MigrationsRunner.migrate, List.mem_append, not_or] at hnot
  exact hnot.2 (mem_pending.mpr ⟨hmig, hnot.1⟩)

/-- Any number of updates after the first change nothing. -/
theorem migrate_iterate (runner : MigrationsRunner V) (applied : List V) (n : Nat) :
    runner.migrate^[n + 1] applied = runner.migrate applied := by
  induction n with
  | zero => rfl
  | succ n ih =>
    rw [Function.iterate_succ_apply', ih]
    rw [MigrationsRunner.migrate, pending_migrate, List.append_nil]

/-! ## 3. The invariant -/

/-- What holds of a run by where it is: it has inserted nothing before it read the applied
versions, it is on READ COMMITTED once pinned, and what it has inserted and has left is what is
pending in the committed schema. -/
def PhaseOk (runner : MigrationsRunner V) (committed : List V) : Phase V → Prop
  | .begun txn => txn.inserted = []
  | .pinned txn | .waiting txn | .locked txn =>
    txn.isolation = .readCommitted ∧ txn.inserted = []
  | .applying txn todo count =>
    txn.inserted ++ todo = runner.pending committed ∧ count = (runner.pending committed).length
  | .idle | .committed _ | .returned _ | .dead => True

/-- **The invariant.**  The lock is with the run that has it; the committed schema is that of one
update for each commit; each commit applied what that update applies; what a run says that it
committed is among the commits; and a run that is there has ended, so it commits once at most. -/
structure Inv (runner : MigrationsRunner V) (init : List V) (σ : State ι V) : Prop where
  holder : ∀ i, σ.db.locks runner.lockKey = some i ↔ (σ.phase i).holds = true
  phases : ∀ i, PhaseOk runner σ.db.committed (σ.phase i)
  committed : σ.db.committed = runner.migrate^[σ.commits.length] init
  counts : ∀ k c, σ.commits[k]? = some c →
    c.2 = (runner.pending (runner.migrate^[k] init)).length
  told : ∀ i n, (σ.phase i).tells = some n → (i, n) ∈ σ.commits
  ended : ∀ c ∈ σ.commits, (σ.phase c.1).ended = true
  once : (σ.commits.map Prod.fst).Nodup

omit [DecidableEq ι] in
theorem inv_init (runner : MigrationsRunner V) (init : List V) :
    Inv runner init (State.init init : State ι V) :=
  ⟨by simp [State.init, Phase.holds], fun _ => trivial, rfl, by simp [State.init],
    by simp [State.init, Phase.tells], by simp [State.init], by simp [State.init]⟩

omit [DecidableEq ι] in
/-- Only a run that has the lock looks at what is committed. -/
theorem PhaseOk.of_not_holds {runner : MigrationsRunner V} {committed committed' : List V}
    {phase : Phase V} (h : PhaseOk runner committed phase) (hfree : phase.holds = false) :
    PhaseOk runner committed' phase := by
  cases phase with
  | locked txn => cases hfree
  | applying txn todo count => cases hfree
  | begun txn | pinned txn | waiting txn => exact h
  | idle | committed count | returned result | dead => trivial

/-- A run that goes on elsewhere leaves the others as far as they are. -/
theorem phases_goto {runners : ι → MigrationsRunner V} {σ : State ι V}
    (h : ∀ j, PhaseOk (runners j) σ.db.committed (σ.phase j)) {i : ι} {phase : Phase V}
    (hok : PhaseOk (runners i) σ.db.committed phase) (j : ι) :
    PhaseOk (runners j) σ.db.committed ((σ.goto i phase).phase j) := by
  by_cases hj : j = i
  · subst hj
    rwa [goto_self]
  · rw [goto_of_ne _ hj]
    exact h j

omit [DecidableEq V] in
theorem told_goto {σ : State ι V}
    (h : ∀ j n, (σ.phase j).tells = some n → (j, n) ∈ σ.commits) {i : ι} {phase : Phase V}
    (hcontinues : (σ.phase i).Continues phase) (j : ι) (n : Nat)
    (hn : ((σ.goto i phase).phase j).tells = some n) : (j, n) ∈ σ.commits := by
  by_cases hj : j = i
  · subst hj
    rw [goto_self] at hn
    exact h j n (hcontinues.1 n hn)
  · rw [goto_of_ne _ hj] at hn
    exact h j n hn

omit [DecidableEq V] in
/-- A run that has committed says so from then on. -/
theorem told_commit {σ : State ι V}
    (h : ∀ j n, (σ.phase j).tells = some n → (j, n) ∈ σ.commits) {i : ι} {count : Nat} (j : ι)
    (n : Nat) (hn : ((σ.goto i (.committed count)).phase j).tells = some n) :
    (j, n) ∈ σ.commits ++ [(i, count)] := by
  by_cases hj : j = i
  · subst hj
    rw [goto_self] at hn
    obtain rfl : count = n := Option.some.inj hn
    exact List.mem_append_right _ List.mem_cons_self
  · rw [goto_of_ne _ hj] at hn
    exact List.mem_append_left _ (h j n hn)

/-- A step that commits nothing keeps the invariant if it accounts for the lock and the phase it
goes to. -/
theorem Inv.goto {runner : MigrationsRunner V} {init : List V} {σ : State ι V}
    (h : Inv runner init σ) {i : ι} {phase : Phase V} {db : Db ι Int64 V}
    (hcommitted : db.committed = σ.db.committed)
    (hholder : ∀ j, db.locks runner.lockKey = some j ↔
      (Function.update σ.phase i phase j).holds = true)
    (hok : PhaseOk runner σ.db.committed phase)
    (hcontinues : (σ.phase i).Continues phase) :
    Inv runner init ({ σ with db }.goto i phase) where
  holder := hholder
  phases := hcommitted ▸ phases_goto h.phases hok
  committed := hcommitted.trans h.committed
  counts := h.counts
  told := told_goto h.told hcontinues
  ended c hc := by
    by_cases hj : c.1 = i
    · subst hj
      rw [goto_self]
      exact hcontinues.2 (h.ended c hc)
    · rw [goto_of_ne _ hj]
      exact h.ended c hc
  once := h.once

/-- The lock stays where it is when a run that has it keeps it, or one that has not stays
without. -/
theorem holder_same {runner : MigrationsRunner V} {init : List V} {σ : State ι V}
    (h : Inv runner init σ) {i : ι} {phase : Phase V}
    (hsame : phase.holds = (σ.phase i).holds) (j : ι) :
    σ.db.locks runner.lockKey = some j ↔ (Function.update σ.phase i phase j).holds = true := by
  rw [h.holder]
  by_cases hj : j = i
  · subst hj
    simp [hsame]
  · simp [hj]

/-- Ending a run's transaction takes the lock from that run only. -/
theorem holder_release {runner : MigrationsRunner V} {init : List V} {σ : State ι V}
    (h : Inv runner init σ) {i : ι} {phase : Phase V} (hfree : phase.holds = false) (j : ι) :
    (σ.db.release i).locks runner.lockKey = some j ↔
      (Function.update σ.phase i phase j).holds = true := by
  rw [release_locks, h.holder]
  by_cases hj : j = i
  · subst hj
    simp [hfree]
  · simp [hj]

/-- A free lock goes to the run that acquires it. -/
theorem holder_acquire {runner : MigrationsRunner V} {init : List V} {σ : State ι V}
    (h : Inv runner init σ) {i : ι} {phase : Phase V} (hlock : σ.db.locks runner.lockKey = none)
    (hholds : phase.holds = true) (j : ι) :
    (σ.db.acquire runner.lockKey i).locks runner.lockKey = some j ↔
      (Function.update σ.phase i phase j).holds = true := by
  by_cases hj : j = i
  · subst hj
    simp [Db.acquire, hholds]
  · have hfree : (σ.phase j).holds = false := by
      rw [← Bool.not_eq_true, ← h.holder, hlock]
      simp
    simp [Db.acquire, hj, Ne.symm hj, hfree]

/-- **A commit is one update.**  The run holds the lock, so the schema is the one it read, and no
other run is between its read and its commit. -/
theorem inv_commit {runner : MigrationsRunner V} {init : List V} {σ : State ι V}
    (h : Inv runner init σ) {i : ι} {txn : Txn V} {count : Nat}
    (hphase : σ.phase i = .applying txn [] count) :
    Inv runner init ({ σ with
      db := σ.db.commit i txn, commits := σ.commits ++ [(i, count)] }.goto i
        (.committed count)) := by
  have hlock : σ.db.locks runner.lockKey = some i := by
    rw [h.holder, hphase]
    rfl
  have hok := h.phases i
  rw [hphase] at hok
  obtain ⟨hinserted, hcount⟩ : txn.inserted ++ [] = runner.pending σ.db.committed ∧
    count = (runner.pending σ.db.committed).length := hok
  rw [List.append_nil] at hinserted
  have hnotin : i ∉ σ.commits.map Prod.fst := by
    intro hmem
    obtain ⟨c, hc, rfl⟩ := List.mem_map.mp hmem
    have hended := h.ended c hc
    rw [hphase] at hended
    cases hended
  refine ⟨holder_release h rfl, fun j => ?_, ?_, ?_, told_commit h.told, ?_, ?_⟩
  · by_cases hj : j = i
    · subst hj
      rw [goto_self]
      trivial
    · have hjfree : (σ.phase j).holds = false := by
        rw [← Bool.not_eq_true, ← h.holder, hlock, Option.some.injEq]
        exact fun heq => hj heq.symm
      rw [goto_of_ne _ hj]
      exact (h.phases j).of_not_holds hjfree
  · simp only [goto_db, goto_commits, Db.commit, List.length_append, List.length_singleton,
      hinserted]
    rw [Function.iterate_succ_apply', ← h.committed]
    rfl
  · intro k c hk
    rw [goto_commits, List.getElem?_append] at hk
    split at hk
    · exact h.counts k c hk
    · rename_i hlen
      obtain ⟨hk0, rfl⟩ : k - σ.commits.length = 0 ∧ (i, count) = c := by
        simpa [List.getElem?_singleton] using hk
      have : k = σ.commits.length := by omega
      rw [this, ← h.committed]
      exact hcount
  · intro c hc
    by_cases hj : c.1 = i
    · rw [hj, goto_self]
      rfl
    · rw [goto_of_ne _ hj]
      rcases List.mem_append.mp hc with hc | hc
      · exact h.ended c hc
      · obtain rfl := List.mem_singleton.mp hc
        exact absurd rfl hj
  · simp only [goto_commits, List.map_append, List.map_cons, List.map_nil]
    rw [← List.concat_eq_append]
    exact List.Nodup.concat hnotin h.once

/-- **The next statement of any run keeps the invariant.** -/
theorem inv_next {runner : MigrationsRunner V} (isolation : ι → Isolation) {init : List V}
    {σ : State ι V} (h : Inv runner init σ) (i : ι) :
    Inv runner init (runner.next isolation σ i) := by
  have hok := h.phases i
  have hgoes : ∀ {phase : Phase V}, (σ.phase i).ended = false → phase.tells = none →
      (σ.phase i).Continues phase := Phase.continues_of_not_ended
  unfold MigrationsRunner.next
  cases hp : σ.phase i with
  | idle => exact h.goto rfl (holder_same h (by rw [hp]; rfl)) rfl (hgoes (by rw [hp]; rfl) rfl)
  | begun txn =>
    rw [hp] at hok
    exact h.goto rfl (holder_same h (by rw [hp]; rfl)) ⟨rfl, hok⟩ (hgoes (by rw [hp]; rfl) rfl)
  | pinned txn =>
    rw [hp] at hok
    exact h.goto rfl (holder_same h (by rw [hp]; rfl)) hok (hgoes (by rw [hp]; rfl) rfl)
  | waiting txn =>
    rw [hp] at hok
    cases hlock : σ.db.locks runner.lockKey with
    | some j => simpa [hlock] using h
    | none =>
      exact h.goto rfl (holder_acquire h hlock rfl) hok (hgoes (by rw [hp]; rfl) rfl)
  | locked txn =>
    rw [hp] at hok
    have hview := view_readCommitted hok.1 hok.2 σ.db.committed
    simp only [hview]
    refine h.goto rfl (holder_same h (by rw [hp]; rfl)) ⟨?_, rfl⟩ (hgoes (by rw [hp]; rfl) rfl)
    rw [hok.2, List.nil_append]
  | applying txn todo count =>
    rw [hp] at hok
    cases todo with
    | nil => exact inv_commit h hp
    | cons m todo =>
      refine h.goto rfl (holder_same h (by rw [hp]; rfl)) ⟨?_, hok.2⟩
        (hgoes (by rw [hp]; rfl) rfl)
      rw [Txn.insert, List.append_assoc]
      exact hok.1
  | committed count =>
    refine h.goto rfl (holder_same h (by rw [hp]; rfl)) trivial ?_
    rw [hp]
    exact ⟨fun _ hn => hn, fun _ => rfl⟩
  | returned result => exact h
  | dead => exact h

/-- **A run that fails or dies keeps the invariant**, wherever it is.  Past its commit the commit
stays. -/
theorem inv_abort {runner : MigrationsRunner V} {init : List V} {σ : State ι V}
    (h : Inv runner init σ) (i : ι) {phase : Phase V}
    (hphase : phase = .returned (.error ()) ∨ phase = .dead) :
    Inv runner init (σ.abort i phase) := by
  have hfree : phase.holds = false := by rcases hphase with rfl | rfl <;> rfl
  have hok : PhaseOk runner σ.db.committed phase := by rcases hphase with rfl | rfl <;> trivial
  have hcontinues : (σ.phase i).Continues phase := by
    rcases hphase with rfl | rfl <;> exact ⟨fun n hn => (by cases hn), fun _ => rfl⟩
  unfold State.abort
  split
  · exact h
  · exact h
  · rename_i count hp
    exact h.goto rfl (holder_same h (by rw [hp, hfree]; rfl)) hok hcontinues
  · exact h.goto rfl (holder_release h hfree) hok hcontinues

/-- **Any step of any run keeps the invariant.** -/
theorem inv_step (runner : MigrationsRunner V) (isolation : ι → Isolation) {init : List V}
    {σ : State ι V} (h : Inv runner init σ) : ∀ a : ι × Act,
      Inv runner init (runner.step isolation σ a)
  | (i, .next) => inv_next isolation h i
  | (i, .fail) => inv_abort h i (.inl rfl)
  | (i, .die) => inv_abort h i (.inr rfl)

theorem inv_run (runner : MigrationsRunner V) (isolation : ι → Isolation) (init : List V)
    (schedule : List (ι × Act)) :
    Inv runner init (run (runner.step isolation) (State.init init) schedule) :=
  run_invariant (I := Inv runner init) (fun _ a hI _ => inv_step runner isolation hI a) schedule _
    (inv_init runner init) (along_of_forall (p := fun _ => True) fun _ _ => trivial)

/-! ## 4. A run that is left alone -/

/-- The inserts, one statement after the other. -/
theorem run_applying (runner : MigrationsRunner V) (isolation : ι → Isolation) {i : ι}
    {count : Nat} {todo : List V} {σ : State ι V} {txn : Txn V}
    (hphase : σ.phase i = .applying txn todo count) :
    run (runner.step isolation) σ (List.replicate todo.length (i, .next)) =
      σ.goto i (.applying { txn with inserted := txn.inserted ++ todo } [] count) := by
  induction todo generalizing σ txn with
  | nil => simp [State.goto, ← hphase]
  | cons m todo ih =>
    have hstep : runner.step isolation σ (i, .next) =
        σ.goto i (.applying (txn.insert m) todo count) := by
      simp [MigrationsRunner.step, MigrationsRunner.next, hphase]
    rw [List.length_cons, List.replicate_succ, run_cons, hstep,
      @ih _ (txn.insert m) (by simp [State.goto])]
    simp [State.goto, Txn.insert]

/-- From its `BEGIN` to the applied versions, with the lock free when the run asks for it. -/
theorem run_to_read (runner : MigrationsRunner V) (isolation : ι → Isolation) {σ : State ι V}
    {i : ι} (hidle : σ.phase i = .idle) (hfree : σ.db.locks runner.lockKey = none) :
    run (runner.step isolation) σ (List.replicate 5 (i, .next)) =
      { σ with db := σ.db.acquire runner.lockKey i }.goto i
        (.applying { isolation := .readCommitted, snapshot := some σ.db.committed }
          (runner.pending σ.db.committed) (runner.pending σ.db.committed).length) := by
  have hbegin : runner.step isolation σ (i, .next) =
      σ.goto i (.begun { isolation := isolation i }) := by
    simp [MigrationsRunner.step, MigrationsRunner.next, hidle]
  have hview : (Txn.view { isolation := .readCommitted, snapshot := some σ.db.committed }
      σ.db.committed) = σ.db.committed := view_readCommitted rfl rfl _
  simp only [List.replicate, run_cons, run_nil, hbegin]
  simp only [MigrationsRunner.step, MigrationsRunner.next, goto_self, goto_goto, goto_db, hfree]
  simp [Txn.setIsolation, Txn.query, Db.acquire, hview, State.goto]

/-- **A run that is left alone gets to its end.**  From any state in which it has not begun and
the lock is free, its statements apply what is pending, it returns how many migrations that is,
and the lock is free again. -/
theorem undisturbed_returns (runner : MigrationsRunner V) (isolation : ι → Isolation)
    {σ : State ι V} {i : ι} (hidle : σ.phase i = .idle)
    (hfree : σ.db.locks runner.lockKey = none) :
    let count := (runner.pending σ.db.committed).length
    let σ' := run (runner.step isolation) σ (List.replicate (5 + count + 2) (i, .next))
    σ'.db.committed = runner.migrate σ.db.committed ∧
      σ'.phase i = .returned (.ok count) ∧
      σ'.db.locks runner.lockKey = none := by
  intro count σ'
  let txn : Txn V :=
    { isolation := .readCommitted, snapshot := some σ.db.committed,
      inserted := runner.pending σ.db.committed }
  -- all it has done before its commit is to take the lock
  have happlied : run (runner.step isolation) σ (List.replicate (5 + count) (i, .next)) =
      { σ with db := σ.db.acquire runner.lockKey i }.goto i (.applying txn [] count) := by
    rw [List.replicate_add, run_append, run_to_read runner isolation hidle hfree,
      run_applying runner isolation (goto_self _ _ _), goto_goto]
    rfl
  have hend : σ' = { σ with
      db := (σ.db.acquire runner.lockKey i).commit i txn,
      commits := σ.commits ++ [(i, count)] }.goto i (.returned (.ok count)) := by
    have hsplit : σ' = run (runner.step isolation)
        (run (runner.step isolation) σ (List.replicate (5 + count) (i, .next)))
        (List.replicate 2 (i, .next)) := by
      rw [← run_append, ← List.replicate_add]
    rw [hsplit, happlied]
    simp [List.replicate, MigrationsRunner.step, MigrationsRunner.next, State.goto]
  rw [hend, goto_db, goto_self]
  exact ⟨rfl, rfl, by simp [Db.commit, Db.release, Db.acquire]⟩

/-! ## 5. All or nothing, exactly once -/

/-- A run that fails or dies leaves the schema and the other runs; the lock is free if it was
with that run, and stays where it was if not. -/
theorem abort_spec {runner : MigrationsRunner V} {init : List V} {σ : State ι V}
    (h : Inv runner init σ) (i : ι) (phase : Phase V) :
    (σ.abort i phase).db.committed = σ.db.committed ∧
      (σ.abort i phase).db.locks runner.lockKey =
        (if σ.db.locks runner.lockKey = some i then none else σ.db.locks runner.lockKey) ∧
      ∀ j, j ≠ i → (σ.abort i phase).phase j = σ.phase j := by
  have hended : (σ.phase i).holds = false → σ.db.locks runner.lockKey ≠ some i := by
    intro hfree hlock
    rw [h.holder, hfree] at hlock
    cases hlock
  unfold State.abort
  split
  · rename_i result hp
    exact ⟨rfl, (if_neg (hended (by rw [hp]; rfl))).symm, fun _ _ => rfl⟩
  · rename_i hp
    exact ⟨rfl, (if_neg (hended (by rw [hp]; rfl))).symm, fun _ _ => rfl⟩
  · rename_i count hp
    exact ⟨rfl, (if_neg (hended (by rw [hp]; rfl))).symm, fun j hj => goto_of_ne _ hj _⟩
  · exact ⟨rfl, rfl, fun j hj => goto_of_ne _ hj _⟩

omit [DecidableEq ι] in
/-- Where a run is that has committed: the answer is on its way, or has arrived, or was lost. -/
theorem Inv.phase_of_commit {runner : MigrationsRunner V} {init : List V} {σ : State ι V}
    (h : Inv runner init σ) {i : ι} {n : Nat} (hc : (i, n) ∈ σ.commits) :
    σ.phase i = .committed n ∨ σ.phase i = .returned (.ok n) ∨
      σ.phase i = .returned (.error ()) ∨ σ.phase i = .dead := by
  have hsame : ∀ m, (σ.phase i).tells = some m → m = n := fun m hm =>
    (Prod.mk.inj (List.inj_on_of_nodup_map h.once (h.told i m hm) hc rfl)).2
  have hended := h.ended _ hc
  cases hp : σ.phase i with
  | committed m => exact .inl (by rw [hsame m (by rw [hp]; rfl)])
  | returned result =>
    cases result with
    | ok m => exact .inr (.inl (by rw [hsame m (by rw [hp]; rfl)]))
    | error => exact .inr (.inr (.inl rfl))
  | dead => exact .inr (.inr (.inr rfl))
  | idle | begun txn | pinned txn | waiting txn | locked txn | applying txn todo count =>
    rw [hp] at hended
    cases hended

/-- Two runs under a stricter default: the second waits, and then finds nothing pending. -/
example :
    let runner : MigrationsRunner Nat := { migrations := [1, 2], nodup := by decide, lockKey := 0 }
    let schedule : List (Bool × Act) :=
      List.replicate 4 (true, .next) ++ List.replicate 4 (false, .next) ++
        List.replicate 4 (true, .next) ++ List.replicate 3 (false, .next)
    let σ := run (runner.step fun _ => .serializable) (State.init [1]) schedule
    σ.db.committed = [1, 2] ∧ σ.commits = [(true, 1), (false, 0)] := by
  decide

end Muxa.Diesel
