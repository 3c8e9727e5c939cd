/-
# The sweeper

With `sweep_expired` the plugin spawns a task that deletes the expired rows of the session table
every so often, until the shutdown token is cancelled.  A deletion may fail, which is logged, and
the next one comes an interval later.  The app reads the clock for a deletion on the way to the
database.

`load` never shows an expired row (`store_is_expiring_map`); what the sweeper is for is that such a
row does not stay.  How long it may stay is bounded by the interval, by how long deletions take and
by how many of them fail in a row, whatever the requests do meanwhile (`expired_rows_go`).

Time is in nanoseconds, on one clock.
-/
import Muxa.Auth.StoreMap
import Muxa.Core.Shutdown
import Muxa.Lib.Periodic

namespace Muxa.Auth

open Lib.Run Lib.Periodic Lib.Text

variable {Id D : Type}

/-! ## 1. The task -/

/-- A call of `delete_expired`: how long it takes, and when on its way it reads the clock.  `none`
when it fails. -/
structure Deletion where
  took : Nat
  read : Option Nat
  read_le : ∀ r ∈ read, r ≤ took

/-- How often expired sessions are swept, for `cleanup_interval_secs`. -/
def sweepInterval (cleanupIntervalSecs : Nat) : Nat := max cleanupIntervalSecs 60 * 1000000000

/-- The task that `sweep_expired` makes, spawned at a time: its deletions, with when they began,
and when it ended.  The token is cancelled at `shutdown`. -/
def sweeper (interval : Nat) (deletions : Nat → Deletion) (spawned shutdown : Nat) :
    List (Nat × Deletion) × Nat :=
  loop interval shutdown Deletion.took (shutdown - spawned) deletions spawned

/-- `ctx.tasks.spawn("muxa-auth.sweep", ..)`: the task that deletes expired sessions until the
shutdown token is cancelled. -/
def sweepTask (cleanupIntervalSecs : Nat) (deletions : Nat → Deletion) (spawned : Nat) :
    Str × Core.SpawnTask :=
  ("muxa-auth.sweep".toList, fun shutdown =>
    .finishes (sweeper (sweepInterval cleanupIntervalSecs) deletions spawned shutdown).2 (.ok ()))

/-- The times at which rows were deleted that had expired by then. -/
def sweeps (cleanupIntervalSecs : Nat) (deletions : Nat → Deletion) (spawned shutdown : Nat) :
    List Nat :=
  (sweeper (sweepInterval cleanupIntervalSecs) deletions spawned shutdown).1.filterMap
    fun deletion => deletion.2.read.map fun r => deletion.1 + r

/-- When deletion `i` begins, if the token is not cancelled before. -/
def beginsAt (cleanupIntervalSecs : Nat) (deletions : Nat → Deletion) (spawned i : Nat) : Nat :=
  startAt (sweepInterval cleanupIntervalSecs) Deletion.took deletions spawned i

theorem sweepInterval_pos (cleanupIntervalSecs : Nat) : 0 < sweepInterval cleanupIntervalSecs := by
  unfold sweepInterval
  omega

/-- **A deletion that begins by the shutdown** and does not fail sweeps. -/
theorem mem_sweeps {cleanupIntervalSecs spawned shutdown i r : Nat} {deletions : Nat → Deletion}
    (hread : (deletions i).read = some r)
    (hbegins : beginsAt cleanupIntervalSecs deletions spawned i ≤ shutdown) :
    beginsAt cleanupIntervalSecs deletions spawned i + r ∈
      sweeps cleanupIntervalSecs deletions spawned shutdown := by
  have hround : (beginsAt cleanupIntervalSecs deletions spawned i, deletions i) ∈
      (sweeper (sweepInterval cleanupIntervalSecs) deletions spawned shutdown).1 :=
    (mem_loop (sweepInterval_pos _) (by omega) _).mpr ⟨hbegins, i, rfl⟩
  refine List.mem_filterMap.mpr ⟨_, hround, ?_⟩
  rw [hread]
  rfl

/-! ## 2. Where a row comes from -/

section Rows

variable [DecidableEq Id]

def StoreCall.Puts (table : Table Id D) (call : StoreCall Id D) (id : Id) (row : Row D) : Prop :=
  ∃ record, call.write table = some (.put record) ∧ record.id = id ∧
    row = ⟨record.data, record.expiryDate⟩

/-- **A row after a call** was written by it, or was there and is not one it sweeps. -/
theorem call_row {table : Table Id D} {now : Nat} {call : StoreCall Id D} {id : Id} {row : Row D}
    (h : table.call (now, call) id = some row) :
    call.Puts table id row ∨
      table id = some row ∧ (call = .deleteExpired → now ≤ row.expiryDate) := by
  have hupdate : ∀ (id' : Id) (row' : Option (Row D)),
      Function.update table id' row' id = some row →
        id' = id ∧ row' = some row ∨ table id = some row := by
    intro id' row' hrow
    by_cases hid : id = id'
    · subst hid
      rw [Function.update_self] at hrow
      exact .inl ⟨rfl, hrow⟩
    · rw [Function.update_of_ne hid] at hrow
      exact .inr hrow
  cases call with
  | create record draws =>
    cases hcreate : create table draws record with
    | none => exact .inr ⟨by simpa [Table.call, hcreate] using h, fun heq => by cases heq⟩
    | some r =>
      obtain ⟨-, htable⟩ := create_inserts hcreate
      rw [Table.call, hcreate, Option.map_some, Option.getD_some, htable] at h
      rcases hupdate _ _ h with ⟨hid, hrow⟩ | hrow
      · exact .inl ⟨r.2, by simp [StoreCall.write, hcreate], hid, (Option.some.inj hrow).symm⟩
      · exact .inr ⟨hrow, fun heq => by cases heq⟩
  | save record =>
    rcases hupdate _ _ h with ⟨hid, hrow⟩ | hrow
    · exact .inl ⟨record, rfl, hid, (Option.some.inj hrow).symm⟩
    · exact .inr ⟨hrow, fun heq => by cases heq⟩
  | load id' => exact .inr ⟨h, fun heq => by cases heq⟩
  | delete id' =>
    rcases hupdate _ _ h with ⟨-, hrow⟩ | hrow
    · cases hrow
    · exact .inr ⟨hrow, fun heq => by cases heq⟩
  | deleteExpired =>
    obtain ⟨hrow, hlive⟩ := Option.filter_eq_some_iff.mp h
    exact .inr ⟨hrow, fun _ => by simpa using hlive⟩

/-- **A row of the table** was written by one of the calls, and no sweep came after both that call
and its expiry. -/
theorem row_since {calls : List (Nat × StoreCall Id D)} (horder : InOrder calls) {id : Id}
    {row : Row D} (h : tableAfter calls id = some row) :
    ∃ pre call post, calls = pre ++ call :: post ∧ call.2.Puts (tableAfter pre) id row ∧
      ∀ s, (s, .deleteExpired) ∈ calls → s ≤ max call.1 row.expiryDate := by
  induction calls using List.reverseRecOn with
  | nil => cases h
  | append_singleton calls call ih =>
    obtain ⟨horder', -, hlast⟩ := List.pairwise_append.mp horder
    obtain ⟨now, call⟩ := call
    rw [tableAfter, run_concat] at h
    rcases call_row h with hputs | ⟨hrow, hswept⟩
    · refine ⟨calls, (now, call), [], rfl, hputs, fun s hs => Nat.le_trans ?_ (Nat.le_max_left _ _)⟩
      rcases List.mem_append.mp hs with hs | hs
      · exact hlast _ hs _ List.mem_cons_self
      · cases List.mem_singleton.mp hs
        exact Nat.le_refl _
    · obtain ⟨pre, origin, post, rfl, hputs, hsweeps⟩ := ih horder' hrow
      refine ⟨pre, origin, post ++ [(now, call)], by simp, hputs, fun s hs => ?_⟩
      rcases List.mem_append.mp hs with hs | hs
      · exact hsweeps s hs
      · cases List.mem_singleton.mp hs
        exact Nat.le_trans (hswept rfl) (Nat.le_max_right _ _)

end Rows

/-! ## 3. Expired rows go -/

/-- How long an expired row may stay, when a deletion takes no longer than `longest` and no more
than `failures` fail in a row. -/
def stays (cleanupIntervalSecs longest failures : Nat) : Nat :=
  (failures + 1) * (sweepInterval cleanupIntervalSecs + longest) + longest

section InTime

variable {cleanupIntervalSecs longest failures spawned shutdown : Nat}
  {deletions : Nat → Deletion}

/-- **Some deletion sweeps soon** after any moment, if the shutdown is not sooner. -/
theorem sweep_within (hlongest : ∀ i, (deletions i).took ≤ longest)
    (hfailures : ∀ i, ∃ j ≤ failures, (deletions (i + j)).read.isSome) {m : Nat}
    (hm : spawned ≤ m) (hopen : m + stays cleanupIntervalSecs longest failures ≤ shutdown) :
    ∃ s ∈ sweeps cleanupIntervalSecs deletions spawned shutdown,
      m < s ∧ s ≤ m + stays cleanupIntervalSecs longest failures := by
  obtain ⟨i, hafter, hsoon⟩ :=
    round_within (sweepInterval_pos cleanupIntervalSecs) hlongest hm
  obtain ⟨j, hj, hsome⟩ := hfailures i
  obtain ⟨r, hread⟩ := Option.isSome_iff_exists.mp hsome
  have hr : r ≤ longest :=
    Nat.le_trans ((deletions (i + j)).read_le r hread) (hlongest (i + j))
  have hmono : beginsAt cleanupIntervalSecs deletions spawned i ≤
      beginsAt cleanupIntervalSecs deletions spawned (i + j) := startAt_le_add i j
  have hlate : beginsAt cleanupIntervalSecs deletions spawned (i + j) ≤
      beginsAt cleanupIntervalSecs deletions spawned i +
        j * (sweepInterval cleanupIntervalSecs + longest) := startAt_add_le hlongest i j
  have hfailed : j * (sweepInterval cleanupIntervalSecs + longest) ≤
      failures * (sweepInterval cleanupIntervalSecs + longest) := Nat.mul_le_mul_right _ hj
  have hstays : stays cleanupIntervalSecs longest failures =
      failures * (sweepInterval cleanupIntervalSecs + longest) +
        (sweepInterval cleanupIntervalSecs + longest) + longest := by rw [stays, Nat.succ_mul]
  change m < beginsAt cleanupIntervalSecs deletions spawned i at hafter
  change beginsAt cleanupIntervalSecs deletions spawned i ≤ _ at hsoon
  exact ⟨_, mem_sweeps hread (by omega), by omega, by omega⟩

/-- The task ends with the shutdown, or with the deletion it was in. -/
theorem sweeper_ends (hlongest : ∀ i, (deletions i).took ≤ longest) :
    ∃ t, (sweepTask cleanupIntervalSecs deletions spawned).2 shutdown = .finishes t (.ok ()) ∧
      t ≤ max spawned (shutdown + longest) :=
  ⟨_, rfl, loop_end_le hlongest⟩

/-- **The task is joined** when its last deletion fits in the grace period: it is neither abandoned
nor does it fail, whatever the other tasks do. -/
theorem sweepTask_joined (hlongest : ∀ i, (deletions i).took ≤ longest)
    (hgrace : longest ≤ Core.taskShutdownGrace) {registry : Core.TaskRegistry} {ended : Nat}
    (hnamed : ∀ task ∈ registry.tasks,
      task.1 = (sweepTask cleanupIntervalSecs deletions spawned).1 →
        task = sweepTask cleanupIntervalSecs deletions spawned)
    (hspawned : spawned ≤ ended) (hshutdown : shutdown ≤ ended) :
    let outcomes := (Core.joinTasks (registry.spawnAll shutdown) ended).2
    (sweepTask cleanupIntervalSecs deletions spawned).1 ∉ outcomes.failed ∧
      (sweepTask cleanupIntervalSecs deletions spawned).1 ∉ outcomes.abandoned := by
  intro outcomes
  have houtcomes : outcomes = _ :=
    congrArg Prod.snd (Core.joinTasks_from (Nat.le_add_right _ _) _ _)
  -- the only task of that name is this one, which has returned by the deadline
  have hnot : ∀ p : Core.Fate → Bool,
      p ((sweepTask cleanupIntervalSecs deletions spawned).2 shutdown) = false →
        (sweepTask cleanupIntervalSecs deletions spawned).1 ∉
          ((registry.spawnAll shutdown).filter fun task => p task.2).map Prod.fst := by
    intro p hp hmem
    obtain ⟨fate, hfate, hname⟩ := List.mem_map.mp hmem
    obtain ⟨hspawn, hpfate⟩ := List.mem_filter.mp hfate
    obtain ⟨task, htask, rfl⟩ := List.mem_map.mp hspawn
    rw [hnamed task htask hname, hp] at hpfate
    cases hpfate
  obtain ⟨t, hends, ht⟩ : ∃ t,
      (sweepTask cleanupIntervalSecs deletions spawned).2 shutdown = .finishes t (.ok ()) ∧
        t ≤ max spawned (shutdown + longest) := sweeper_ends hlongest
  have hreturned : t ≤ ended + Core.taskShutdownGrace := by omega
  rw [houtcomes]
  constructor
  · refine hnot (Core.Fate.failedBy _) ?_
    rw [hends]
    rfl
  · refine hnot (Core.Fate.runningAt _) ?_
    rw [hends]
    exact decide_eq_false (Nat.not_lt.mpr hreturned)

/-- **The sweeper does its work and ends.**  Say that no deletion takes longer than `longest`, and
that no more than `failures` of them fail in a row.  Whatever calls the requests make, a row that
is in the table while the app runs is no further than `stays` past its expiry, past the call that
wrote it, or past the spawning of the task.  At the shutdown the task is neither abandoned nor does
it fail, whatever the other tasks do, unless a deletion may take longer than the grace period. -/
theorem expired_rows_go [DecidableEq Id] (hlongest : ∀ i, (deletions i).took ≤ longest)
    (hfailures : ∀ i, ∃ j ≤ failures, (deletions (i + j)).read.isSome) :
    (∀ (calls : List (Nat × StoreCall Id D)) (now : Nat) (id : Id) (row : Row D),
      InOrder calls → now ≤ shutdown →
      (∀ s ∈ sweeps cleanupIntervalSecs deletions spawned shutdown, s ≤ now →
        (s, .deleteExpired) ∈ calls) →
      tableAfter calls id = some row →
        ∃ pre call post, calls = pre ++ call :: post ∧ call.2.Puts (tableAfter pre) id row ∧
          now ≤ max spawned (max call.1 row.expiryDate) +
            stays cleanupIntervalSecs longest failures) ∧
    (∀ (registry : Core.TaskRegistry) (ended : Nat),
      (∀ task ∈ registry.tasks, task.1 = (sweepTask cleanupIntervalSecs deletions spawned).1 →
        task = sweepTask cleanupIntervalSecs deletions spawned) →
      spawned ≤ ended → shutdown ≤ ended → longest ≤ Core.taskShutdownGrace →
        let outcomes := (Core.joinTasks (registry.spawnAll shutdown) ended).2
        (sweepTask cleanupIntervalSecs deletions spawned).1 ∉ outcomes.failed ∧
          (sweepTask cleanupIntervalSecs deletions spawned).1 ∉ outcomes.abandoned) := by
  constructor
  · intro calls now id row horder hopen hsweeps hrow
    obtain ⟨pre, call, post, hcalls, hputs, hsince⟩ := row_since horder hrow
    refine ⟨pre, call, post, hcalls, hputs, ?_⟩
    by_contra hlong
    obtain ⟨s, hs, hafter, hsoon⟩ : ∃ s ∈ sweeps cleanupIntervalSecs deletions spawned shutdown,
        max spawned (max call.1 row.expiryDate) < s ∧ s ≤ _ :=
      sweep_within hlongest hfailures (Nat.le_max_left _ _) (by omega)
    have := hsince s (hsweeps s hs (by omega))
    omega
  · intro registry ended hnamed hspawned hshutdown hgrace
    exact sweepTask_joined hlongest hgrace hnamed hspawned hshutdown

end InTime

def everyOther (i : Nat) : Deletion :=
  if i % 2 = 0 then ⟨5, none, nofun⟩ else ⟨5, some 2, by simp⟩

/-- A session is created and saved again; the deletion at two minutes finds that it lives on. -/
def seen : List (Nat × StoreCall Nat String) :=
  [(1, .create ⟨1, "user 7", 100000000000⟩ []), (70000000000, .save ⟨1, "user 7", 130000000000⟩),
   (120000000007, .deleteExpired)]

theorem sweeps_everyOther :
    sweeps 30 everyOther 0 300000000000 = [120000000007, 240000000017] := by decide +kernel

theorem expired_rows_go_every_other :
    (∃ pre call post, seen = pre ++ call :: post ∧
      call.2.Puts (tableAfter pre) 1 ⟨"user 7", 130000000000⟩ ∧
      125000000000 ≤ max 0 (max call.1 130000000000) + stays 30 5 1) ∧
    let outcomes := (Core.joinTasks
      (Core.TaskRegistry.spawnAll ⟨[sweepTask 30 everyOther 0]⟩ 300000000000) 300000000001).2
    (sweepTask 30 everyOther 0).1 ∉ outcomes.failed ∧
      (sweepTask 30 everyOther 0).1 ∉ outcomes.abandoned := by
  have hlongest : ∀ i, (everyOther i).took ≤ 5 := by
    intro i
    unfold everyOther
    split <;> exact Nat.le_refl 5
  have hfailures : ∀ i, ∃ j ≤ 1, (everyOther (i + j)).read.isSome := by
    intro i
    refine ⟨if i % 2 = 0 then 1 else 0, by split <;> decide, ?_⟩
    have hodd : (i + if i % 2 = 0 then 1 else 0) % 2 ≠ 0 := by
      split <;> omega
    simp only [everyOther, if_neg hodd, Option.isSome_some]
  obtain ⟨hrows, hjoined⟩ :=
    @expired_rows_go Nat String 30 5 1 0 300000000000 everyOther _ hlongest hfailures
  constructor
  · refine hrows seen 125000000000 1 _ (by unfold InOrder seen; decide) (by decide) ?_ (by decide)
    rw [sweeps_everyOther]
    simp [seen]
  · exact hjoined _ _ (by simp) (by decide) (by decide) (by decide)

end Muxa.Auth
