/-
# Shutdown: joining the background tasks

When serving has ended the shutdown token is cancelled and the tasks are awaited one after
another, each until one deadline that all share.  The tasks run concurrently, so by the time a
task is looked at it may have finished long before; and a task that hangs uses up the time of
those behind it.

Neither matters.  The clock of the loop never passes the deadline, and an await that begins by
then gives the task's result if and only if the task finishes by the deadline, because the handle
is polled before the timer (`timeoutAt_eq`).  So the outcome of each task is its own, and the loop
ends when the last task does, or at the deadline (`join_tasks_accounts`).

Time is in nanoseconds, on an ideal clock: nothing between two awaits takes time.
-/
import Mathlib.Data.List.Perm.Basic
import Muxa.Lib.Text

namespace Muxa.Core

open Lib.Text

/-! ## 1. Tasks -/

/-- `tokio::task::JoinError`. -/
inductive JoinError where
  | panicked
  | cancelled
deriving DecidableEq

/-- What becomes of a task; one that panics finishes with an error. -/
inductive Fate where
  | finishes (time : Nat) (result : Except JoinError Unit)
  | hangs

/-- A task that is scheduled: what becomes of it once it runs, which depends on when the shutdown
token is cancelled. -/
abbrev SpawnTask := Nat → Fate

structure TaskRegistry where
  tasks : List (Str × SpawnTask) := []

def TaskRegistry.spawn (registry : TaskRegistry) (name : Str) (task : SpawnTask) : TaskRegistry :=
  { tasks := registry.tasks ++ [(name, task)] }

def TaskRegistry.spawnAll (registry : TaskRegistry) (shutdown : Nat) : List (Str × Fate) :=
  registry.tasks.map fun task => (task.1, task.2 shutdown)

def Fate.poll (fate : Fate) (now : Nat) : Option (Except JoinError Unit) :=
  match fate with
  | .finishes time result => if time ≤ now then some result else none
  | .hangs => none

theorem poll_of_le {time now : Nat} {result : Except JoinError Unit} (h : time ≤ now) :
    (Fate.finishes time result).poll now = some result := if_pos h

theorem poll_of_lt {time now : Nat} {result : Except JoinError Unit} (h : now < time) :
    (Fate.finishes time result).poll now = none := if_neg (Nat.not_le.mpr h)

/-- When an await that is pending is woken: by the task or by the timer, whichever is first. -/
def Fate.wakes (fate : Fate) (deadline : Nat) : Nat :=
  match fate with
  | .finishes time _ => min time deadline
  | .hangs => deadline

/-! ## 2. `join_tasks` -/

/-- How long `run` waits for background tasks: ten seconds. -/
def taskShutdownGrace : Nat := 10 * 1000000000

/-- What became of the background tasks at shutdown, by name: those that failed, and those that
were still running at the deadline. -/
structure TaskOutcomes where
  failed : List Str := []
  abandoned : List Str := []
deriving DecidableEq

/-- `timeout_at`, awaited from `now`: the result, `none` for `Elapsed`, and the time at which it
is there.  The handle is polled before the timer, at once and whenever it is woken. -/
def timeoutAt (deadline : Nat) (fate : Fate) (now : Nat) :
    Nat × Option (Except JoinError Unit) :=
  match fate.poll now with
  | some result => (now, some result)
  | none =>
    if deadline ≤ now then (now, none)
    else (fate.wakes deadline, fate.poll (fate.wakes deadline))

/-- One turn of the loop: the clock, and the outcomes so far. -/
def joinNext (deadline : Nat) (joined : Nat × TaskOutcomes) (task : Str × Fate) :
    Nat × TaskOutcomes :=
  let (now, result) := timeoutAt deadline task.2 joined.1
  match result with
  | some (.ok ()) => (now, joined.2)
  | some (.error _) => (now, { joined.2 with failed := joined.2.failed ++ [task.1] })
  | none => (now, { joined.2 with abandoned := joined.2.abandoned ++ [task.1] })

/-- `join_tasks`, called at `start`: when it returns, and what became of the tasks.  One deadline
holds for all of them, so a task that hangs leaves no more time to those after it. -/
def joinTasks (tasks : List (Str × Fate)) (start : Nat) : Nat × TaskOutcomes :=
  tasks.foldl (joinNext (start + taskShutdownGrace)) (start, {})

/-! ## 3. One await -/

/-- The task panicked, or was cancelled, no later than this. -/
def Fate.failedBy (deadline : Nat) : Fate → Bool
  | .finishes time (.error _) => time ≤ deadline
  | _ => false

def Fate.returnedBy (deadline : Nat) : Fate → Bool
  | .finishes time (.ok _) => time ≤ deadline
  | _ => false

def Fate.runningAt (deadline : Nat) : Fate → Bool
  | .finishes time _ => deadline < time
  | .hangs => true

/-- **An await that begins by the deadline** ends when the task does or at the deadline, and
gives the result of a task that finishes by then. -/
theorem timeoutAt_eq {deadline now : Nat} (h : now ≤ deadline) (fate : Fate) :
    timeoutAt deadline fate now =
      match fate with
      | .finishes time result =>
        if time ≤ deadline then (max now time, some result) else (deadline, none)
      | .hangs => (deadline, none) := by
  cases fate with
  | hangs =>
    have hpoll : ∀ now, Fate.hangs.poll now = none := fun _ => rfl
    simp only [timeoutAt, hpoll]
    split
    · rw [Nat.le_antisymm h ‹_›]
    · rfl
  | finishes time result =>
    by_cases hfinished : time ≤ now
    · simp only [timeoutAt, poll_of_le hfinished, if_pos (Nat.le_trans hfinished h),
        Nat.max_eq_left hfinished]
    have hrunning : now < time := Nat.not_le.mp hfinished
    by_cases hended : deadline ≤ now
    · obtain rfl := Nat.le_antisymm h hended
      simp only [timeoutAt, poll_of_lt hrunning, if_pos (Nat.le_refl now), if_neg hfinished]
    by_cases htime : time ≤ deadline
    · have hwakes : (Fate.finishes time result).wakes deadline = time := Nat.min_eq_left htime
      simp only [timeoutAt, poll_of_lt hrunning, if_neg hended, hwakes,
        poll_of_le (Nat.le_refl time), if_pos htime, Nat.max_eq_right (Nat.le_of_lt hrunning)]
    · have hwakes : (Fate.finishes time result).wakes deadline = deadline :=
        Nat.min_eq_right (by omega)
      simp only [timeoutAt, poll_of_lt hrunning, if_neg hended, hwakes,
        poll_of_lt (Nat.not_le.mp htime), if_neg htime]

/-- **One turn of the loop** that begins by the deadline: the task is listed by its own fate. -/
theorem joinNext_eq {deadline now : Nat} (h : now ≤ deadline) (outcomes : TaskOutcomes)
    (name : Str) (fate : Fate) :
    joinNext deadline (now, outcomes) (name, fate) =
      (match fate with
        | .finishes time _ => min deadline (max now time)
        | .hangs => deadline,
      { failed := outcomes.failed ++ if fate.failedBy deadline then [name] else []
        abandoned := outcomes.abandoned ++ if fate.runningAt deadline then [name] else [] }) := by
  simp only [joinNext, timeoutAt_eq h]
  cases fate with
  | hangs => simp [Fate.failedBy, Fate.runningAt]
  | finishes time result =>
    by_cases htime : time ≤ deadline
    · have hclock : min deadline (max now time) = max now time := by omega
      cases result <;>
        simp [Fate.failedBy, Fate.runningAt, htime, hclock, Nat.not_lt.mpr htime]
    · have hclock : min deadline (max now time) = deadline := by omega
      cases result <;>
        simp [Fate.failedBy, Fate.runningAt, htime, hclock, Nat.not_le.mp htime]

/-! ## 4. The whole loop -/

/-- When the last of these tasks has finished; `none` when one of them never does. -/
def lastFinish (start : Nat) : List (Str × Fate) → Option Nat
  | [] => some start
  | (_, .finishes time _) :: tasks => lastFinish (max start time) tasks
  | (_, .hangs) :: _ => none

theorem le_lastFinish {start last : Nat} {tasks : List (Str × Fate)}
    (h : lastFinish start tasks = some last) : start ≤ last := by
  fun_induction lastFinish start tasks with
  | case1 start => exact Nat.le_of_eq (Option.some.inj h)
  | case2 start name time result tasks ih => exact Nat.le_trans (Nat.le_max_left _ _) (ih h)
  | case3 => cases h

/-- The time the loop is over: when the last task finishes, or at the deadline. -/
def overAt (deadline start : Nat) (tasks : List (Str × Fate)) : Nat :=
  match lastFinish start tasks with
  | some last => min deadline last
  | none => deadline

theorem overAt_of_le {deadline start : Nat} (h : deadline ≤ start) (tasks : List (Str × Fate)) :
    overAt deadline start tasks = deadline := by
  unfold overAt
  split
  · rename_i last hlast
    exact Nat.min_eq_left (Nat.le_trans h (le_lastFinish hlast))
  · rfl

/-- **The loop from any point of time up to the deadline.** -/
theorem joinTasks_from {deadline now : Nat} (h : now ≤ deadline) (tasks : List (Str × Fate))
    (outcomes : TaskOutcomes) :
    tasks.foldl (joinNext deadline) (now, outcomes) =
      (overAt deadline now tasks,
      { failed := outcomes.failed ++
          (tasks.filter fun task => task.2.failedBy deadline).map Prod.fst
        abandoned := outcomes.abandoned ++
          (tasks.filter fun task => task.2.runningAt deadline).map Prod.fst }) := by
  induction tasks generalizing now outcomes with
  | nil => simp [overAt, lastFinish, Nat.min_eq_right h]
  | cons task tasks ih =>
    obtain ⟨name, fate⟩ := task
    have hlists : ∀ (p : Fate → Bool) (names : List Str),
        (names ++ if p fate then [name] else []) ++
            (tasks.filter fun task => p task.2).map Prod.fst =
          names ++ (((name, fate) :: tasks).filter fun task => p task.2).map Prod.fst := by
      intro p names
      cases hp : p fate <;> simp [hp]
    rw [List.foldl_cons, joinNext_eq h]
    cases fate with
    | hangs =>
      rw [ih (Nat.le_refl deadline), overAt_of_le (Nat.le_refl deadline), hlists, hlists]
      rfl
    | finishes time result =>
      rw [ih (Nat.min_le_left _ _), hlists, hlists]
      have hover : overAt deadline (min deadline (max now time)) tasks =
          overAt deadline now ((name, .finishes time result) :: tasks) := by
        by_cases htime : max now time ≤ deadline
        · rw [Nat.min_eq_right htime]
          rfl
        · rw [Nat.min_eq_left (by omega), overAt_of_le (Nat.le_refl deadline)]
          exact (overAt_of_le (Nat.le_of_not_le htime) tasks).symm
      rw [hover]

theorem tasks_foldl_spawn (registered : List (Str × SpawnTask)) (registry : TaskRegistry) :
    (registered.foldl (fun registry task => registry.spawn task.1 task.2) registry).tasks =
      registry.tasks ++ registered := by
  induction registered generalizing registry with
  | nil => simp
  | cons task registered ih =>
    rw [List.foldl_cons, ih]
    simp [TaskRegistry.spawn]

/-- A task is listed once or not at all; the ones that are not have returned. -/
theorem listed_iff (deadline : Nat) (fate : Fate) :
    ¬ (fate.failedBy deadline = true ∧ fate.runningAt deadline = true) ∧
      (fate.failedBy deadline = false ∧ fate.runningAt deadline = false ↔
        fate.returnedBy deadline = true) := by
  rcases fate with ⟨time, _ | _⟩ | _
  · simp only [Fate.failedBy, Fate.runningAt, Fate.returnedBy, decide_eq_true_eq,
      decide_eq_false_iff_not, Bool.false_eq_true, iff_false]
    omega
  · simp [Fate.failedBy, Fate.runningAt, Fate.returnedBy]
  · simp [Fate.failedBy, Fate.runningAt, Fate.returnedBy]

/-- **Shutdown accounts for every background task.**  A task is listed as failed exactly when it
panicked (or was cancelled) by the deadline, as abandoned exactly when it was still running then,
and not at all exactly when it returned by then; both lists are in the order of registration, and
which tasks are in them does not depend on the order of the awaits.  The wait is the grace period
or the time until the last task finishes, whichever is smaller. -/
theorem join_tasks_accounts (registered : List (Str × SpawnTask)) (stopped : Nat) :
    let registry : TaskRegistry := registered.foldl (fun r task => r.spawn task.1 task.2) {}
    let tasks := registry.spawnAll stopped
    let deadline := stopped + taskShutdownGrace
    tasks = registered.map (fun task => (task.1, task.2 stopped)) ∧
    (joinTasks tasks stopped).2.failed =
      (tasks.filter fun task => task.2.failedBy deadline).map Prod.fst ∧
    (joinTasks tasks stopped).2.abandoned =
      (tasks.filter fun task => task.2.runningAt deadline).map Prod.fst ∧
    (∀ fate : Fate, ¬ (fate.failedBy deadline = true ∧ fate.runningAt deadline = true) ∧
      (fate.failedBy deadline = false ∧ fate.runningAt deadline = false ↔
        fate.returnedBy deadline = true)) ∧
    (∀ awaited, awaited.Perm tasks →
      (joinTasks awaited stopped).2.failed.Perm (joinTasks tasks stopped).2.failed ∧
        (joinTasks awaited stopped).2.abandoned.Perm (joinTasks tasks stopped).2.abandoned) ∧
    (joinTasks tasks stopped).1 - stopped =
      match lastFinish stopped tasks with
      | some last => min taskShutdownGrace (last - stopped)
      | none => taskShutdownGrace := by
  intro registry tasks deadline
  have hjoined : ∀ awaited, joinTasks awaited stopped =
      (overAt deadline stopped awaited,
      { failed := (awaited.filter fun task => task.2.failedBy deadline).map Prod.fst
        abandoned := (awaited.filter fun task => task.2.runningAt deadline).map Prod.fst }) :=
    fun awaited => joinTasks_from (Nat.le_add_right _ _) awaited {}
  refine ⟨?_, by rw [hjoined], by rw [hjoined], listed_iff deadline, ?_, ?_⟩
  · simp only [tasks, registry, TaskRegistry.spawnAll, tasks_foldl_spawn, List.nil_append]
  · intro awaited hperm
    rw [hjoined, hjoined]
    exact ⟨(hperm.filter _).map _, (hperm.filter _).map _⟩
  · rw [hjoined]
    change overAt deadline stopped tasks - stopped = _
    unfold overAt
    split
    · rw [← Nat.sub_min_sub_right, Nat.add_sub_cancel_left]
    · exact Nat.add_sub_cancel_left _ _

-- a task that hangs does not hide the panic of one behind it
example : joinTasks [("hangs".toList, .hangs), ("fails".toList, .finishes 3 (.error .panicked)),
    ("returns".toList, .finishes 1 (.ok ()))] 0 =
      (taskShutdownGrace, { failed := ["fails".toList], abandoned := ["hangs".toList] }) := by
  decide

end Muxa.Core
