/-
# The session table

`DieselSessionStore` keeps one row per session, under the session id.  Each of its operations is
one SQL statement on the table (`create` one for every id it draws), so what concurrent requests
do to a session is a sequence of these statements in some order (section 2).

`save` is an upsert: where the row is gone it inserts a new one.  A request that loaded a session
before another request deleted it, and saves its copy after that, brings the session back
(`stale_save_revives`, and `signed_out_session_revived` from an empty table).  A deleted session
stays dead exactly as long as no request does that with a copy that has not expired
(`deleted_stays_dead`).
-/
import Mathlib.Logic.Function.Basic
import Muxa.Lib.Run

namespace Muxa.Auth

open Lib.Run

variable {Id D R : Type}

/-! ## 1. The statements -/

/-- A row of `auth_sessions`, less its key. -/
structure Row (D : Type) where
  data : D
  expiryDate : Nat
deriving DecidableEq

structure Record (Id D : Type) where
  id : Id
  data : D
  expiryDate : Nat
deriving DecidableEq

/-- The table, by primary key. -/
abbrev Table (Id D : Type) := Id → Option (Row D)

section Statements

variable [DecidableEq Id]

/-- `INSERT … ON CONFLICT DO NOTHING`: the table after it, and whether a row was inserted. -/
def insertNew (table : Table Id D) (record : Record Id D) : Table Id D × Bool :=
  match table record.id with
  | none => (Function.update table record.id (some ⟨record.data, record.expiryDate⟩), true)
  | some _ => (table, false)

/-- `create`: insert under the record's id, or under the next one drawn while that is taken.
`none`: the ids drawn so far were all taken. -/
def create (table : Table Id D) : List Id → Record Id D → Option (Table Id D × Record Id D)
  | draws, record =>
    match insertNew table record with
    | (table', true) => some (table', record)
    | (_, false) =>
      match draws with
      | [] => none
      | id :: draws => create table draws { record with id }

/-- `save`: insert, or update the row that is there. -/
def save (table : Table Id D) (record : Record Id D) : Table Id D :=
  Function.update table record.id (some ⟨record.data, record.expiryDate⟩)

/-- `load`: the row, unless it has expired. -/
def load (table : Table Id D) (now : Nat) (id : Id) : Option (Record Id D) :=
  ((table id).filter fun row => now < row.expiryDate).map fun row =>
    { id, data := row.data, expiryDate := row.expiryDate }

/-- What `create` amounts to: one insert, under the id it returns. -/
theorem create_eq_insertNew {table table' : Table Id D} {draws : List Id}
    {record record' : Record Id D} (h : create table draws record = some (table', record')) :
    insertNew table record' = (table', true) := by
  induction draws generalizing record with
  | nil =>
    unfold create at h
    split at h
    · rename_i hins
      obtain ⟨rfl, rfl⟩ : _ = table' ∧ record = record' := by simpa using h
      exact hins
    · cases h
  | cons id draws ih =>
    unfold create at h
    split at h
    · rename_i hins
      obtain ⟨rfl, rfl⟩ : _ = table' ∧ record = record' := by simpa using h
      exact hins
    · exact ih h

def delete (table : Table Id D) (id : Id) : Table Id D := Function.update table id none

def deleteExpired (table : Table Id D) (now : Nat) : Table Id D :=
  fun id => (table id).filter fun row => now ≤ row.expiryDate

end Statements

theorem load_eq_none {table : Table Id D} {now : Nat} {id : Id} :
    load table now id = none ↔ ∀ row, table id = some row → row.expiryDate ≤ now := by
  unfold load
  rw [Option.map_eq_none_iff, Option.filter_eq_none_iff]
  simp

/-! ## 2. Concurrent requests -/

/-- A statement a request issues.  `save` is of the copy the request has loaded, with new data
and expiry; `insert` is one round of `create`. -/
inductive Action (Id D R : Type) where
  | load (request : R) (id : Id)
  | save (request : R) (data : D) (expiryDate : Nat)
  | delete (id : Id)
  | insert (record : Record Id D)
  | deleteExpired

/-- The table, and the copies the requests have loaded. -/
structure Store (Id D R : Type) where
  table : Table Id D
  copy : R → Option (Record Id D)

def Store.empty : Store Id D R := ⟨fun _ => none, fun _ => none⟩

section Runs

variable [DecidableEq Id] [DecidableEq R]

/-- One statement, at the time its clock shows.  A `save` writes the copy of its request, whatever
has become of the row since that was loaded. -/
def Store.step (σ : Store Id D R) : Nat × Action Id D R → Store Id D R
  | (now, .load request id) =>
    { σ with copy := Function.update σ.copy request (load σ.table now id) }
  | (_, .save request data expiryDate) =>
    match σ.copy request with
    | some record => { σ with table := save σ.table { record with data, expiryDate } }
    | none => σ
  | (_, .delete id) => { σ with table := delete σ.table id }
  | (_, .insert record) => { σ with table := (insertNew σ.table record).1 }
  | (now, .deleteExpired) => { σ with table := deleteExpired σ.table now }

/-- **No stale save of `id`**: a copy of that session is saved only with an expiry date that has
passed. -/
def NoStaleSave (id : Id) (σ : Store Id D R) : Nat × Action Id D R → Prop
  | (now, .save request _ expiryDate) =>
    ∀ record ∈ σ.copy request, record.id = id → expiryDate ≤ now
  | _ => True

instance (id : Id) (σ : Store Id D R) :
    ∀ action : Nat × Action Id D R, Decidable (NoStaleSave id σ action)
  | (now, .save request _ expiryDate) =>
    inferInstanceAs (Decidable (∀ record ∈ σ.copy request, record.id = id → expiryDate ≤ now))
  | (_, .load _ _) | (_, .delete _) | (_, .insert _) | (_, .deleteExpired) => isTrue trivial

def Action.Draws (id : Id) : Action Id D R → Prop
  | .insert record => record.id = id
  | .load _ _ | .save _ _ _ | .delete _ | .deleteExpired => False

def TimeMonotone (l : List (Nat × Action Id D R)) : Prop := l.Pairwise fun a b => a.1 ≤ b.1

/-- **A dead session stays dead** under one statement that neither draws its id nor is a stale
save of it. -/
theorem dead_step {id : Id} {σ : Store Id D R} {now : Nat}
    {action : Action Id D R} (h : load σ.table now id = none) (hdrawn : ¬ action.Draws id)
    (hsave : NoStaleSave id σ (now, action)) :
    load (σ.step (now, action)).table now id = none := by
  rw [load_eq_none] at h ⊢
  intro row hrow
  cases action with
  | load request id' => exact h row hrow
  | delete id' =>
    simp only [Store.step, delete, Function.update_apply] at hrow
    split at hrow
    · cases hrow
    · exact h row hrow
  | insert record =>
    have hne : id ≠ record.id := fun heq => hdrawn heq.symm
    simp only [Store.step, insertNew] at hrow
    split at hrow
    · dsimp only at hrow
      rw [Function.update_of_ne hne] at hrow
      exact h row hrow
    · exact h row hrow
  | deleteExpired =>
    simp only [Store.step, deleteExpired, Option.filter_eq_some_iff] at hrow
    exact h row hrow.1
  | save request data expiryDate =>
    simp only [Store.step] at hrow
    cases hcopy : σ.copy request with
    | none =>
      rw [hcopy] at hrow
      exact h row hrow
    | some record =>
      rw [hcopy] at hrow
      simp only [save, Function.update_apply] at hrow
      split at hrow
      · rename_i hid
        rw [← Option.some.inj hrow]
        exact hsave record (by rw [hcopy]; rfl) hid.symm
      · exact h row hrow

omit [DecidableEq Id] [DecidableEq R] in
/-- What has expired stays expired. -/
theorem load_mono {table : Table Id D} {now later : Nat} {id : Id}
    (h : load table now id = none) (hle : now ≤ later) : load table later id = none := by
  rw [load_eq_none] at h ⊢
  exact fun row hrow => Nat.le_trans (h row hrow) hle

theorem dead_run {id : Id} {l : List (Nat × Action Id D R)} {σ : Store Id D R} {now later : Nat}
    (h : load σ.table now id = none) (hnow : ∀ a ∈ l, now ≤ a.1) (htime : TimeMonotone l)
    (hdrawn : ∀ a ∈ l, ¬ a.2.Draws id) (hsave : Along Store.step (NoStaleSave id) σ l)
    (hle : ∀ a ∈ l, a.1 ≤ later) (hlater : now ≤ later) :
    load (run Store.step σ l).table later id = none := by
  induction l generalizing σ now with
  | nil => exact load_mono h hlater
  | cons a l ih =>
    obtain ⟨t, action⟩ := a
    have hdead : load σ.table t id = none := load_mono h (hnow (t, action) List.mem_cons_self)
    have hstep := dead_step hdead (hdrawn (t, action) List.mem_cons_self) hsave.1
    exact ih hstep (fun a ha => List.rel_of_pairwise_cons htime ha)
      (List.pairwise_cons.mp htime).2 (fun a ha => hdrawn a (List.mem_cons_of_mem _ ha)) hsave.2
      (fun a ha => hle a (List.mem_cons_of_mem _ ha)) (hle (t, action) List.mem_cons_self)

/-- **A stale save brings the session back.** -/
theorem stale_save_revives {id : Id} {σ : Store Id D R} {now : Nat} {action : Action Id D R}
    (h : ¬ NoStaleSave id σ (now, action)) :
    (load (σ.step (now, action)).table now id).isSome = true := by
  cases action with
  | save request data expiryDate =>
    simp only [NoStaleSave, not_forall, Nat.not_le] at h
    obtain ⟨record, hcopy, rfl, hlive⟩ := h
    rw [Option.mem_def] at hcopy
    simp [Store.step, hcopy, save, load, hlive]
  | load request id' => exact absurd trivial h
  | delete id' => exact absurd trivial h
  | insert record => exact absurd trivial h
  | deleteExpired => exact absurd trivial h

/-- **A deleted session stays dead exactly without stale saves of it.**  In every run, whatever
came before the delete: once `delete id` has completed and while no `create` draws that id again,
no later `load id` returns a record if and only if no request saves a copy of that session that
has not expired. -/
theorem deleted_stays_dead (σ₀ : Store Id D R) (before after : List (Nat × Action Id D R))
    (t : Nat) (id : Id) (htime : TimeMonotone (before ++ (t, .delete id) :: after))
    (hdrawn : ∀ a ∈ after, ¬ a.2.Draws id) :
    (∀ seen now, seen <+: after → (∀ a ∈ before ++ (t, .delete id) :: seen, a.1 ≤ now) →
      load (run Store.step σ₀ (before ++ (t, .delete id) :: seen)).table now id = none) ↔
    Along Store.step (NoStaleSave id)
      (run Store.step σ₀ (before ++ [(t, .delete id)])) after := by
  have hrun : ∀ seen, run Store.step σ₀ (before ++ (t, .delete id) :: seen) =
      run Store.step (run Store.step σ₀ (before ++ [(t, .delete id)])) seen := by
    intro seen
    rw [← run_append, List.append_assoc, List.singleton_append]
  constructor
  · intro hdead
    refine along_of_prefix fun pre save hpre => ?_
    obtain ⟨later, action⟩ := save
    by_contra hstale
    -- nothing before the stale save, in the order of the run, is later than it
    have hpast : ∀ a ∈ before ++ (t, .delete id) :: (pre ++ [(later, action)]), a.1 ≤ later := by
      obtain ⟨rest, rfl⟩ := hpre
      have hsplit : before ++ (t, .delete id) :: (pre ++ [(later, action)] ++ rest) =
          (before ++ (t, .delete id) :: pre) ++ (later, action) :: rest := by simp
      rw [hsplit] at htime
      have hlate := (List.pairwise_append.mp htime).2.2
      intro a ha
      have ha' : a ∈ before ++ (t, .delete id) :: pre ∨ a = (later, action) := by
        simpa [or_assoc] using ha
      rcases ha' with ha' | rfl
      · exact hlate a ha' (later, action) List.mem_cons_self
      · exact Nat.le_refl _
    have hgone := hdead (pre ++ [(later, action)]) later hpre hpast
    rw [hrun, run_concat] at hgone
    have hback := stale_save_revives hstale
    rw [hgone] at hback
    cases hback
  · rintro hsave seen now ⟨rest, rfl⟩ hnow
    have hafter := (List.pairwise_append.mp htime).2.1
    rw [← List.cons_append] at hafter
    have hseen := (List.pairwise_append.mp hafter).1
    have hdead : load (run Store.step σ₀ (before ++ [(t, .delete id)])).table t id = none := by
      rw [run_concat]
      simp [Store.step, delete, load]
    rw [hrun]
    exact dead_run hdead (fun a ha => List.rel_of_pairwise_cons hseen ha)
      (List.pairwise_cons.mp hseen).2 (fun a ha => hdrawn a (List.mem_append_left _ ha))
      hsave.take (fun a ha => hnow a (by simp [ha])) (hnow (t, .delete id) (by simp))

end Runs

/-! ## 3. A sign-out and a request that overlaps it -/

/-- A session is created and loaded by a slow request; another request signs out. -/
def signedOut : List (Nat × Action Nat String Unit) :=
  [(0, .insert ⟨1, "user 7", 100⟩), (1, .load () 1), (2, .delete 1)]

theorem deleted_stays_dead_signedOut :
    load (run Store.step .empty (signedOut ++ [(3, .save () "user 7" 3)])).table 4 1 = none :=
  (deleted_stays_dead .empty [(0, .insert ⟨1, "user 7", 100⟩), (1, .load () 1)]
    [(3, .save () "user 7" 3)] 2 1 (by unfold TimeMonotone; decide)
    (by simp [Action.Draws])).mpr (by decide) _ 4 List.prefix_rfl (by decide)

/-- **The signed-in session is back** when the slow request saves its copy. -/
theorem signed_out_session_revived :
    load (run Store.step .empty (signedOut ++ [(3, .save () "user 7" 103)])).table 4 1 =
      some ⟨1, "user 7", 103⟩ := by
  decide

end Muxa.Auth
