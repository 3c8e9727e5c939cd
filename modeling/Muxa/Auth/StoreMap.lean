/-
# The session store is a map with expiry

What `DieselSessionStore` is for: a map from session ids to records, in which a record is not seen
from its expiry date on.  Sweeping expired rows is housekeeping and must not show.

The map is the log of what the calls wrote (`trace`); what it holds for an id is the latest write
of that id (`latest`).  The table is this map, except that it may lack rows that have expired
(`Swept`), and `load` never shows those.  `store_is_expiring_map` puts the two together over whole
runs of calls, with any ids drawn by `create`.
-/
import Muxa.Auth.Store

namespace Muxa.Auth

open Lib.Run

variable {Id D : Type}

/-! ## 1. Calls, and what they write -/

/-- A call on the store, one after the other.  `create` comes with the ids it would draw. -/
inductive StoreCall (Id D : Type) where
  | create (record : Record Id D) (draws : List Id)
  | save (record : Record Id D)
  | load (id : Id)
  | delete (id : Id)
  | deleteExpired

/-- The calls with the clock they read, which does not go back. -/
def InOrder (calls : List (Nat × StoreCall Id D)) : Prop := calls.Pairwise fun a b => a.1 ≤ b.1

inductive Write (Id D : Type) where
  | put (record : Record Id D)
  | remove (id : Id)

section Calls

variable [DecidableEq Id]

/-- The table after a call.  A `create` whose ids are all taken has not returned. -/
def Table.call (table : Table Id D) : Nat × StoreCall Id D → Table Id D
  | (_, .create record draws) => ((create table draws record).map Prod.fst).getD table
  | (_, .save record) => save table record
  | (_, .load _) => table
  | (_, .delete id) => delete table id
  | (now, .deleteExpired) => deleteExpired table now

def tableAfter (calls : List (Nat × StoreCall Id D)) : Table Id D :=
  run Table.call (fun _ => none) calls

/-- What a call wrote once it has returned: `create`, the record under the id it settled on. -/
def StoreCall.write (table : Table Id D) : StoreCall Id D → Option (Write Id D)
  | .create record draws => (Auth.create table draws record).map fun r => .put r.2
  | .save record => some (.put record)
  | .delete id => some (.remove id)
  | .load _ | .deleteExpired => none

/-- The writes of a run of calls, in order. -/
def trace : Table Id D → List (Nat × StoreCall Id D) → List (Write Id D)
  | _, [] => []
  | table, call :: calls => (call.2.write table).toList ++ trace (table.call call) calls

def loads : Table Id D → List (Nat × StoreCall Id D) → List (Option (Record Id D))
  | _, [] => []
  | table, (now, .load id) :: calls => load table now id :: loads table calls
  | table, call :: calls => loads (table.call call) calls

def Write.touches (id : Id) : Write Id D → Bool
  | .put record => record.id = id
  | .remove id' => id' = id

/-- **The map**: the record of the latest write of an id, unless that removed it. -/
def latest (id : Id) (writes : List (Write Id D)) : Option (Record Id D) :=
  match (writes.filter (·.touches id)).getLast? with
  | some (.put record) => some record
  | _ => none

def sweepless (calls : List (Nat × StoreCall Id D)) : List (Nat × StoreCall Id D) :=
  calls.filter fun call => match call.2 with
    | .deleteExpired => false
    | _ => true

/-- `create` is only offered ids that no call has written yet. -/
def OfferedUnused : List Id → List (Nat × StoreCall Id D) → Prop
  | _, [] => True
  | used, (_, .create record _) :: calls =>
    record.id ∉ used ∧ OfferedUnused (record.id :: used) calls
  | used, (_, .save record) :: calls => OfferedUnused (record.id :: used) calls
  | used, (_, .load _) :: calls | used, (_, .delete _) :: calls
  | used, (_, .deleteExpired) :: calls => OfferedUnused used calls

end Calls

/-! ## 2. A table that has been swept -/

/-- **A swept table**: that of the map, but for rows that expired before `now`. -/
def Swept (now : Nat) (table full : Table Id D) : Prop :=
  ∀ id, table id = full id ∨
    table id = none ∧ ∃ row, full id = some row ∧ row.expiryDate < now

theorem Swept.refl (now : Nat) (table : Table Id D) : Swept now table table := fun _ => .inl rfl

theorem Swept.mono {now later : Nat} {table full : Table Id D} (h : Swept now table full)
    (hle : now ≤ later) : Swept later table full := by
  intro id
  rcases h id with heq | ⟨hnone, row, hrow, hlt⟩
  · exact .inl heq
  · exact .inr ⟨hnone, row, hrow, by omega⟩

theorem Swept.row {now : Nat} {table full : Table Id D} (h : Swept now table full) {id : Id}
    {row : Row D} (hrow : table id = some row) : full id = some row := by
  rcases h id with heq | ⟨hnone, -⟩
  · exact heq ▸ hrow
  · rw [hnone] at hrow
    cases hrow

/-- **Sweeping does not show**: `load` returns the same. -/
theorem Swept.load_eq {now : Nat} {table full : Table Id D} (h : Swept now table full) (id : Id) :
    load table now id = load full now id := by
  rcases h id with heq | ⟨hnone, row, hrow, hlt⟩
  · simp only [load, heq]
  · have hle : ¬ now < row.expiryDate := by omega
    simp [load, hnone, hrow, Option.filter, hle]

theorem Swept.deleteExpired {now : Nat} {table full : Table Id D} (h : Swept now table full) :
    Swept now (deleteExpired table now) full := by
  intro id
  rcases h id with heq | ⟨hnone, hrow⟩
  · cases hfull : full id with
    | none => simp [Auth.deleteExpired, heq, hfull]
    | some row =>
      by_cases hle : now ≤ row.expiryDate
      · simp [Auth.deleteExpired, heq, hfull, Option.filter, hle]
      · exact .inr ⟨by simp [Auth.deleteExpired, heq, hfull, Option.filter, hle], row, rfl,
          by omega⟩
  · exact .inr ⟨by simp [Auth.deleteExpired, hnone], hrow⟩

section Statements

variable [DecidableEq Id]

theorem Swept.update {now : Nat} {table full : Table Id D} (h : Swept now table full) (id : Id)
    (row : Option (Row D)) :
    Swept now (Function.update table id row) (Function.update full id row) := by
  intro id'
  by_cases hid : id' = id
  · subst hid
    simp
  · simpa [Function.update_of_ne hid] using h id'

/-- **`create` inserts one row**, under the id it settles on, which was free. -/
theorem create_inserts {table table' : Table Id D} {draws : List Id} {record record' : Record Id D}
    (h : create table draws record = some (table', record')) :
    table record'.id = none ∧
      table' = Function.update table record'.id (some ⟨record'.data, record'.expiryDate⟩) := by
  have hins := create_eq_insertNew h
  unfold insertNew at hins
  split at hins
  · rename_i hfree
    exact ⟨hfree, (congrArg Prod.fst hins).symm⟩
  · cases hins

/-- The record `create` stores is the one it was given, under that id or a drawn one. -/
theorem create_keeps {table table' : Table Id D} {draws : List Id} {record record' : Record Id D}
    (h : create table draws record = some (table', record')) :
    record'.data = record.data ∧ record'.expiryDate = record.expiryDate ∧
      record'.id ∈ record.id :: draws := by
  induction draws generalizing record with
  | nil =>
    unfold create at h
    split at h
    · obtain ⟨-, rfl⟩ : _ = table' ∧ record = record' := by simpa using h
      exact ⟨rfl, rfl, List.mem_cons_self⟩
    · cases h
  | cons id draws ih =>
    unfold create at h
    split at h
    · obtain ⟨-, rfl⟩ : _ = table' ∧ record = record' := by simpa using h
      exact ⟨rfl, rfl, List.mem_cons_self⟩
    · obtain ⟨hdata, hexpiry, hid⟩ := ih h
      exact ⟨hdata, hexpiry, List.mem_cons_of_mem _ hid⟩

/-- A free id is taken at once. -/
theorem create_free {table : Table Id D} (draws : List Id) {record : Record Id D}
    (h : table record.id = none) :
    create table draws record =
      some (Function.update table record.id (some ⟨record.data, record.expiryDate⟩), record) := by
  unfold create
  simp [insertNew, h]

/-- `create` returns as soon as it is offered a free id. -/
theorem create_isSome_iff {table : Table Id D} {draws : List Id} {record : Record Id D} :
    (create table draws record).isSome ↔ ∃ id ∈ record.id :: draws, table id = none := by
  induction draws generalizing record with
  | nil =>
    unfold create
    cases hrow : table record.id <;> simp [insertNew, hrow]
  | cons id draws ih =>
    unfold create
    cases hrow : table record.id with
    | none => simp [insertNew, hrow]
    | some row => simpa [insertNew, hrow] using ih

/-! ## 3. The table is the map -/

def Write.apply (full : Table Id D) : Write Id D → Table Id D
  | .put record => Function.update full record.id (some ⟨record.data, record.expiryDate⟩)
  | .remove id => Function.update full id none

/-- The latest write of an id, as a row. -/
theorem run_apply (writes : List (Write Id D)) (id : Id) :
    run Write.apply (fun _ => none) writes id =
      (latest id writes).map fun record => ⟨record.data, record.expiryDate⟩ := by
  induction writes using List.reverseRecOn with
  | nil => rfl
  | append_singleton writes write ih =>
    rw [run_concat]
    cases write with
    | put record =>
      by_cases hid : record.id = id
      · simp [Write.apply, latest, Write.touches, hid, List.filter_append]
      · rw [Write.apply, Function.update_of_ne (Ne.symm hid), ih]
        simp [latest, Write.touches, hid, List.filter_append]
    | remove id' =>
      by_cases hid : id' = id
      · simp [Write.apply, latest, Write.touches, hid, List.filter_append]
      · rw [Write.apply, Function.update_of_ne (Ne.symm hid), ih]
        simp [latest, Write.touches, hid, List.filter_append]

theorem latest_id {id : Id} {writes : List (Write Id D)} {record : Record Id D}
    (h : latest id writes = some record) : record.id = id := by
  unfold latest at h
  split at h
  · rename_i record' hlast
    have hmem := (List.mem_filter.mp (List.mem_of_getLast? hlast)).2
    rw [← Option.some.inj h]
    simpa [Write.touches] using hmem
  · cases h

/-- One call keeps the table that of the map, but for expired rows. -/
theorem Swept.call {now : Nat} {table full : Table Id D} (h : Swept now table full)
    (call : StoreCall Id D) :
    Swept now (table.call (now, call)) (run Write.apply full (call.write table).toList) := by
  cases call with
  | create record draws =>
    cases hcreate : create table draws record with
    | none => simpa [Table.call, StoreCall.write, hcreate] using h
    | some r =>
      obtain ⟨-, htable⟩ := create_inserts hcreate
      simpa [Table.call, StoreCall.write, hcreate, Write.apply, htable] using h.update _ _
  | save record => exact h.update _ _
  | load id => exact h
  | delete id => exact h.update _ _
  | deleteExpired => exact h.deleteExpired

/-- **The table of a run is that of the map**, but for expired rows. -/
theorem swept_run (calls : List (Nat × StoreCall Id D)) {table full : Table Id D}
    {start now : Nat} (h : Swept start table full) (hstart : ∀ call ∈ calls, start ≤ call.1)
    (horder : InOrder calls) (hnow : ∀ call ∈ calls, call.1 ≤ now) (hle : start ≤ now) :
    Swept now (run Table.call table calls) (run Write.apply full (trace table calls)) := by
  induction calls generalizing table full start with
  | nil => exact h.mono hle
  | cons call calls ih =>
    obtain ⟨t, call⟩ := call
    have ht : start ≤ t := hstart (t, call) List.mem_cons_self
    rw [run_cons, trace, run_append]
    refine ih ((h.mono ht).call call) (fun c hc => List.rel_of_pairwise_cons horder hc)
      (List.pairwise_cons.mp horder).2 (fun c hc => hnow c (List.mem_cons_of_mem _ hc)) ?_
    exact hnow (t, call) List.mem_cons_self

/-! ## 4. Sweeps do not show -/

omit [DecidableEq Id] in
theorem offeredUnused_sweepless (used : List Id) (calls : List (Nat × StoreCall Id D)) :
    OfferedUnused used (sweepless calls) ↔ OfferedUnused used calls := by
  induction calls generalizing used with
  | nil => rfl
  | cons call calls ih =>
    obtain ⟨t, call⟩ := call
    cases call with
    | create record draws => exact and_congr_right fun _ => ih _
    | save record => exact ih _
    | load id => exact ih _
    | delete id => exact ih _
    | deleteExpired => exact ih _

def InUse (used : List Id) (table : Table Id D) : Prop :=
  ∀ id row, table id = some row → id ∈ used

theorem inUse_write {used : List Id} {table : Table Id D} (h : InUse used table) (id : Id)
    (row : Option (Row D)) : InUse (id :: used) (Function.update table id row) := by
  intro id' row' hrow
  by_cases hid : id' = id
  · exact hid ▸ List.mem_cons_self
  · rw [Function.update_of_ne hid] at hrow
    exact List.mem_cons_of_mem _ (h id' row' hrow)

theorem inUse_remove {used : List Id} {table : Table Id D} (h : InUse used table) (id : Id) :
    InUse used (Function.update table id none) := by
  intro id' row' hrow
  by_cases hid : id' = id
  · rw [hid, Function.update_self] at hrow
    cases hrow
  · rw [Function.update_of_ne hid] at hrow
    exact h id' row' hrow

/-- **The loads of a run are those of the run without its sweeps**, when `create` is only offered
unused ids. -/
theorem loads_sweepless (calls : List (Nat × StoreCall Id D)) {table full : Table Id D}
    {start : Nat} {used : List Id} (h : Swept start table full)
    (hused : InUse used full) (hstart : ∀ call ∈ calls, start ≤ call.1)
    (horder : InOrder calls) (hoffered : OfferedUnused used calls) :
    loads table calls = loads full (sweepless calls) := by
  induction calls generalizing table full start used with
  | nil => rfl
  | cons call calls ih =>
    obtain ⟨t, call⟩ := call
    have hswept : Swept t table full := h.mono (hstart (t, call) List.mem_cons_self)
    have hlater : ∀ c ∈ calls, t ≤ c.1 := fun c hc => List.rel_of_pairwise_cons horder hc
    have horder' := (List.pairwise_cons.mp horder).2
    cases call with
    | load id =>
      exact congrArg₂ List.cons (hswept.load_eq id) (ih hswept hused hlater horder' hoffered)
    | deleteExpired => exact ih hswept.deleteExpired hused hlater horder' hoffered
    | save record => exact ih (hswept.update _ _) (inUse_write hused _ _) hlater horder' hoffered
    | delete id => exact ih (hswept.update _ _) (inUse_remove hused id) hlater horder' hoffered
    | create record draws =>
      obtain ⟨hfresh, hoffered⟩ := hoffered
      have hfull : full record.id = none := by
        cases hrow : full record.id with
        | none => rfl
        | some row => exact absurd (hused _ row hrow) hfresh
      have hfree : table record.id = none := by
        cases hrow : table record.id with
        | none => rfl
        | some row =>
          rw [hswept.row hrow] at hfull
          cases hfull
      have hstep := ih (hswept.update record.id (some ⟨record.data, record.expiryDate⟩))
        (inUse_write hused _ _) hlater horder' hoffered
      change loads (Table.call table _) calls = loads (Table.call full _) (sweepless calls)
      rw [Table.call, Table.call, create_free draws hfree, create_free draws hfull]
      exact hstep

/-! ## 5. The store -/

/-- **A map with expiry**, after a run of calls and at a time `now`: what `load` and `create` do
then, and that sweeps do not show in what the run loads. -/
structure ExpiringMap (calls : List (Nat × StoreCall Id D)) (now : Nat) : Prop where
  /-- `load` returns the latest record created or saved, unless it was deleted or has expired. -/
  load : ∀ id, load (tableAfter calls) now id =
    (latest id (trace (fun _ => none) calls)).filter fun record => now < record.expiryDate
  /-- `create` leaves every row, expired or not, as it is. -/
  createLeaves : ∀ record draws id row, tableAfter calls id = some row →
    (tableAfter calls).call (now, .create record draws) id = some row
  /-- The record it was given is stored once it returns, under an id that was free. -/
  createStores : ∀ record draws table' record',
    create (tableAfter calls) draws record = some (table', record') →
      tableAfter calls record'.id = none ∧
        table' record'.id = some ⟨record.data, record.expiryDate⟩ ∧
        record' = { record with id := record'.id } ∧ record'.id ∈ record.id :: draws
  /-- It returns once it is offered a free id. -/
  createReturns : ∀ record draws,
    (create (tableAfter calls) draws record).isSome ↔
      ∃ id ∈ record.id :: draws, tableAfter calls id = none
  /-- It draws no id while the record's own is free. -/
  createFree : ∀ record draws, tableAfter calls record.id = none →
    create (tableAfter calls) draws record =
      some (save (tableAfter calls) record, record)
  /-- More or fewer sweeps change no load, when `create` is only offered unused ids. -/
  sweeps : OfferedUnused [] calls → ∀ calls', InOrder calls' →
    sweepless calls' = sweepless calls →
      loads (fun _ => none) calls' = loads (fun _ => none) calls

/-- **`DieselSessionStore` behaves as a map with expiry.** -/
theorem store_is_expiring_map (calls : List (Nat × StoreCall Id D)) (horder : InOrder calls)
    (now : Nat) (hnow : ∀ call ∈ calls, call.1 ≤ now) : ExpiringMap calls now where
  load id := by
    have hswept : Swept now (tableAfter calls) _ :=
      swept_run calls (Swept.refl 0 _) (fun call _ => Nat.zero_le call.1) horder hnow
        (Nat.zero_le now)
    rw [hswept.load_eq id, Auth.load, run_apply]
    cases hlatest : latest id (trace (fun _ => none) calls) with
    | none => rfl
    | some record =>
      obtain rfl := latest_id hlatest
      by_cases hlive : now < record.expiryDate <;> simp [Option.filter, hlive]
  createLeaves record draws id row hrow := by
    cases hcreate : create (tableAfter calls) draws record with
    | none => simpa [Table.call, hcreate] using hrow
    | some r =>
      obtain ⟨hfree, htable⟩ := create_inserts hcreate
      have hne : id ≠ r.2.id := by
        rintro rfl
        rw [hfree] at hrow
        cases hrow
      simpa [Table.call, hcreate, htable, Function.update_of_ne hne] using hrow
  createStores record draws table' record' hcreate := by
    obtain ⟨hfree, htable⟩ := create_inserts hcreate
    obtain ⟨hdata, hexpiry, hid⟩ := create_keeps hcreate
    refine ⟨hfree, ?_, ?_, hid⟩
    · rw [htable, Function.update_self, hdata, hexpiry]
    · rw [← hdata, ← hexpiry]
  createReturns _ _ := create_isSome_iff
  createFree _ draws hfree := create_free draws hfree
  sweeps hoffered calls' horder' heq := by
    have hloads : ∀ calls : List (Nat × StoreCall Id D), InOrder calls → OfferedUnused [] calls →
        loads (fun _ => none) calls = loads (fun _ => none) (sweepless calls) :=
      fun calls horder => loads_sweepless calls (Swept.refl 0 _) (fun _ _ hrow => by cases hrow)
        (fun call _ => Nat.zero_le call.1) horder
    have hoffered' : OfferedUnused [] calls' := by
      rw [← offeredUnused_sweepless, heq, offeredUnused_sweepless]
      exact hoffered
    rw [hloads calls' horder' hoffered', heq, ← hloads calls horder hoffered]

end Statements

/-- A session is created and has expired when another one is to be created under its id; the next
id is drawn for that one, and saved again.  A sweep follows. -/
def redrawn : List (Nat × StoreCall Nat String) :=
  [(0, .create ⟨1, "user 7", 10⟩ []), (20, .create ⟨1, "user 8", 100⟩ [1, 2]),
   (21, .save ⟨2, "user 8, seen", 110⟩), (30, .deleteExpired), (31, .load 1)]

theorem expiringMap_redrawn : ExpiringMap redrawn 40 :=
  store_is_expiring_map redrawn (by unfold InOrder; decide) 40 (by decide)

example : latest 2 (trace (fun _ => none) redrawn) = some ⟨2, "user 8, seen", 110⟩ := by decide

end Muxa.Auth
