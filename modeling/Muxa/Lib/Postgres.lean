/-
# Postgres: transactions, isolation levels and advisory locks

The part of Postgres that decides what concurrent transactions see of one table that they only
insert into: rows committed so far, in order; the rows a transaction has inserted and not yet
committed; and the transaction-scoped advisory locks, each held by at most one transaction until
it commits or rolls back.  Statements are atomic; what interleaves is their order.
-/
import Mathlib.Logic.Function.Basic
import Mathlib.Tactic.Common

namespace Lib.Postgres

variable {ι K R : Type} [DecidableEq ι] [DecidableEq K]

inductive Isolation where
  | readCommitted
  | repeatableRead
  | serializable
deriving DecidableEq

structure Txn (R : Type) where
  isolation : Isolation
  /-- What was committed when its first query began. -/
  snapshot : Option (List R) := none
  inserted : List R := []

/-- The committed rows, and who holds which advisory lock. -/
structure Db (ι K R : Type) where
  committed : List R
  locks : K → Option ι

/-- A query begins: the first one of a transaction takes the snapshot. -/
def Txn.query (txn : Txn R) (committed : List R) : Txn R :=
  { txn with snapshot := txn.snapshot.or (some committed) }

/-- What a query of the transaction sees: under READ COMMITTED all that was committed when the
query began, else the transaction's snapshot; and its own rows. -/
def Txn.view (txn : Txn R) (committed : List R) : List R :=
  match txn.isolation with
  | .readCommitted => committed ++ txn.inserted
  | .repeatableRead | .serializable => txn.snapshot.getD committed ++ txn.inserted

/-- `SET TRANSACTION ISOLATION LEVEL`. -/
def Txn.setIsolation (txn : Txn R) (isolation : Isolation) : Txn R := { txn with isolation }

def Txn.insert (txn : Txn R) (row : R) : Txn R := { txn with inserted := txn.inserted ++ [row] }

/-- `pg_advisory_xact_lock(key)` gets through: the lock is free. -/
def Db.acquire (db : Db ι K R) (key : K) (i : ι) : Db ι K R :=
  { db with locks := Function.update db.locks key (some i) }

/-- The end of a transaction gives its locks back. -/
def Db.release (db : Db ι K R) (i : ι) : Db ι K R :=
  { db with locks := fun key => if db.locks key = some i then none else db.locks key }

def Db.commit (db : Db ι K R) (i : ι) (txn : Txn R) : Db ι K R :=
  { db.release i with committed := db.committed ++ txn.inserted }

/-- `ROLLBACK`, and what the server does when the connection is gone. -/
def Db.rollback (db : Db ι K R) (i : ι) : Db ι K R := db.release i

omit [DecidableEq ι] [DecidableEq K] in
/-- A READ COMMITTED query of a transaction without rows of its own sees what is committed. -/
theorem view_readCommitted {txn : Txn R} (h : txn.isolation = .readCommitted)
    (hnil : txn.inserted = []) (committed : List R) : txn.view committed = committed := by
  rw [Txn.view, h, hnil, List.append_nil]

omit [DecidableEq K] in
theorem release_locks (db : Db ι K R) (i j : ι) (key : K) :
    (db.release i).locks key = some j ↔ db.locks key = some j ∧ j ≠ i := by
  simp only [Db.release]
  split
  · rename_i h
    rw [h]
    simp only [reduceCtorEq, Option.some.injEq, false_iff, not_and, not_not]
    exact fun h => h.symm
  · rename_i h
    refine ⟨fun hj => ⟨hj, ?_⟩, And.left⟩
    rintro rfl
    exact h hj

/-- **Each lock is with the one who has it and whose key it is.** -/
def Db.HeldBy (db : Db ι K R) (key : ι → K) (holds : ι → Bool) : Prop :=
  ∀ k i, db.locks k = some i ↔ k = key i ∧ holds i = true

section HeldBy

variable {db : Db ι K R} {key : ι → K} {holds holds' : ι → Bool} {i : ι}

omit [DecidableEq ι] [DecidableEq K] in
theorem Db.HeldBy.congr (h : db.HeldBy key holds) (hsame : ∀ j, holds' j = holds j) :
    db.HeldBy key holds' := by
  intro k j
  rw [h k j, hsame]

omit [DecidableEq K] in
/-- The end of a transaction takes its lock from that one only. -/
theorem Db.HeldBy.release (h : db.HeldBy key holds) (hothers : ∀ j, j ≠ i → holds' j = holds j)
    (hfree : holds' i = false) : (db.release i).HeldBy key holds' := by
  intro k j
  rw [release_locks, h k j]
  by_cases hj : j = i
  · subst hj
    simp [hfree]
  · simp [hj, hothers j hj]

omit [DecidableEq ι] in
/-- A free lock goes to the one who acquires it. -/
theorem Db.HeldBy.acquire (h : db.HeldBy key holds) (hlock : db.locks (key i) = none)
    (hothers : ∀ j, j ≠ i → holds' j = holds j) (hholds : holds' i = true) :
    (db.acquire (key i) i).HeldBy key holds' := by
  intro k j
  by_cases hk : k = key i
  · subst hk
    by_cases hj : j = i
    · subst hj
      simp [Db.acquire, hholds]
    · have hfree : ¬ (key i = key j ∧ holds j = true) := by
        rw [← h, hlock]
        simp
      simpa [Db.acquire, hothers j hj, Ne.symm hj] using hfree
  · by_cases hj : j = i
    · subst hj
      have hnot : db.locks k ≠ some j := fun hlock => hk ((h k j).mp hlock).1
      simpa [Db.acquire, hk] using hnot
    · simpa [Db.acquire, hk, hothers j hj] using h k j

end HeldBy

end Lib.Postgres
