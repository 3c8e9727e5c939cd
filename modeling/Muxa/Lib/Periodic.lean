/-
# A periodic task

A loop that sleeps for an interval, works, and sleeps again, until it is cancelled.  The
cancellation ends a sleep at once, and is not looked at while the loop works; a sleep that ends at
the very moment of the cancellation has ended.  How long the work takes is up to the round.

The rounds have a closed form, `startAt`.  Those that begin by the cancellation take place
(`mem_loop`), the loop ends with the cancellation or with the round it was in (`loop_end_le`), and
from any moment on the next round is no further off than an interval and the longest round
(`round_within`).
-/
import Mathlib.Order.Nat
import Mathlib.Tactic.Common

namespace Lib.Periodic

variable {W : Type*} {interval cancelled now : Nat} {took : W → Nat} {work : Nat → W}

/-! ## 1. The loop, and its rounds -/

/-- When round `i` begins to work, in a loop that starts at `now` and is not cancelled. -/
def startAt (interval : Nat) (took : W → Nat) (work : Nat → W) (now : Nat) : Nat → Nat
  | 0 => now + interval
  | i + 1 => startAt interval took work now i + took (work i) + interval

/-- The loop from `now` on: the rounds, with when they began, and when the loop ended.  As many
rounds as there are moments up to the cancellation are enough. -/
def loop (interval cancelled : Nat) (took : W → Nat) :
    Nat → (Nat → W) → Nat → List (Nat × W) × Nat
  | 0, _, now => ([], now)
  | fuel + 1, work, now =>
    if cancelled ≤ now then ([], now)
    else if now + interval ≤ cancelled then
      let rest := loop interval cancelled took fuel (fun i => work (i + 1))
        (now + interval + took (work 0))
      ((now + interval, work 0) :: rest.1, rest.2)
    else ([], cancelled)

/-! ## 2. When the rounds begin -/

/-- The rounds after the first are those of the loop that is left. -/
theorem startAt_rest (i : Nat) :
    startAt interval took work now (i + 1) =
      startAt interval took (fun i => work (i + 1)) (now + interval + took (work 0)) i := by
  induction i with
  | zero => rfl
  | succ i ih => rw [startAt, ih, startAt]

theorem le_startAt (i : Nat) : now + (i + 1) * interval ≤ startAt interval took work now i := by
  induction i with
  | zero => simp [startAt]
  | succ i ih =>
    rw [startAt, Nat.succ_mul]
    omega

theorem startAt_le_add (i j : Nat) :
    startAt interval took work now i ≤ startAt interval took work now (i + j) := by
  induction j with
  | zero => exact Nat.le_refl _
  | succ j ih =>
    rw [← Nat.add_assoc, startAt]
    omega

theorem startAt_add_le {longest : Nat} (h : ∀ i, took (work i) ≤ longest) (i j : Nat) :
    startAt interval took work now (i + j) ≤
      startAt interval took work now i + j * (interval + longest) := by
  induction j with
  | zero => simp
  | succ j ih =>
    have := h (i + j)
    rw [← Nat.add_assoc, startAt, Nat.succ_mul]
    omega

/-- **From any moment on, there is a next round.** -/
theorem round_within (hpos : 0 < interval) {longest : Nat} (h : ∀ i, took (work i) ≤ longest)
    {m : Nat} (hm : now ≤ m) :
    ∃ i, m < startAt interval took work now i ∧
      startAt interval took work now i ≤ m + (interval + longest) := by
  have hlate : ∃ i, m < startAt interval took work now i := by
    refine ⟨m, ?_⟩
    have hfar : m + 1 ≤ (m + 1) * interval := Nat.le_mul_of_pos_right _ hpos
    have hstart : now + (m + 1) * interval ≤ startAt interval took work now m := le_startAt m
    omega
  refine ⟨Nat.find hlate, Nat.find_spec hlate, ?_⟩
  cases hfirst : Nat.find hlate with
  | zero =>
    rw [startAt]
    omega
  | succ i =>
    -- the round before is no later than `m`
    have hbefore : ¬ m < startAt interval took work now i :=
      Nat.find_min hlate (by omega)
    have := h i
    rw [startAt]
    omega

/-! ## 3. What takes place -/

theorem interval_le_startAt (i : Nat) : now + interval ≤ startAt interval took work now i := by
  have hfirst : 1 * interval ≤ (i + 1) * interval := Nat.mul_le_mul_right _ (by omega)
  have hstart : now + (i + 1) * interval ≤ startAt interval took work now i := le_startAt i
  omega

/-- **The rounds that take place** are those that begin by the cancellation. -/
theorem mem_loop (hpos : 0 < interval) {fuel : Nat} (hfuel : cancelled ≤ now + fuel)
    (round : Nat × W) :
    round ∈ (loop interval cancelled took fuel work now).1 ↔
      round.1 ≤ cancelled ∧ ∃ i, round = (startAt interval took work now i, work i) := by
  have hnone : ∀ {work : Nat → W} {now : Nat}, cancelled < now + interval →
      ¬ (round.1 ≤ cancelled ∧ ∃ i, round = (startAt interval took work now i, work i)) := by
    rintro work now hlt ⟨hle, i, rfl⟩
    exact absurd (Nat.le_trans (interval_le_startAt i) hle) (by omega)
  induction fuel generalizing work now with
  | zero => simpa [loop] using hnone (by omega)
  | succ fuel ih =>
    rw [loop]
    split
    · simpa using hnone (by omega)
    split
    · have hrest := @ih (now + interval + took (work 0)) (fun i => work (i + 1)) (by omega)
      refine List.mem_cons.trans ((or_congr_right hrest).trans ?_)
      constructor
      · rintro (rfl | ⟨hle, i, rfl⟩)
        · exact ⟨‹_›, 0, rfl⟩
        · exact ⟨hle, i + 1, by rw [startAt_rest]⟩
      · rintro ⟨hle, i, rfl⟩
        cases i with
        | zero => exact .inl rfl
        | succ i =>
          rw [startAt_rest] at hle ⊢
          exact .inr ⟨hle, i, rfl⟩
    · simpa using hnone (by omega)

/-- **The loop ends** with the cancellation, or with the round it was in. -/
theorem loop_end_le {longest fuel : Nat} (h : ∀ i, took (work i) ≤ longest) :
    (loop interval cancelled took fuel work now).2 ≤ max now (cancelled + longest) := by
  induction fuel generalizing work now with
  | zero => exact Nat.le_max_left _ _
  | succ fuel ih =>
    rw [loop]
    split
    · exact Nat.le_max_left _ _
    split
    · have hfirst := h 0
      refine Nat.le_trans (ih fun i => h (i + 1)) ?_
      omega
    · exact Nat.le_trans (Nat.le_add_right _ _) (Nat.le_max_right _ _)

end Lib.Periodic
