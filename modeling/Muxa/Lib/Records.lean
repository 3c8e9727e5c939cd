/-
# Records: where the contents of a copied record come from

The clients of `Lib.Copies` share one record.  Here there is a record for each key, and each
client works on the record of its own key; what happens to one record is a schedule of the clients
of its key (`run_at`), so every rule about one record is a rule about each of many.

`copy_traced` and `stored_traced` are the rule of origin.  Name what is of interest in a record
its contents (`holds`).  If whatever a client writes was in its copy or is of that client's making
(`Origin.written`), then, on every schedule, what a client finds in its copy was there at the
outset or was made by a client that had saved before this one loaded.  Overlaps do not matter to
it: they can lose contents and bring lost contents back, and neither makes new ones.
-/
import Muxa.Lib.Copies

namespace Lib.Copies

open Lib.Run

variable {ι K D O F : Type} [DecidableEq ι]

/-! ## 1. The order of loads and saves -/

section Order

variable {work : ι → D → Option D × O} {σ : System ι D O} {i j : ι}

theorem ended_advance {c : D} {out : O} (h : σ.phase i = .ended c out) (j : ι) :
    (advance work σ j).phase i = .ended c out := by
  by_cases hij : i = j
  · subst hij
    rw [advance_ended h]
    exact h
  · rw [advance_phase_ne hij]
    exact h

/-- **A copy was loaded**: some time before, the client was waiting and the store held it. -/
theorem copy_loaded {d₀ : D} {schedule : List ι} {c : D}
    (h : ((run (advance work) (System.init d₀) schedule).phase j).copy = some c) :
    ∃ pre post, schedule = pre ++ j :: post ∧
      (run (advance work) (System.init d₀) pre).phase j = .waiting ∧
      (run (advance work) (System.init d₀) pre).stored = c := by
  have hnone : ¬ ((System.init d₀ : System ι D O).phase j).copy = some c := nofun
  obtain ⟨pre, i, post, rfl, hpre, hpost⟩ :=
    run_switch (P := fun τ : System ι D O => (τ.phase j).copy = some c) hnone schedule h
  have hnow := hpost [] List.nil_prefix
  rw [run_concat] at hnow
  by_cases hji : j = i
  · subst hji
    refine ⟨pre, post, rfl, ?_⟩
    cases hphase : (run (advance work) (System.init d₀) pre).phase j with
    | waiting =>
      rw [advance_waiting hphase] at hnow
      simpa [Phase.copy] using hnow
    | loaded d =>
      rw [advance_loaded hphase] at hnow
      exact absurd (by simpa [hphase, Phase.copy] using hnow) hpre
    | worked d write out =>
      rw [advance_worked hphase] at hnow
      exact absurd (by simpa [hphase, Phase.copy] using hnow) hpre
    | ended d out =>
      rw [advance_ended hphase] at hnow
      exact absurd hnow hpre
  · rw [advance_phase_ne hji] at hnow
    exact absurd hnow hpre

/-- An outcome is that of the work on the copy. -/
theorem out_copy {d₀ : D} {schedule : List ι} {out : O}
    (h : ((run (advance work) (System.init d₀) schedule).phase j).out = some out) :
    ∃ c, ((run (advance work) (System.init d₀) schedule).phase j).copy = some c ∧
      out = (work j c).2 := by
  have hj := honest_run work d₀ schedule j
  revert h hj
  generalize (run (advance work) (System.init d₀) schedule).phase j = p
  intro h hj
  cases p with
  | waiting | loaded _ => cases h
  | worked c write out' =>
    obtain rfl : out' = out := Option.some.inj h
    exact ⟨c, rfl, hj.2⟩
  | ended c out' =>
    obtain rfl : out' = out := Option.some.inj h
    exact ⟨c, rfl, hj⟩

end Order

/-! ## 2. The rule of origin -/

section Origin

variable {work : ι → D → Option D × O} {holds : D → F → Prop} {makes : ι → D → F → Prop}

/-- What a client writes was in its copy, or is of its making. -/
structure Origin (work : ι → D → Option D × O) (holds : D → F → Prop)
    (makes : ι → D → F → Prop) : Prop where
  written : ∀ i c d f, (work i c).1 = some d → holds d f → holds c f ∨ makes i c f

/-- The content `f` was in `d₀`, or a client that has ended made it. -/
def Traced (makes : ι → D → F → Prop) (holds : D → F → Prop) (d₀ : D) (σ : System ι D O)
    (f : F) : Prop :=
  holds d₀ f ∨ ∃ i c out, σ.phase i = .ended c out ∧ makes i c f

theorem Traced.advance {d₀ : D} {σ : System ι D O} {f : F} (h : Traced makes holds d₀ σ f)
    (j : ι) : Traced makes holds d₀ (Lib.Copies.advance work σ j) f := by
  rcases h with h | ⟨i, c, out, hended, hmakes⟩
  · exact .inl h
  · exact .inr ⟨i, c, out, ended_advance hended j, hmakes⟩

/-- The contents of the store and of every copy are traced. -/
structure AllTraced (makes : ι → D → F → Prop) (holds : D → F → Prop) (d₀ : D)
    (σ : System ι D O) : Prop where
  stored : ∀ f, holds σ.stored f → Traced makes holds d₀ σ f
  copies : ∀ j c f, (σ.phase j).copy = some c → holds c f → Traced makes holds d₀ σ f

theorem allTraced_advance (ho : Origin work holds makes) {d₀ : D} {σ : System ι D O}
    (hh : Honest work σ) (h : AllTraced makes holds d₀ σ) (i : ι) :
    AllTraced makes holds d₀ (advance work σ i) := by
  -- the store and the copies before the action stay traced
  have hkept : ∀ f, holds σ.stored f → Traced makes holds d₀ (advance work σ i) f :=
    fun f hf => (h.stored f hf).advance i
  have hcopies : ∀ j c f, (σ.phase j).copy = some c → holds c f →
      Traced makes holds d₀ (advance work σ i) f :=
    fun j c f hc hf => (h.copies j c f hc hf).advance i
  cases hphase : σ.phase i with
  | waiting =>
    refine ⟨fun f hf => hkept f (by simpa [advance_waiting hphase] using hf), ?_⟩
    intro j c f hc hf
    by_cases hj : j = i
    · subst hj
      obtain rfl : σ.stored = c := by simpa [advance_waiting hphase, Phase.copy] using hc
      exact hkept f hf
    · exact hcopies j c f (by simpa [hj] using hc) hf
  | loaded d =>
    refine ⟨fun f hf => hkept f (by simpa [advance_loaded hphase] using hf), ?_⟩
    intro j c f hc hf
    refine hcopies j c f ?_ hf
    by_cases hj : j = i
    · subst hj
      rw [hphase]
      simpa [advance_loaded hphase, Phase.copy] using hc
    · simpa [hj] using hc
  | worked d write out =>
    constructor
    · intro f hf
      have hwork := hh i
      simp only [hphase] at hwork
      cases hw : write with
      | none => exact hkept f (by simpa [advance_worked hphase, hw] using hf)
      | some d' =>
        have hd' : holds d' f := by simpa [advance_worked hphase, hw] using hf
        rcases ho.written i d d' f (by rw [← hwork.1, hw]) hd' with hold | hmakes
        · exact hcopies i d f (by rw [hphase]; rfl) hold
        · exact .inr ⟨i, d, out, by simp [advance_worked hphase], hmakes⟩
    · intro j c f hc hf
      refine hcopies j c f ?_ hf
      by_cases hj : j = i
      · subst hj
        rw [hphase]
        simpa [advance_worked hphase, Phase.copy] using hc
      · simpa [hj] using hc
  | ended d out =>
    rw [advance_ended hphase]
    exact h

theorem allTraced_run (ho : Origin work holds makes) (d₀ : D) (schedule : List ι) :
    AllTraced makes holds d₀ (run (advance work) (System.init d₀) schedule) := by
  have h₀ : AllTraced makes holds d₀ (System.init d₀ : System ι D O) :=
    ⟨fun _ => .inl, fun j c f hc => by simp [System.init, Phase.copy] at hc⟩
  exact (run_invariant (I := fun σ => Honest work σ ∧ AllTraced makes holds d₀ σ)
    (fun _ i hI _ => ⟨honest_advance hI.1 i, allTraced_advance ho hI.1 hI.2 i⟩) schedule _
    ⟨fun _ => trivial, h₀⟩ (along_of_forall (p := fun _ => True) fun _ _ => trivial)).2

/-- **Where the contents of the store come from.** -/
theorem stored_traced (ho : Origin work holds makes) (d₀ : D) (schedule : List ι) {f : F}
    (h : holds (run (advance work) (System.init d₀) schedule).stored f) :
    Traced makes holds d₀ (run (advance work) (System.init d₀) schedule) f :=
  (allTraced_run ho d₀ schedule).stored f h

/-- **Where the contents of a copy come from**: they were there at the outset, or their maker
had ended when the copy was loaded. -/
theorem copy_traced (ho : Origin work holds makes) {d₀ : D} {schedule : List ι} {j : ι} {c : D}
    (hc : ((run (advance work) (System.init d₀) schedule).phase j).copy = some c) {f : F}
    (h : holds c f) :
    ∃ pre post, schedule = pre ++ j :: post ∧
      (run (advance work) (System.init d₀) pre).phase j = .waiting ∧
      Traced makes holds d₀ (run (advance work) (System.init d₀) pre) f := by
  obtain ⟨pre, post, rfl, hwait, rfl⟩ := copy_loaded hc
  exact ⟨pre, post, rfl, hwait, stored_traced ho d₀ pre h⟩

end Origin

/-! ## 3. A record for each key -/

section Keys

variable [DecidableEq K]

/-- The store of all records, and the clients. -/
structure Systems (ι K D O : Type) where
  stored : K → D
  phase : ι → Phase D O

def Systems.init (d : K → D) : Systems ι K D O := ⟨d, fun _ => .waiting⟩

def Systems.at (key : ι → K) (σ : Systems ι K D O) (k : K) : System ι D O where
  stored := σ.stored k
  phase i := if key i = k then σ.phase i else .waiting

/-- The next action of client `i`, on the record of its key. -/
def advanceAt (key : ι → K) (work : ι → D → Option D × O) (σ : Systems ι K D O) (i : ι) :
    Systems ι K D O :=
  let τ := advance work (σ.at key (key i)) i
  { stored := Function.update σ.stored (key i) τ.stored
    phase := Function.update σ.phase i (τ.phase i) }

variable {key : ι → K} {work : ι → D → Option D × O}

omit [DecidableEq ι] in
theorem Systems.at_phase (σ : Systems ι K D O) (i : ι) :
    (σ.at key (key i)).phase i = σ.phase i := if_pos rfl

omit [DecidableEq ι] in
theorem System.eq_of_phase {σ τ : System ι D O} (hs : σ.stored = τ.stored)
    (hp : ∀ i, σ.phase i = τ.phase i) : σ = τ := by
  obtain ⟨stored, phase⟩ := σ
  obtain ⟨stored', phase'⟩ := τ
  obtain rfl : stored = stored' := hs
  obtain rfl : phase = phase' := funext hp
  rfl

/-- **An action is one on the record of its key, and on no other.** -/
theorem advanceAt_at (σ : Systems ι K D O) (i : ι) (k : K) :
    (advanceAt key work σ i).at key k =
      if key i = k then advance work (σ.at key k) i else σ.at key k := by
  by_cases hk : key i = k
  · subst hk
    rw [if_pos rfl]
    refine System.eq_of_phase (by simp [advanceAt, Systems.at]) fun j => ?_
    by_cases hj : j = i
    · subst hj
      simp [advanceAt, Systems.at]
    · rw [advance_phase_ne hj]
      simp [advanceAt, Systems.at, hj]
  · rw [if_neg hk]
    refine System.eq_of_phase (by simp [advanceAt, Systems.at, Ne.symm hk]) fun j => ?_
    by_cases hj : j = i
    · subst hj
      simp [advanceAt, Systems.at, hk]
    · simp [advanceAt, Systems.at, hj]

/-- **What happens to one record** is the schedule of its own clients. -/
theorem run_at (d : K → D) (schedule : List ι) (k : K) :
    (run (advanceAt key work) (Systems.init d) schedule).at key k =
      run (advance work) (System.init (d k)) (schedule.filter fun i => key i = k) := by
  have hinit : (Systems.init d : Systems ι K D O).at key k = System.init (d k) := by
    simp [Systems.init, Systems.at, System.init]
  rw [← hinit]
  generalize (Systems.init d : Systems ι K D O) = σ
  induction schedule generalizing σ with
  | nil => rfl
  | cons i schedule ih =>
    rw [run_cons, ih, advanceAt_at, List.filter_cons]
    by_cases hk : key i = k
    · rw [if_pos hk, if_pos (decide_eq_true hk), run_cons]
    · rw [if_neg hk, if_neg (by simpa using hk)]

end Keys

end Lib.Copies
