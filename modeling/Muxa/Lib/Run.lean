/-
# Run: what holds along a sequence of steps

A deterministic system is a function `step : σ → α → σ` from a state and an input to the next
state; a run is the list of inputs, folded.  What a run has to say about an invariant, about
the step that made a property true, or about an abstract system it simulates is the same for
every system, and is proved here once:

* `run_invariant`: what every permitted step keeps, every permitted run keeps;
* `run_switch`: a property that was false and is true was made true by one step of the run,
  and was true after every step from there on;
* `tryRun_simulates`: a partial system that matches an abstract one step by step never gets
  stuck and matches it on whole runs.
-/
import Mathlib.Data.List.Induction
import Mathlib.Tactic.Common

namespace Lib.Run

variable {σ τ α : Type*}

/-! ## 1. Runs and what is permitted along them -/

/-- The state after a list of inputs. -/
def run (step : σ → α → σ) (s : σ) (l : List α) : σ := l.foldl step s

@[simp] theorem run_nil (step : σ → α → σ) (s : σ) : run step s [] = s := rfl

@[simp] theorem run_cons (step : σ → α → σ) (s : σ) (a : α) (l : List α) :
    run step s (a :: l) = run step (step s a) l := rfl

theorem run_append (step : σ → α → σ) (s : σ) (l l' : List α) :
    run step s (l ++ l') = run step (run step s l) l' := List.foldl_append

theorem run_concat (step : σ → α → σ) (s : σ) (l : List α) (a : α) :
    run step s (l ++ [a]) = step (run step s l) a := by
  rw [run_append, run_cons, run_nil]

/-- Every input of the run was permitted in the state it met. -/
def Along (step : σ → α → σ) (ok : σ → α → Prop) : σ → List α → Prop
  | _, [] => True
  | s, a :: l => ok s a ∧ Along step ok (step s a) l

instance {step : σ → α → σ} {ok : σ → α → Prop} [∀ s a, Decidable (ok s a)] :
    ∀ (s : σ) (l : List α), Decidable (Along step ok s l)
  | _, [] => isTrue trivial
  | s, a :: l =>
    have : Decidable (Along step ok (step s a) l) := instDecidableAlong (step s a) l
    inferInstanceAs (Decidable (_ ∧ _))

theorem Along.append {step : σ → α → σ} {ok : σ → α → Prop} {l l' : List α} {s : σ} :
    Along step ok s (l ++ l') ↔ Along step ok s l ∧ Along step ok (run step s l) l' := by
  induction l generalizing s with
  | nil => simp [Along]
  | cons a l ih =>
    simp only [List.cons_append, Along, run_cons]
    rw [ih, and_assoc]

theorem Along.take {step : σ → α → σ} {ok : σ → α → Prop} {s : σ} {l l' : List α}
    (h : Along step ok s (l ++ l')) : Along step ok s l := (Along.append.mp h).1

/-- A run permitted by one rule is permitted by another that allows the same inputs of it. -/
theorem Along.mono_mem {step : σ → α → σ} {ok ok' : σ → α → Prop} {l : List α} {s : σ}
    (himp : ∀ s, ∀ a ∈ l, ok s a → ok' s a) (h : Along step ok s l) : Along step ok' s l := by
  induction l generalizing s with
  | nil => trivial
  | cons a l ih =>
    constructor
    · exact himp s a List.mem_cons_self h.1
    · exact ih (fun s' b hb => himp s' b (List.mem_cons_of_mem _ hb)) h.2

/-- A run is permitted when every input of it is, in the state the inputs before it lead to. -/
theorem along_of_prefix {step : σ → α → σ} {ok : σ → α → Prop} {l : List α} {s : σ}
    (h : ∀ pre a, pre ++ [a] <+: l → ok (run step s pre) a) : Along step ok s l := by
  induction l generalizing s with
  | nil => trivial
  | cons a l ih =>
    constructor
    · exact h [] a ⟨l, rfl⟩
    · refine ih fun pre b hpre => ?_
      exact h (a :: pre) b (List.cons_prefix_cons.mpr ⟨rfl, hpre⟩)

/-- A run that is not permitted has a first input that was not. -/
theorem exists_first_of_not_along {step : σ → α → σ} {ok : σ → α → Prop} {l : List α} {s : σ}
    (h : ¬ Along step ok s l) :
    ∃ pre a post, l = pre ++ a :: post ∧ Along step ok s pre ∧ ¬ ok (run step s pre) a := by
  induction l generalizing s with
  | nil => exact absurd trivial h
  | cons a l ih =>
    by_cases hok : ok s a
    · obtain ⟨pre, b, post, rfl, hpre, hb⟩ := ih fun hl => h ⟨hok, hl⟩
      exact ⟨a :: pre, b, post, rfl, ⟨hok, hpre⟩, hb⟩
    · exact ⟨[], a, l, rfl, trivial, hok⟩

/-- A rule that does not look at the state permits a run when it permits every input of it. -/
theorem along_of_forall {step : σ → α → σ} {p : α → Prop} {l : List α} {s : σ}
    (h : ∀ a ∈ l, p a) : Along step (fun _ a => p a) s l := by
  refine along_of_prefix fun pre a hpre => h a ?_
  exact hpre.subset (List.mem_append_right _ (List.mem_singleton_self a))

/-- **The invariant rule.** -/
theorem run_invariant {step : σ → α → σ} {ok : σ → α → Prop} {I : σ → Prop}
    (hstep : ∀ s a, I s → ok s a → I (step s a)) (l : List α) (s : σ) (hI : I s)
    (h : Along step ok s l) : I (run step s l) := by
  induction l generalizing s with
  | nil => exact hI
  | cons a l ih => exact ih (step s a) (hstep s a hI h.1) h.2

/-! ## 2. Where a property became true -/

/-- **The step that switched a property on.**  If `P` fails before a run and holds after it,
one input `a` of the run made it true, and it stayed true after every input that followed. -/
theorem run_switch {step : σ → α → σ} {P : σ → Prop} {s : σ} (h0 : ¬ P s) (l : List α)
    (hl : P (run step s l)) :
    ∃ pre a mid, l = pre ++ a :: mid ∧ ¬ P (run step s pre) ∧
      ∀ k, k <+: mid → P (run step s (pre ++ a :: k)) := by
  induction l using List.reverseRecOn with
  | nil => exact absurd hl h0
  | append_singleton l a ih =>
    by_cases hP : P (run step s l)
    · obtain ⟨pre, b, mid, rfl, hpre, hmid⟩ := ih hP
      refine ⟨pre, b, mid ++ [a], by simp, hpre, ?_⟩
      intro k hk
      rcases List.prefix_concat_iff.mp hk with rfl | hk
      · simpa using hl
      · exact hmid k hk
    · refine ⟨l, a, [], rfl, hP, ?_⟩
      intro k hk
      rw [List.prefix_nil.mp hk]
      exact hl

/-! ## 3. Partial steps, and simulation -/

/-- The state after a list of inputs, `none` once a step fails. -/
def tryRun (step : σ → α → Option σ) : σ → List α → Option σ
  | s, [] => some s
  | s, a :: l => (step s a).bind fun s' => tryRun step s' l

theorem tryRun_concat (step : σ → α → Option σ) (s : σ) (l : List α) (a : α) :
    tryRun step s (l ++ [a]) = (tryRun step s l).bind fun s' => step s' a := by
  induction l generalizing s with
  | nil => cases h : step s a <;> simp [tryRun, h]
  | cons b l ih =>
    cases h : step s b with
    | none => simp [tryRun, h]
    | some s' => simp [tryRun, h, ih]

/-- **The simulation rule.**  If every input the abstract system permits is one the concrete
step can take, keeping the relation, a permitted run never gets stuck and ends in related
states. -/
theorem tryRun_simulates {step : σ → α → Option σ} {spec : τ → α → τ} {ok : τ → α → Prop}
    {R : σ → τ → Prop}
    (hstep : ∀ s t a, R s t → ok t a → ∃ s', step s a = some s' ∧ R s' (spec t a))
    (l : List α) (s : σ) (t : τ) (hR : R s t) (h : Along spec ok t l) :
    ∃ s', tryRun step s l = some s' ∧ R s' (run spec t l) := by
  induction l generalizing s t with
  | nil => exact ⟨s, rfl, hR⟩
  | cons a l ih =>
    obtain ⟨s', hs', hR'⟩ := hstep s t a hR h.1
    obtain ⟨s'', hs'', hR''⟩ := ih s' (spec t a) hR' h.2
    exact ⟨s'', by simp [tryRun, hs', hs''], hR''⟩

end Lib.Run
