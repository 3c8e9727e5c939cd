/-
# Copies: clients that load a record, work on their own copy and write it back

A record sits in a store that serialises single loads and single saves and nothing more.  Each
client loads the whole record once, computes on its copy (`work`: an outcome, and the record to
write back, if it changed anything), and saves.  A schedule is a list of clients; every mention
advances that client by one of these three actions, so every interleaving is a schedule, and a
client that never appears again has died.

`got_at_most_once` is the rule for a token that can be taken out of the record: if every write
leaves it out, and no client loads a record it could take the token from while another client
has one in hand and unsaved, then one client gets it at most.  `overlap_gets_twice` is the other
side: one such load is enough for two clients to get it.

`serial_run` is the rule for everything else a record can hold: when no client loads while another
one has a copy in hand, the schedule amounts to the clients running one after the other.  When all
of them have loaded the same record, what one client writes is all that is left of their work
(`stale_run`).
-/
import Mathlib.Data.Fintype.Defs
import Mathlib.Logic.Function.Basic
import Muxa.Lib.Run

namespace Lib.Copies

open Lib.Run

variable {ι D O : Type} [DecidableEq ι]

/-! ## 1. The system -/

/-- Where a client is. -/
inductive Phase (D O : Type) where
  | waiting
  | loaded (copy : D)
  | worked (copy : D) (write : Option D) (out : O)
  | ended (copy : D) (out : O)

def Phase.isWaiting : Phase D O → Bool
  | .waiting => true
  | .loaded _ | .worked _ _ _ | .ended _ _ => false

theorem Phase.eq_waiting {p : Phase D O} (h : p.isWaiting = true) : p = .waiting := by
  cases p with
  | waiting => rfl
  | loaded _ | worked _ _ _ | ended _ _ => cases h

def Phase.copy : Phase D O → Option D
  | .waiting => none
  | .loaded c | .worked c _ _ | .ended c _ => some c

/-- The copy of a client that has not saved yet. -/
def Phase.inHand : Phase D O → Option D
  | .loaded c | .worked c _ _ => some c
  | .waiting | .ended _ _ => none

theorem Phase.copy_of_inHand {p : Phase D O} {c : D} (h : p.inHand = some c) :
    p.copy = some c := by
  cases p with
  | waiting => cases h
  | loaded d => exact h
  | worked d write out => exact h
  | ended d out => cases h

/-- The outcome of a client that has done its work. -/
def Phase.out : Phase D O → Option O
  | .worked _ _ out | .ended _ out => some out
  | .waiting | .loaded _ => none

/-- The store and the clients.  The store knows nothing of the copies that the clients work on. -/
structure System (ι D O : Type) where
  stored : D
  phase : ι → Phase D O

def System.init (d : D) : System ι D O := ⟨d, fun _ => .waiting⟩

/-- The next action of client `i`: it loads the record, works on its copy, or writes the whole copy
back, if it changed anything. -/
def advance (work : ι → D → Option D × O) (σ : System ι D O) (i : ι) : System ι D O :=
  match σ.phase i with
  | .waiting => { σ with phase := Function.update σ.phase i (.loaded σ.stored) }
  | .loaded c => { σ with phase := Function.update σ.phase i (.worked c (work i c).1 (work i c).2) }
  | .worked c write out =>
    { stored := write.getD σ.stored, phase := Function.update σ.phase i (.ended c out) }
  | .ended _ _ => σ

variable {work : ι → D → Option D × O} {σ : System ι D O} {i j : ι}

@[simp] theorem advance_phase_ne (h : j ≠ i) : (advance work σ i).phase j = σ.phase j := by
  unfold advance
  split <;> simp [h]

theorem advance_waiting (h : σ.phase i = .waiting) : advance work σ i =
    { σ with phase := Function.update σ.phase i (.loaded σ.stored) } := by
  rw [advance, h]

theorem advance_loaded {c : D} (h : σ.phase i = .loaded c) : advance work σ i =
    { σ with
      phase := Function.update σ.phase i (.worked c (work i c).1 (work i c).2) } := by
  rw [advance, h]

theorem advance_worked {c : D} {write : Option D} {out : O} (h : σ.phase i = .worked c write out) :
    advance work σ i =
      { stored := write.getD σ.stored, phase := Function.update σ.phase i (.ended c out) } := by
  rw [advance, h]

theorem advance_ended {c : D} {out : O} (h : σ.phase i = .ended c out) :
    advance work σ i = σ := by
  rw [advance, h]

/-- Outcomes and writes are those of the work on the copy. -/
def Honest (work : ι → D → Option D × O) (σ : System ι D O) : Prop :=
  ∀ i, match σ.phase i with
    | .worked c write out => write = (work i c).1 ∧ out = (work i c).2
    | .ended c out => out = (work i c).2
    | _ => True

theorem honest_advance (h : Honest work σ) (i : ι) : Honest work (advance work σ i) := by
  intro j
  by_cases hj : j = i
  · subst hj
    have hi := h j
    cases hphase : σ.phase j with
    | waiting => simp [advance_waiting hphase]
    | loaded c => simp [advance_loaded hphase]
    | worked c write out =>
      rw [hphase] at hi
      simp [advance_worked hphase, hi.2]
    | ended c out =>
      rw [advance_ended hphase]
      exact h j
  · rw [advance_phase_ne hj]
    exact h j

theorem honest_run (work : ι → D → Option D × O) (d₀ : D) (schedule : List ι) :
    Honest work (run (advance work) (System.init d₀) schedule) :=
  run_invariant (I := Honest work) (fun _ i hI _ => honest_advance hI i) schedule _
    (fun _ => trivial) (along_of_forall (p := fun _ => True) fun _ _ => trivial)

/-! ## 2. A token that is taken once -/

/-- Client `i` would take the token out of the record; every write leaves it out. -/
structure TakesToken (work : ι → D → Option D × O) (has : D → Prop) (gets : ι → D → Prop) :
    Prop where
  has_of_gets : ∀ i d, gets i d → has d
  writes : ∀ i d, gets i d → ∃ d', (work i d).1 = some d'
  leavesOut : ∀ i d d', (work i d).1 = some d' → ¬ has d'

/-- **Undisturbed**: client `i` does not load a record it could take the token from while another
client has such a copy in hand. -/
def Undisturbed (gets : ι → D → Prop) (σ : System ι D O) (i : ι) : Prop :=
  (σ.phase i).isWaiting = true → gets i σ.stored → ∀ j, ∀ c ∈ (σ.phase j).inHand, ¬ gets j c

instance [Fintype ι] {gets : ι → D → Prop} [∀ i d, Decidable (gets i d)] (σ : System ι D O)
    (i : ι) : Decidable (Undisturbed gets σ i) :=
  inferInstanceAs (Decidable (_ → _ → ∀ j, ∀ c ∈ (σ.phase j).inHand, ¬ gets j c))

/-- The token is with one client at most, and back in the store no more once that client saved. -/
structure OneHolder (has : D → Prop) (gets : ι → D → Prop) (σ : System ι D O) : Prop where
  one : ∀ i j c d, (σ.phase i).copy = some c → (σ.phase j).copy = some d → gets i c → gets j d →
    i = j
  gone : ∀ i c out, σ.phase i = .ended c out → gets i c → ¬ has σ.stored

omit [DecidableEq ι] in
theorem oneHolder_init (has : D → Prop) (gets : ι → D → Prop) (d : D) :
    OneHolder has gets (System.init d : System ι D O) :=
  ⟨fun i j c d h => by simp [System.init, Phase.copy] at h,
    fun i c out h => by simp [System.init] at h⟩

/-- An action that keeps the copy of client `i` keeps every client's. -/
theorem update_copy {p : Phase D O} (h : p.copy = (σ.phase i).copy) (a : ι) :
    (Function.update σ.phase i p a).copy = (σ.phase a).copy := by
  by_cases hai : a = i
  · subst hai
    simp [h]
  · simp [hai]

/-- **A load.**  Another client with a copy that has the token has saved it, since the load is
undisturbed, and then the store has the token no more. -/
theorem oneHolder_load {has : D → Prop} {gets : ι → D → Prop} (ht : TakesToken work has gets)
    (h : OneHolder has gets σ) (hphase : σ.phase i = .waiting) (hu : Undisturbed gets σ i) :
    OneHolder has gets (advance work σ i) := by
  have hother : gets i σ.stored → ∀ j c, (σ.phase j).copy = some c → ¬ gets j c := by
    intro hi j c hc hj
    have hhand : ∀ c' ∈ (σ.phase j).inHand, ¬ gets j c' := hu (by rw [hphase]; rfl) hi j
    cases hpj : σ.phase j with
    | waiting => simp [hpj, Phase.copy] at hc
    | loaded c' | worked c' write out =>
      obtain rfl : c' = c := by simpa [hpj, Phase.copy] using hc
      exact hhand c' (by rw [hpj]; rfl) hj
    | ended c' out =>
      obtain rfl : c' = c := by simpa [hpj, Phase.copy] using hc
      exact h.gone j c' out hpj hj (ht.has_of_gets i _ hi)
  rw [advance_waiting hphase]
  constructor
  · intro a b c d ha hb hga hgb
    by_cases hai : a = i <;> by_cases hbi : b = i
    · rw [hai, hbi]
    · subst hai
      obtain rfl : σ.stored = c := by simpa [Phase.copy] using ha
      exact absurd hgb (hother hga b d (by simpa [hbi] using hb))
    · subst hbi
      obtain rfl : σ.stored = d := by simpa [Phase.copy] using hb
      exact absurd hga (hother hgb a c (by simpa [hai] using ha))
    · exact h.one a b c d (by simpa [hai] using ha) (by simpa [hbi] using hb) hga hgb
  · intro a c out ha
    by_cases hai : a = i
    · subst hai
      simp at ha
    · exact h.gone a c out (by simpa [hai] using ha)

/-- **The work** touches neither the copies nor the store. -/
theorem oneHolder_work {has : D → Prop} {gets : ι → D → Prop} (h : OneHolder has gets σ) {c₀ : D}
    (hphase : σ.phase i = .loaded c₀) : OneHolder has gets (advance work σ i) := by
  have hcopy : ∀ a, (Function.update σ.phase i
      (.worked c₀ (work i c₀).1 (work i c₀).2) a).copy = (σ.phase a).copy :=
    update_copy (by rw [hphase]; rfl)
  rw [advance_loaded hphase]
  constructor
  · intro a b c d ha hb
    dsimp only at ha hb
    rw [hcopy] at ha hb
    exact h.one a b c d ha hb
  · intro a c out ha
    by_cases hai : a = i
    · subst hai
      simp at ha
    · exact h.gone a c out (by simpa [hai] using ha)

/-- **A save** leaves the token out of the store; a client that got it writes something back. -/
theorem oneHolder_save {has : D → Prop} {gets : ι → D → Prop} (ht : TakesToken work has gets)
    (hh : Honest work σ) (h : OneHolder has gets σ) {c₀ : D} {write : Option D} {out₀ : O}
    (hphase : σ.phase i = .worked c₀ write out₀) : OneHolder has gets (advance work σ i) := by
  have hcopy : ∀ a, (Function.update σ.phase i (.ended c₀ out₀) a).copy = (σ.phase a).copy :=
    update_copy (by rw [hphase]; rfl)
  have hwrite : write = (work i c₀).1 := by
    have := hh i
    rw [hphase] at this
    exact this.1
  rw [advance_worked hphase]
  constructor
  · intro a b c d ha hb
    dsimp only at ha hb
    rw [hcopy] at ha hb
    exact h.one a b c d ha hb
  · intro a c out ha hga
    dsimp only at ha ⊢
    cases hw : write with
    | some d' => exact ht.leavesOut i c₀ d' (by rw [← hwrite, hw])
    | none =>
      by_cases hai : a = i
      · subst hai
        obtain ⟨rfl, rfl⟩ : c₀ = c ∧ out₀ = out := by simpa using ha
        obtain ⟨d', hd'⟩ := ht.writes a c₀ hga
        rw [← hwrite, hw] at hd'
        cases hd'
      · exact h.gone a c out (by simpa [hai] using ha) hga

/-- **One action keeps the token with one client.** -/
theorem oneHolder_advance {has : D → Prop} {gets : ι → D → Prop} (ht : TakesToken work has gets)
    (hh : Honest work σ) (h : OneHolder has gets σ) (hu : Undisturbed gets σ i) :
    OneHolder has gets (advance work σ i) := by
  cases hphase : σ.phase i with
  | waiting => exact oneHolder_load ht h hphase hu
  | loaded c => exact oneHolder_work h hphase
  | worked c write out => exact oneHolder_save ht hh h hphase
  | ended c out =>
    rw [advance_ended hphase]
    exact h

/-- **The token is got at most once** along an undisturbed schedule. -/
theorem got_at_most_once {has : D → Prop} {gets : ι → D → Prop} (ht : TakesToken work has gets)
    {d₀ : D} {schedule : List ι}
    (h : Along (advance work) (Undisturbed gets) (System.init d₀) schedule) :
    Honest work (run (advance work) (System.init d₀) schedule) ∧
      OneHolder has gets (run (advance work) (System.init d₀) schedule) :=
  run_invariant (I := fun σ => Honest work σ ∧ OneHolder has gets σ)
    (fun _ i hI hu => ⟨honest_advance hI.1 i, oneHolder_advance ht hI.1 hI.2 hu⟩) schedule _
    ⟨fun _ => trivial, oneHolder_init has gets d₀⟩ h

/-- **One disturbing load is enough**: let the two clients go on, and both have done their work
on a copy with the token. -/
theorem overlap_gets_twice {gets : ι → D → Prop} (hh : Honest work σ)
    (h : ¬ Undisturbed gets σ i) :
    ∃ j c schedule, j ≠ i ∧ gets i σ.stored ∧ gets j c ∧
      ((run (advance work) σ schedule).phase i).out = some (work i σ.stored).2 ∧
      ((run (advance work) σ schedule).phase j).out = some (work j c).2 := by
  simp only [Undisturbed, not_forall, not_not] at h
  obtain ⟨hwait, hgi, j, c, hj, hgj⟩ := h
  have hi := Phase.eq_waiting hwait
  rw [Option.mem_def] at hj
  have hne : j ≠ i := by
    rintro rfl
    rw [hi] at hj
    cases hj
  -- client `i` loads and works; client `j` works unless it already has
  have hwork : ∃ σ', run (advance work) σ [i, i] = σ' ∧
      (σ'.phase i).out = some (work i σ.stored).2 ∧ σ'.phase j = σ.phase j := by
    have hload : (advance work σ i).phase i = .loaded σ.stored := by
      simp [advance_waiting hi]
    refine ⟨_, rfl, ?_, by simp [hne]⟩
    rw [run_cons, run_cons, run_nil, advance_loaded hload]
    simp [Phase.out]
  obtain ⟨σ', hrun, hout, hsame⟩ := hwork
  cases hpj : σ.phase j with
  | waiting => simp [hpj, Phase.inHand] at hj
  | ended c' out => simp [hpj, Phase.inHand] at hj
  | loaded c' =>
    obtain rfl : c' = c := by simpa [hpj, Phase.inHand] using hj
    refine ⟨j, c', [i, i] ++ [j], hne, hgi, hgj, ?_, ?_⟩ <;> rw [run_concat, hrun]
    · rw [advance_phase_ne hne.symm, hout]
    · rw [advance_loaded (hsame.trans hpj)]
      simp [Phase.out]
  | worked c' write out =>
    obtain rfl : c' = c := by simpa [hpj, Phase.inHand] using hj
    have hhj := hh j
    rw [hpj] at hhj
    refine ⟨j, c', [i, i], hne, hgi, hgj, ?_, ?_⟩ <;> rw [hrun]
    · exact hout
    · rw [hsame, hpj, ← hhj.2]
      rfl

/-! ## 3. Serial schedules -/

/-- The record that client `i` makes of `d`. -/
def result (work : ι → D → Option D × O) (d : D) (i : ι) : D := (work i d).1.getD d

/-- **Alone**: client `i` does not load the record while another client has a copy in hand. -/
def LoadsAlone (σ : System ι D O) (i : ι) : Prop :=
  (σ.phase i).isWaiting = true → ∀ j, (σ.phase j).inHand.isNone = true

instance [Fintype ι] (σ : System ι D O) (i : ι) : Decidable (LoadsAlone σ i) :=
  inferInstanceAs (Decidable (_ → ∀ j, (σ.phase j).inHand.isNone = true))

/-- The clients in `order` have ended, one after the other, and one more at most is at work. -/
structure Serial (work : ι → D → Option D × O) (d₀ : D) (order : List ι) (σ : System ι D O) :
    Prop where
  stored : σ.stored = order.foldl (result work) d₀
  ended : ∀ i, i ∈ order ↔ ∃ c out, σ.phase i = .ended c out
  nodup : order.Nodup
  copies : ∀ pre i post, order = pre ++ i :: post →
    σ.phase i = .ended (pre.foldl (result work) d₀) (work i (pre.foldl (result work) d₀)).2
  inHand : ∀ i, ∀ c ∈ (σ.phase i).inHand, c = σ.stored
  one : ∀ i j c d, c ∈ (σ.phase i).inHand → d ∈ (σ.phase j).inHand → i = j

omit [DecidableEq ι] in
theorem serial_init (d₀ : D) : Serial work d₀ [] (System.init d₀) where
  stored := rfl
  ended i := by simp [System.init]
  nodup := List.nodup_nil
  copies pre i post h := by simp at h
  inHand i c h := by simp [System.init, Phase.inHand] at h
  one i j c d h := by simp [System.init, Phase.inHand] at h

/-- A client that has not ended and does not end keeps what the others have ended with. -/
theorem ended_update {p : Phase D O} (hi : ∀ c out, σ.phase i ≠ .ended c out)
    (hp : ∀ c out, p ≠ .ended c out) (j : ι) (c : D) (out : O) :
    Function.update σ.phase i p j = .ended c out ↔ σ.phase j = .ended c out := by
  by_cases hj : j = i
  · subst hj
    rw [Function.update_self]
    exact iff_of_false (hp c out) (hi c out)
  · rw [Function.update_of_ne hj]

/-- **A load**, while nobody has a copy in hand. -/
theorem serial_load {d₀ : D} {order : List ι} (h : Serial work d₀ order σ)
    (hphase : σ.phase i = .waiting) (halone : LoadsAlone σ i) :
    Serial work d₀ order (advance work σ i) := by
  have hnobody : ∀ j c, c ∉ (σ.phase j).inHand := by
    intro j c hc
    have hj := halone (by rw [hphase]; rfl) j
    rw [Option.isNone_iff_eq_none.mp hj] at hc
    cases hc
  have hended := ended_update (p := .loaded σ.stored) (i := i) (σ := σ) (by simp [hphase]) (by simp)
  rw [advance_waiting hphase]
  refine ⟨h.stored, ?_, h.nodup, ?_, ?_, ?_⟩
  · intro j
    rw [h.ended j]
    simp only [hended]
  · intro pre j post horder
    exact (hended j _ _).mpr (h.copies pre j post horder)
  · intro j c hc
    by_cases hj : j = i
    · subst hj
      simpa [Phase.inHand, eq_comm] using hc
    · exact absurd (by simpa [hj] using hc) (hnobody j c)
  · intro j k c d hc hd
    by_cases hj : j = i <;> by_cases hk : k = i
    · rw [hj, hk]
    · exact absurd (by simpa [hk] using hd) (hnobody k d)
    · exact absurd (by simpa [hj] using hc) (hnobody j c)
    · exact absurd (by simpa [hj] using hc) (hnobody j c)

/-- **The work** of a client on its copy. -/
theorem serial_work {d₀ : D} {order : List ι} (h : Serial work d₀ order σ) {c₀ : D}
    (hphase : σ.phase i = .loaded c₀) : Serial work d₀ order (advance work σ i) := by
  have hhand : ∀ j, (Function.update σ.phase i (.worked c₀ (work i c₀).1 (work i c₀).2) j).inHand =
      (σ.phase j).inHand := by
    intro j
    by_cases hj : j = i
    · subst hj
      rw [Function.update_self, hphase]
      rfl
    · rw [Function.update_of_ne hj]
  have hended := ended_update (p := .worked c₀ (work i c₀).1 (work i c₀).2) (i := i) (σ := σ)
    (by simp [hphase]) (by simp)
  rw [advance_loaded hphase]
  refine ⟨h.stored, ?_, h.nodup, ?_, ?_, ?_⟩
  · intro j
    rw [h.ended j]
    simp only [hended]
  · intro pre j post horder
    exact (hended j _ _).mpr (h.copies pre j post horder)
  · intro j c hc
    dsimp only at hc
    rw [hhand] at hc
    exact h.inHand j c hc
  · intro j k c d hc hd
    dsimp only at hc hd
    rw [hhand] at hc hd
    exact h.one j k c d hc hd

omit [DecidableEq ι] in
/-- A place in a list that has one element more. -/
theorem concat_eq_append_cons {l pre post : List ι} {a b : ι} (h : l ++ [a] = pre ++ b :: post) :
    pre = l ∧ b = a ∨ ∃ post', l = pre ++ b :: post' := by
  rcases List.eq_nil_or_concat post with rfl | ⟨post, c, rfl⟩
  · obtain ⟨rfl, hb⟩ := List.append_inj' h rfl
    exact .inl ⟨rfl, (List.singleton_inj.mp hb).symm⟩
  · rw [List.concat_eq_append, ← List.cons_append, ← List.append_assoc] at h
    exact .inr ⟨post, (List.append_inj' h rfl).1⟩

omit [DecidableEq ι] in
theorem Serial.others {d₀ : D} {order : List ι} (h : Serial work d₀ order σ) {c : D}
    (hc : c ∈ (σ.phase i).inHand) (j : ι) (hj : j ≠ i) : (σ.phase j).inHand = none := by
  cases hhand : (σ.phase j).inHand with
  | none => rfl
  | some d => exact absurd (h.one j i d c hhand hc) hj

/-- **A save**: the client goes to the end of the order. -/
theorem serial_save {d₀ : D} {order : List ι} (hh : Honest work σ) (h : Serial work d₀ order σ)
    {c₀ : D} {write : Option D} {out₀ : O} (hphase : σ.phase i = .worked c₀ write out₀) :
    Serial work d₀ (order ++ [i]) (advance work σ i) := by
  obtain ⟨rfl, rfl⟩ : write = (work i c₀).1 ∧ out₀ = (work i c₀).2 := by
    have := hh i
    rwa [hphase] at this
  have hcopy : c₀ = order.foldl (result work) d₀ := by
    rw [← h.stored]
    exact h.inHand i c₀ (by rw [hphase]; rfl)
  have hnew : i ∉ order := by
    intro hi
    obtain ⟨c, out, hended⟩ := (h.ended i).mp hi
    rw [hphase] at hended
    cases hended
  have hnobody : ∀ j c, c ∉ (Function.update σ.phase i (.ended c₀ (work i c₀).2) j).inHand := by
    intro j c hc
    by_cases hj : j = i
    · subst hj
      simp [Phase.inHand] at hc
    · rw [Function.update_of_ne hj, h.others (c := c₀) (by rw [hphase]; rfl) j hj] at hc
      cases hc
  rw [advance_worked hphase]
  refine ⟨?_, ?_, ?_, ?_, ?_, ?_⟩
  · rw [List.foldl_append, List.foldl_cons, List.foldl_nil, ← hcopy, h.stored, ← hcopy]
    rfl
  · intro j
    by_cases hj : j = i
    · subst hj
      simp
    · simp [hj, h.ended j]
  · rw [← List.concat_eq_append]
    exact List.Nodup.concat hnew h.nodup
  · intro pre j post horder
    dsimp only
    rcases concat_eq_append_cons horder with ⟨rfl, rfl⟩ | ⟨post', hold⟩
    · rw [Function.update_self, ← hcopy]
    · have hj : j ≠ i := by
        rintro rfl
        rw [hold] at hnew
        simp at hnew
      rw [Function.update_of_ne hj]
      exact h.copies pre j post' hold
  · intro j c hc
    exact absurd hc (hnobody j c)
  · intro j k c d hc
    exact absurd hc (hnobody j c)

/-- **The clients take turns.** -/
theorem serial_run {d₀ : D} {schedule : List ι}
    (h : Along (advance work) LoadsAlone (System.init d₀) schedule) :
    ∃ order, Serial work d₀ order (run (advance work) (System.init d₀) schedule) := by
  refine (run_invariant (I := fun σ => Honest work σ ∧ ∃ order, Serial work d₀ order σ)
    ?_ schedule _ ⟨fun _ => trivial, [], serial_init d₀⟩ h).2
  rintro σ i ⟨hh, order, hserial⟩ halone
  refine ⟨honest_advance hh i, ?_⟩
  cases hphase : σ.phase i with
  | waiting => exact ⟨order, serial_load hserial hphase halone⟩
  | loaded c => exact ⟨order, serial_work hserial hphase⟩
  | worked c write out => exact ⟨order ++ [i], serial_save hh hserial hphase⟩
  | ended c out =>
    rw [advance_ended hphase]
    exact ⟨order, hserial⟩

/-! ## 4. Clients with the same copy -/

/-- All clients have loaded `d₀`; the store holds it still, or what one of them made of it. -/
structure Stale (work : ι → D → Option D × O) (d₀ : D) (σ : System ι D O) : Prop where
  copies : ∀ i, (σ.phase i).copy = some d₀
  stored : σ.stored = d₀ ∨ ∃ i, (work i d₀).1 = some σ.stored

theorem stale_advance {d₀ : D} (hh : Honest work σ) (h : Stale work d₀ σ) (i : ι) :
    Stale work d₀ (advance work σ i) := by
  have hi := h.copies i
  cases hphase : σ.phase i with
  | waiting => simp [hphase, Phase.copy] at hi
  | loaded c =>
    rw [advance_loaded hphase]
    refine ⟨fun j => ?_, h.stored⟩
    rw [← h.copies j]
    exact update_copy (by rw [hphase]; rfl) j
  | worked c write out =>
    obtain rfl : c = d₀ := by simpa [hphase, Phase.copy] using hi
    have hwrite : write = (work i c).1 := by
      have := hh i
      rw [hphase] at this
      exact this.1
    rw [advance_worked hphase]
    refine ⟨fun j => ?_, ?_⟩
    · rw [← h.copies j]
      exact update_copy (by rw [hphase]; rfl) j
    · cases hw : write with
      | none => exact h.stored
      | some d => exact .inr ⟨i, by rw [← hwrite, hw]; rfl⟩
  | ended c out =>
    rw [advance_ended hphase]
    exact h

/-- **The last one to write is the only one left.** -/
theorem stale_run {d₀ : D} (hh : Honest work σ) (h : Stale work d₀ σ) (schedule : List ι) :
    Stale work d₀ (run (advance work) σ schedule) :=
  (run_invariant (I := fun σ => Honest work σ ∧ Stale work d₀ σ)
    (fun _ i hI _ => ⟨honest_advance hI.1 i, stale_advance hI.1 hI.2 i⟩) schedule σ ⟨hh, h⟩
    (along_of_forall (p := fun _ => True) fun _ _ => trivial)).2

/-! ## 5. Two clients -/

/-- Two clients in an order that both are in. -/
theorem eq_pair_of_nodup {order : List Bool} (hnodup : order.Nodup) (hall : ∀ i, i ∈ order) :
    ∃ a, order = [a, !a] := by
  have hperm : order.Perm [true, false] :=
    (List.perm_ext_iff_of_nodup hnodup (by decide)).mpr fun i => by simp [hall i]
  obtain ⟨a, b, rfl⟩ := List.length_eq_two.mp hperm.length_eq
  have hne : b ≠ a := by simpa [eq_comm] using hnodup
  exact ⟨a, by rw [Bool.eq_not_of_ne hne]⟩

/-- **An overlap**: after the first load that is not alone both clients have the same copy. -/
theorem stale_of_not_along {work : Bool → D → Option D × O} {d₀ : D} {schedule : List Bool}
    (h : ¬ Along (advance work) LoadsAlone (System.init d₀) schedule) :
    Stale work d₀ (run (advance work) (System.init d₀) schedule) := by
  obtain ⟨pre, i, post, rfl, hpre, hload⟩ := exists_first_of_not_along h
  obtain ⟨order, hserial⟩ := serial_run hpre
  have hhonest := honest_run work d₀ pre
  rw [run_append, run_cons]
  generalize run (advance work) (System.init d₀) pre = σ at hload hserial hhonest ⊢
  simp only [LoadsAlone, not_forall, Bool.not_eq_true, Option.isNone_eq_false_iff] at hload
  obtain ⟨hwaiting, j, hhand⟩ := hload
  obtain ⟨copy, hcopy⟩ := Option.isSome_iff_exists.mp hhand
  have hi := Phase.eq_waiting hwaiting
  obtain rfl : j = !i := Bool.eq_not_of_ne fun hij => by
    rw [hij, hi] at hcopy
    cases hcopy
  -- neither of the two has ended
  have hnil : order = [] := by
    refine List.eq_nil_iff_forall_not_mem.mpr ((Bool.forall_bool' i).mpr ⟨?_, ?_⟩)
    · rw [hserial.ended]
      simp [hi]
    · rw [hserial.ended]
      rintro ⟨c, out, hended⟩
      rw [hended] at hcopy
      cases hcopy
  have hstored : σ.stored = d₀ := by
    rw [hserial.stored, hnil]
    rfl
  have hcopies : (σ.phase !i).copy = some d₀ := by
    rw [← hstored, ← hserial.inHand _ copy hcopy]
    exact Phase.copy_of_inHand hcopy
  refine stale_run (honest_advance hhonest i) ?_ post
  rw [advance_waiting hi, hstored]
  refine ⟨(Bool.forall_bool' i).mpr ⟨?_, ?_⟩, .inl rfl⟩
  · simp [Phase.copy]
  · dsimp only
    rw [Function.update_of_ne (by simp), hcopies]

end Lib.Copies
