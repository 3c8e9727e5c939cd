/-
# Sign-ins started in parallel tabs

`start` adds its attempt to the map in its own copy of the session, and the copy is written back
whole at the end of the request (`Lib.Copies`).  A session holds several attempts for the sake of
several tabs, but two tabs whose requests overlap overwrite each other: the one that saves last
leaves the session as it loaded it, with its own attempt added and the other's missing.

`parallel_starts_kept_iff` gives the schedules on which both attempts are there afterwards: those
in which neither request loads the session between the other's load and save.
-/
import Muxa.Auth.StartOrder

namespace Muxa.Auth

open Lib.Text Lib.Run Lib.Copies

variable {ι P I U : Type}

/-! ## 1. A start as a client of the session record -/

/-- The start on its own copy of the session; the copy is written back if it changed. -/
def startWork [DecidableEq U] (flow : Flow P) (reqs : ι → StartRequest P I U) (i : ι)
    (copy : Session U) : Option (Session U) × Outcome P I U :=
  let outcome := (reqs i).outcome flow copy
  (if copy.unchanged outcome.session then none else some outcome.session, outcome)

/-- The request has ended, and was accepted with this authorization. -/
def EndedAccepted (flow : Flow P) (reqs : ι → StartRequest P I U)
    (σ : System ι (Session U) (Outcome P I U)) (i : ι) (authorization : Authorization) : Prop :=
  ∃ copy out, σ.phase i = .ended copy out ∧
    Accepted flow (reqs i).world copy (reqs i).providerId (reqs i).query authorization

def StartRequest.pending (req : StartRequest P I U) (flow : Flow P)
    (authorization : Authorization) : PendingLogin :=
  pendingLogin flow req.world.now req.providerId req.query authorization

/-- **Each attempt can be obtained once** after the clocks of all requests: while it is fresh `take`
hands it out under its token, then it is gone, and the others are as they were. -/
def EachObtainedOnce (flow : Flow P) (reqs : ι → StartRequest P I U)
    (authorization : ι → Authorization) (session : Session U) : Prop :=
  ∀ i order now, (∀ j, (reqs j).world.later ≤ now) →
    ((reqs i).pending flow (authorization i)).fresh now = true →
      ∃ session', take order now session (authorization i).state =
          .ok (some ((reqs i).pending flow (authorization i)), session') ∧
        (∀ order' now' again session'',
          take order' now' session' (authorization i).state ≠ .ok (some again, session'')) ∧
        ∀ j, (authorization j).state ≠ (authorization i).state →
          session'.attempt (authorization j).state = session.attempt (authorization j).state

/-- Both attempts are within their lifetime when the requests have ended. -/
def Unexpired (flow : Flow P) (reqs : ι → StartRequest P I U)
    (authorization : ι → Authorization) : Prop :=
  ∃ now, (∀ j, (reqs j).world.later ≤ now) ∧
    ∀ i, ((reqs i).pending flow (authorization i)).fresh now = true

/-- What is written back, if anything, holds the attempts that the handler left. -/
theorem result_attempt [DecidableEq U] (flow : Flow P) (reqs : ι → StartRequest P I U)
    (copy : Session U) (i : ι) (s : Str) :
    (result (startWork flow reqs) copy i).attempt s =
      ((reqs i).outcome flow copy).session.attempt s := by
  unfold result startWork
  dsimp only
  split
  · rename_i hsame
    have hstored := (Bool.and_eq_true _ _).mp hsame
    rw [Option.getD_none, attempt_eq_dlookup, beq_iff_eq.mp hstored.2, ← attempt_eq_dlookup]
  · rfl

theorem fresh_mono {attempt : PendingLogin} {t now : Nat} (h : attempt.fresh now = true)
    (ht : t ≤ now) : attempt.fresh t = true := by
  have := of_decide_eq_true h
  exact decide_eq_true (by omega)

/-- An attempt in the session is obtained once. -/
theorem obtained_once {session : Session U} {s : Str} {attempt : PendingLogin} {now : Nat}
    (h : session.attempt s = some attempt) (hfresh : attempt.fresh now = true)
    (order : IterOrder) :
    ∃ session', take order now session s = .ok (some attempt, session') ∧
      (∀ order' now' again session'', take order' now' session' s ≠ .ok (some again, session'')) ∧
      ∀ s', s' ≠ s → session'.attempt s' = session.attempt s' := by
  cases htake : take order now session s with
  | error err =>
    rw [attempt_eq_none_of_take_error htake] at h
    cases h
  | ok r =>
    obtain ⟨found, session'⟩ := r
    obtain ⟨-, hfound, hrest⟩ := take_spec htake
    rw [h, Option.filter_some, hfresh, if_pos rfl] at hfound
    refine ⟨session', by rw [hfound], ?_, fun s' hs' => by rw [hrest s', if_neg hs']⟩
    intro order' now' again session'' hagain
    have hnone := (take_spec hagain).2.1
    rw [hrest s, if_pos rfl] at hnone
    cases hnone

/-! ## 2. One after the other -/

/-- An accepted start adds one attempt at most to those that are fresh later. -/
theorem freshPending_length_le {flow : Flow P} {w : World P I U} {session session' : Session U}
    {providerId : Str} {query : StartQuery} {authorization : Authorization}
    (h : Accepted flow w session providerId query authorization)
    (hsame : ∀ s, session'.attempt s = (start flow w session providerId query).session.attempt s)
    (now : Nat) :
    (freshPending now session').entries.length ≤
      (freshPending now session).entries.length + 1 := by
  have hsub : (freshPending now session').keys ⊆
      authorization.state :: (freshPending now session).keys := by
    intro s hs
    obtain ⟨attempt, hattempt⟩ := Option.isSome_iff_exists.mp
      (AList.lookup_isSome.mpr (AList.mem_keys.mpr hs))
    obtain ⟨hheld, hfresh⟩ := lookup_freshPending.mp hattempt
    rw [hsame, h.attempts] at hheld
    split at hheld
    · rename_i hnew
      rw [hnew]
      exact List.mem_cons_self
    · have hold := (lookup_freshPending.mp (PendingMap.lookup_evict _ _ hheld)).1
      have hmem := lookup_freshPending.mpr ⟨hold, hfresh⟩
      exact List.mem_cons_of_mem _ (AList.mem_keys.mp
        (AList.lookup_isSome.mp (Option.isSome_iff_exists.mpr ⟨attempt, hmem⟩)))
  have hle := ((freshPending now session').keys_nodup.subperm hsub).length_le
  simpa [AList.keys, List.keys] using hle

variable [DecidableEq U]

/-- **A start on the session of another one** leaves the attempts of both. -/
theorem attempts_of_serial {flow : Flow P} {reqs : Bool → StartRequest P I U}
    {authorization : Bool → Authorization} {session₀ : Session U} (a : Bool)
    (hfirst : Accepted flow (reqs a).world session₀ (reqs a).providerId (reqs a).query
      (authorization a))
    (hsecond : Accepted flow (reqs !a).world (result (startWork flow reqs) session₀ a)
      (reqs !a).providerId (reqs !a).query (authorization !a))
    (hdistinct : (authorization a).state ≠ (authorization !a).state)
    (hroom : (freshPending (reqs !a).world.later session₀).entries.length ≤ maxPending - 2)
    {i : Bool} (hfresh : ∀ j, ((reqs i).pending flow (authorization i)).fresh
      (reqs j).world.later = true) :
    ([a, !a].foldl (result (startWork flow reqs)) session₀).attempt (authorization i).state =
      some ((reqs i).pending flow (authorization i)) := by
  simp only [List.foldl_cons, List.foldl_nil]
  rw [result_attempt, StartRequest.outcome, hsecond.attempts]
  by_cases hi : i = a
  · subst hi
    -- the first attempt: the second request finds it fresh, and room for both
    have hheld : (result (startWork flow reqs) session₀ i).attempt (authorization i).state =
        some ((reqs i).pending flow (authorization i)) := by
      rw [result_attempt, StartRequest.outcome, hfirst.attempts, if_pos rfl]
      rfl
    have hlen := freshPending_length_le hfirst (result_attempt flow reqs session₀ i)
      (reqs !i).world.later
    rw [if_neg hdistinct, PendingMap.evict_room]
    · exact lookup_freshPending.mpr ⟨hheld, hfresh _⟩
    · have : 2 ≤ maxPending := by decide
      omega
  · obtain rfl : i = !a := Bool.eq_not_of_ne hi
    rw [if_pos rfl]
    rfl

/-! ## 3. Every schedule -/

omit [DecidableEq U] in
/-- What a request that started from `session₀` leaves has no attempt under another new token. -/
theorem attempt_other_of_accepted {flow : Flow P} {req : StartRequest P I U}
    {session₀ : Session U} {authorization : Authorization}
    (h : Accepted flow req.world session₀ req.providerId req.query authorization) {s : Str}
    (hs : s ≠ authorization.state) (hnew : session₀.attempt s = none) :
    (req.outcome flow session₀).session.attempt s = none := by
  rw [StartRequest.outcome, h.attempts, if_neg hs]
  cases hevict : (PendingMap.evict req.world.order
      (freshPending req.world.later session₀).entries.length
      (freshPending req.world.later session₀)).lookup s with
  | none => rfl
  | some attempt =>
    rw [(lookup_freshPending.mp (PendingMap.lookup_evict _ _ hevict)).1] at hnew
    cases hnew

/-- **Parallel sign-ins keep each other when neither loads between the other's load and save.**
For two accepted starts with new tokens on a session that has room for both: along such a schedule
each attempt can be obtained once afterwards; along every other one at least one cannot, unless its
lifetime was over before the requests were. -/
theorem parallel_starts_kept_iff (flow : Flow P) (reqs : Bool → StartRequest P I U)
    (authorization : Bool → Authorization) (session₀ : Session U) (schedule : List Bool)
    (hended : ∀ i, EndedAccepted flow reqs
      (run (advance (startWork flow reqs)) (System.init session₀) schedule) i (authorization i))
    (hdistinct : ∀ i j, i ≠ j → (authorization i).state ≠ (authorization j).state)
    (hnew : ∀ i, session₀.attempt (authorization i).state = none)
    (hroom : ∀ i,
      (freshPending (reqs i).world.later session₀).entries.length ≤ maxPending - 2) :
    let σ := run (advance (startWork flow reqs)) (System.init session₀) schedule
    let alone := Along (advance (startWork flow reqs)) LoadsAlone (System.init session₀) schedule
    (alone → EachObtainedOnce flow reqs authorization σ.stored) ∧
      (Unexpired flow reqs authorization →
        EachObtainedOnce flow reqs authorization σ.stored → alone) := by
  intro σ alone
  constructor
  · intro halone i order now hclock hfresh
    obtain ⟨order', hserial⟩ := serial_run halone
    obtain ⟨a, rfl⟩ := eq_pair_of_nodup hserial.nodup fun j => by
      obtain ⟨copy, out, hphase, -⟩ := hended j
      exact (hserial.ended j).mpr ⟨copy, out, hphase⟩
    have haccepted : ∀ pre j post, [a, !a] = pre ++ j :: post →
        Accepted flow (reqs j).world (pre.foldl (result (startWork flow reqs)) session₀)
          (reqs j).providerId (reqs j).query (authorization j) := by
      intro pre j post horder
      obtain ⟨copy, out, hphase, hacc⟩ := hended j
      rw [hserial.copies pre j post horder, Phase.ended.injEq] at hphase
      rwa [hphase.1]
    have hattempt := attempts_of_serial a (haccepted [] a [!a] rfl) (haccepted [a] (!a) [] rfl)
      (hdistinct _ _ (by simp)) (hroom _) (fun j => fresh_mono hfresh (hclock j))
    obtain ⟨session', htake, hgone, hrest⟩ :=
      obtained_once (hserial.stored ▸ hattempt) hfresh order
    exact ⟨session', htake, hgone, fun j hj => hrest _ hj⟩
  · rintro ⟨now, hclock, hfresh⟩ hobtained
    by_contra halone
    have hstale := stale_of_not_along halone
    have hheld : ∀ i, σ.stored.attempt (authorization i).state ≠ none := by
      intro i hnone
      obtain ⟨session', htake, -⟩ := hobtained i .asStored now hclock (hfresh i)
      have hfound := (take_spec htake).2.1
      rw [hnone] at hfound
      cases hfound
    rcases hstale.stored with hstored | ⟨i, hwrite⟩
    · exact hheld true (hstored ▸ hnew true)
    · -- client `i` saved last, and the other one's attempt is not in what it saved
      obtain ⟨copy, out, hphase, hacc⟩ := hended i
      obtain rfl : copy = session₀ := by
        have hcopy := hstale.copies i
        rw [hphase] at hcopy
        exact Option.some.inj hcopy
      have hother := attempt_other_of_accepted hacc (hdistinct (!i) i (by simp)) (hnew !i)
      rw [← result_attempt, result, hwrite] at hother
      exact hheld (!i) hother

/-! ## 4. Two tabs -/

/-- Two tabs start a sign-in in the same second. -/
def bothTabs : Bool → StartRequest Unit Unit Nat := fun tab =>
  { world := plainWorld 100 (if tab then "a" else "b") 7, providerId := "g".toList, query := {} }

def bothAuthorizations (tab : Bool) : Authorization :=
  { url := "https://id.example/auth".toList
    state := (if tab then "a" else "b").toList
    pkceVerifier := some "verifier".toList
    nonce := none }

/-- One tab after the other. -/
theorem parallel_starts_kept_serial :
    EachObtainedOnce plainFlow bothTabs bothAuthorizations
      (run (advance (startWork plainFlow bothTabs)) (System.init {})
        [true, true, true, false, false, false]).stored :=
  (parallel_starts_kept_iff plainFlow bothTabs bothAuthorizations {}
    [true, true, true, false, false, false]
    (by
      intro i
      cases i
      all_goals exact ⟨_, _, rfl, ⟨(), rfl, rfl⟩, by decide, rfl⟩)
    (by decide) (fun _ => rfl) (by decide)).1 (by decide)

/-- **Two overlapping tabs**: both requests are accepted, and the attempt of the one that saved
first is gone. -/
theorem overlapping_starts_lose_one :
    let σ := run (advance (startWork plainFlow bothTabs)) (System.init {})
      [true, false, true, true, false, false]
    (∀ i, EndedAccepted plainFlow bothTabs σ i (bothAuthorizations i)) ∧
      ¬ EachObtainedOnce plainFlow bothTabs bothAuthorizations σ.stored := by
  intro σ
  constructor
  · intro i
    cases i
    all_goals exact ⟨_, _, rfl, ⟨(), rfl, rfl⟩, by decide, rfl⟩
  · intro hobtained
    obtain ⟨session', htake, -⟩ := hobtained true .asStored 200 (by decide) (by decide)
    have hfound := (take_spec htake).2.1
    have hnone : σ.stored.attempt "a".toList = none := by decide
    rw [show (bothAuthorizations true).state = "a".toList from rfl, hnone] at hfound
    cases hfound

end Muxa.Auth
