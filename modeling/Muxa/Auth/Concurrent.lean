/-
# Callbacks that overlap

`take` reads the map of attempts, removes one and writes the map back, in the request's own copy
of the session: the session record is loaded whole at the first access and saved whole at the
end of the request (`Lib.Copies`).  Nothing compares the record at the save with the one that was
loaded, so two callbacks that both load before either saves both find the attempt
(`both_callbacks_identify`).

`attempt_taken_once` gives the schedules on which the promise holds: those in which no callback
loads a record it would find the attempt in while another callback has such a copy and has not
saved it.  `overlap_takes_twice` shows that each other schedule can be continued to one on which
the attempt is taken twice, and the provider asked twice about it where both callbacks come from
the provider the attempt is with.
-/
import Muxa.Auth.SignIn
import Muxa.Lib.Records

namespace Muxa.Auth

open Lib.Text Lib.Run Lib.Copies

variable {ι P I U : Type}

/-! ## 1. A callback as a client of the session record -/

/-- The value stored for the sign-ins in progress, as data. -/
def Session.storedPending (session : Session U) :
    Option (Except Str (List (Sigma fun _ : Str => PendingLogin))) :=
  session.pending.map fun stored => stored.map AList.entries

/-- The handler left the record as it was. -/
def Session.unchanged [DecidableEq U] (before after : Session U) : Bool :=
  before.user == after.user && before.storedPending == after.storedPending

theorem attempt_eq_dlookup (session : Session U) (s : Str) :
    session.attempt s =
      match session.storedPending with
      | some (.ok entries) => entries.dlookup s
      | _ => none := by
  unfold Session.attempt Session.storedPending
  rcases session.pending with _ | (err | map) <;> rfl

/-- One callback request: its surroundings, the provider in its path and its query. -/
structure CallbackRequest (P I U : Type) where
  world : World P I U
  providerId : Str
  query : CallbackQuery

/-- What a callback did: the attempt it obtained from `take`, and the rest. -/
structure CallbackResult (P I U : Type) where
  obtained : Option PendingLogin
  outcome : Outcome P I U

/-- The attempt `take` hands to a callback that works on this copy of the session. -/
def CallbackRequest.obtains (req : CallbackRequest P I U) (copy : Session U) :
    Option PendingLogin :=
  (taken req.world copy req.query).toOption.bind Prod.fst

/-- The callback on its own copy of the session; the copy is written back if it changed. -/
def callbackWork [DecidableEq U] (flow : Flow P) (reqs : ι → CallbackRequest P I U) (i : ι)
    (copy : Session U) : Option (Session U) × CallbackResult P I U :=
  let req := reqs i
  let outcome := callback flow req.world copy req.providerId req.query
  (if copy.unchanged outcome.session then none else some outcome.session,
    { obtained := req.obtains copy, outcome })

/-- The session holds an attempt under `s` that is fresh at `now`. -/
def HoldsFresh (now : Nat) (s : Str) (session : Session U) : Prop :=
  ∃ attempt ∈ session.attempt s, attempt.fresh now = true

instance (now : Nat) (s : Str) (session : Session U) : Decidable (HoldsFresh now s session) :=
  inferInstanceAs (Decidable (∃ attempt ∈ session.attempt s, attempt.fresh now = true))

theorem obtains_eq {req : CallbackRequest P I U} {s : Str} (hs : req.query.state = some s)
    (copy : Session U) :
    req.obtains copy = (copy.attempt s).filter (·.fresh req.world.now) := by
  rw [CallbackRequest.obtains, taken, hs]
  dsimp only
  cases htake : take req.world.order req.world.now copy s with
  | error err => rw [attempt_eq_none_of_take_error htake]; rfl
  | ok r => exact (take_spec htake).2.1

/-- **`take` hands out the attempt exactly when the copy holds it fresh.** -/
theorem obtains_isSome {req : CallbackRequest P I U} {s : Str} (hs : req.query.state = some s)
    (copy : Session U) :
    (req.obtains copy).isSome = true ↔ HoldsFresh req.world.now s copy := by
  rw [obtains_eq hs, Option.isSome_iff_exists]
  simp only [Option.filter_eq_some_iff, HoldsFresh, Option.mem_def]

/-- A callback asks the provider only with an attempt in hand. -/
theorem identify_obtains {flow : Flow P} {req : CallbackRequest P I U} {copy : Session U}
    {provider : P} {code : Str} {pending : PendingLogin}
    (h : .identify provider code pending ∈
      (callback flow req.world copy req.providerId req.query).events) :
    (req.obtains copy).isSome = true := by
  obtain ⟨session', -, -, hcases⟩ :=
    callback_cases flow req.world copy req.providerId req.query
  rcases hcases with ⟨refusal, hout⟩ | ⟨s, pending', hred, -⟩
  · simp [hout] at h
  · rw [obtains_eq hred.presented, hred.attempt, Option.filter_some, hred.fresh]
    rfl

/-- **A callback that comes from the attempt's provider**: it has a code and no error, and its
path names the provider, which is configured. -/
structure CallbackRequest.Redeemable (flow : Flow P) (req : CallbackRequest P I U)
    (attempt : PendingLogin) : Prop where
  code : req.query.code.isSome = true
  noError : req.query.error = none
  known : (flow.providers req.providerId).isSome = true
  provider : attempt.provider = req.providerId

/-- With the attempt in hand, such a callback asks the provider. -/
theorem obtains_identify {flow : Flow P} {req : CallbackRequest P I U} {copy : Session U}
    {attempt : PendingLogin} (h : req.obtains copy = some attempt)
    (hredeem : req.Redeemable flow attempt) :
    ∃ provider code, .identify provider code attempt ∈
      (callback flow req.world copy req.providerId req.query).events := by
  obtain ⟨code, hcode⟩ := Option.isSome_iff_exists.mp hredeem.code
  obtain ⟨provider, hprovider⟩ := Option.isSome_iff_exists.mp hredeem.known
  refine ⟨provider, code, ?_⟩
  unfold CallbackRequest.obtains at h
  cases htaken : taken req.world copy req.query with
  | error err =>
    rw [htaken] at h
    cases h
  | ok r =>
    obtain ⟨found, session'⟩ := r
    obtain rfl : found = some attempt := by simpa [htaken, Except.toOption] using h
    simp only [callback, htaken, hredeem.provider, if_true, redeem, hredeem.noError, hcode,
      hprovider]
    cases req.world.identify provider code attempt with
    | error err => exact List.mem_cons_self
    | ok identity =>
      dsimp only
      split
      · exact List.mem_cons_self
      · rcases signIn_cases flow req.world session' attempt identity
          [.identify provider code attempt] with
          ⟨refusal, -, hres⟩ | ⟨resolved, -, -, hevents, -⟩
        · rw [hres]
          exact List.mem_cons_self
        · rw [hevents]
          exact List.mem_cons_self

/-- **Callbacks make no attempt**: one in a record that is written back was in the copy. -/
theorem callbackWork_origin [DecidableEq U] (flow : Flow P) {reqs : ι → CallbackRequest P I U}
    (hlaw : ∀ i, (reqs i).world.Lawful) (s : Str) :
    Origin (callbackWork flow reqs) (fun copy attempt => copy.attempt s = some attempt)
      (fun _ _ _ => False) := by
  constructor
  intro i copy written attempt hwrite hholds
  simp only [callbackWork] at hwrite
  split at hwrite
  · cases hwrite
  · rw [← Option.some.inj hwrite, callback_attempt (hlaw i)] at hholds
    split at hholds
    · cases hholds
    · exact .inl hholds

/-- **The attempt is a token of the record**: every callback that presents `s` and writes
anything back leaves the attempt under `s` out. -/
theorem callbackWork_takesToken [DecidableEq U] (flow : Flow P)
    {reqs : ι → CallbackRequest P I U} {s : Str} (hs : ∀ i, (reqs i).query.state = some s)
    (hlaw : ∀ i, (reqs i).world.Lawful) :
    TakesToken (callbackWork flow reqs) (fun copy => (copy.attempt s).isSome = true)
      (fun i copy => HoldsFresh (reqs i).world.now s copy) := by
  have hgone : ∀ i copy, (callback flow (reqs i).world copy (reqs i).providerId
      (reqs i).query).session.attempt s = none := by
    intro i copy
    rw [callback_attempt (hlaw i), hs i, if_pos rfl]
  constructor
  · rintro i copy ⟨attempt, hattempt, -⟩
    exact Option.isSome_of_mem hattempt
  · rintro i copy ⟨attempt, hattempt, -⟩
    refine ⟨_, if_neg fun hsame => ?_⟩
    have hstored := (Bool.and_eq_true _ _).mp hsame
    rw [Option.mem_def, attempt_eq_dlookup, beq_iff_eq.mp hstored.2, ← attempt_eq_dlookup,
      hgone] at hattempt
    cases hattempt
  · intro i copy copy' h
    simp only [callbackWork] at h
    split at h
    · cases h
    · rw [← Option.some.inj h, hgone]
      simp

/-! ## 2. At most one obtains the attempt -/

def Obtained (σ : System ι (Session U) (CallbackResult P I U)) (i : ι) : Prop :=
  ∃ r, (σ.phase i).out = some r ∧ r.obtained.isSome = true

def Identified (σ : System ι (Session U) (CallbackResult P I U)) (i : ι) : Prop :=
  ∃ r, (σ.phase i).out = some r ∧
    ∃ provider code pending, .identify provider code pending ∈ r.outcome.events

/-- **Undisturbed loads**: a callback does not load a record with the attempt in it, still fresh
by its clock, while another one has such a copy in hand. -/
def LoadsUndisturbed (reqs : ι → CallbackRequest P I U) (s : Str) :
    System ι (Session U) (CallbackResult P I U) → ι → Prop :=
  Undisturbed fun i copy => HoldsFresh (reqs i).world.now s copy

variable [DecidableEq ι] [DecidableEq U]

/-- **A sign-in attempt is taken once when its loads are undisturbed.**  Whatever the callbacks
that present `s`, and however far a schedule takes each of them: if no step of it loads a record
with the attempt for the taking while another callback has it in hand and unsaved, at most one
callback has obtained the attempt, and only that one has reached `Provider::identify`. -/
theorem attempt_taken_once (flow : Flow P) (reqs : ι → CallbackRequest P I U) (s : Str)
    (hs : ∀ i, (reqs i).query.state = some s) (hlaw : ∀ i, (reqs i).world.Lawful)
    (session₀ : Session U) (schedule : List ι)
    (h : Along (advance (callbackWork flow reqs)) (LoadsUndisturbed reqs s) (System.init session₀)
      schedule) :
    let σ := run (advance (callbackWork flow reqs)) (System.init session₀) schedule
    (∀ i j, Obtained σ i → Obtained σ j → i = j) ∧ ∀ i, Identified σ i → Obtained σ i := by
  obtain ⟨-, hone⟩ := got_at_most_once (callbackWork_takesToken flow hs hlaw) h
  constructor
  · rintro i j ⟨r, hr, hgot⟩ ⟨r', hr', hgot'⟩
    obtain ⟨copy, hcopy, rfl⟩ := out_copy hr
    obtain ⟨copy', hcopy', rfl⟩ := out_copy hr'
    exact hone.one i j copy copy' hcopy hcopy' ((obtains_isSome (hs i) copy).mp hgot)
      ((obtains_isSome (hs j) copy').mp hgot')
  · rintro i ⟨r, hr, provider, code, pending, hid⟩
    obtain ⟨copy, -, rfl⟩ := out_copy hr
    exact ⟨_, hr, identify_obtains hid⟩

/-- **A callback from the attempt's provider that has obtained it has asked the provider.** -/
theorem obtained_identified (flow : Flow P) (reqs : ι → CallbackRequest P I U) (s : Str)
    (hs : ∀ i, (reqs i).query.state = some s) (hlaw : ∀ i, (reqs i).world.Lawful)
    (session₀ : Session U) (schedule : List ι) {i : ι}
    (hredeem : ∀ attempt, session₀.attempt s = some attempt → (reqs i).Redeemable flow attempt)
    (h : Obtained (run (advance (callbackWork flow reqs)) (System.init session₀) schedule) i) :
    Identified (run (advance (callbackWork flow reqs)) (System.init session₀) schedule) i := by
  obtain ⟨r, hr, hgot⟩ := h
  obtain ⟨copy, hcopy, rfl⟩ := out_copy hr
  obtain ⟨attempt, hobtains⟩ := Option.isSome_iff_exists.mp hgot
  have hheld : copy.attempt s = some attempt := by
    rw [callbackWork, obtains_eq (hs i)] at hobtains
    exact (Option.filter_eq_some_iff.mp hobtains).1
  obtain ⟨pre, post, -, -, hfirst | ⟨_, _, _, -, hmade⟩⟩ :=
    copy_traced (callbackWork_origin flow hlaw s) hcopy hheld
  · obtain ⟨provider, code, hid⟩ := obtains_identify hobtains (hredeem attempt hfirst)
    exact ⟨_, hr, provider, code, attempt, hid⟩
  · exact hmade.elim

/-- **Every other schedule goes wrong if it is let go on**: after a disturbing load, two callbacks
obtain the attempt, and where they come from the provider the attempt is with, both ask it. -/
theorem overlap_takes_twice (flow : Flow P) (reqs : ι → CallbackRequest P I U) (s : Str)
    (hs : ∀ i, (reqs i).query.state = some s) (session₀ : Session U) (schedule : List ι) (i : ι)
    (h : ¬ LoadsUndisturbed reqs s
      (run (advance (callbackWork flow reqs)) (System.init session₀) schedule) i) :
    ∃ j rest, j ≠ i ∧
      let σ := run (advance (callbackWork flow reqs)) (System.init session₀) (schedule ++ rest)
      (Obtained σ i ∧ Obtained σ j) ∧
        ((∀ k, (reqs k).world.Lawful) → ∀ k,
          (∀ attempt, session₀.attempt s = some attempt → (reqs k).Redeemable flow attempt) →
          Obtained σ k → Identified σ k) := by
  obtain ⟨j, copy, rest, hne, hi, hj, houti, houtj⟩ :=
    overlap_gets_twice (honest_run _ session₀ schedule) h
  rw [← run_append] at houti houtj
  refine ⟨j, rest, hne, ⟨⟨_, houti, (obtains_isSome (hs i) _).mpr hi⟩,
    ⟨_, houtj, (obtains_isSome (hs j) _).mpr hj⟩⟩, fun hlaw k hredeem => ?_⟩
  exact obtained_identified flow reqs s hs hlaw session₀ (schedule ++ rest) hredeem

/-! ## 3. Two callbacks for one attempt -/

def sentTwice : Bool → CallbackRequest Unit Unit Nat := fun _ =>
  { world := plainWorld 200 "-" 7, providerId := "g".toList, query := plainCallback "a" }

def oneAttempt : Session Nat :=
  step plainFlow {} (plainWorld 100 "a" 7, .start "g".toList {})

theorem attempt_taken_once_sentTwice :
    let σ := run (advance (callbackWork plainFlow sentTwice)) (System.init oneAttempt)
      [true, true, true, false, false, false]
    ∀ i j, Obtained σ i → Obtained σ j → i = j :=
  (attempt_taken_once plainFlow sentTwice "a".toList (fun _ => rfl)
    (fun _ => plainWorld_lawful _ _ _) oneAttempt [true, true, true, false, false, false]
    (by unfold LoadsUndisturbed; decide)).1

/-- **Both callbacks reach the provider** when each loads the session before the other saves. -/
theorem both_callbacks_identify :
    let σ := run (advance (callbackWork plainFlow sentTwice)) (System.init oneAttempt)
      [true, false, true, false]
    ¬ ∀ i j, Obtained σ i ∧ Identified σ i → Obtained σ j ∧ Identified σ j → i = j := by
  intro σ hone
  have hboth : ∀ i, Obtained σ i ∧ Identified σ i := by
    intro i
    have hout : ∃ r, (σ.phase i).out = some r ∧ r.obtained.isSome = true ∧
        ∃ pending, Event.identify () "code".toList pending ∈ r.outcome.events := by
      cases i
      all_goals exact ⟨_, rfl, by decide, _, List.mem_cons_self⟩
    obtain ⟨r, hr, hgot, pending, hid⟩ := hout
    exact ⟨⟨r, hr, hgot⟩, ⟨r, hr, (), _, pending, hid⟩⟩
  exact Bool.noConfusion (hone true false (hboth true) (hboth false))

end Muxa.Auth
