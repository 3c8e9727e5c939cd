/-
# Requests that overlap, on any number of sessions

The requests of all browsers run side by side.  Each loads the record of its own session, works
on its copy and saves it (`Lib.Copies`, one record for each session), so requests of one session
lose each other's changes and bring them back, in any order.

What an overlap cannot do is put into a session what no request of that session made
(`requestWork_origin`): an attempt is there because a `start` of that session was accepted, and a
user because a callback of that session signed it in.  The guarantees that rest on nothing else
(`sign_in_safe_under_overlap`, `foreign_callback_refused`) hold on every schedule; that a sign-in
attempt is used once does not.
-/
import Muxa.Auth.PendingSet
import Muxa.Lib.Records

namespace Muxa.Auth

open Lib.Text Lib.Run Lib.Copies

variable {ι K P I U : Type}

/-! ## 1. A request as a client of its session's record -/

/-- A request to one of the routes, on one of the sessions. -/
structure Arrival (K P I U : Type) where
  session : K
  world : World P I U
  request : Request

/-- The request on its own copy of the session; the copy is written back if it changed. -/
def requestWork [DecidableEq U] (flow : Flow P) (reqs : ι → Arrival K P I U) (i : ι)
    (copy : Session U) : Option (Session U) × Outcome P I U :=
  let outcome := handle flow copy ((reqs i).world, (reqs i).request)
  (if copy.unchanged outcome.session then none else some outcome.session, outcome)

/-- What can be in a session: an attempt under its token, or a signed-in user. -/
inductive Content (U : Type) where
  | attempt (s : Str) (pending : PendingLogin)
  | user (user : U)

def Session.Holds (session : Session U) : Content U → Prop
  | .attempt s pending => session.attempt s = some pending
  | .user user => session.user = some user

/-- Request `i` puts it into a session like `copy`: an accepted `start` its attempt, a callback
the user it signs in. -/
def Makes (flow : Flow P) (reqs : ι → Arrival K P I U) (i : ι) (copy : Session U) :
    Content U → Prop
  | .attempt s pending => ∃ providerId query authorization,
      (reqs i).request = .start providerId query ∧
      Accepted flow (reqs i).world copy providerId query authorization ∧
      authorization.state = s ∧
      pending = pendingLogin flow (reqs i).world.now providerId query authorization
  | .user user => ∃ providerId query, (reqs i).request = .callback providerId query ∧
      .login user ∈ (callback flow (reqs i).world copy providerId query).events

theorem start_events (flow : Flow P) (w : World P I U) (session : Session U) (providerId : Str)
    (query : StartQuery) : (start flow w session providerId query).events = [] := by
  unfold start
  cases flow.providers providerId with
  | none => rfl
  | some provider =>
    dsimp only
    split
    · rfl
    cases w.authorize provider with
    | error err => rfl
    | ok authorization =>
      dsimp only
      cases remember w.order w.later session
        (pendingLogin flow w.now providerId query authorization) <;> rfl

/-- **Only a callback signs a user in.** -/
theorem step_logs_in {w : World P I U} (h : w.Lawful) (flow : Flow P) {session : Session U}
    {req : Request} {user : U} (hold : session.user ≠ some user)
    (hnew : (step flow session (w, req)).user = some user) :
    ∃ providerId query, req = .callback providerId query ∧
      .login user ∈ (callback flow w session providerId query).events := by
  cases req with
  | start providerId query =>
    rw [step, handle, start_user] at hnew
    exact absurd hnew hold
  | callback providerId query =>
    rw [step, handle] at hnew
    refine ⟨providerId, query, rfl, ?_⟩
    obtain ⟨session', huser, -, hcases⟩ := callback_outcome flow w session providerId query
    rcases hcases with ⟨hs, -⟩ | ⟨_, _, _, _, _, -, ⟨hs, -⟩ | ⟨user', hs, hevents, hlogin⟩⟩
    · rw [hs, huser] at hnew
      exact absurd hnew hold
    · rw [hs, huser] at hnew
      exact absurd hnew hold
    · rcases hlogin with ⟨-, err, herr⟩ | ⟨-, hok⟩
      · rw [hs, h.login_error _ _ _ herr, huser] at hnew
        exact absurd hnew hold
      · rw [hs, h.login_ok _ _ hok, Option.some.injEq] at hnew
        rw [hevents, hnew]
        simp
  | signOut =>
    simp [step, handle, signOut, h.logout_clears] at hnew

/-- The user a callback signs in is the one the resolver answered with. -/
theorem callback_resolved {flow : Flow P} {w : World P I U} {session : Session U}
    {providerId : Str} {query : CallbackQuery} {user : U}
    (h : .login user ∈ (callback flow w session providerId query).events) :
    ∃ identity ctx resolved,
      .resolve identity ctx ∈ (callback flow w session providerId query).events ∧
      w.resolve identity ctx = .ok resolved ∧ resolved.user = user := by
  obtain ⟨session', -, -, ⟨refusal, hout⟩ | ⟨s, pending, -, hout⟩⟩ :=
    callback_cases flow w session providerId query
  · simp [hout] at h
  rw [hout] at h ⊢
  rcases redeem_cases flow w session' providerId query pending with
    ⟨refusal, link, events, hrefuse, hevents⟩ | ⟨provider, code, identity, -, -, -, -, hsign⟩
  · rw [hrefuse] at h
    obtain ⟨_, _, he⟩ := hevents _ h
    cases he
  rw [hsign] at h ⊢
  rcases signIn_cases flow w session' pending identity [.identify provider code pending] with
    ⟨refusal, -, hres⟩ | ⟨resolved, hresolved, -, hevents, -⟩
  · simp [hres] at h
  · rw [hevents] at h ⊢
    obtain rfl : user = resolved.user := by simpa using h
    exact ⟨identity, _, resolved, by simp, hresolved, rfl⟩

variable [DecidableEq U]

/-- **A request writes back what it read or made.** -/
theorem requestWork_origin (flow : Flow P) {reqs : ι → Arrival K P I U}
    (hlaw : ∀ i, (reqs i).world.Lawful) :
    Origin (requestWork flow reqs) (Session.Holds (U := U)) (Makes flow reqs) := by
  constructor
  intro i copy written content hwrite hheld
  obtain rfl : step flow copy ((reqs i).world, (reqs i).request) = written := by
    simp only [requestWork] at hwrite
    split at hwrite
    · cases hwrite
    · exact Option.some.inj hwrite
  cases content with
  | attempt s pending =>
    by_cases hold : copy.attempt s = some pending
    · exact .inl hold
    · exact .inr (step_creates (hlaw i) flow copy hold hheld)
  | user user =>
    by_cases hold : copy.user = some user
    · exact .inl hold
    · exact .inr (step_logs_in (hlaw i) flow hold hheld)

/-! ## 2. Where a sign-in comes from -/

variable [DecidableEq ι] [DecidableEq K]

def afterSchedule (flow : Flow P) (reqs : ι → Arrival K P I U) (sessions : K → Session U)
    (schedule : List ι) : Systems ι K (Session U) (Outcome P I U) :=
  run (advanceAt (fun i => (reqs i).session) (requestWork flow reqs)) (Systems.init sessions)
    schedule

/-- Request `i` is the `start` of this sign-in: on the same session and for the same provider, it
was accepted, drew the token `s`, and had ended. -/
structure Began (flow : Flow P) (reqs : ι → Arrival K P I U)
    (σ : Systems ι K (Session U) (Outcome P I U)) (k : K) (providerId : Str) (s : Str) (i : ι)
    (query : StartQuery) (copy : Session U) (authorization : Authorization) : Prop where
  session : (reqs i).session = k
  request : (reqs i).request = .start providerId query
  ended : ∃ out, σ.phase i = .ended copy out
  accepted : Accepted flow (reqs i).world copy providerId query authorization
  token : authorization.state = s

variable {flow : Flow P} {reqs : ι → Arrival K P I U} {sessions : K → Session U}

/-- The records of the sessions are independent. -/
theorem afterSchedule_at (schedule : List ι) (k : K) :
    (afterSchedule flow reqs sessions schedule).at (fun i => (reqs i).session) k =
      run (advance (requestWork flow reqs)) (System.init (sessions k))
        (schedule.filter fun i => (reqs i).session = k) :=
  run_at sessions schedule k

omit [DecidableEq U] [DecidableEq ι] in
/-- What has ended on the record of `k` is a request of `k` that has ended. -/
theorem ended_at {σ : Systems ι K (Session U) (Outcome P I U)} {k : K} {i : ι}
    {copy : Session U} {out : Outcome P I U}
    (h : (σ.at (fun i => (reqs i).session) k).phase i = .ended copy out) :
    (reqs i).session = k ∧ σ.phase i = .ended copy out := by
  simp only [Systems.at] at h
  split at h
  · rename_i hk
    exact ⟨hk, h⟩
  · cases h

/-- A result is that of the request on the copy it loaded. -/
theorem out_of_copy {schedule : List ι} {j : ι} {out : Outcome P I U}
    (h : ((afterSchedule flow reqs sessions schedule).phase j).out = some out) :
    ∃ copy, ((run (advance (requestWork flow reqs)) (System.init (sessions (reqs j).session))
        (schedule.filter fun i => (reqs i).session = (reqs j).session)).phase j).copy =
          some copy ∧
      out = handle flow copy ((reqs j).world, (reqs j).request) := by
  have hphase : ((afterSchedule flow reqs sessions schedule).at (fun i => (reqs i).session)
      (reqs j).session).phase j = (afterSchedule flow reqs sessions schedule).phase j :=
    Systems.at_phase _ j
  rw [afterSchedule_at] at hphase
  rw [← hphase] at h
  exact out_copy h

omit [DecidableEq ι] [DecidableEq U] in
/-- What comes before a request among those of its session, with all the others back in. -/
theorem split_of_filter {schedule pre' post' : List ι} {j : ι}
    (h : (schedule.filter fun i => (reqs i).session = (reqs j).session) = pre' ++ j :: post') :
    ∃ pre post, schedule = pre ++ j :: post ∧
      (pre.filter fun i => (reqs i).session = (reqs j).session) = pre' := by
  obtain ⟨pre, rest, rfl, hpre, hrest⟩ := List.filter_eq_append_iff.mp h
  obtain ⟨skipped, post, rfl, hskipped, -, -⟩ := List.filter_eq_cons_iff.mp hrest
  refine ⟨pre ++ skipped, post, by simp, ?_⟩
  rw [List.filter_append, hpre, List.filter_eq_nil_iff.mpr hskipped, List.append_nil]

/-- **An attempt in a copy was begun** on that session, before the copy was loaded. -/
theorem copy_attempt_began (h₀ : ∀ k s, (sessions k).attempt s = none)
    (hlaw : ∀ i, (reqs i).world.Lawful) {schedule : List ι} {j : ι} {copy : Session U}
    (hcopy : ((run (advance (requestWork flow reqs)) (System.init (sessions (reqs j).session))
      (schedule.filter fun i => (reqs i).session = (reqs j).session)).phase j).copy = some copy)
    {s : Str} {pending : PendingLogin} (h : copy.attempt s = some pending) :
    ∃ pre post i providerId query copy₀ authorization, schedule = pre ++ j :: post ∧
      (afterSchedule flow reqs sessions pre).phase j = .waiting ∧
      Began flow reqs (afterSchedule flow reqs sessions pre) (reqs j).session providerId s i query
        copy₀ authorization ∧
      pending = pendingLogin flow (reqs i).world.now providerId query authorization := by
  obtain ⟨pre', post', hsplit, hwait, htraced⟩ :=
    copy_traced (requestWork_origin flow hlaw) hcopy (f := .attempt s pending) h
  obtain ⟨pre, post, rfl, hpre⟩ := split_of_filter hsplit
  rw [← hpre, ← afterSchedule_at] at hwait htraced
  rcases htraced with hold | ⟨i, copy₀, out, hended, hmakes⟩
  · have := h₀ (reqs j).session s
    rw [hold] at this
    cases this
  · obtain ⟨hkey, hended⟩ := ended_at hended
    obtain ⟨providerId, query, authorization, hreq, hacc, htoken, hpending⟩ := hmakes
    refine ⟨pre, post, i, providerId, query, copy₀, authorization, rfl, ?_,
      ⟨hkey, hreq, ⟨out, hended⟩, hacc, htoken⟩, hpending⟩
    rwa [Systems.at_phase] at hwait

/-- Callback `j`, which signed `user` in, redeemed the sign-in that `start` `i` began: its token
was presented within its lifetime, and the code was exchanged with its verifier and nonce. -/
structure Redeemed (flow : Flow P) (reqs : ι → Arrival K P I U)
    (σ : Systems ι K (Session U) (Outcome P I U)) (j : ι) (out : Outcome P I U) (user : U)
    (i : ι) (authorization : Authorization) (provider : P) (code : Str) (pending : PendingLogin)
    (identity : I) (ctx : ResolveContext U) : Prop where
  began : ∃ providerId query query₀ copy, (reqs j).request = .callback providerId query ∧
    query.state = some authorization.state ∧ query.code = some code ∧
    flow.providers providerId = some provider ∧
    Began flow reqs σ (reqs j).session providerId authorization.state i query₀ copy
      authorization ∧
    (query₀.isLink = true → ctx.currentUser.isSome = true)
  lifetime : (reqs j).world.now < (reqs i).world.now + pendingTtlSecs
  events : out.events = [.identify provider code pending, .resolve identity ctx, .login user]
  identified : (reqs j).world.identify provider code pending = .ok identity
  resolved : ∃ resolved, (reqs j).world.resolve identity ctx = .ok resolved ∧ resolved.user = user
  verifier : pending.pkceVerifier = authorization.pkceVerifier
  nonce : pending.nonce = authorization.nonce

/-- **A callback that signs a user in redeems a `start` of its own session**, which had ended when
the callback loaded the session. -/
theorem redeems_own_start (h₀ : ∀ k s, (sessions k).attempt s = none)
    (hlaw : ∀ i, (reqs i).world.Lawful) {schedule : List ι} {j : ι} {out : Outcome P I U}
    (hout : ((afterSchedule flow reqs sessions schedule).phase j).out = some out) {user : U}
    (hlogin : .login user ∈ out.events) :
    ∃ pre post i authorization provider code pending identity ctx,
      schedule = pre ++ j :: post ∧ (afterSchedule flow reqs sessions pre).phase j = .waiting ∧
      Redeemed flow reqs (afterSchedule flow reqs sessions pre) j out user i authorization
        provider code pending identity ctx := by
  obtain ⟨copy, hcopy, rfl⟩ := out_of_copy hout
  cases hreq : (reqs j).request with
  | start providerId query =>
    rw [hreq, handle, start_events] at hlogin
    cases hlogin
  | signOut =>
    rw [hreq] at hlogin
    simp [handle, signOut] at hlogin
  | callback providerId query =>
    rw [hreq, handle] at hlogin
    obtain ⟨s, pending, provider, code, identity, hres, hevents⟩ := callback_login hlogin
    obtain ⟨pre, post, i, providerId₀, query₀, copy₀, authorization, hsplit, hwait, hbegan,
      hpending⟩ := copy_attempt_began h₀ hlaw hcopy hres.attempt
    obtain rfl : providerId₀ = providerId := by
      rw [← hres.sameProvider, hpending]
      rfl
    obtain rfl := hbegan.token
    have hresolved : ∃ resolved, (reqs j).world.resolve identity (contextOf copy pending) =
        .ok resolved ∧ resolved.user = user := by
      obtain ⟨identity', ctx, resolved, hmem, hok, huser⟩ := callback_resolved hlogin
      obtain ⟨rfl, rfl⟩ : identity' = identity ∧ ctx = contextOf copy pending := by
        simpa [hevents] using hmem
      exact ⟨resolved, hok, huser⟩
    have hfresh := of_decide_eq_true hres.fresh
    have hcreated : pending.createdAt = (reqs i).world.now := by rw [hpending]; rfl
    refine ⟨pre, post, i, authorization, provider, code, pending, identity,
      contextOf copy pending, hsplit, hwait, ⟨⟨providerId₀, query, query₀, copy₀, hreq,
        hres.presented, hres.exchanged, hres.known, hbegan, fun hlink => ?_⟩, ?_, ?_,
        hres.identified, hresolved, by rw [hpending]; rfl, by rw [hpending]; rfl⟩⟩
    · refine hres.linkUser ?_
      rw [hpending]
      exact hlink
    · omega
    · exact hevents

/-- **A user in a session was signed in there**: by a callback of that session that had ended. -/
theorem signed_in_by_callback (hlaw : ∀ i, (reqs i).world.Lawful) {schedule : List ι} {k : K}
    {user : U} (h : ((afterSchedule flow reqs sessions schedule).stored k).user = some user) :
    (sessions k).user = some user ∨
      ∃ j copy out, (reqs j).session = k ∧
        (afterSchedule flow reqs sessions schedule).phase j = .ended copy out ∧
        .login user ∈ out.events := by
  have hstored : ((afterSchedule flow reqs sessions schedule).at (fun i => (reqs i).session)
      k).stored.user = some user := h
  rw [afterSchedule_at] at hstored
  rcases stored_traced (requestWork_origin flow hlaw) _ _ (f := .user user) hstored with
    hold | ⟨j, copy, out, hended, providerId, query, hreq, hlogin⟩
  · exact .inl hold
  · have hhonest := honest_run (requestWork flow reqs) (sessions k)
      (schedule.filter fun i => (reqs i).session = k) j
    rw [hended] at hhonest
    rw [← afterSchedule_at] at hended
    obtain ⟨hkey, hended⟩ := ended_at hended
    refine .inr ⟨j, copy, out, hkey, hended, ?_⟩
    rw [show out = handle flow copy ((reqs j).world, (reqs j).request) from hhonest, hreq]
    exact hlogin

/-- **Sign-in safety under any overlap.**  However the requests of any number of sessions are
interleaved, and wherever each of them dies: a callback calls `auth.login` only if it redeems a
sign-in that a `start` of its own session began, and that `start` had ended before the callback
loaded the session; and a user in a session, who was not there at the outset, was signed in by
such a callback of that session. -/
theorem sign_in_safe_under_overlap (flow : Flow P) (reqs : ι → Arrival K P I U)
    (sessions : K → Session U) (h₀ : ∀ k s, (sessions k).attempt s = none)
    (hlaw : ∀ i, (reqs i).world.Lawful) (schedule : List ι) :
    (∀ j out user, ((afterSchedule flow reqs sessions schedule).phase j).out = some out →
      .login user ∈ out.events →
      ∃ pre post i authorization provider code pending identity ctx,
        schedule = pre ++ j :: post ∧ (afterSchedule flow reqs sessions pre).phase j = .waiting ∧
        Redeemed flow reqs (afterSchedule flow reqs sessions pre) j out user i authorization
          provider code pending identity ctx) ∧
    ∀ k user, ((afterSchedule flow reqs sessions schedule).stored k).user = some user →
      (sessions k).user = some user ∨
        ∃ j copy out, (reqs j).session = k ∧
          (afterSchedule flow reqs sessions schedule).phase j = .ended copy out ∧
          .login user ∈ out.events :=
  ⟨fun _ _ _ hout hlogin => redeems_own_start h₀ hlaw hout hlogin,
    fun _ _ hstored => signed_in_by_callback hlaw hstored⟩

/-! ## 3. A token of another session -/

/-- **A callback with somebody else's token is refused.**  However the requests are interleaved: a
callback whose token no `start` of its own session draws asks neither the provider nor the
resolver, signs nobody in, and leaves the user and the attempts as it found them.  So nobody can
be signed in to another one's account by being sent that one's callback. -/
theorem foreign_callback_refused (flow : Flow P) (reqs : ι → Arrival K P I U)
    (sessions : K → Session U) (h₀ : ∀ k s, (sessions k).attempt s = none)
    (hlaw : ∀ i, (reqs i).world.Lawful) (schedule : List ι) (j : ι) (providerId : Str)
    (query : CallbackQuery) (hreq : (reqs j).request = .callback providerId query) (s : Str)
    (hs : query.state = some s)
    (hforeign : ∀ i, (reqs i).session = (reqs j).session →
      ¬ Draws flow s ((reqs i).world, (reqs i).request))
    (out : Outcome P I U)
    (hout : ((afterSchedule flow reqs sessions schedule).phase j).out = some out) :
    out.response.isRefusal = true ∧ out.events = [] ∧
      ∃ pre post, schedule = pre ++ j :: post ∧
        out.session.user = ((afterSchedule flow reqs sessions pre).stored (reqs j).session).user ∧
        ∀ s', out.session.attempt s' =
          ((afterSchedule flow reqs sessions pre).stored (reqs j).session).attempt s' := by
  obtain ⟨copy, hcopy, rfl⟩ := out_of_copy hout
  have hunknown : copy.attempt s = none := by
    by_contra hheld
    obtain ⟨pending, hpending⟩ := Option.ne_none_iff_exists'.mp hheld
    obtain ⟨_, _, i, _, _, _, _, -, -, hbegan, -⟩ := copy_attempt_began h₀ hlaw hcopy hpending
    have hdraws := hbegan.accepted.draws
    rw [hbegan.token, ← hbegan.request] at hdraws
    exact hforeign i hbegan.session hdraws
  obtain ⟨refusal, session', hrefuse, huser, hattempt⟩ :=
    callback_unknown flow (reqs j).world copy providerId query fun s' hs' => by
      obtain rfl : s = s' := Option.some.inj (hs.symm.trans hs')
      exact hunknown
  rw [hreq, handle, hrefuse]
  refine ⟨rfl, rfl, ?_⟩
  obtain ⟨pre', post', hsplit, -, hloaded⟩ := copy_loaded hcopy
  obtain ⟨pre, post, rfl, hpre⟩ := split_of_filter hsplit
  have hstored : (afterSchedule flow reqs sessions pre).stored (reqs j).session = copy := by
    rw [← hloaded, ← hpre, ← afterSchedule_at]
    rfl
  exact ⟨pre, post, rfl, by rw [hstored, huser], fun s' => by rw [hstored, hattempt]⟩

/-! ## 4. Two browsers -/

/-- Two browsers start a sign-in each, and the first gets both callbacks. -/
def twoBrowsers : Nat → Arrival Bool Unit Unit Nat
  | 0 => ⟨true, plainWorld 100 "a" 7, .start "g".toList {}⟩
  | 1 => ⟨false, plainWorld 110 "b" 9, .start "g".toList {}⟩
  | 2 => ⟨true, plainWorld 300 "-" 7, .callback "g".toList (plainCallback "a")⟩
  | 3 => ⟨true, plainWorld 310 "-" 9, .callback "g".toList (plainCallback "b")⟩
  | _ => ⟨false, plainWorld 320 "-" 9, .signOut⟩

theorem twoBrowsers_lawful (i : Nat) : (twoBrowsers i).world.Lawful := by
  rcases i with _ | _ | _ | _ | i <;> exact plainWorld_lawful _ _ _

def turns : List Nat := [0, 1, 0, 1, 0, 1, 2, 3, 2, 3, 2, 3]

theorem sign_in_safe_first_browser :
    ∃ pre i query copy authorization,
      Began plainFlow twoBrowsers (afterSchedule plainFlow twoBrowsers (fun _ => {}) pre) true
        "g".toList "a".toList i query copy authorization := by
  obtain ⟨pre, _, i, authorization, _, _, _, _, _, -, -, hredeemed⟩ :=
    (sign_in_safe_under_overlap plainFlow twoBrowsers (fun _ => {}) (fun _ _ => rfl)
      twoBrowsers_lawful turns).1 2 _ 7 rfl (by decide)
  obtain ⟨providerId, query, query₀, copy, hreq, hstate, -, -, hbegan, -⟩ := hredeemed.began
  cases hreq
  obtain ha : "a".toList = authorization.state := Option.some.inj hstate
  rw [← ha] at hbegan
  exact ⟨pre, i, query₀, copy, authorization, hbegan⟩

theorem foreign_callback_refused_first_browser :
    ∃ out, ((afterSchedule plainFlow twoBrowsers (fun _ => {}) turns).phase 3).out = some out ∧
      out.response.isRefusal = true ∧ out.events = [] := by
  have hforeign : ∀ i, (twoBrowsers i).session = (twoBrowsers 3).session →
      ¬ Draws plainFlow "b".toList ((twoBrowsers i).world, (twoBrowsers i).request) := by
    rintro i hi ⟨providerId, query, provider, authorization, hreq, -, hauth, hstate⟩
    rcases i with _ | _ | _ | _ | i
    · cases hauth
      exact absurd hstate (by decide)
    · cases hi
    · cases hreq
    · cases hreq
    · cases hreq
  have hended : ((afterSchedule plainFlow twoBrowsers (fun _ => {}) turns).phase 3).out.isSome =
      true := by decide
  obtain ⟨out, hout⟩ := Option.isSome_iff_exists.mp hended
  have h := foreign_callback_refused plainFlow twoBrowsers (fun _ => {}) (fun _ _ => rfl)
    twoBrowsers_lawful turns 3 "g".toList (plainCallback "b") rfl "b".toList rfl hforeign out hout
  exact ⟨out, hout, h.1, h.2.1⟩

end Muxa.Auth
