/-
# Sign-in safety over whole runs

A run is a list of requests to the three routes on one session, one at a time.  `callback` calls
`auth.login` only for an attempt in the session, so the question is where such an attempt can
come from and what can have happened since.  One step answers the first half
(`step_creates`: only an accepted `start` puts an attempt under a token) and the second
(`step_forgets`: a callback that presents the token, and a sign-out, take it away); `run_switch`
turns them into the history of a whole run, `attempt_history`.

The guarantee itself (`login_redeems_start`) does not need the tokens of distinct starts to be
distinct: whoever drew the token last, its verifier, nonce and provider are the ones used.
-/
import Muxa.Auth.Routes

namespace Muxa.Auth

open Lib.Text Lib.Run

variable {P I U : Type}

/-! ## 1. One callback -/

/-- `callback` got as far as the resolver, with this attempt, provider, code and identity. -/
structure Resolves (flow : Flow P) (w : World P I U) (session : Session U) (providerId : Str)
    (query : CallbackQuery) (s : Str) (pending : PendingLogin) (provider : P) (code : Str)
    (identity : I) : Prop extends Redeems w session providerId query s pending where
  known : flow.providers providerId = some provider
  exchanged : query.code = some code
  identified : w.identify provider code pending = .ok identity
  linkUser : pending.link = true → session.user.isSome = true

def contextOf (session : Session U) (pending : PendingLogin) : ResolveContext U :=
  { currentUser := session.user, link := pending.link }

/-- **The outcomes of `callback`.**  It takes the attempt under its token out of the session;
then it refuses short of the resolver, or is refused by the resolver, or calls `auth.login`. -/
theorem callback_outcome (flow : Flow P) (w : World P I U) (session : Session U)
    (providerId : Str) (query : CallbackQuery) :
    let out := callback flow w session providerId query
    ∃ session', session'.user = session.user ∧
      (∀ s, session'.attempt s = if query.state = some s then none else session.attempt s) ∧
      (out.session = session' ∧ out.response.isRefusal = true ∧
          (∀ e ∈ out.events, ∃ provider code pending, e = .identify provider code pending) ∨
        ∃ s pending provider code identity,
          Resolves flow w session providerId query s pending provider code identity ∧
          (out.session = session' ∧ out.response.isRefusal = true ∧
              out.events = [.identify provider code pending,
                .resolve identity (contextOf session pending)] ∨
            ∃ user, out.session = (w.login session' user).2 ∧
              out.events = [.identify provider code pending,
                .resolve identity (contextOf session pending), .login user] ∧
              (out.response.isRefusal = true ∧ (∃ err, (w.login session' user).1 = .error err) ∨
                (∃ location, out.response = .next location) ∧
                  (w.login session' user).1 = .ok ()))) := by
  intro out
  obtain ⟨session', huser, hattempt, hcases⟩ := callback_cases flow w session providerId query
  refine ⟨session', huser, hattempt, ?_⟩
  change (∃ refusal, out = _) ∨ ∃ s pending, _ ∧ out = _ at hcases
  rcases hcases with ⟨refusal, hout⟩ | ⟨s, pending, hred, hout⟩
  · left
    rw [hout]
    exact ⟨rfl, rfl, by simp⟩
  rcases redeem_cases flow w session' providerId query pending with
    ⟨refusal, link, events, hrefuse, hevents⟩ |
      ⟨provider, code, identity, hprov, hcode, hid, hlink, hsign⟩
  · left
    rw [hout, hrefuse]
    refine ⟨rfl, rfl, fun e he => ?_⟩
    obtain ⟨provider, code, rfl⟩ := hevents e he
    exact ⟨provider, code, pending, rfl⟩
  · right
    have hctx : contextOf session' pending = contextOf session pending := by
      simp only [contextOf, huser]
    refine ⟨s, pending, provider, code, identity, ⟨hred, hprov, hcode, hid, huser ▸ hlink⟩, ?_⟩
    rw [← hctx]
    rw [hout, hsign]
    rcases signIn_cases flow w session' pending identity [.identify provider code pending] with
      ⟨refusal, -, hres⟩ | ⟨resolved, -, hsession, hevents, hresponse⟩
    · rw [hres]
      exact .inl ⟨rfl, rfl, rfl⟩
    · refine .inr ⟨resolved.user, hsession, hevents, ?_⟩
      rcases hresponse with ⟨err, herr, hfail⟩ | ⟨hok, hnext⟩
      · exact .inl ⟨by rw [hfail]; rfl, err, herr⟩
      · exact .inr ⟨⟨_, hnext⟩, hok⟩

theorem World.Lawful.login_attempt {w : World P I U} (h : w.Lawful) (session : Session U)
    (user : U) (s : Str) : (w.login session user).2.attempt s = session.attempt s := by
  unfold Session.attempt
  rw [h.login_pending]

/-- **`callback` forgets the attempt under its token**, however it ends, and no other. -/
theorem callback_attempt {w : World P I U} (h : w.Lawful) (flow : Flow P) (session : Session U)
    (providerId : Str) (query : CallbackQuery) (s : Str) :
    (callback flow w session providerId query).session.attempt s =
      if query.state = some s then none else session.attempt s := by
  obtain ⟨session', -, hattempt, hcases⟩ := callback_outcome flow w session providerId query
  rw [← hattempt]
  rcases hcases with ⟨hs, -⟩ | ⟨_, _, _, _, _, -, ⟨hs, -⟩ | ⟨user, hs, -⟩⟩
  · rw [hs]
  · rw [hs]
  · rw [hs, h.login_attempt]

/-- **A refused callback leaves the signed-in user** exactly as it was. -/
theorem callback_refusal_user {w : World P I U} (h : w.Lawful) (flow : Flow P)
    (session : Session U) (providerId : Str) (query : CallbackQuery)
    (hrefusal : (callback flow w session providerId query).response.isRefusal = true) :
    (callback flow w session providerId query).session.user = session.user := by
  obtain ⟨session', huser, -, hcases⟩ := callback_outcome flow w session providerId query
  rw [← huser]
  rcases hcases with ⟨hs, -⟩ | ⟨_, _, _, _, _, -, ⟨hs, -⟩ | ⟨user, hs, -, hfail⟩⟩
  · rw [hs]
  · rw [hs]
  · rcases hfail with ⟨-, err, herr⟩ | ⟨⟨location, hnext⟩, -⟩
    · rw [hs, h.login_error _ _ _ herr]
    · rw [hnext] at hrefusal
      cases hrefusal

theorem callback_login {flow : Flow P} {w : World P I U} {session : Session U}
    {providerId : Str} {query : CallbackQuery} {user : U}
    (h : .login user ∈ (callback flow w session providerId query).events) :
    ∃ s pending provider code identity,
      Resolves flow w session providerId query s pending provider code identity ∧
      (callback flow w session providerId query).events =
        [.identify provider code pending, .resolve identity (contextOf session pending),
          .login user] := by
  obtain ⟨session', -, -, hcases⟩ := callback_outcome flow w session providerId query
  rcases hcases with ⟨-, -, hevents⟩ | ⟨s, pending, provider, code, identity, hres, hrest⟩
  · obtain ⟨_, _, _, he⟩ := hevents _ h
    cases he
  refine ⟨s, pending, provider, code, identity, hres, ?_⟩
  rcases hrest with ⟨-, -, hevents⟩ | ⟨user', -, hevents, -⟩
  · rw [hevents] at h
    simp at h
  · rw [hevents] at h ⊢
    obtain rfl : user = user' := by simpa using h
    rfl

/-- What a callback that calls the resolver did before, and what it tells the resolver. -/
theorem callback_resolve {flow : Flow P} {w : World P I U} {session : Session U}
    {providerId : Str} {query : CallbackQuery} {identity : I} {ctx : ResolveContext U}
    (h : .resolve identity ctx ∈ (callback flow w session providerId query).events) :
    ∃ s pending provider code,
      Resolves flow w session providerId query s pending provider code identity ∧
      ctx = contextOf session pending := by
  obtain ⟨session', -, -, hcases⟩ := callback_outcome flow w session providerId query
  rcases hcases with ⟨-, -, hevents⟩ | ⟨s, pending, provider, code, identity', hres, hrest⟩
  · obtain ⟨_, _, _, he⟩ := hevents _ h
    cases he
  rcases hrest with ⟨-, -, hevents⟩ | ⟨user, -, hevents, -⟩ <;>
  · rw [hevents] at h
    obtain ⟨rfl, rfl⟩ : identity = identity' ∧ ctx = contextOf session pending := by
      simpa using h
    exact ⟨s, pending, provider, code, hres, rfl⟩

/-! ## 2. One step of a run -/

def Request.Presents (s : Str) : Request → Prop
  | .callback _ query => query.state = some s
  | .start _ _ | .signOut => False

/-- The request ends the life of the attempt under `s`. -/
def Request.Forgets (s : Str) (req : Request) : Prop := req.Presents s ∨ req = .signOut

/-- **Presenting a token or signing out takes the attempt away.** -/
theorem step_forgets {w : World P I U} (h : w.Lawful) (flow : Flow P) (session : Session U)
    {req : Request} {s : Str} (hreq : req.Forgets s) :
    (step flow session (w, req)).attempt s = none := by
  rcases hreq with hp | rfl
  · cases req with
    | callback providerId query =>
      rw [step, handle, callback_attempt h]
      exact if_pos hp
    | start providerId query => exact hp.elim
    | signOut => exact hp.elim
  · simp only [step, handle, signOut, h.logout_clears]
    rfl

/-- **Only an accepted `start` puts an attempt under a token.** -/
theorem step_creates {w : World P I U} (h : w.Lawful) (flow : Flow P) (session : Session U)
    {req : Request} {s : Str} {pending : PendingLogin} (hold : session.attempt s ≠ some pending)
    (hnew : (step flow session (w, req)).attempt s = some pending) :
    ∃ providerId query authorization, req = .start providerId query ∧
      Accepted flow w session providerId query authorization ∧ authorization.state = s ∧
      pending = pendingLogin flow w.now providerId query authorization := by
  cases req with
  | start providerId query =>
    rw [step, handle] at hnew
    rcases start_cases flow w session providerId query with
      ⟨refusal, link, hs⟩ | ⟨authorization, hacc, hrem⟩
    · rw [hs] at hnew
      exact absurd hnew hold
    · rcases (remember_spec hrem).2.2 s pending hnew with ⟨rfl, rfl⟩ | hkept
      · exact ⟨providerId, query, authorization, rfl, hacc, rfl, rfl⟩
      · exact absurd hkept hold
  | callback providerId query =>
    rw [step, handle, callback_attempt h] at hnew
    split at hnew
    · cases hnew
    · exact absurd hnew hold
  | signOut =>
    rw [step_forgets h flow session (.inr rfl)] at hnew
    cases hnew

/-! ## 3. Whole runs -/

def ClockMonotone (l : List (World P I U × Request)) : Prop :=
  l.Pairwise fun a b => a.1.later ≤ b.1.now

instance (l : List (World P I U × Request)) : Decidable (ClockMonotone l) :=
  inferInstanceAs (Decidable (List.Pairwise _ l))

/-- **Where an attempt comes from.**  It was put there by an accepted `start` that drew its
token, and nothing since then presented the token or signed out. -/
theorem attempt_history {flow : Flow P} {session₀ : Session U}
    (h₀ : ∀ s, session₀.attempt s = none) {l : List (World P I U × Request)}
    (hlaw : ∀ r ∈ l, r.1.Lawful) {s : Str} {pending : PendingLogin}
    (h : (run (step flow) session₀ l).attempt s = some pending) :
    ∃ pre w₀ providerId query mid authorization,
      l = pre ++ (w₀, .start providerId query) :: mid ∧
      Accepted flow w₀ (run (step flow) session₀ pre) providerId query authorization ∧
      authorization.state = s ∧
      pending = pendingLogin flow w₀.now providerId query authorization ∧
      ∀ r ∈ mid, ¬ r.2.Forgets s := by
  obtain ⟨pre, ⟨w₀, req⟩, mid, rfl, hpre, hmid⟩ :=
    run_switch (P := fun σ : Session U => σ.attempt s = some pending) (by simp [h₀]) l h
  have hw₀ : w₀.Lawful := hlaw (w₀, req) (by simp)
  have hnew := hmid [] List.nil_prefix
  rw [run_append, run_cons, run_nil] at hnew
  obtain ⟨providerId, query, authorization, rfl, hacc, hstate, hpending⟩ :=
    step_creates hw₀ flow _ hpre hnew
  refine ⟨pre, w₀, providerId, query, mid, authorization, rfl, hacc, hstate, hpending, ?_⟩
  intro r hr hforgets
  obtain ⟨k, k', rfl⟩ := List.append_of_mem hr
  -- the attempt is there after `r`, which has just taken it away
  have hafter := hmid (k ++ [r]) ⟨k', by simp⟩
  rw [← List.cons_append, ← List.append_assoc, run_concat,
    step_forgets (hlaw r (by simp)) flow _ hforgets] at hafter
  cases hafter

/-- **Sign-in safety.**  After any run on a session that starts without attempts, a callback
calls `auth.login` only if it presents the token `s` that an earlier accepted `start` for the
same provider drew, less than `pendingTtlSecs` before; no request in between presented `s` or
signed out; the code was exchanged with the verifier and nonce of that `start`; and, if that
`start` asked for a link, a user is signed in.  A callback that refuses leaves the user. -/
theorem login_redeems_start (flow : Flow P) (session₀ : Session U)
    (h₀ : ∀ s, session₀.attempt s = none) (l : List (World P I U × Request))
    (w : World P I U) (providerId : Str) (query : CallbackQuery)
    (hlaw : ∀ r ∈ l, r.1.Lawful) (hw : w.Lawful)
    (hclock : ClockMonotone (l ++ [(w, .callback providerId query)])) :
    let session := run (step flow) session₀ l
    let out := callback flow w session providerId query
    (∀ user, .login user ∈ out.events →
      ∃ s pre w₀ query₀ mid authorization provider code identity ctx,
        query.state = some s ∧ l = pre ++ (w₀, .start providerId query₀) :: mid ∧
        Accepted flow w₀ (run (step flow) session₀ pre) providerId query₀ authorization ∧
        authorization.state = s ∧
        w₀.now ≤ w.now ∧ w.now < w₀.now + pendingTtlSecs ∧
        (∀ r ∈ mid, ¬ r.2.Presents s ∧ r.2 ≠ .signOut) ∧
        flow.providers providerId = some provider ∧ query.code = some code ∧
        (∃ pending, out.events =
            [.identify provider code pending, .resolve identity ctx, .login user] ∧
          pending.pkceVerifier = authorization.pkceVerifier ∧
          pending.nonce = authorization.nonce) ∧
        (query₀.isLink = true → session.user.isSome = true)) ∧
    (out.response.isRefusal = true → out.session.user = session.user) := by
  intro session out
  refine ⟨?_, callback_refusal_user hw flow session providerId query⟩
  intro user huser
  obtain ⟨s, pending, provider, code, identity, hres, hevents⟩ := callback_login huser
  obtain ⟨pre, w₀, providerId₀, query₀, mid, authorization, rfl, hacc, hstate, hpending, hmid⟩ :=
    attempt_history h₀ hlaw hres.attempt
  obtain rfl : providerId₀ = providerId := by
    rw [← hres.sameProvider, hpending]
    rfl
  have hcreated : pending.createdAt = w₀.now := by
    rw [hpending]
    rfl
  have hle : w₀.now ≤ w.now := by
    have hlater : w₀.later ≤ w.now :=
      (List.pairwise_append.mp hclock).2.2 (w₀, .start providerId₀ query₀) (by simp) _
        List.mem_cons_self
    exact w₀.clock.trans hlater
  have hfresh : w.now - w₀.now < pendingTtlSecs := by
    rw [← hcreated]
    exact of_decide_eq_true hres.fresh
  refine ⟨s, pre, w₀, query₀, mid, authorization, provider, code, identity, _, hres.presented, rfl,
    hacc, hstate, hle, by omega, fun r hr => ?_, hres.known, hres.exchanged,
    ⟨pending, hevents, by rw [hpending]; rfl, by rw [hpending]; rfl⟩, fun hlink => ?_⟩
  · exact ⟨fun h => hmid r hr (.inl h), fun h => hmid r hr (.inr h)⟩
  · refine hres.linkUser ?_
    rw [hpending]
    exact hlink

/-! ## 4. A run with two tabs -/

/-- A lawful surrounding: a provider that hands out `state` and accepts every code, and a
resolver that answers with `user`. -/
def plainWorld (now : Nat) (state : String) (user : Nat) : World Unit Unit Nat :=
  { now
    later := now
    clock := le_rfl
    order := .asStored
    authorize := fun _ =>
      .ok { url := "https://id.example/auth".toList, state := state.toList,
            pkceVerifier := some "verifier".toList, nonce := none }
    identify := fun _ _ _ => .ok ()
    resolve := fun _ _ => .ok { user }
    login := fun session user => (.ok (), { session with user := some user })
    logout := fun _ => (.ok (), {}) }

theorem plainWorld_lawful (now : Nat) (state : String) (user : Nat) :
    (plainWorld now state user).Lawful where
  login_pending _ _ := rfl
  login_ok _ _ _ := rfl
  login_error _ _ _ h := by cases h
  logout_clears _ := rfl

/-- One provider, `g`, and the default pages. -/
def plainFlow : Flow Unit :=
  { providers := fun id => if id = "g".toList then some () else none
    signInPath := "/".toList
    defaultNext := "/".toList
    errorParam := "auth_error".toList }

def plainCallback (state : String) : CallbackQuery :=
  { code := some "code".toList, state := some state.toList }

/-- Two tabs start a sign-in; the second one comes back first. -/
def twoTabs : List (World Unit Unit Nat × Request) :=
  [(plainWorld 100 "a" 7, .start "g".toList {}),
   (plainWorld 200 "b" 8, .start "g".toList {}),
   (plainWorld 300 "-" 8, .callback "g".toList (plainCallback "b"))]

theorem twoTabs_lawful : ∀ r ∈ twoTabs, r.1.Lawful := by
  intro r hr
  simp only [twoTabs, List.mem_cons, List.not_mem_nil, or_false] at hr
  rcases hr with rfl | rfl | rfl <;> exact plainWorld_lawful _ _ _

theorem login_redeems_first_tab :
    ∃ pre w₀ query₀ mid, twoTabs = pre ++ (w₀, .start "g".toList query₀) :: mid ∧
      w₀.now ≤ 699 ∧ 699 < w₀.now + pendingTtlSecs ∧
      ∀ r ∈ mid, ¬ r.2.Presents "a".toList ∧ r.2 ≠ .signOut := by
  obtain ⟨s, pre, w₀, query₀, mid, -, -, -, -, -, hs, hl, -, -, hle, hlt, hmid, -⟩ :=
    (login_redeems_start plainFlow {} (fun _ => rfl) twoTabs (plainWorld 699 "-" 7) "g".toList
      (plainCallback "a") twoTabs_lawful (plainWorld_lawful _ _ _) (by decide)).1 7 (by decide)
  obtain rfl : "a".toList = s := Option.some.inj hs
  exact ⟨pre, w₀, query₀, mid, hl, hle, hlt, hmid⟩

end Muxa.Auth
