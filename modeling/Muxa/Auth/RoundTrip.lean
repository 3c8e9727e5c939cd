/-
# A sign-in goes round

The other modules say what a callback cannot do.  This one says what it does: a browser that was
sent to a provider and comes back to the redirect URL is signed in and lands on the page it started
from, whatever else happened on its session in between, short of what the code is meant to stop:
signing out, presenting the token twice, taking ten minutes, or starting so many other sign-ins that
there is no room (`sign_in_goes_round`).

The part about room is the hard one.  `remember` drops an attempt only for others that are no
older, and in a session those were started after it, so as many `start` requests as the session
holds attempts must have come (`attempt_survives`).
-/
import Muxa.Auth.Established
import Muxa.Auth.Plugin

namespace Muxa.Auth

open Lib.Text Lib.Run Lib.Form Lib.Target

/-! ## 1. Room for an attempt -/

section Room

variable {P I U : Type}

def Request.isStart : Request → Bool
  | .start _ _ => true
  | .callback _ _ | .signOut => false

/-- The token that a request draws, if it is a `start` that draws one. -/
def drawnToken (flow : Flow P) (r : World P I U × Request) : Option Str :=
  match r.2 with
  | .start providerId _ => ((flow.providers providerId).bind fun provider =>
      (r.1.authorize provider).toOption).map Authorization.state
  | .callback _ _ | .signOut => none

theorem drawnToken_of_draws {flow : Flow P} {s : Str} {r : World P I U × Request}
    (h : Draws flow s r) : drawnToken flow r = some s := by
  obtain ⟨providerId, query, provider, authorization, hreq, hprov, hauth, rfl⟩ := h
  simp [drawnToken, hreq, hprov, hauth, Except.toOption]

/-- Tokens are distinct when those that are drawn are. -/
theorem distinctTokens_of_nodup {flow : Flow P} {l : List (World P I U × Request)}
    (h : (l.filterMap (drawnToken flow)).Nodup) : DistinctTokens flow l := by
  refine (List.pairwise_filterMap.mp h).imp fun hne s ha hb => ?_
  exact hne s (drawnToken_of_draws ha) s (drawnToken_of_draws hb) rfl

/-- There are no more distinct tokens drawn than there are starts. -/
theorem length_le_starts {flow : Flow P} {l : List (World P I U × Request)} {tokens : List Str}
    (hnodup : tokens.Nodup) (hdrawn : ∀ s ∈ tokens, ∃ r ∈ l, Draws flow s r) :
    tokens.length ≤ (l.filter fun r => r.2.isStart).length := by
  have hsub : tokens ⊆ (l.filter fun r => r.2.isStart).filterMap (drawnToken flow) := by
    intro s hs
    obtain ⟨r, hr, hdraws⟩ := hdrawn s hs
    have hstart : r.2.isStart = true := by
      obtain ⟨_, _, _, _, hreq, -⟩ := hdraws
      rw [hreq]
      rfl
    exact List.mem_filterMap.mpr
      ⟨r, List.mem_filter.mpr ⟨hr, hstart⟩, drawnToken_of_draws hdraws⟩
  exact (List.subperm_of_subset hnodup hsub).length_le.trans (List.length_filterMap_le _ _)

theorem attempt_of_getPending {session : Session U} {stored : Option PendingMap}
    (h : session.getPending = .ok stored) (s : Str) :
    session.attempt s = (stored.getD ∅).lookup s := by
  unfold Session.getPending at h
  unfold Session.attempt
  rcases hp : session.pending with _ | (err | map) <;> rw [hp] at h <;> cases h <;> rfl

/-- **What an evicted attempt gives way to**: `maxPending - 1` attempts of the session, under tokens
of their own, that are no older. -/
theorem evicts_for {w : World P I U} {flow : Flow P} {session : Session U} {providerId : Str}
    {query : StartQuery} {s : Str} {attempt : PendingLogin} (hs : session.attempt s = some attempt)
    (hfresh : attempt.fresh w.later = true)
    (hevicts : Evicts flow s session (w, .start providerId query))
    (hnew : ∀ s', Draws flow s' (w, .start providerId query) → session.attempt s' = none) :
    ∃ tokens : List Str, tokens.Nodup ∧ maxPending - 1 ≤ tokens.length ∧ ∀ s' ∈ tokens, s' ≠ s ∧
      ∃ attempt', session.attempt s' = some attempt' ∧ attempt.createdAt ≤ attempt'.createdAt := by
  obtain ⟨-, -, hgone⟩ := hevicts
  rcases start_cases flow w session providerId query with
    ⟨refusal, link, hrefused⟩ | ⟨authorization, hacc, hrem⟩
  · rw [step, handle, hrefused, hs] at hgone
    cases hgone
  cases hget : session.getPending with
  | error err => simp [remember, hget, bind, Except.bind] at hrem
  | ok stored =>
    have hnotin : authorization.state ∉ stored.getD ∅ := by
      intro hmem
      have hheld := hnew _ hacc.draws
      rw [attempt_of_getPending hget, ← Option.not_isSome_iff_eq_none] at hheld
      exact hheld (AList.lookup_isSome.mpr hmem)
    have hkept := remembers w.order w.later (stored.getD ∅)
      (pendingLogin flow w.now providerId query authorization) hnotin
    rw [remember_eq hget] at hrem
    have hafter := Except.ok.inj hrem
    rw [step, handle, ← hafter] at hgone
    rw [attempt_of_getPending hget] at hs
    have hroom := hkept.dropped s attempt hs hfresh hgone
    generalize remembered w.order w.later (stored.getD ∅)
      (pendingLogin flow w.now providerId query authorization) = map' at hkept hgone hroom
    refine ⟨(map'.entries.filter fun e => e.1 ≠ authorization.state ∧
      attempt.createdAt ≤ e.2.createdAt).map Sigma.fst,
      map'.nodupKeys.sublist List.filter_sublist, by rw [List.length_map]; exact hroom, ?_⟩
    intro s' hs'
    obtain ⟨e, he, rfl⟩ := List.mem_map.mp hs'
    obtain ⟨hmem, hother⟩ := List.mem_filter.mp he
    have hlookup := AList.mem_lookup_iff.mpr hmem
    obtain ⟨hne, hold⟩ : e.1 ≠ authorization.state ∧ attempt.createdAt ≤ e.2.createdAt := by
      simpa using hother
    refine ⟨?_, e.2, ?_, hold⟩
    · rintro rfl
      have hnone : map'.lookup e.1 = none := hgone
      rw [hlookup] at hnone
      cases hnone
    · rw [attempt_of_getPending hget]
      exact (hkept.others e.1 e.2 hne hlookup).2

/-- A token of the session was drawn by an accepted `start` of the run, when the attempt under it
was created. -/
theorem drawn_of_attempt {flow : Flow P} {session₀ : Session U}
    (h₀ : ∀ s, session₀.attempt s = none) {l : List (World P I U × Request)}
    (hlaw : ∀ r ∈ l, r.1.Lawful) {s : Str} {attempt : PendingLogin}
    (h : (run (step flow) session₀ l).attempt s = some attempt) :
    ∃ r ∈ l, Draws flow s r ∧ r.2.isStart = true ∧ attempt.createdAt = r.1.now := by
  obtain ⟨pre, w, providerId, query, mid, authorization, rfl, hacc, rfl, hattempt, -⟩ :=
    attempt_history h₀ hlaw h
  exact ⟨(w, .start providerId query), by simp, hacc.draws, rfl, by rw [hattempt]; rfl⟩

section Survival

variable {flow : Flow P} {session₀ : Session U} {pre mid : List (World P I U × Request)}
  {w₀ : World P I U} {providerId : Str} {query : StartQuery} {authorization : Authorization}

/-- An attempt that is no older was started since. -/
theorem started_since (h₀ : ∀ s, session₀.attempt s = none) {seen : List (World P I U × Request)}
    (hlaw : ∀ r ∈ pre ++ (w₀, .start providerId query) :: seen, r.1.Lawful)
    (hacc : Accepted flow w₀ (run (step flow) session₀ pre) providerId query authorization)
    (hearlier : ∀ r ∈ pre, r.2.isStart = true → r.1.now < w₀.now) {s : Str}
    {attempt : PendingLogin}
    (hattempt :
      (run (step flow) session₀ (pre ++ (w₀, .start providerId query) :: seen)).attempt s =
        some attempt)
    (hne : s ≠ authorization.state) (hold : w₀.now ≤ attempt.createdAt) :
    ∃ r ∈ seen, Draws flow s r := by
  obtain ⟨r, hr, hdraws, hstart, hcreated⟩ := drawn_of_attempt h₀ hlaw hattempt
  rcases List.mem_append.mp hr with hpre | hafter
  · have := hearlier r hpre hstart
    omega
  · rcases List.mem_cons.mp hafter with rfl | hin
    · have heq := drawnToken_of_draws hdraws
      rw [drawnToken_of_draws hacc.draws] at heq
      exact absurd (Option.some.inj heq).symm hne
    · exact ⟨r, hin, hdraws⟩

/-- What leaves an attempt in the session: after the `start` that began it at most `maxPending - 1`
others came, nobody presented its token or signed out, and the starts before it were in earlier
seconds. -/
structure Undisturbed (pre mid : List (World P I U × Request)) (began : Nat) (token : Str) :
    Prop where
  earlier : ∀ r ∈ pre, r.2.isStart = true → r.1.now < began
  room : (mid.filter fun r => r.2.isStart).length < maxPending
  inTime : ∀ r ∈ mid, r.1.later < began + pendingTtlSecs
  kept : ∀ r ∈ mid, ¬ r.2.Forgets token

/-- **An attempt survives** whatever leaves it in the session. -/
theorem attempt_survives (h₀ : ∀ s, session₀.attempt s = none)
    (hlaw : ∀ r ∈ pre ++ (w₀, .start providerId query) :: mid, r.1.Lawful)
    (hdistinct : DistinctTokens flow (pre ++ (w₀, .start providerId query) :: mid))
    (hacc : Accepted flow w₀ (run (step flow) session₀ pre) providerId query authorization)
    (hund : Undisturbed pre mid w₀.now authorization.state) {seen : List (World P I U × Request)}
    (hseen : seen <+: mid) :
    (run (step flow) session₀ (pre ++ (w₀, .start providerId query) :: seen)).attempt
        authorization.state = some (pendingLogin flow w₀.now providerId query authorization) := by
  induction seen using List.reverseRecOn with
  | nil =>
    rw [run_append, run_cons, run_nil]
    exact hacc.attempt
  | append_singleton seen r ih =>
    have hbefore := ih ((List.prefix_append _ _).trans hseen)
    obtain ⟨rest, hmid⟩ := hseen
    have hl : pre ++ (w₀, .start providerId query) :: mid =
        (pre ++ (w₀, .start providerId query) :: seen) ++ r :: rest := by
      rw [← hmid]
      simp
    have hr : r ∈ mid := by
      rw [← hmid]
      simp
    rw [hl] at hlaw hdistinct
    have hfreshly : ∀ r' ∈ pre ++ (w₀, .start providerId query) :: seen, ∀ s,
        Draws flow s r' → ¬ Draws flow s r := fun r' hr' =>
      (List.pairwise_append.mp hdistinct).2.2 r' hr' r List.mem_cons_self
    have hfresh : (pendingLogin flow w₀.now providerId query authorization).fresh r.1.later =
        true := by
      have hpos : 0 < pendingTtlSecs := by decide
      have := hund.inTime r hr
      exact decide_eq_true (by dsimp only [pendingLogin]; omega)
    rw [← List.cons_append, ← List.append_assoc, run_concat]
    refine step_keeps (hlaw r (by simp)) flow hbefore (hund.kept r hr)
      (hfreshly _ (by simp) _ hacc.draws) hfresh ?_
    -- it would give way to attempts that were started since, and there are not as many
    intro hevicts
    obtain ⟨providerId', query', hstart⟩ := hevicts.1
    obtain ⟨w, req⟩ := r
    obtain rfl : req = .start providerId' query' := hstart
    have hlaw' : ∀ r ∈ pre ++ (w₀, .start providerId query) :: seen, r.1.Lawful :=
      fun r hr => hlaw r (List.mem_append_left _ hr)
    obtain ⟨tokens, hnodup, hmany, htokens⟩ := evicts_for hbefore hfresh hevicts fun s' hdraws => by
      by_contra hheld
      obtain ⟨attempt, hattempt⟩ := Option.ne_none_iff_exists'.mp hheld
      obtain ⟨r', hr', hdraws', -⟩ := drawn_of_attempt h₀ hlaw' hattempt
      exact hfreshly r' hr' _ hdraws' hdraws
    have hstarts := length_le_starts hnodup fun s' hs' => by
      obtain ⟨hne, attempt, hattempt, hold⟩ := htokens s' hs'
      exact started_since h₀ hlaw' hacc hund.earlier hattempt hne hold
    have hcount : (seen.filter fun r => r.2.isStart).length + 1 ≤
        (mid.filter fun r => r.2.isStart).length := by
      rw [← hmid, List.filter_append, List.filter_append, List.filter_cons_of_pos rfl]
      simp
    have hroom := hund.room
    omega

end Survival

end Room

/-! ## 2. The callback of an attempt in the session -/

section Callback

variable {P I U : Type} {flow : Flow P} {w : World P I U} {session : Session U}
  {providerId code s : Str} {pending : PendingLogin} {provider : P} {identity : I}
  {resolved : Resolved U}

/-- The provider vouches for the code, the app for the identity, and axum-login signs in. -/
structure Vouched (w : World P I U) (session : Session U) (pending : PendingLogin) (provider : P)
    (code : Str) (identity : I) (resolved : Resolved U) : Prop where
  identify : w.identify provider code pending = .ok identity
  linkUser : pending.link = true → session.user.isSome = true
  resolve : w.resolve identity (contextOf session pending) = .ok resolved
  login : ∀ session, (w.login session resolved.user).1 = .ok ()

/-- **A callback whose attempt is in the session signs in.** -/
theorem callback_signs_in (hw : w.Lawful) (hattempt : session.attempt s = some pending)
    (hfresh : pending.fresh w.now = true) (hprovider : pending.provider = providerId)
    (hknown : flow.providers providerId = some provider)
    (hvouched : Vouched w session pending provider code identity resolved) :
    let out := callback flow w session providerId { code := some code, state := some s }
    out.response = .next (withQuery pending.next resolved.query) ∧
      out.session.user = some resolved.user ∧ out.session.attempt s = none ∧
      out.events = [.identify provider code pending, .resolve identity (contextOf session pending),
        .login resolved.user] := by
  intro out
  have hout : out.session.attempt s = none := (callback_attempt hw _ _ _ _ s).trans (if_pos rfl)
  obtain ⟨session', htaken⟩ : ∃ session', taken w session { code := some code, state := some s } =
      .ok (some pending, session') := (finds_iff rfl pending).mpr ⟨hattempt, hfresh⟩
  have huser : session'.user = session.user := (take_spec htaken).1
  have hlink : (pending.link && session'.user.isNone) = false := by
    cases hl : pending.link with
    | false => rfl
    | true => simpa [huser] using hvouched.linkUser hl
  have hredeem : out = signIn flow w session' pending identity
      [.identify provider code pending] := by
    simp only [out, callback, htaken, hprovider, if_true, redeem, hknown, hvouched.identify, hlink,
      Bool.false_eq_true, if_false]
  have hresolve := hvouched.resolve
  rw [contextOf, ← huser] at hresolve
  rcases signIn_cases flow w session' pending identity [.identify provider code pending] with
    ⟨refusal, hrefused, -⟩ | ⟨resolved', hresolved, hsession, hevents, hresponse⟩
  · rw [hresolve] at hrefused
    cases hrefused
  · obtain rfl : resolved = resolved' := Except.ok.inj (hresolve.symm.trans hresolved)
    rcases hresponse with ⟨err, herr, -⟩ | ⟨hok, hnext⟩
    · rw [hvouched.login] at herr
      cases herr
    · refine ⟨hredeem ▸ hnext, ?_, hout, ?_⟩
      · rw [hredeem, hsession, hw.login_ok _ _ hok]
      · rw [hredeem, hevents, contextOf, huser]
        rfl

end Callback

/-! ## 3. There and back -/

section Wire

variable {c : Crates} {I U : Type}

/-- **The browser is sent to the provider**: on this session the HTTP request reaches `start`, which
gets the authorization of the provider and answers with its URL. -/
structure Sent (parseUrl : Str → Option Csrf.ParsedUrl) (app : AuthApp (Provider c))
    (session : Session U) (r : World (Provider c) I U × HttpRequest) (id : Str)
    (query : StartQuery) (provider : Provider c) (authorization : Authorization) : Prop where
  request : app.request? parseUrl r = some (r.1, .start id query)
  authorize : r.1.authorize provider = .ok authorization
  response : (app.serve parseUrl session r).response = .provider authorization.url

theorem Sent.accepted {parseUrl : Str → Option Csrf.ParsedUrl} {app : AuthApp (Provider c)}
    {session : Session U} {r : World (Provider c) I U × HttpRequest} {id : Str}
    {query : StartQuery} {provider : Provider c} {authorization : Authorization}
    (h : Sent parseUrl app session r id query provider authorization)
    (hknown : app.flow.providers id = some provider) :
    Accepted app.flow r.1 session id query authorization := by
  have hstart : app.serve parseUrl session r = start app.flow r.1 session id query := by
    rcases serve_cases parseUrl app session r with
      ⟨request, hrequest, -, -, hserve⟩ | ⟨code, hrequest, -⟩
    · obtain rfl : request = .start id query := by
        simpa using hrequest.symm.trans h.request
      exact hserve
    · rw [h.request] at hrequest
      cases hrequest
  have hresponse := h.response
  rw [hstart] at hresponse
  rcases start_cases app.flow r.1 session id query with
    ⟨refusal, link, hrefused⟩ | ⟨authorization', hacc, -⟩
  · rw [hrefused] at hresponse
    cases hresponse
  · obtain ⟨provider', hknown', hauthorize⟩ := hacc.provider
    obtain rfl : provider = provider' := Option.some.inj (hknown.symm.trans hknown')
    obtain rfl : authorization = authorization' :=
      Except.ok.inj (h.authorize.symm.trans hauthorize)
    exact hacc

end Wire

/-! ## 4. A round trip between two others -/

/-- Absolute `http` and `https` URLs parse. -/
def markedBuilders : Builders markedCrates where
  url s := if (requestTarget s).isSome then .ok ()
    else .error "relative URL without a base".toList
  issuer _ := .ok ()
  client _ _ _ _ _ _ := ()

/-- One OAuth2 provider, the routes under `/auth`. -/
def oneProvider : AuthConfig where
  baseUrl := "http://app.test/".toList
  mount := "auth".toList
  providers := ⟨[("g".toList, .oauth2
    { clientId := "c".toList
      authUrl := "https://id.test/authorize".toList
      tokenUrl := "https://id.test/token".toList
      userinfoUrl := "https://id.test/me".toList })], List.pairwise_singleton _ _⟩

theorem oneProvider_leadsBack : oneProvider.LeadsBack "g".toList where
  base := ⟨"http".toList, "app.test".toList, .inl rfl, by decide, by decide,
    List.all_iff_forall_prop.mp (by decide)⟩
  mount := by
    intro segment hsegment
    obtain rfl : segment = "auth".toList := List.mem_singleton.mp hsegment
    exact ⟨⟨List.all_iff_forall_prop.mp (by decide), by decide, by decide⟩,
      List.all_iff_forall_prop.mp (by decide)⟩
  segment := ⟨List.all_iff_forall_prop.mp (by decide), by decide, by decide⟩
  spelled := by decide

/-- A request of the browser at `now`, which draws `state` and `verifier` if it is a `start`. -/
def markedRequest (now : Nat) (state verifier path : String) (query : Option Str) :
    World (Provider markedCrates) (ExternalIdentity Value) Nat × HttpRequest :=
  ((markedSurroundings now state verifier).world, { method := .get, path := path.toList, query })

def sentBack : List (Str × Str) :=
  [("iss".toList, "x".toList), ("code".toList, "hv".toList), ("state".toList, "a".toList)]

end Muxa.Auth
