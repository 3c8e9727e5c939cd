/-
# What the user of a session rests on

The sign-in routes over real providers, with any number of browsers at once.  A user in a session
was signed in by a callback of that session, which redeemed a `start` of that session
(`Muxa.Auth.Overlap`); the identity behind the user is one the provider vouched for, under the
secrets that very `start` drew (`Muxa.Auth.Provider`).  `session_user_established` puts the two
together.

The secrets are what ties an authorization code to a browser.  Where the provider gives tokens only
for the verifier behind the challenge it issued the code for, a code issued for one browser's
sign-in is of no use in another browser (`stolen_code_refused`).
-/
import Muxa.Auth.Overlap
import Muxa.Auth.Provider

namespace Muxa.Auth

open Lib.Text Lib.Run Lib.Copies

variable {ι K U : Type} {c : Crates}

/-! ## 1. Requests to the routes with real providers -/

/-- The surroundings of one request: the network, the clock, the app and axum-login. -/
structure Surroundings (c : Crates) (U : Type) extends Net c where
  now : Nat
  later : Nat
  clock : now ≤ later
  order : IterOrder
  resolve : ExternalIdentity Value → ResolveContext U → Except Refusal (Resolved U)
  login : Session U → U → Except Str Unit × Session U
  logout : Session U → Except Str Unit × Session U

def Surroundings.world (around : Surroundings c U) :
    World (Provider c) (ExternalIdentity Value) U :=
  { around with
    authorize := Provider.authorize around.toNet
    identify := Provider.identify around.toNet }

structure Visit (K : Type) (c : Crates) (U : Type) where
  session : K
  around : Surroundings c U
  request : Request

def Visit.arrival (visit : Visit K c U) : Arrival K (Provider c) (ExternalIdentity Value) U where
  session := visit.session
  world := visit.around.world
  request := visit.request

/-- **A sign-in of `user`, established with a provider.**  `start` `i` sent the browser of session
`k` to the provider with an authorization of its drawing; callback `j` of the same session was
given an identity that rests on the verifier and nonce of that authorization, and the app's
resolver said it is `user`. -/
structure Established (flow : Flow (Provider c)) (visits : ι → Visit K c U) (k : K) (i j : ι)
    (provider : Provider c) (authorization : Authorization) (code : Str)
    (identity : ExternalIdentity Value) (user : U) : Prop where
  sessions : (visits i).session = k ∧ (visits j).session = k
  requests : ∃ providerId query₀ query, flow.providers providerId = some provider ∧
    (visits i).request = .start providerId query₀ ∧
    (visits j).request = .callback providerId query ∧
    query.state = some authorization.state ∧ query.code = some code
  sent : ∃ copy providerId query₀, (visits i).request = .start providerId query₀ ∧
    (start flow (visits i).around.world copy providerId query₀).response =
      .provider authorization.url
  issued : provider.Issued (visits i).around.toNet authorization
  lifetime : (visits j).around.now < (visits i).around.now + pendingTtlSecs
  rests : provider.Rests (visits j).around.toNet code authorization.pkceVerifier
    authorization.nonce identity
  resolved : ∃ ctx resolved, (visits j).around.resolve identity ctx = .ok resolved ∧
    resolved.user = user

/-! ## 2. Every sign-in is established -/

section Sessions

variable [DecidableEq ι] [DecidableEq K] [DecidableEq U]

def afterVisits (flow : Flow (Provider c)) (visits : ι → Visit K c U) (sessions : K → Session U)
    (schedule : List ι) :
    Systems ι K (Session U) (Outcome (Provider c) (ExternalIdentity Value) U) :=
  afterSchedule flow (fun i => (visits i).arrival) sessions schedule

variable {flow : Flow (Provider c)} {visits : ι → Visit K c U} {sessions : K → Session U}

/-- **A callback that signs a user in establishes the sign-in**, and asked its provider about the
code it was given. -/
theorem login_established (h₀ : ∀ k s, (sessions k).attempt s = none)
    (hlaw : ∀ i, (visits i).around.world.Lawful) {schedule : List ι} {j : ι}
    {out : Outcome (Provider c) (ExternalIdentity Value) U}
    (hout : ((afterVisits flow visits sessions schedule).phase j).out = some out) {user : U}
    (hlogin : .login user ∈ out.events) :
    ∃ i provider authorization code identity,
      Established flow visits (visits j).session i j provider authorization code identity user := by
  obtain ⟨pre, post, i, authorization, provider, code, pending, identity, ctx, -, -, hredeemed⟩ :=
    redeems_own_start h₀ hlaw hout hlogin
  obtain ⟨providerId, query, query₀, copy, hreq, hstate, hcode, hknown, hbegan, -⟩ :=
    hredeemed.began
  obtain ⟨provider', hknown', hauthorize⟩ := hbegan.accepted.provider
  obtain rfl : provider = provider' := Option.some.inj (hknown.symm.trans hknown')
  have hrests := Provider.identify_rests hredeemed.identified
  rw [hredeemed.verifier, hredeemed.nonce] at hrests
  exact ⟨i, provider, authorization, code, identity, {
    sessions := ⟨hbegan.session, rfl⟩
    requests := ⟨providerId, query₀, query, hknown, hbegan.request, hreq, hstate, hcode⟩
    sent := ⟨copy, providerId, query₀, hbegan.request, hbegan.accepted.response⟩
    issued := Provider.authorize_issued hauthorize
    lifetime := hredeemed.lifetime
    rests := hrests
    resolved := ⟨ctx, hredeemed.resolved⟩ }⟩

/-- **The user of a session is established.**  After any schedule of the requests of any number of
browsers, on sessions that hold nothing at the outset: the user in a session is the one the app's
resolver made of an identity that a configured provider vouched for, under the secrets that a
`start` of that same session drew and sent its browser to the provider with, less than
`pendingTtlSecs` before.  The identity names that provider, and an OAuth2 provider's never has a
verified email. -/
theorem session_user_established (flow : Flow (Provider c)) (visits : ι → Visit K c U)
    (hlaw : ∀ i, (visits i).around.world.Lawful) (schedule : List ι) (k : K) (user : U)
    (h : ((afterVisits flow visits (fun _ => {}) schedule).stored k).user = some user) :
    ∃ i j provider authorization code identity,
      Established flow visits k i j provider authorization code identity user ∧
      identity.provider = provider.id ∧
      ∀ p, provider = .oauth2 p → identity.emailVerified = false ∧
        (identity.profile.get p.subjectField = some (.string identity.subject) ∧
            identity.subject ≠ [] ∨
          identity.profile.get p.subjectField = some (.number identity.subject)) := by
  have hlawful : ∀ i, (visits i).arrival.world.Lawful := hlaw
  rcases signed_in_by_callback hlawful h with
    hold | ⟨j, copy, out, rfl, hended, hlogin⟩
  · cases hold
  have hout : ((afterVisits flow visits (fun _ => {}) schedule).phase j).out = some out := by
    rw [afterVisits, hended]
    rfl
  obtain ⟨i, provider, authorization, code, identity, hestablished⟩ :=
    login_established (fun _ _ => rfl) hlaw hout hlogin
  exact ⟨i, j, provider, authorization, code, identity, hestablished,
    hestablished.rests.identity⟩

/-! ## 3. A code issued for another browser -/

/-- **Providers that enforce PKCE**: they issue each code for a challenge (`boundTo`), and give
tokens for it only to who shows the verifier of that challenge. -/
structure EnforcesPkce (visits : ι → Visit K c U) (boundTo : Str → Str) : Prop where
  oauth : ∀ i client code verifier token,
    (visits i).around.token
        (c.oauth.setPkceVerifier (c.oauth.exchangeCode client code) verifier) = .ok token →
      c.oauth.challenge verifier = boundTo code
  openid : ∀ i id client code request verifier response,
    c.openid.exchangeCode client code = .ok request →
    ((visits i).around.env id).request (c.openid.setPkceVerifier request verifier) =
        .ok response →
      c.oauth.challenge verifier = boundTo code

omit [DecidableEq ι] [DecidableEq K] [DecidableEq U] in
/-- An identity rests on a code that was issued for the verifier's challenge. -/
theorem EnforcesPkce.bound {boundTo : Str → Str} (h : EnforcesPkce visits boundTo) {j : ι}
    {code verifier : Str} {nonce : Option Str} {provider : Provider c}
    {identity : ExternalIdentity Value}
    (hrests : provider.Rests (visits j).around.toNet code (some verifier) nonce identity) :
    c.oauth.challenge verifier = boundTo code := by
  cases hrests with
  | oauth2 p token profile subject hexchange hprofile hsubject =>
    simp only [OAuth2Provider.exchange] at hexchange
    split at hexchange
    · cases hexchange
    · rename_i token' htoken
      exact h.oauth j p.client code verifier token' htoken
  | oidc p scopes n first client accessToken idToken claims cache hnonce hexchange hverified =>
    simp only [OidcProvider.exchange] at hexchange
    cases hrequest : c.openid.exchangeCode first code with
    | error err => simp [hrequest] at hexchange
    | ok request =>
      simp only [hrequest] at hexchange
      cases hresponse : ((visits j).around.env p.id).request
          (c.openid.setPkceVerifier request verifier) with
      | error err => simp [hresponse] at hexchange
      | ok response => exact h.openid j p.id first code request verifier response hrequest hresponse

/-- **A stolen code is of no use.**  Where the provider enforces PKCE and no two sign-ins drew
verifiers of one challenge: a code that was issued for the sign-in some request `i` began signs
nobody in on any session but the one of `i`, whatever callbacks are made with it. -/
theorem stolen_code_refused (flow : Flow (Provider c)) (visits : ι → Visit K c U)
    (sessions : K → Session U) (h₀ : ∀ k s, (sessions k).attempt s = none)
    (hlaw : ∀ i, (visits i).around.world.Lawful) (boundTo : Str → Str)
    (hpkce : EnforcesPkce visits boundTo)
    (huses : ∀ id provider, flow.providers id = some provider → provider.usesPkce = true)
    (hdistinct : ∀ i i', c.oauth.challenge (visits i).around.drawn.verifier =
      c.oauth.challenge (visits i').around.drawn.verifier → i = i')
    (schedule : List ι) (i j : ι) (hother : (visits j).session ≠ (visits i).session)
    (providerId code : Str) (query : CallbackQuery)
    (hreq : (visits j).request = .callback providerId query) (hcode : query.code = some code)
    (hissued : boundTo code = c.oauth.challenge (visits i).around.drawn.verifier)
    (out : Outcome (Provider c) (ExternalIdentity Value) U)
    (hout : ((afterVisits flow visits sessions schedule).phase j).out = some out) (user : U) :
    .login user ∉ out.events := by
  intro hlogin
  obtain ⟨i', provider, authorization, code', identity, hestablished⟩ :=
    login_established h₀ hlaw hout hlogin
  obtain ⟨providerId', query₀, query', hknown, -, hreq', -, hcode'⟩ := hestablished.requests
  obtain ⟨rfl, rfl⟩ : providerId' = providerId ∧ query' = query := by
    simpa [hreq, eq_comm] using hreq'
  obtain rfl : code' = code := Option.some.inj (hcode'.symm.trans hcode)
  have hrests := hestablished.rests
  rw [hestablished.issued.drawn.2 (huses _ _ hknown)] at hrests
  have hbound := hpkce.bound hrests
  -- the code was issued for the challenge of the `start` that the callback redeemed
  obtain rfl := hdistinct i' i (hbound.trans hissued)
  exact hother hestablished.sessions.1.symm

end Sessions

/-! ## 4. Two browsers and one code -/

/-- Crates whose challenge is the verifier with a mark, and whose requests are the code and the
verifier. -/
def markedCrates : Crates where
  oauth :=
    { Client := Unit
      Request := Str × Option Str
      AccessToken := Str
      Url := Unit
      challenge := fun verifier => 'h' :: verifier
      authorizeUrl := fun _ state _ challenge => state ++ challenge.getD []
      exchangeCode := fun _ code => (code, none)
      setPkceVerifier := fun request verifier => (request.1, some verifier) }
  openid := keyList
  authorizeUrl := fun _ state nonce challenge _ => state ++ nonce ++ challenge
  value := fun _ => .null

/-- A lawful request whose codes are the challenges they were issued for. -/
def markedSurroundings (now : Nat) (state verifier : String) :
    Surroundings markedCrates Nat where
  drawn := ⟨state.toList, verifier.toList, "n".toList⟩
  token := fun request =>
    if request.1 = request.2.elim [] (fun verifier => 'h' :: verifier) then
      .ok "token".toList
    else .error "invalid_grant".toList
  userinfo := fun _ _ => .ok (.ok (.object [("id".toList, .number "42".toList)]))
  env := fun _ =>
    { now
      discoveredAt := fun _ => now
      firstCheck := now
      secondCheck := now
      discover := fun _ _ => .error "unreachable".toList
      request := fun _ => .error "unreachable".toList }
  cache := fun _ => {}
  now := now
  later := now
  clock := le_rfl
  order := .asStored
  resolve := fun identity _ => .ok { user := identity.subject.length }
  login := fun session user => (.ok (), { session with user := some user })
  logout := fun _ => (.ok (), {})

theorem markedSurroundings_lawful (now : Nat) (state verifier : String) :
    (markedSurroundings now state verifier).world.Lawful where
  login_pending _ _ := rfl
  login_ok _ _ _ := rfl
  login_error _ _ _ h := by cases h
  logout_clears _ := rfl

/-- One plain OAuth2 provider, with PKCE. -/
def markedFlow : Flow (Provider markedCrates) where
  providers id :=
    if id = "g".toList then
      some (.oauth2 ⟨"g".toList, (), [], true, (), "id".toList, none, none⟩)
    else none
  signInPath := "/".toList
  defaultNext := "/".toList
  errorParam := "auth_error".toList

/-- The two requests of each of two browsers. -/
inductive Four where
  | firstStart
  | secondStart
  | firstCallback
  | secondCallback
deriving DecidableEq

/-- Two browsers start a sign-in each; the code of the second browser's comes back to it, and to
the first browser with the first one's state token. -/
def oneCode : Four → Visit Bool markedCrates Nat
  | .firstStart => ⟨true, markedSurroundings 100 "a" "v", .start "g".toList {}⟩
  | .secondStart => ⟨false, markedSurroundings 110 "b" "w", .start "g".toList {}⟩
  | .firstCallback => ⟨true, markedSurroundings 300 "-" "x",
      .callback "g".toList { code := some "hw".toList, state := some "a".toList }⟩
  | .secondCallback => ⟨false, markedSurroundings 310 "-" "y",
      .callback "g".toList { code := some "hw".toList, state := some "b".toList }⟩

theorem oneCode_lawful (i : Four) : (oneCode i).around.world.Lawful := by
  cases i <;> exact markedSurroundings_lawful _ _ _

theorem oneCode_distinct : ∀ i i', markedCrates.oauth.challenge (oneCode i).around.drawn.verifier =
    markedCrates.oauth.challenge (oneCode i').around.drawn.verifier → i = i' := by
  intro i i' h
  cases i <;> cases i' <;> first | rfl | exact absurd h (by decide)

theorem oneCode_pkce : EnforcesPkce oneCode id := by
  constructor
  · intro i client code verifier token htoken
    have hsame : (oneCode i).around.token =
        (markedSurroundings 0 "" "").token := by cases i <;> rfl
    rw [hsame] at htoken
    simp only [markedSurroundings] at htoken
    split at htoken
    · rename_i heq
      exact heq.symm
    · cases htoken
  · intro i id client code request verifier response _ hresponse
    have herr : ((oneCode i).around.env id).request
        (markedCrates.openid.setPkceVerifier request verifier) = .error "unreachable".toList := by
      cases i <;> rfl
    rw [herr] at hresponse
    cases hresponse

def visitTurns : List Four :=
  [.firstStart, .secondStart, .firstStart, .secondStart, .firstStart, .secondStart,
   .firstCallback, .secondCallback, .firstCallback, .secondCallback, .firstCallback,
   .secondCallback]

theorem session_user_established_second_browser :
    ∃ i j provider authorization code identity,
      Established markedFlow oneCode false i j provider authorization code identity 2 := by
  obtain ⟨i, j, provider, authorization, code, identity, h, -⟩ :=
    session_user_established markedFlow oneCode oneCode_lawful visitTurns false 2 (by decide)
  exact ⟨i, j, provider, authorization, code, identity, h⟩

theorem stolen_code_refused_first_browser :
    ∃ out, ((afterVisits markedFlow oneCode (fun _ => {}) visitTurns).phase .firstCallback).out =
        some out ∧ ∀ user, .login user ∉ out.events := by
  have hended : ((afterVisits markedFlow oneCode (fun _ => {}) visitTurns).phase
      .firstCallback).out.isSome = true := by decide
  obtain ⟨out, hout⟩ := Option.isSome_iff_exists.mp hended
  refine ⟨out, hout, stolen_code_refused markedFlow oneCode (fun _ => {}) (fun _ _ => rfl)
    oneCode_lawful id oneCode_pkce ?_ oneCode_distinct visitTurns .secondStart .firstCallback
    (by decide) "g".toList "hw".toList _ rfl rfl rfl out hout⟩
  intro id provider h
  simp only [markedFlow] at h
  split at h
  · cases h
    rfl
  · cases h

end Muxa.Auth
