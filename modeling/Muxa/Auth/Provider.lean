/-
# Providers of both kinds

`Provider` is a plain OAuth2 provider or an OpenID Connect one.  Either begins a sign-in
(`authorize`: the URL to send the browser to, and the secrets to remember until it comes back) and
finishes it (`identify`: an identity for an authorization code).  The OpenID Connect half of
`identify` is `OidcProvider.identify`; this module has the rest.

The random generators, the token endpoint, the userinfo endpoint and the two crates are parameters
(`Net`, `Crates`).  What the code adds is said once: `authorize_issued`, what is drawn and what
the URL carries of it; and `identify_rests`, what an identity rests on.
-/
import Muxa.Auth.Oidc
import Muxa.Auth.Routes

namespace Muxa.Auth

open Lib.Text

/-! ## 1. JSON, and the crates -/

/-- `serde_json::Value`; a number is what it prints as. -/
inductive Value where
  | null
  | bool (b : Bool)
  | number (text : Str)
  | string (s : Str)
  | array (items : List Value)
  | object (fields : List (Str × Value))

/-- `Value::get` with a string. -/
def Value.get (v : Value) (field : Str) : Option Value :=
  match v with
  | .object fields => fields.lookup field
  | _ => none

def Value.asStr : Value → Option Str
  | .string s => some s
  | _ => none

/-- The types and functions of the `oauth2` crate and of `reqwest`. -/
structure OAuth2 where
  Client : Type
  Request : Type
  AccessToken : Type
  Url : Type
  /-- The `code_challenge` of a verifier. -/
  challenge : Str → Str
  /-- The authorization URL with a state token, scopes and, where there is one, a challenge. -/
  authorizeUrl : Client → Str → List Str → Option Str → Str
  exchangeCode : Client → Str → Request
  setPkceVerifier : Request → Str → Request

structure Crates where
  oauth : OAuth2
  openid : OpenId
  /-- The authorization URL with a state token, a nonce, a challenge and scopes. -/
  authorizeUrl : openid.Client → Str → Str → Str → List Str → Str
  /-- The JSON of both is `serde_json`'s. -/
  value : openid.Json → Value

def ExternalIdentity.mapProfile {J J' : Type} (f : J → J') (identity : ExternalIdentity J) :
    ExternalIdentity J' :=
  { identity with profile := f identity.profile }

/-! ## 2. The surroundings of one request -/

/-- What the random generators return: `CsrfToken::new_random`, the verifier of
`PkceCodeChallenge::new_random_sha256`, and `Nonce::new_random`. -/
structure Drawn where
  state : Str
  verifier : Str
  nonce : Str

/-- What one request draws, what the endpoints answer to it, and the clients it finds cached. -/
structure Net (c : Crates) where
  drawn : Drawn
  token : c.oauth.Request → Except Str c.oauth.AccessToken
  /-- The response of the userinfo endpoint, and its body. -/
  userinfo : c.oauth.Url → c.oauth.AccessToken → Except Str (Except Str Value)
  env : Str → Env c.openid
  cache : Str → ClientCache c.openid

variable {c : Crates}

/-! ## 3. Plain OAuth2 -/

structure OAuth2Provider (o : OAuth2) where
  id : Str
  client : o.Client
  scopes : List Str
  pkce : Bool
  userinfoUrl : o.Url
  subjectField : Str
  emailField : Option Str
  nameField : Option Str

namespace OAuth2Provider

def authorize {o : OAuth2} (p : OAuth2Provider o) (drawn : Drawn) : Authorization :=
  let pkceVerifier := if p.pkce then some drawn.verifier else none
  { url := o.authorizeUrl p.client drawn.state p.scopes (pkceVerifier.map o.challenge)
    state := drawn.state
    pkceVerifier
    nonce := none }

/-- Exchange the code, with the attempt's PKCE verifier, for an access token. -/
def exchange (p : OAuth2Provider c.oauth) (net : Net c) (code : Str)
    (pkceVerifier : Option Str) : Except Str c.oauth.AccessToken :=
  let request := c.oauth.exchangeCode p.client code
  let request := match pkceVerifier with
    | some verifier => c.oauth.setPkceVerifier request verifier
    | none => request
  match net.token request with
  | .error err => .error (providerError "token exchange".toList err)
  | .ok token => .ok token

/-- The account's id in a profile: a string that is not empty, or a number. -/
def subject {o : OAuth2} (p : OAuth2Provider o) (profile : Value) : Option Str :=
  match profile.get p.subjectField with
  | some (.string id) => if id.isEmpty then none else some id
  | some (.number id) => some id
  | _ => none

/-- `string_field`: a string that is not empty. -/
def stringField (profile : Value) (field : Option Str) : Option Str :=
  ((field.bind profile.get).bind Value.asStr).filter (!·.isEmpty)

def identity {o : OAuth2} (p : OAuth2Provider o) (profile : Value) (subject : Str) :
    ExternalIdentity Value where
  provider := p.id
  subject
  email := stringField profile p.emailField
  emailVerified := false
  name := stringField profile p.nameField
  profile

/-- `OAuth2Provider::identify`: exchange the code for an access token, and read the identity out of
the profile that the userinfo endpoint returns for it. -/
def identify (p : OAuth2Provider c.oauth) (net : Net c) (code : Str) (pending : PendingLogin) :
    Except Str (ExternalIdentity Value) :=
  match p.exchange net code pending.pkceVerifier with
  | .error err => .error err
  | .ok token =>
    match net.userinfo p.userinfoUrl token with
    | .error err => .error (providerError "userinfo".toList err)
    | .ok (.error err) => .error (providerError "userinfo body".toList err)
    | .ok (.ok profile) =>
      match p.subject profile with
      | none => .error ("userinfo has no `".toList ++ p.subjectField ++ "` field".toList)
      | some subject => .ok (p.identity profile subject)

/-- **What an OAuth2 identity is**: that of the profile the userinfo endpoint returned for the
access token the code was exchanged for. -/
theorem identify_ok_iff (p : OAuth2Provider c.oauth) (net : Net c) (code : Str)
    (pending : PendingLogin) (identity : ExternalIdentity Value) :
    p.identify net code pending = .ok identity ↔
      ∃ token profile subject, p.exchange net code pending.pkceVerifier = .ok token ∧
        net.userinfo p.userinfoUrl token = .ok (.ok profile) ∧
        p.subject profile = some subject ∧ identity = p.identity profile subject := by
  unfold identify
  cases hex : p.exchange net code pending.pkceVerifier with
  | error err => simp
  | ok token =>
    rcases hinfo : net.userinfo p.userinfoUrl token with err | (err | profile)
    · simp [hinfo]
    · simp [hinfo]
    · cases hsub : p.subject profile with
      | none => simp [hinfo, hsub]
      | some subject => simp [hinfo, hsub, eq_comm]

/-- The subject is read from the configured field, and a string is not empty. -/
theorem subject_eq_some_iff {o : OAuth2} (p : OAuth2Provider o) (profile : Value) (s : Str) :
    p.subject profile = some s ↔
      profile.get p.subjectField = some (.string s) ∧ s ≠ [] ∨
        profile.get p.subjectField = some (.number s) := by
  unfold subject
  cases profile.get p.subjectField with
  | none => simp
  | some v =>
    cases v with
    | string t =>
      by_cases ht : t = []
      · subst ht
        simp [eq_comm]
      · simp only [List.isEmpty_iff, ht, if_false, Option.some.injEq, Value.string.injEq,
          reduceCtorEq, or_false]
        constructor
        · rintro rfl
          exact ⟨rfl, ht⟩
        · exact And.left
    | number n => simp
    | null | bool b | array items | object fields => simp

end OAuth2Provider

/-! ## 4. The beginning of an OpenID Connect sign-in -/

/-- `OidcProvider::authorize`, with the scopes the provider is configured with. -/
def OidcProvider.authorize (p : OidcProvider c.openid) (scopes : List Str) (net : Net c) :
    Except Str Authorization × ClientCache c.openid :=
  match p.client (net.env p.id) (net.cache p.id) false with
  | (.error err, cache) => (.error err, cache)
  | (.ok client, cache) =>
    (.ok
      { url := c.authorizeUrl client net.drawn.state net.drawn.nonce
          (c.oauth.challenge net.drawn.verifier) scopes
        state := net.drawn.state
        pkceVerifier := some net.drawn.verifier
        nonce := some net.drawn.nonce },
      cache)

/-! ## 5. A provider -/

inductive Provider (c : Crates) where
  | oauth2 (provider : OAuth2Provider c.oauth)
  | oidc (provider : OidcProvider c.openid) (scopes : List Str)

namespace Provider

/-- The id it was configured under. -/
def id : Provider c → Str
  | .oauth2 p => p.id
  | .oidc p _ => p.id

def authorize (net : Net c) : Provider c → Except Str Authorization
  | .oauth2 p => .ok (p.authorize net.drawn)
  | .oidc p scopes => (p.authorize scopes net).1

/-- `Provider::identify`: what the provider of either kind makes of a code and the attempt it
belongs to. -/
def identify (net : Net c) (provider : Provider c) (code : Str) (pending : PendingLogin) :
    Except Str (ExternalIdentity Value) :=
  match provider with
  | .oauth2 p => p.identify net code pending
  | .oidc p _ =>
    (p.identify (net.env p.id) (net.cache p.id) code pending).1.map
      (ExternalIdentity.mapProfile c.value)

def usesPkce : Provider c → Bool
  | .oauth2 p => p.pkce
  | .oidc _ _ => true

/-- **What a sign-in begins with**: an authorization with the state token that was drawn, a URL
that carries it, and the secrets of the provider's kind, of which the URL carries the challenge
and the nonce. -/
inductive Issued (net : Net c) : Provider c → Authorization → Prop where
  | oauth2 (p : OAuth2Provider c.oauth) (verifier : Option Str)
      (hverifier : verifier = if p.pkce then some net.drawn.verifier else none) :
      Issued net (.oauth2 p)
        ⟨c.oauth.authorizeUrl p.client net.drawn.state p.scopes (verifier.map c.oauth.challenge),
          net.drawn.state, verifier, none⟩
  | oidc (p : OidcProvider c.openid) (scopes : List Str) (client : c.openid.Client)
      (cache : ClientCache c.openid)
      (hused : p.UsedBy (net.env p.id) (net.cache p.id) cache client) :
      Issued net (.oidc p scopes)
        ⟨c.authorizeUrl client net.drawn.state net.drawn.nonce
            (c.oauth.challenge net.drawn.verifier) scopes,
          net.drawn.state, some net.drawn.verifier, some net.drawn.nonce⟩

theorem authorize_issued {net : Net c} {provider : Provider c} {authorization : Authorization}
    (h : provider.authorize net = .ok authorization) : provider.Issued net authorization := by
  cases provider with
  | oauth2 p =>
    obtain rfl := Except.ok.inj h
    exact .oauth2 p _ rfl
  | oidc p scopes =>
    simp only [authorize, OidcProvider.authorize] at h
    rcases hclient : p.client (net.env p.id) (net.cache p.id) false with ⟨err | client, cache⟩
    · simp [hclient] at h
    · simp only [hclient, Except.ok.injEq] at h
      subst h
      have hused := p.client_usedBy (net.env p.id) (net.cache p.id) (congrArg Prod.fst hclient)
      rw [hclient] at hused
      exact .oidc p scopes client cache hused

/-- The state token, and the verifier where there is PKCE, are those that were drawn. -/
theorem Issued.drawn {net : Net c} {provider : Provider c} {authorization : Authorization}
    (h : provider.Issued net authorization) :
    authorization.state = net.drawn.state ∧
      (provider.usesPkce = true → authorization.pkceVerifier = some net.drawn.verifier) := by
  cases h with
  | oauth2 p verifier hverifier => exact ⟨rfl, fun hpkce => by rw [hverifier]; exact if_pos hpkce⟩
  | oidc p scopes client cache hused => exact ⟨rfl, fun _ => rfl⟩

/-- **What an identity rests on.**  Of an OAuth2 provider: the profile for the access token that
the code was exchanged for, with the verifier.  Of an OpenID Connect one: claims that verified
under the nonce, in the ID token that the code was exchanged for, with the verifier. -/
inductive Rests (net : Net c) (code : Str) (verifier nonce : Option Str) :
    Provider c → ExternalIdentity Value → Prop where
  | oauth2 (p : OAuth2Provider c.oauth) (token : c.oauth.AccessToken) (profile : Value)
      (subject : Str) (hexchange : p.exchange net code verifier = .ok token)
      (hprofile : net.userinfo p.userinfoUrl token = .ok (.ok profile))
      (hsubject : p.subject profile = some subject) :
      Rests net code verifier nonce (.oauth2 p) (p.identity profile subject)
  | oidc (p : OidcProvider c.openid) (scopes : List Str) (n : Str) (first client : c.openid.Client)
      (accessToken : c.openid.AccessToken) (idToken : c.openid.IdToken)
      (claims : Claims c.openid.Json) (cache : ClientCache c.openid) (hnonce : nonce = some n)
      (hexchange : OidcProvider.exchange (net.env p.id) first code verifier =
        .ok (accessToken, idToken))
      (hverified : p.Verified (net.env p.id) (net.cache p.id) cache client idToken accessToken n
        claims) :
      Rests net code verifier nonce (.oidc p scopes)
        ((p.identity claims).mapProfile c.value)

theorem identify_rests {net : Net c} {provider : Provider c} {code : Str}
    {pending : PendingLogin} {identity : ExternalIdentity Value}
    (h : provider.identify net code pending = .ok identity) :
    provider.Rests net code pending.pkceVerifier pending.nonce identity := by
  cases provider with
  | oauth2 p =>
    obtain ⟨token, profile, subject, hex, hprofile, hsubject, rfl⟩ :=
      (p.identify_ok_iff net code pending identity).mp h
    exact .oauth2 p token profile subject hex hprofile hsubject
  | oidc p scopes =>
    simp only [identify] at h
    cases hid : (p.identify (net.env p.id) (net.cache p.id) code pending).1 with
    | error err =>
      rw [hid] at h
      cases h
    | ok oidcIdentity =>
      rw [hid] at h
      obtain rfl := Except.ok.inj h
      obtain ⟨n, first, accessToken, idToken, client, claims, hnonce, -, hex, hverified, rfl⟩ :=
        p.identify_verified (net.env p.id) (net.cache p.id) hid
      exact .oidc p scopes n first client accessToken idToken claims _ hnonce hex hverified

/-- The identity names its provider; an OAuth2 one never vouches for its email, and its subject is
what the configured field holds. -/
theorem Rests.identity {net : Net c} {code : Str} {verifier nonce : Option Str}
    {provider : Provider c} {identity : ExternalIdentity Value}
    (h : provider.Rests net code verifier nonce identity) :
    identity.provider = provider.id ∧
      ∀ p, provider = .oauth2 p → identity.emailVerified = false ∧
        (identity.profile.get p.subjectField = some (.string identity.subject) ∧
            identity.subject ≠ [] ∨
          identity.profile.get p.subjectField = some (.number identity.subject)) := by
  cases h with
  | oauth2 p token profile subject hexchange hprofile hsubject =>
    refine ⟨rfl, ?_⟩
    rintro q hq
    cases hq
    exact ⟨rfl, (p.subject_eq_some_iff profile subject).mp hsubject⟩
  | oidc p scopes n first client accessToken idToken claims cache hnonce hexchange hverified =>
    exact ⟨rfl, nofun⟩

end Provider

end Muxa.Auth
