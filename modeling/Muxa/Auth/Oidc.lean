/-
# OpenID Connect providers

`OidcProvider::identify` turns an authorization code into an identity: it exchanges the code,
checks the ID token with the client it has, and, where that check fails, discovers the provider's
metadata again and checks once more, because the signing key may have been rotated since the last
discovery.  The client is cached for `ttl`.

The cryptography is `openidconnect`'s and is a parameter (`OpenId`), and so is the network
(`Env`).  What the code adds is which client is asked, and that the client that accepted the token
is the one the access token's hash is checked with: `identify_cases` says it exit by exit.
-/
import Muxa.Auth.Pending

namespace Muxa.Auth

open Lib.Text

/-! ## 1. What `openidconnect` provides -/

/-- The claims of an ID token that are read here. -/
structure Claims (J : Type) where
  subject : Str
  email : Option Str
  emailVerified : Option Bool
  /-- By language tag. -/
  name : Option (Option Str → Option Str)
  accessTokenHash : Option Str
  /-- `serde_json::to_value`, where it succeeds. -/
  value : Option J

/-- The types and functions of the crate. -/
structure OpenId where
  Issuer : Type
  Metadata : Type
  Client : Type
  Request : Type
  IdToken : Type
  AccessToken : Type
  Alg : Type
  Key : Type
  Json : Type
  /-- `Value::default()`. -/
  null : Json
  fromProviderMetadata : Metadata → Str → Option Str → Client
  setRedirectUri : Client → Str → Client
  exchangeCode : Client → Str → Except Str Request
  setPkceVerifier : Request → Str → Request
  /-- `IdToken::claims` with the client's verifier, which compares the expiry with the clock. -/
  claims : Nat → Client → IdToken → Str → Except Str (Claims Json)
  signingAlg : IdToken → Except Str Alg
  /-- `IdToken::signing_key` with the client's verifier. -/
  signingKey : Client → IdToken → Except Str Key
  /-- `AccessTokenHash::from_token`. -/
  accessTokenHash : AccessToken → Alg → Key → Except Str Str

variable {o : OpenId}

/-- The access token is the one the claims were issued with, as far as `client` can tell: they
carry no hash, or the hash of the token under the client's key for the ID token. -/
def OpenId.HashMatches (o : OpenId) (client : o.Client) (idToken : o.IdToken)
    (accessToken : o.AccessToken) (claims : Claims o.Json) : Prop :=
  ∀ expected, claims.accessTokenHash = some expected →
    ∃ alg key, o.signingAlg idToken = .ok alg ∧ o.signingKey client idToken = .ok key ∧
      o.accessTokenHash accessToken alg key = .ok expected

/-- **What is relied on of `openidconnect`**: verified claims are the token's payload, whoever
verified them; where one client that accepts a token has a key for it, so has every other (none
has, for a token signed with the client's secret); and the hash of an access token is the one of
the ID token's algorithm, whichever accepted key it is computed with. -/
structure OpenId.Lawful (o : OpenId) : Prop where
  claims_payload : ∀ {now client now' client' idToken nonce claims claims'},
    o.claims now client idToken nonce = .ok claims →
    o.claims now' client' idToken nonce = .ok claims' → claims = claims'
  signing_key : ∀ {now client now' client' idToken nonce claims claims' key},
    o.claims now client idToken nonce = .ok claims →
    o.claims now' client' idToken nonce = .ok claims' →
    o.signingKey client idToken = .ok key → ∃ key', o.signingKey client' idToken = .ok key'
  hash_key : ∀ {now client now' client' idToken nonce claims claims' alg key key'} accessToken,
    o.claims now client idToken nonce = .ok claims →
    o.claims now' client' idToken nonce = .ok claims' →
    o.signingAlg idToken = .ok alg → o.signingKey client idToken = .ok key →
    o.signingKey client' idToken = .ok key' →
    o.accessTokenHash accessToken alg key = o.accessTokenHash accessToken alg key'

/-- Two clients that accept a token agree on the access token's hash. -/
theorem OpenId.Lawful.hashMatches (h : o.Lawful) {now now' : Nat} {client client' : o.Client}
    {idToken : o.IdToken} {nonce : Str} {claims claims' : Claims o.Json}
    (hc : o.claims now client idToken nonce = .ok claims)
    (hc' : o.claims now' client' idToken nonce = .ok claims') {accessToken : o.AccessToken}
    (hm : o.HashMatches client idToken accessToken claims) :
    o.HashMatches client' idToken accessToken claims := by
  intro expected hexpected
  obtain ⟨alg, key, halg, hkey, hhash⟩ := hm expected hexpected
  obtain ⟨key', hkey'⟩ := h.signing_key hc hc' hkey
  exact ⟨alg, key', halg, hkey', h.hash_key accessToken hc hc' halg hkey hkey' ▸ hhash⟩

/-! ## 2. The provider -/

/-- `ProviderError::new`. -/
def providerError (context err : Str) : Str := context ++ ": ".toList ++ err

/-- An account at a sign-in provider, as established by a completed sign-in. -/
structure ExternalIdentity (J : Type) where
  provider : Str
  subject : Str
  email : Option Str
  emailVerified : Bool
  name : Option Str
  profile : J

/-- A configured provider.  Its cache is passed from call to call (`ClientCache`), and its scopes
go to `authorize`. -/
structure OidcProvider (o : OpenId) where
  id : Str
  issuer : o.Issuer
  clientId : Str
  clientSecret : Str
  redirect : Str
  ttl : Nat

/-- The client built from the last discovery, and when; and how many discoveries there were. -/
structure ClientCache (o : OpenId) where
  client : Option (o.Client × Nat) := none
  discoveries : Nat := 0

structure TokenResponse (o : OpenId) where
  accessToken : o.AccessToken
  idToken : Option o.IdToken

/-- The surroundings of one call: what the clock shows whenever it is looked at, and what the
provider answers. -/
structure Env (o : OpenId) where
  /-- The clock when the cache is looked at, and after each discovery. -/
  now : Nat
  discoveredAt : Nat → Nat
  /-- The clock at the first check of the ID token, and at the second. -/
  firstCheck : Nat
  secondCheck : Nat
  /-- What the provider answers to each discovery. -/
  discover : Nat → o.Issuer → Except Str o.Metadata
  request : o.Request → Except Str (TokenResponse o)

namespace OidcProvider

/-- The client of a discovered provider. -/
def build (p : OidcProvider o) (metadata : o.Metadata) : o.Client :=
  o.setRedirectUri
    (o.fromProviderMetadata metadata p.clientId
      (if p.clientSecret.isEmpty then none else some p.clientSecret))
    p.redirect

/-- The cached client, where it is not older than `ttl`. -/
def unexpired (p : OidcProvider o) (env : Env o) (cache : ClientCache o) : Option o.Client :=
  match cache.client with
  | some (client, discovered) => if env.now - discovered < p.ttl then some client else none
  | none => none

def discover (p : OidcProvider o) (env : Env o) (cache : ClientCache o) :
    Except Str o.Client × ClientCache o :=
  let cache' := { cache with discoveries := cache.discoveries + 1 }
  match env.discover cache.discoveries p.issuer with
  | .error err => (.error (providerError "discovery".toList err), cache')
  | .ok metadata =>
    (.ok (p.build metadata),
      { cache' with client := some (p.build metadata, env.discoveredAt cache.discoveries) })

/-- `OidcProvider::client`: the unexpired client of the cache, or, where there is none or the call
is forced, that of a new discovery. -/
def client (p : OidcProvider o) (env : Env o) (cache : ClientCache o) (force : Bool) :
    Except Str o.Client × ClientCache o :=
  match force, p.unexpired env cache with
  | false, some client => (.ok client, cache)
  | _, _ => p.discover env cache

/-- Exchange the code, with the attempt's PKCE verifier, for the tokens. -/
def exchange (env : Env o) (client : o.Client) (code : Str) (pkceVerifier : Option Str) :
    Except Str (o.AccessToken × o.IdToken) :=
  match o.exchangeCode client code with
  | .error err => .error (providerError "token endpoint".toList err)
  | .ok request =>
    let request := match pkceVerifier with
      | some verifier => o.setPkceVerifier request verifier
      | none => request
    match env.request request with
    | .error err => .error (providerError "token exchange".toList err)
    | .ok token =>
      match token.idToken with
      | none => .error "token response has no id_token".toList
      | some idToken => .ok (token.accessToken, idToken)

/-- The access token's hash, computed with the client that accepted the ID token. -/
def actualHash (client : o.Client) (idToken : o.IdToken) (accessToken : o.AccessToken) :
    Except Str Str :=
  match o.signingAlg idToken with
  | .error err => .error (providerError "id token alg".toList err)
  | .ok alg =>
    match o.signingKey client idToken with
    | .error err => .error (providerError "id token key".toList err)
    | .ok key =>
      match o.accessTokenHash accessToken alg key with
      | .error err => .error (providerError "at_hash".toList err)
      | .ok actual => .ok actual

def identity (p : OidcProvider o) (claims : Claims o.Json) : ExternalIdentity o.Json where
  provider := p.id
  subject := claims.subject
  email := claims.email
  emailVerified := claims.emailVerified.getD false
  name := claims.name.bind fun name => name none
  profile := claims.value.getD o.null

/-- The end of `identify`, once `client` accepted the ID token. -/
def finish (p : OidcProvider o) (client : o.Client) (idToken : o.IdToken)
    (accessToken : o.AccessToken) (claims : Claims o.Json) :
    Except Str (ExternalIdentity o.Json) :=
  match claims.accessTokenHash with
  | none => .ok (p.identity claims)
  | some expected =>
    match actualHash client idToken accessToken with
    | .error err => .error err
    | .ok actual =>
      if actual = expected then .ok (p.identity claims)
      else .error "at_hash does not match the access token".toList

/-- `OidcProvider::identify`: exchange the code for the tokens, and check the ID token under the
attempt's nonce.  A check that fails is made once more, with the client of a new discovery; and the
client that accepted the ID token is the one that the hash of the access token is checked with. -/
def identify (p : OidcProvider o) (env : Env o) (cache : ClientCache o) (code : Str)
    (pending : PendingLogin) : Except Str (ExternalIdentity o.Json) × ClientCache o :=
  match pending.nonce with
  | none => (.error "sign-in has no nonce".toList, cache)
  | some nonce =>
    match p.client env cache false with
    | (.error err, cache) => (.error err, cache)
    | (.ok client, cache) =>
      match exchange env client code pending.pkceVerifier with
      | .error err => (.error err, cache)
      | .ok (accessToken, idToken) =>
        match o.claims env.firstCheck client idToken nonce with
        | .ok claims => (p.finish client idToken accessToken claims, cache)
        | .error _ =>
          -- a signing key rotated since discovery: the new client replaces the old one
          match p.client env cache true with
          | (.error err, cache) => (.error err, cache)
          | (.ok client, cache) =>
            match o.claims env.secondCheck client idToken nonce with
            | .error err => (.error (providerError "id token".toList err), cache)
            | .ok claims => (p.finish client idToken accessToken claims, cache)

/-! ## 3. What one call can do -/

/-- **Where a client comes from**: the unexpired cache, or a discovery of this call. -/
def UsedBy (p : OidcProvider o) (env : Env o) (cache cache' : ClientCache o)
    (client : o.Client) : Prop :=
  p.unexpired env cache = some client ∨
    ∃ k metadata, cache.discoveries ≤ k ∧ k < cache'.discoveries ∧
      env.discover k p.issuer = .ok metadata ∧ client = p.build metadata

variable (p : OidcProvider o) (env : Env o) (cache : ClientCache o)

/-- A discovery is counted, and gives the client of the metadata discovered. -/
theorem discover_cases :
    (p.discover env cache).2.discoveries = cache.discoveries + 1 ∧
      ((∃ err, env.discover cache.discoveries p.issuer = .error err ∧
          (p.discover env cache).1 = .error (providerError "discovery".toList err)) ∨
        ∃ metadata, env.discover cache.discoveries p.issuer = .ok metadata ∧
          (p.discover env cache).1 = .ok (p.build metadata)) := by
  unfold discover
  cases h : env.discover cache.discoveries p.issuer with
  | error err => exact ⟨rfl, .inl ⟨err, rfl, rfl⟩⟩
  | ok metadata => exact ⟨rfl, .inr ⟨metadata, rfl, rfl⟩⟩

theorem discover_ok {client : o.Client} (h : (p.discover env cache).1 = .ok client) :
    ∃ metadata, env.discover cache.discoveries p.issuer = .ok metadata ∧
      client = p.build metadata := by
  rcases (discover_cases p env cache).2 with ⟨err, -, herr⟩ | ⟨metadata, hm, hok⟩
  · rw [herr] at h
    cases h
  · rw [hok] at h
    cases h
    exact ⟨metadata, hm, rfl⟩

@[simp] theorem client_force : p.client env cache true = p.discover env cache := rfl

/-- An unforced call takes the unexpired client and changes nothing, or discovers. -/
theorem client_cases :
    (∃ client, p.unexpired env cache = some client ∧
        p.client env cache false = (.ok client, cache)) ∨
      p.client env cache false = p.discover env cache := by
  unfold client
  cases h : p.unexpired env cache with
  | none => exact .inr rfl
  | some client => exact .inl ⟨client, rfl, rfl⟩

theorem client_discoveries (force : Bool) :
    cache.discoveries ≤ (p.client env cache force).2.discoveries ∧
      (p.client env cache force).2.discoveries ≤ cache.discoveries + 1 := by
  have hd := (discover_cases p env cache).1
  cases force with
  | true => rw [client_force, hd]; omega
  | false =>
    rcases client_cases p env cache with ⟨client, -, h⟩ | h
    · rw [h]; simp
    · rw [h, hd]; omega

/-- The client of a discovery is one of any call that makes it. -/
theorem discover_usedBy {cache' : ClientCache o} (hle : cache.discoveries ≤ cache'.discoveries)
    {client : o.Client} (h : (p.discover env cache').1 = .ok client) :
    p.UsedBy env cache (p.discover env cache').2 client := by
  obtain ⟨metadata, hm, hc⟩ := discover_ok p env cache' h
  have hcount := (discover_cases p env cache').1
  exact .inr ⟨cache'.discoveries, metadata, hle, by omega, hm, hc⟩

/-- The client handed out is the unexpired one, or of a discovery just made. -/
theorem client_usedBy {client : o.Client} (h : (p.client env cache false).1 = .ok client) :
    p.UsedBy env cache (p.client env cache false).2 client := by
  rcases client_cases p env cache with ⟨cached, hcached, heq⟩ | heq
  · rw [heq] at h ⊢
    cases h
    exact .inl hcached
  · rw [heq] at h ⊢
    exact discover_usedBy p env cache (Nat.le_refl _) h

/-- `actualHash` is what the claims are compared with. -/
theorem actualHash_ok_iff {client : o.Client} {idToken : o.IdToken} {accessToken : o.AccessToken}
    {actual : Str} : actualHash client idToken accessToken = .ok actual ↔
      ∃ alg key, o.signingAlg idToken = .ok alg ∧ o.signingKey client idToken = .ok key ∧
        o.accessTokenHash accessToken alg key = .ok actual := by
  unfold actualHash
  cases o.signingAlg idToken with
  | error err => simp
  | ok alg =>
    cases o.signingKey client idToken with
    | error err => simp
    | ok key => cases h : o.accessTokenHash accessToken alg key <;> simp [h]

/-- **`finish` succeeds exactly where the access token's hash matches**, under the client it is
given. -/
theorem finish_ok_iff {client : o.Client} {idToken : o.IdToken} {accessToken : o.AccessToken}
    {claims : Claims o.Json} {identity : ExternalIdentity o.Json} :
    p.finish client idToken accessToken claims = .ok identity ↔
      o.HashMatches client idToken accessToken claims ∧ identity = p.identity claims := by
  unfold finish OpenId.HashMatches
  cases hexp : claims.accessTokenHash with
  | none => simp [eq_comm]
  | some expected =>
    simp only [Option.some.injEq, forall_eq', ← actualHash_ok_iff]
    cases actualHash client idToken accessToken with
    | error err => simp
    | ok actual =>
      by_cases h : actual = expected
      · simp [h, eq_comm]
      · simp [h]

/-! ## 4. Identification -/

/-- The identity rests on verified claims: `client` is one this call may use, it accepted the ID
token under the attempt's nonce, and the same client's hash of the access token is the claimed
one. -/
structure Verified (p : OidcProvider o) (env : Env o) (cache cache' : ClientCache o)
    (client : o.Client) (idToken : o.IdToken) (accessToken : o.AccessToken) (nonce : Str)
    (claims : Claims o.Json) : Prop where
  used : p.UsedBy env cache cache' client
  accepted : o.claims env.firstCheck client idToken nonce = .ok claims ∨
    o.claims env.secondCheck client idToken nonce = .ok claims
  hash : o.HashMatches client idToken accessToken claims

/-- **The exits of `identify`** once the attempt has a nonce, a client and the tokens: the first
check decides, or a rediscovery and the second one do. -/
theorem identify_eq {code : Str} {pending : PendingLogin} {nonce : Str} {first : o.Client}
    {cache' : ClientCache o} {accessToken : o.AccessToken} {idToken : o.IdToken}
    (hnonce : pending.nonce = some nonce) (hfirst : p.client env cache false = (.ok first, cache'))
    (hex : exchange env first code pending.pkceVerifier = .ok (accessToken, idToken)) :
    p.identify env cache code pending =
      match o.claims env.firstCheck first idToken nonce with
      | .ok claims => (p.finish first idToken accessToken claims, cache')
      | .error _ =>
        match p.client env cache' true with
        | (.error err, cache'') => (.error err, cache'')
        | (.ok client, cache'') =>
          match o.claims env.secondCheck client idToken nonce with
          | .error err => (.error (providerError "id token".toList err), cache'')
          | .ok claims => (p.finish client idToken accessToken claims, cache'') := by
  unfold identify
  simp only [hnonce, hfirst, hex]

/-- A call gets as far as the checks, or is refused after at most one discovery. -/
theorem identify_cases (code : Str) (pending : PendingLogin) :
    (∃ nonce first cache' accessToken idToken, pending.nonce = some nonce ∧
        p.client env cache false = (.ok first, cache') ∧
        exchange env first code pending.pkceVerifier = .ok (accessToken, idToken)) ∨
      (∃ err, (p.identify env cache code pending).1 = .error err) ∧
        ((p.identify env cache code pending).2 = cache ∨
          (p.identify env cache code pending).2 = (p.client env cache false).2) := by
  unfold identify
  cases hnonce : pending.nonce with
  | none => exact .inr ⟨⟨_, rfl⟩, .inl rfl⟩
  | some nonce =>
    rcases hclient : p.client env cache false with ⟨err | first, cache'⟩
    · exact .inr ⟨⟨err, rfl⟩, .inr rfl⟩
    · simp only
      cases hex : exchange env first code pending.pkceVerifier with
      | error err => exact .inr ⟨⟨err, rfl⟩, .inr rfl⟩
      | ok tokens => exact .inl ⟨nonce, first, cache', tokens.1, tokens.2, rfl, rfl, hex⟩

/-- **An identity rests on verified claims.** -/
theorem identify_verified {code : Str} {pending : PendingLogin}
    {identity : ExternalIdentity o.Json}
    (h : (p.identify env cache code pending).1 = .ok identity) :
    ∃ nonce first accessToken idToken client claims, pending.nonce = some nonce ∧
      (p.client env cache false).1 = .ok first ∧
      exchange env first code pending.pkceVerifier = .ok (accessToken, idToken) ∧
      p.Verified env cache (p.identify env cache code pending).2 client idToken accessToken
        nonce claims ∧
      identity = p.identity claims := by
  rcases identify_cases p env cache code pending with
    ⟨nonce, first, cache', accessToken, idToken, hnonce, hfirst, hex⟩ | ⟨⟨err, herr⟩, -⟩
  swap
  · rw [herr] at h
    cases h
  have hcount : cache.discoveries ≤ cache'.discoveries := by
    simpa only [hfirst] using (client_discoveries p env cache false).1
  refine ⟨nonce, first, accessToken, idToken, ?_⟩
  rw [identify_eq p env cache hnonce hfirst hex] at h ⊢
  cases hcheck : o.claims env.firstCheck first idToken nonce with
  | ok claims =>
    simp only [hcheck] at h
    obtain ⟨hhash, hid⟩ := (finish_ok_iff p).mp h
    have hused := client_usedBy p env cache (congrArg Prod.fst hfirst)
    rw [hfirst] at hused
    exact ⟨first, claims, hnonce, by rw [hfirst], hex, ⟨hused, .inl hcheck, hhash⟩, hid⟩
  | error err =>
    simp only [hcheck] at h
    rcases hforced : p.client env cache' true with ⟨err | client, cache''⟩
    · simp only [hforced] at h
      cases h
    · simp only [hforced] at h ⊢
      cases hsecond : o.claims env.secondCheck client idToken nonce with
      | error err =>
        simp only [hsecond] at h
        cases h
      | ok claims =>
        simp only [hsecond] at h
        obtain ⟨hhash, hid⟩ := (finish_ok_iff p).mp h
        have hused := discover_usedBy p env cache hcount (congrArg Prod.fst hforced)
        rw [← client_force, hforced] at hused
        exact ⟨client, claims, hnonce, by rw [hfirst], hex, ⟨hused, .inr hsecond, hhash⟩, hid⟩

/-- **One call discovers at most twice.** -/
theorem identify_discoveries (code : Str) (pending : PendingLogin) :
    (p.identify env cache code pending).2.discoveries ≤ cache.discoveries + 2 := by
  have hfirst' := (client_discoveries p env cache false).2
  rcases identify_cases p env cache code pending with
    ⟨nonce, first, cache', accessToken, idToken, hnonce, hfirst, hex⟩ | ⟨-, hc | hc⟩
  · simp only [hfirst] at hfirst'
    have hforced' := (client_discoveries p env cache' true).2
    rw [identify_eq p env cache hnonce hfirst hex]
    cases o.claims env.firstCheck first idToken nonce with
    | ok claims => exact Nat.le_succ_of_le hfirst'
    | error err =>
      rcases hforced : p.client env cache' true with ⟨err | client, cache''⟩
      · simp only [hforced] at hforced' ⊢
        omega
      · simp only [hforced] at hforced' ⊢
        cases o.claims env.secondCheck client idToken nonce with
        | error err => simp only; omega
        | ok claims => simp only; omega
  · rw [hc]
    omega
  · rw [hc]
    omega

/-- **A rotated key is no obstacle.**  Whatever client is cached, the identity is returned when
the code can be exchanged and the token verifies under the metadata the provider now publishes. -/
theorem identify_rotated (hlawful : o.Lawful) {code : Str} {pending : PendingLogin} {nonce : Str}
    {accessToken : o.AccessToken} {idToken : o.IdToken} {claims : Claims o.Json}
    (hnonce : pending.nonce = some nonce)
    (hex : ∀ first, (p.client env cache false).1 = .ok first →
      exchange env first code pending.pkceVerifier = .ok (accessToken, idToken))
    (hcurrent : ∀ k, cache.discoveries ≤ k → k < cache.discoveries + 2 → ∃ metadata,
      env.discover k p.issuer = .ok metadata ∧
      o.claims env.secondCheck (p.build metadata) idToken nonce = .ok claims ∧
      o.HashMatches (p.build metadata) idToken accessToken claims) :
    (p.identify env cache code pending).1 = .ok (p.identity claims) := by
  -- every discovery of the call succeeds, and gives a client that accepts the token
  have hdiscover : ∀ cache' : ClientCache o, cache.discoveries ≤ cache'.discoveries →
      cache'.discoveries ≤ cache.discoveries + 1 → ∃ client,
        (p.discover env cache').1 = .ok client ∧
        o.claims env.secondCheck client idToken nonce = .ok claims ∧
        o.HashMatches client idToken accessToken claims := by
    intro cache' hle hlt
    obtain ⟨metadata, hm, hclaims, hhash⟩ := hcurrent _ hle (Nat.lt_succ_of_le hlt)
    refine ⟨p.build metadata, ?_, hclaims, hhash⟩
    rcases (discover_cases p env cache').2 with ⟨err, herr, -⟩ | ⟨metadata', hm', hok⟩
    · rw [hm] at herr
      cases herr
    · rw [hok, ← Except.ok.inj (hm.symm.trans hm')]
  obtain ⟨first, hfirst⟩ : ∃ first, (p.client env cache false).1 = .ok first := by
    rcases client_cases p env cache with ⟨client, -, heq⟩ | heq
    · exact ⟨client, by rw [heq]⟩
    · obtain ⟨client, hok, -⟩ := hdiscover cache (Nat.le_refl _) (Nat.le_succ _)
      exact ⟨client, heq ▸ hok⟩
  obtain ⟨hle, hlt⟩ := client_discoveries p env cache false
  rw [identify_eq p env cache hnonce (Prod.ext hfirst rfl) (hex first hfirst)]
  obtain ⟨client, hok, hclaims, hhash⟩ := hdiscover _ hle hlt
  cases hcheck : o.claims env.firstCheck first idToken nonce with
  | ok claims' =>
    -- the cached client accepts too: it saw the same claims and computes the same hash
    obtain rfl := hlawful.claims_payload hclaims hcheck
    exact (finish_ok_iff p).mpr ⟨hlawful.hashMatches hclaims hcheck hhash, rfl⟩
  | error err =>
    have hforced : p.client env (p.client env cache false).2 true =
        (.ok client, (p.client env (p.client env cache false).2 true).2) := Prod.ext hok rfl
    rw [hforced]
    simp only [hclaims]
    exact (finish_ok_iff p).mpr ⟨hhash, rfl⟩

/-- **OpenID Connect identification is sound and survives key rotation.**  Whatever the cache
holds: an attempt without a nonce is refused; an identity is that of claims which verified under
the attempt's nonce, with a client from the unexpired cache or a discovery of this call, under
which the access token's hash, if any, matches as well; the token that verifies under the
metadata of the call's discoveries is accepted, however old the cached keys are; and there are at
most two discoveries. -/
theorem identify_sound_and_rotates (code : Str) (pending : PendingLogin) :
    (pending.nonce = none →
        p.identify env cache code pending = (.error "sign-in has no nonce".toList, cache)) ∧
      (∀ identity, (p.identify env cache code pending).1 = .ok identity →
        ∃ nonce first accessToken idToken client claims, pending.nonce = some nonce ∧
          (p.client env cache false).1 = .ok first ∧
          exchange env first code pending.pkceVerifier = .ok (accessToken, idToken) ∧
          p.Verified env cache (p.identify env cache code pending).2 client idToken accessToken
            nonce claims ∧
          identity.subject = claims.subject ∧ identity.email = claims.email) ∧
      (o.Lawful → ∀ nonce accessToken idToken claims, pending.nonce = some nonce →
        (∀ first, (p.client env cache false).1 = .ok first →
          exchange env first code pending.pkceVerifier = .ok (accessToken, idToken)) →
        (∀ k, cache.discoveries ≤ k → k < cache.discoveries + 2 → ∃ metadata,
          env.discover k p.issuer = .ok metadata ∧
          o.claims env.secondCheck (p.build metadata) idToken nonce = .ok claims ∧
          o.HashMatches (p.build metadata) idToken accessToken claims) →
        (p.identify env cache code pending).1 = .ok (p.identity claims)) ∧
      (p.identify env cache code pending).2.discoveries ≤ cache.discoveries + 2 := by
  refine ⟨fun hnonce => ?_, fun identity h => ?_, ?_, identify_discoveries p env cache code pending⟩
  · unfold identify
    rw [hnonce]
  · obtain ⟨nonce, first, accessToken, idToken, client, claims, hnonce, hfirst, hex, hver, rfl⟩ :=
      identify_verified p env cache h
    exact ⟨nonce, first, accessToken, idToken, client, claims, hnonce, hfirst, hex, hver, rfl, rfl⟩
  · intro hlawful nonce accessToken idToken claims hnonce hex hcurrent
    exact identify_rotated p env cache hlawful hnonce hex hcurrent

end OidcProvider

/-! ## A rotated key -/

/-- An ID token, as far as checking it goes: its signing key, its nonce, its expiry and what it
says. -/
structure SignedToken where
  key : Nat
  nonce : Str
  expires : Nat
  payload : Claims Unit

/-- A provider whose metadata is its list of keys, and whose tokens are signed with RS256. -/
def keyList : OpenId where
  Issuer := Unit
  Metadata := List Nat
  Client := List Nat
  Request := Str
  IdToken := SignedToken
  AccessToken := Str
  Alg := Unit
  Key := Nat
  Json := Unit
  null := ()
  fromProviderMetadata metadata _ _ := metadata
  setRedirectUri client _ := client
  exchangeCode _ code := .ok code
  setPkceVerifier request _ := request
  claims now client idToken nonce :=
    if idToken.key ∈ client ∧ idToken.nonce = nonce ∧ now < idToken.expires then
      .ok idToken.payload
    else .error "signature verification failed".toList
  signingAlg _ := .ok ()
  signingKey client idToken :=
    if idToken.key ∈ client then .ok idToken.key else .error "no matching key found".toList
  accessTokenHash accessToken _ _ :=
    if accessToken = "access-oidc".toList then .ok "DMESVE1_pHzFZoWSC1AkTg".toList
    else .error "unknown token".toList

theorem keyList_claims {now : Nat} {client : List Nat} {idToken : SignedToken} {nonce : Str}
    {claims : Claims Unit} (h : keyList.claims now client idToken nonce = .ok claims) :
    idToken.key ∈ client ∧ claims = idToken.payload := by
  simp only [keyList] at h
  split at h
  · rename_i hok
    cases h
    exact ⟨hok.1, rfl⟩
  · cases h

theorem keyList_lawful : keyList.Lawful where
  claims_payload h h' := (keyList_claims h).2.trans (keyList_claims h').2.symm
  signing_key _ h' _ := ⟨_, if_pos (keyList_claims h').1⟩
  hash_key _ _ _ _ _ _ := rfl

/-- A token signed with key 2, for the access token of the same response. -/
def rotatedToken : SignedToken where
  key := 2
  nonce := "n".toList
  expires := 600
  payload :=
    { subject := "google-123".toList
      email := some "alice@example.com".toList
      emailVerified := some true
      name := none
      accessTokenHash := some "DMESVE1_pHzFZoWSC1AkTg".toList
      value := some () }

/-- A provider known by key 1 since second 0, which has moved to key 2 by second 300. -/
def rotatedEnv : Env keyList where
  now := 300
  discoveredAt _ := 301
  firstCheck := 300
  secondCheck := 301
  discover _ _ := .ok [2]
  request _ := .ok { accessToken := "access-oidc".toList, idToken := some rotatedToken }

/-- The cached client is not expired, does not know the key, and the sign-in succeeds. -/
theorem identify_rotated_google :
    let google : OidcProvider keyList :=
      ⟨"google".toList, (), "oidc-client".toList, [], "/auth/google/callback".toList, 3600⟩
    let cache : ClientCache keyList := { client := some ([1], 0), discoveries := 1 }
    let pending : PendingLogin :=
      ⟨"google".toList, "s".toList, some "v".toList, some "n".toList, "/".toList, false, 290⟩
    google.unexpired rotatedEnv cache = some [1] ∧ rotatedToken.key ∉ [1] ∧
      (google.identify rotatedEnv cache "code".toList pending).1 =
        .ok (google.identity rotatedToken.payload) := by
  intro google cache pending
  refine ⟨rfl, by decide, ?_⟩
  refine (OidcProvider.identify_sound_and_rotates google rotatedEnv cache "code".toList
    pending).2.2.1 keyList_lawful "n".toList "access-oidc".toList rotatedToken
    rotatedToken.payload rfl (fun first _ => rfl) fun k _ _ => ⟨[2], rfl, rfl, ?_⟩
  intro expected hexpected
  cases hexpected
  exact ⟨(), (2 : Nat), rfl, rfl, rfl⟩

end Muxa.Auth
