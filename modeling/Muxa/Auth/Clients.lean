/-
# The cached client, shared by every request

All sign-ins with one OpenID Connect provider share its cached client.  A call of
`OidcProvider::client` looks at the cache under the read lock, discovers without a lock when what
it found is too old (or when it is told to), and puts the new client in under the write lock.  So a
call is one that loads the cache, works and saves (`Lib.Copies`), and nothing keeps a slow
discovery from overwriting the outcome of a faster and later one.

`client_current` says what holds nevertheless, on every schedule of the calls: a client is never
built from metadata older than `ttl` and one discovery.  `identify_shared` is what follows for the
sign-ins: `identify` is sound as it is for one caller, and a rotated key is found at the second
check whatever the other calls have written into the cache.
-/
import Muxa.Auth.Oidc
import Muxa.Lib.Records

namespace Muxa.Auth

open Lib.Text Lib.Run Lib.Copies

variable {ι : Type} {o : OpenId}

/-! ## 1. A call as a client of the cache -/

/-- A call of `OidcProvider::client`: what it meets, and whether it must discover. -/
structure ClientCall (o : OpenId) where
  env : Env o
  force : Bool

/-- What the lock guards: the client of the last discovery written, and when it was made. -/
abbrev Cached (o : OpenId) : Type := Option (o.Client × Nat)

/-- The call on what it found in the cache; a client it discovered is written back. -/
def clientWork (p : OidcProvider o) (calls : ι → ClientCall o) (i : ι) (found : Cached o) :
    Option (Cached o) × Except Str o.Client :=
  let r := p.client (calls i).env { client := found } (calls i).force
  (if r.2.discoveries = 0 ∨ r.1.isOk = false then none else some r.2.client, r.1)

/-- Call `i` made the client, from what the provider answered to its discovery. -/
def Discovers (p : OidcProvider o) (calls : ι → ClientCall o) (i : ι)
    (made : o.Client × Nat) : Prop :=
  ∃ metadata, (calls i).env.discover 0 p.issuer = .ok metadata ∧
    made = (p.build metadata, (calls i).env.discoveredAt 0)

/-- **What a call returns and what it writes**: the unexpired client it found, and nothing; or the
client it discovered, and that client with the time; or an error, and nothing. -/
theorem clientWork_cases (p : OidcProvider o) (calls : ι → ClientCall o) (i : ι)
    (found : Cached o) :
    (∃ client, p.unexpired (calls i).env { client := found } = some client ∧
        (calls i).force = false ∧ clientWork p calls i found = (none, .ok client)) ∨
      (∃ made, Discovers p calls i made ∧
        clientWork p calls i found = (some (some made), .ok made.1)) ∨
      ∃ err, clientWork p calls i found = (none, .error err) := by
  have hdiscover : p.client (calls i).env { client := found } (calls i).force =
      p.discover (calls i).env { client := found } →
      (∃ made, Discovers p calls i made ∧
        clientWork p calls i found = (some (some made), .ok made.1)) ∨
      ∃ err, clientWork p calls i found = (none, .error err) := by
    intro heq
    cases hd : (calls i).env.discover 0 p.issuer with
    | error err =>
      refine .inr ⟨providerError "discovery".toList err, ?_⟩
      simp [clientWork, heq, OidcProvider.discover, hd, Except.isOk, Except.toBool]
    | ok metadata =>
      refine .inl ⟨_, ⟨metadata, hd, rfl⟩, ?_⟩
      simp [clientWork, heq, OidcProvider.discover, hd, Except.isOk, Except.toBool]
  cases hforce : (calls i).force with
  | true => exact .inr (hdiscover (by rw [hforce, p.client_force]))
  | false =>
    rcases p.client_cases (calls i).env { client := found } with ⟨client, hfresh, heq⟩ | heq
    · refine .inl ⟨client, hfresh, rfl, ?_⟩
      simp [clientWork, hforce, heq]
    · exact .inr (hdiscover (by rw [hforce, heq]))

/-- **The cache holds what it held, or what a call discovered.** -/
theorem clientWork_origin (p : OidcProvider o) (calls : ι → ClientCall o) :
    Origin (clientWork p calls) (fun (found : Cached o) made => found = some made)
      (fun i _ made => Discovers p calls i made) := by
  constructor
  intro i found written made hwrite hheld
  rcases clientWork_cases p calls i found with
    ⟨client, -, -, heq⟩ | ⟨made', hmade, heq⟩ | ⟨err, heq⟩
  · simp [heq] at hwrite
  · obtain rfl : some made' = written := by simpa [heq] using hwrite
    obtain rfl := Option.some.inj hheld
    exact .inr hmade
  · simp [heq] at hwrite

/-! ## 2. How old a client can be -/

/-- **What a discovery answers with**: metadata that the issuer served at some time `t`, at most
`delay` before the client built from it is stamped. -/
def Timely (p : OidcProvider o) (calls : ι → ClientCall o) (served : Nat → o.Metadata → Prop)
    (delay : Nat) : Prop :=
  ∀ i metadata, (calls i).env.discover 0 p.issuer = .ok metadata →
    ∃ t, served t metadata ∧ (calls i).env.discoveredAt 0 ≤ t + delay

variable {p : OidcProvider o} {calls : ι → ClientCall o} {served : Nat → o.Metadata → Prop}
  {delay : Nat}

/-- **A current client** for call `j`: built from metadata that the issuer served at some `t`, and
`j` either discovered it itself, or looked at the cache less than `ttl` and one discovery
later. -/
def Current (p : OidcProvider o) (calls : ι → ClientCall o) (served : Nat → o.Metadata → Prop)
    (delay : Nat) (j : ι) (client : o.Client) : Prop :=
  ∃ t metadata, served t metadata ∧ client = p.build metadata ∧
    ((calls j).env.discover 0 p.issuer = .ok metadata ∧
        (calls j).env.discoveredAt 0 ≤ t + delay ∨
      (calls j).force = false ∧ (calls j).env.now < t + delay + p.ttl)

theorem unexpired_eq_some {env : Env o} {found : Cached o} {client : o.Client}
    (h : p.unexpired env { client := found } = some client) :
    ∃ stamp, found = some (client, stamp) ∧ env.now < stamp + p.ttl := by
  unfold OidcProvider.unexpired at h
  rcases found with _ | ⟨client', stamp⟩
  · cases h
  · dsimp only at h
    split at h
    · obtain rfl := Option.some.inj h
      exact ⟨stamp, rfl, by omega⟩
    · cases h

variable [DecidableEq ι]

/-- The cache and the calls after a schedule, from an empty cache. -/
def afterCalls (p : OidcProvider o) (calls : ι → ClientCall o) (schedule : List ι) :
    System ι (Cached o) (Except Str o.Client) :=
  run (advance (clientWork p calls)) (System.init none) schedule

/-- **Every client handed out is current**, on every schedule of the calls. -/
theorem client_current (htimely : Timely p calls served delay) {schedule : List ι} {j : ι}
    {client : o.Client}
    (hout : ((afterCalls p calls schedule).phase j).out = some (.ok client)) :
    Current p calls served delay j client := by
  obtain ⟨found, hfound, hclient⟩ := out_copy hout
  rcases clientWork_cases p calls j found with
    ⟨cached, hfresh, hforce, heq⟩ | ⟨made, ⟨metadata, hmetadata, rfl⟩, heq⟩ | ⟨err, heq⟩
  · rw [heq] at hclient
    obtain rfl := Except.ok.inj hclient
    obtain ⟨stamp, rfl, hyoung⟩ := unexpired_eq_some hfresh
    -- another call had discovered and written it
    obtain ⟨pre, post, -, -, hold | ⟨i, found', out, -, metadata, hmetadata, hmade⟩⟩ :=
      copy_traced (clientWork_origin p calls) hfound (f := (client, stamp)) rfl
    · cases hold
    · obtain ⟨rfl, rfl⟩ := Prod.mk.inj hmade
      obtain ⟨t, hserved, hdelay⟩ := htimely i metadata hmetadata
      exact ⟨t, metadata, hserved, rfl, .inr ⟨hforce, by omega⟩⟩
  · rw [heq] at hclient
    obtain rfl := Except.ok.inj hclient
    obtain ⟨t, hserved, hdelay⟩ := htimely j metadata hmetadata
    exact ⟨t, metadata, hserved, rfl, .inl ⟨hmetadata, hdelay⟩⟩
  · rw [heq] at hclient
    cases hclient

omit [DecidableEq ι] in
/-- A forced call returns what it discovered, whatever the cache held. -/
theorem clientWork_forced {j : ι} (hforce : (calls j).force = true) {metadata : o.Metadata}
    (hmetadata : (calls j).env.discover 0 p.issuer = .ok metadata) (found : Cached o) :
    (clientWork p calls j found).2 = .ok (p.build metadata) := by
  simp [clientWork, hforce, OidcProvider.discover, hmetadata]

/-! ## 3. Sign-ins that share the cache -/

/-- `OidcProvider::identify`, given what its two calls of `client` return. -/
def OidcProvider.identifyFrom (p : OidcProvider o) (env : Env o)
    (first second : Except Str o.Client) (code : Str) (pending : PendingLogin) :
    Except Str (ExternalIdentity o.Json) :=
  match pending.nonce with
  | none => .error "sign-in has no nonce".toList
  | some nonce =>
    match first with
    | .error err => .error err
    | .ok client =>
      match exchange env client code pending.pkceVerifier with
      | .error err => .error err
      | .ok (accessToken, idToken) =>
        match o.claims env.firstCheck client idToken nonce with
        | .ok claims => p.finish client idToken accessToken claims
        | .error _ =>
          match second with
          | .error err => .error err
          | .ok client =>
            match o.claims env.secondCheck client idToken nonce with
            | .error err => .error (providerError "id token".toList err)
            | .ok claims => p.finish client idToken accessToken claims

/-- For one caller it is `identify`. -/
theorem OidcProvider.identify_eq_from (p : OidcProvider o) (env : Env o) (cache : ClientCache o)
    (code : Str) (pending : PendingLogin) :
    (p.identify env cache code pending).1 =
      p.identifyFrom env (p.client env cache false).1
        (p.client env (p.client env cache false).2 true).1 code pending := by
  unfold identify identifyFrom
  cases pending.nonce with
  | none => rfl
  | some nonce =>
    dsimp only
    rcases hfirst : p.client env cache false with ⟨err | client, cache'⟩
    · rfl
    · dsimp only
      cases hex : exchange env client code pending.pkceVerifier with
      | error err => rfl
      | ok tokens =>
        dsimp only
        cases o.claims env.firstCheck client tokens.2 nonce with
        | ok claims => rfl
        | error err =>
          dsimp only
          rcases p.client env cache' true with ⟨err | client', cache''⟩
          · rfl
          · dsimp only
            cases o.claims env.secondCheck client' tokens.2 nonce <;> rfl

/-- **An identity rests on claims that one of the two clients accepted.** -/
theorem OidcProvider.identifyFrom_ok {env : Env o} {first second : Except Str o.Client}
    {code : Str} {pending : PendingLogin} {identity : ExternalIdentity o.Json}
    (h : p.identifyFrom env first second code pending = .ok identity) :
    ∃ nonce client₁ accessToken idToken client claims, pending.nonce = some nonce ∧
      first = .ok client₁ ∧
      exchange env client₁ code pending.pkceVerifier = .ok (accessToken, idToken) ∧
      (first = .ok client ∧ o.claims env.firstCheck client idToken nonce = .ok claims ∨
        second = .ok client ∧ o.claims env.secondCheck client idToken nonce = .ok claims) ∧
      o.HashMatches client idToken accessToken claims ∧ identity = p.identity claims := by
  unfold identifyFrom at h
  cases hnonce : pending.nonce with
  | none => simp [hnonce] at h
  | some nonce =>
    rcases first with err | client₁
    · simp [hnonce] at h
    simp only [hnonce] at h
    cases hex : exchange env client₁ code pending.pkceVerifier with
    | error err => simp [hex] at h
    | ok tokens =>
      simp only [hex] at h
      refine ⟨nonce, client₁, tokens.1, tokens.2, ?_⟩
      cases hcheck : o.claims env.firstCheck client₁ tokens.2 nonce with
      | ok claims =>
        simp only [hcheck] at h
        obtain ⟨hhash, hid⟩ := (p.finish_ok_iff).mp h
        exact ⟨client₁, claims, rfl, rfl, hex, .inl ⟨rfl, hcheck⟩, hhash, hid⟩
      | error err =>
        simp only [hcheck] at h
        rcases second with err | client₂
        · cases h
        dsimp only at h
        cases hsecond : o.claims env.secondCheck client₂ tokens.2 nonce with
        | error err => simp [hsecond] at h
        | ok claims =>
          simp only [hsecond] at h
          obtain ⟨hhash, hid⟩ := (p.finish_ok_iff).mp h
          exact ⟨client₂, claims, rfl, rfl, hex, .inr ⟨rfl, hsecond⟩, hhash, hid⟩

/-- What a call has returned; nothing usable as long as it has not. -/
def returned (σ : System ι (Cached o) (Except Str o.Client)) (j : ι) : Except Str o.Client :=
  (σ.phase j).out.getD (.error "not called".toList)

omit [DecidableEq ι] in
theorem returned_ok {σ : System ι (Cached o) (Except Str o.Client)} {j : ι} {client : o.Client}
    (h : returned σ j = .ok client) : (σ.phase j).out = some (.ok client) := by
  unfold returned at h
  cases hout : (σ.phase j).out with
  | none => simp [hout] at h
  | some r => simpa [hout] using h

/-- **The cache may be shared.**  On every schedule of the calls of all sign-ins, with discoveries
that take at most `delay`, for a sign-in whose calls of `client` are `j` and, where it comes to
that, `j'`: an identity rests on claims that verified under the attempt's nonce, with a client that
is current for `j` or `j'`; and the token that verifies under the metadata which the discovery of
`j'` answers with is accepted, whatever the other calls have put into the cache. -/
theorem identify_shared (p : OidcProvider o) (calls : ι → ClientCall o)
    (served : Nat → o.Metadata → Prop) (delay : Nat) (htimely : Timely p calls served delay)
    (schedule : List ι) (j j' : ι) (hforce : (calls j').force = true) (env : Env o) (code : Str)
    (pending : PendingLogin) :
    let σ := afterCalls p calls schedule
    let result := p.identifyFrom env (returned σ j) (returned σ j') code pending
    (∀ identity, result = .ok identity →
      ∃ nonce client₁ accessToken idToken client claims, pending.nonce = some nonce ∧
        OidcProvider.exchange env client₁ code pending.pkceVerifier = .ok (accessToken, idToken) ∧
        Current p calls served delay j client₁ ∧
        (Current p calls served delay j client ∧
            o.claims env.firstCheck client idToken nonce = .ok claims ∨
          Current p calls served delay j' client ∧
            o.claims env.secondCheck client idToken nonce = .ok claims) ∧
        o.HashMatches client idToken accessToken claims ∧ identity = p.identity claims) ∧
    (o.Lawful → ∀ nonce client₁ accessToken idToken metadata claims,
      pending.nonce = some nonce → returned σ j = .ok client₁ →
      OidcProvider.exchange env client₁ code pending.pkceVerifier = .ok (accessToken, idToken) →
      (calls j').env.discover 0 p.issuer = .ok metadata →
      o.claims env.secondCheck (p.build metadata) idToken nonce = .ok claims →
      o.HashMatches (p.build metadata) idToken accessToken claims →
      (o.claims env.firstCheck client₁ idToken nonce).isOk = true ∨
        (σ.phase j').out.isSome = true →
      result = .ok (p.identity claims)) := by
  intro σ result
  constructor
  · intro identity hresult
    obtain ⟨nonce, client₁, accessToken, idToken, client, claims, hnonce, hfirst, hex, hchecked,
      hhash, hid⟩ := OidcProvider.identifyFrom_ok hresult
    refine ⟨nonce, client₁, accessToken, idToken, client, claims, hnonce, hex,
      client_current htimely (returned_ok hfirst), ?_, hhash, hid⟩
    rcases hchecked with ⟨hok, hclaims⟩ | ⟨hok, hclaims⟩
    · exact .inl ⟨client_current htimely (returned_ok hok), hclaims⟩
    · exact .inr ⟨client_current htimely (returned_ok hok), hclaims⟩
  · intro hlawful nonce client₁ accessToken idToken metadata claims hnonce hfirst hex hmetadata
      hclaims hhash hreached
    simp only [result, OidcProvider.identifyFrom, hnonce, hfirst, hex]
    cases hcheck : o.claims env.firstCheck client₁ idToken nonce with
    | ok claims' =>
      -- the client in the cache accepts too: it saw the same claims and computes the same hash
      obtain rfl := hlawful.claims_payload hclaims hcheck
      exact p.finish_ok_iff.mpr ⟨hlawful.hashMatches hclaims hcheck hhash, rfl⟩
    | error err =>
      have hcalled : (σ.phase j').out.isSome = true := by
        simpa [hcheck, Except.isOk, Except.toBool] using hreached
      obtain ⟨r, hr⟩ := Option.isSome_iff_exists.mp hcalled
      obtain ⟨found, -, hwork⟩ := out_copy hr
      rw [clientWork_forced hforce hmetadata] at hwork
      have hsecond : returned σ j' = .ok (p.build metadata) := by
        rw [returned, hr, hwork]
        rfl
      simp only [hsecond, hclaims]
      exact p.finish_ok_iff.mpr ⟨hhash, rfl⟩

/-! ## 4. A slow discovery -/

/-- A call at `now` that discovers the keys `keys`, stamped at `stamp`. -/
def keyCall (now stamp : Nat) (keys : List Nat) (force : Bool) : ClientCall keyList where
  env := { rotatedEnv with
    now
    discoveredAt := fun _ => stamp
    discover := fun _ _ => .ok keys }
  force

/-- The first sign-in's discovery is slow, and answered before the key is rotated; the second
sign-in rediscovers meanwhile; the third finds the old key in the cache. -/
def slowDiscovery : Nat → ClientCall keyList
  | 0 => keyCall 290 310 [1] false
  | 1 => keyCall 300 305 [2] true
  | 2 => keyCall 312 312 [2] false
  | _ => keyCall 313 314 [2] true

def slowProvider : OidcProvider keyList :=
  ⟨"google".toList, (), "oidc-client".toList, [], "/auth/google/callback".toList, 3600⟩

/-- The issuer's keys: number 1, and from second 295 on number 2. -/
def servedKeys (t : Nat) (keys : List Nat) : Prop := keys = if t < 295 then [1] else [2]

/-- The slow discovery takes twenty seconds, the others at most five. -/
theorem slowDiscovery_timely : Timely slowProvider slowDiscovery servedKeys 20 := by
  intro i keys hkeys
  match i with
  | 0 => exact ⟨290, (Except.ok.inj hkeys).symm, by decide⟩
  | 1 => exact ⟨300, (Except.ok.inj hkeys).symm, by decide⟩
  | 2 => exact ⟨312, (Except.ok.inj hkeys).symm, by decide⟩
  | n + 3 => exact ⟨313, (Except.ok.inj hkeys).symm, Nat.le_of_ble_eq_true rfl⟩

/-- The old key is written last. -/
theorem identify_shared_slow_discovery :
    let σ := afterCalls slowProvider slowDiscovery [0, 1, 1, 1, 0, 0, 2, 2, 2, 3, 3, 3]
    returned σ 2 = .ok [1] ∧
      slowProvider.identifyFrom rotatedEnv (returned σ 2) (returned σ 3) "code".toList
          ⟨"google".toList, "s".toList, some "v".toList, some "n".toList, "/".toList, false, 290⟩ =
        .ok (slowProvider.identity rotatedToken.payload) := by
  intro σ
  refine ⟨rfl, ?_⟩
  refine (identify_shared slowProvider slowDiscovery servedKeys 20 slowDiscovery_timely
    [0, 1, 1, 1, 0, 0, 2, 2, 2, 3, 3, 3] 2 3 rfl rotatedEnv "code".toList _).2 keyList_lawful
    "n".toList [1] "access-oidc".toList rotatedToken [2] rotatedToken.payload rfl rfl rfl rfl rfl
    ?_ (.inr rfl)
  intro expected hexpected
  cases hexpected
  exact ⟨(), (2 : Nat), rfl, rfl, rfl⟩

end Muxa.Auth
