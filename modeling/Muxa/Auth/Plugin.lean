/-
# What the plugin builds of its configuration

`AuthPlugin::build` normalizes the mount and the base URL, turns the configured providers into the
ones that are on, and wraps the routes in the guard.  Where a provider has no redirect URL of its
own, it is told one made of the base URL, the mount and its id, as they are written; and the routes
are mounted under the same mount.  The provider adds its parameters to that URL, and the browser
that follows it sends what the URL parser makes of it (`Follows`).  That is the callback of the
provider, with the code and the token the provider sent, for every id that is one segment of a path
and spells itself (`redirect_comes_back`); an id like `a/b`, `x?y` or `%41` leads elsewhere.

What the crates build of a URL or of a client's settings is a parameter (`Builders`).
-/
import Muxa.Auth.Provider
import Muxa.Auth.Query
import Muxa.Auth.Wire
import Muxa.Lib.Target

namespace Muxa.Auth

open Lib.Text Lib.Run Lib.Form Lib.Segments Lib.Target Lib.Url Lib.Utf8

/-! ## 1. The configuration -/

/-- A `BTreeMap` by id: its entries, in the order of the ids. -/
structure ById (α : Type) where
  entries : List (Str × α)
  sorted : entries.Pairwise fun a b => a.1 < b.1

namespace ById

variable {α β : Type}

def get (m : ById α) (id : Str) : Option α := m.entries.lookup id

/-- The map that a loop over the entries builds, inserting what `f` makes of each. -/
def filterMap (m : ById α) (f : Str → α → Option β) : ById β where
  entries := m.entries.filterMap fun e => (f e.1 e.2).map fun b => (e.1, b)
  sorted := by
    refine List.Pairwise.filterMap _ (fun a a' h b hb b' hb' => ?_) m.sorted
    obtain ⟨_, -, rfl⟩ := Option.map_eq_some_iff.mp hb
    obtain ⟨_, -, rfl⟩ := Option.map_eq_some_iff.mp hb'
    exact h

theorem get_eq_some_iff (m : ById α) (id : Str) (a : α) :
    m.get id = some a ↔ (id, a) ∈ m.entries := by
  obtain ⟨entries, sorted⟩ := m
  simp only [get]
  induction entries with
  | nil => simp
  | cons e entries ih =>
    obtain ⟨id', a'⟩ := e
    obtain ⟨hhead, htail⟩ := List.pairwise_cons.mp sorted
    by_cases h : id = id'
    · subst h
      have hnot : (id, a) ∉ entries := fun hmem => List.lt_irrefl id (hhead _ hmem)
      simp [hnot, eq_comm]
    · have hne : (id == id') = false := beq_eq_false_iff_ne.mpr h
      simp [List.lookup_cons, hne, h, ih htail]

theorem get_filterMap (m : ById α) (f : Str → α → Option β) (id : Str) :
    (m.filterMap f).get id = (m.get id).bind (f id) := by
  ext b
  rw [get_eq_some_iff, Option.bind_eq_some_iff]
  simp only [filterMap, List.mem_filterMap, Option.map_eq_some_iff, Prod.mk.injEq, get_eq_some_iff]
  constructor
  · rintro ⟨⟨id', a⟩, hmem, b', hf, rfl, rfl⟩
    exact ⟨a, hmem, hf⟩
  · rintro ⟨a, hmem, hf⟩
    exact ⟨(id, a), hmem, b, hf, rfl, rfl⟩

end ById

/-- How the client authenticates at the token endpoint. -/
inductive TokenAuth where
  | basic
  | post

structure OAuth2ProviderConfig where
  clientId : Str := []
  clientSecret : Str := []
  authUrl : Str := []
  tokenUrl : Str := []
  userinfoUrl : Str := []
  scopes : List Str := []
  pkce : Bool := true
  tokenAuth : TokenAuth := .basic
  subjectField : Str := "id".toList
  emailField : Option Str := none
  nameField : Option Str := none
  redirectUrl : Option Str := none

structure OidcProviderConfig where
  issuer : Str := []
  clientId : Str := []
  clientSecret : Str := []
  scopes : List Str := ["email".toList, "profile".toList]
  metadataTtlSecs : Nat := 3600
  redirectUrl : Option Str := none

inductive ProviderConfig where
  | oauth2 (cfg : OAuth2ProviderConfig)
  | oidc (cfg : OidcProviderConfig)

def ProviderConfig.clientId : ProviderConfig → Str
  | .oauth2 cfg => cfg.clientId
  | .oidc cfg => cfg.clientId

/-- `provider_redirect`. -/
def ProviderConfig.redirect : ProviderConfig → Option Str
  | .oauth2 cfg => cfg.redirectUrl
  | .oidc cfg => cfg.redirectUrl

/-- The `[auth]` section, without the cookie and the cleanup. -/
structure AuthConfig where
  baseUrl : Str := []
  mount : Str := "/auth".toList
  signInPath : Str := "/".toList
  defaultNext : Str := "/".toList
  errorParam : Str := "auth_error".toList
  trustedOrigins : List Str := []
  providers : ById ProviderConfig := ⟨[], .nil⟩

/-! ## 2. Building a provider -/

/-- What the crates make of settings: a URL or an issuer that may not parse, and a client, which is
always made. -/
structure Builders (c : Crates) where
  /-- `Url::parse`, which `RedirectUrl::new`, `AuthUrl::new` and `TokenUrl::new` call. -/
  url : Str → Except Str c.oauth.Url
  /-- `IssuerUrl::new`. -/
  issuer : Str → Except Str c.openid.Issuer
  /-- A `BasicClient` with a client id, the authorization and the token endpoint, a redirect URL,
  an authentication type and, where there is one, a secret. -/
  client : Str → Str → Str → Str → TokenAuth → Option Str → c.oauth.Client

section Build

variable {c : Crates} (b : Builders c)

def OAuth2Provider.new (id : Str) (cfg : OAuth2ProviderConfig) (redirect : Str) :
    Except Str (OAuth2Provider c.oauth) := do
  let _ ← (b.url cfg.authUrl).mapError (providerError "auth_url".toList)
  let _ ← (b.url cfg.tokenUrl).mapError (providerError "token_url".toList)
  let userinfoUrl ← (b.url cfg.userinfoUrl).mapError (providerError "userinfo_url".toList)
  return {
    id
    client := b.client cfg.clientId cfg.authUrl cfg.tokenUrl redirect cfg.tokenAuth
      (if cfg.clientSecret.isEmpty then none else some cfg.clientSecret)
    scopes := cfg.scopes
    pkce := cfg.pkce
    userinfoUrl
    subjectField := cfg.subjectField
    emailField := cfg.emailField
    nameField := cfg.nameField }

def OidcProvider.new (id : Str) (cfg : OidcProviderConfig) (redirect : Str) :
    Except Str (OidcProvider c.openid) := do
  let issuer ← (b.issuer cfg.issuer).mapError (providerError "issuer".toList)
  return {
    id, issuer, redirect
    clientId := cfg.clientId
    clientSecret := cfg.clientSecret
    ttl := cfg.metadataTtlSecs }

/-- `Provider::from_config`: none when the provider is turned off. -/
def Provider.fromConfig (id : Str) (cfg : ProviderConfig) (redirectUrl : Str) :
    Except Str (Option (Provider c)) :=
  if cfg.clientId.isEmpty then .ok none
  else do
    let _ ← (b.url redirectUrl).mapError (providerError "redirect url".toList)
    match cfg with
    | .oauth2 cfg => return some (.oauth2 (← OAuth2Provider.new b id cfg redirectUrl))
    | .oidc cfg => return some (.oidc (← OidcProvider.new b id cfg redirectUrl) cfg.scopes)

/-! ## 3. Building the app -/

/-- The mount, with one slash in front and none at the end; the root is the empty path. -/
def AuthConfig.mountPath (cfg : AuthConfig) : Str :=
  let mount := '/' :: trimMatches '/' cfg.mount
  if mount = ['/'] then [] else mount

/-- The base URL, without slashes at the end. -/
def AuthConfig.base (cfg : AuthConfig) : Str := trimEndMatches '/' cfg.baseUrl

def AuthConfig.callbackPath (cfg : AuthConfig) (id : Str) : Str :=
  cfg.mountPath ++ '/' :: id ++ "/callback".toList

/-- The redirect URL a provider is told: its own, or the one made of the base URL. -/
def AuthConfig.redirectUrl (cfg : AuthConfig) (id : Str) (provider : ProviderConfig) :
    Option Str :=
  match provider.redirect with
  | some url => some url
  | none => if cfg.base.isEmpty then none else some (cfg.base ++ cfg.callbackPath id)

/-- One round of the loop over the providers: the provider, if it is on. -/
def AuthConfig.provider (cfg : AuthConfig) (id : Str) (provider : ProviderConfig) :
    Option (Provider c) :=
  if provider.clientId.isEmpty then none
  else
    match cfg.redirectUrl id provider with
    | none => none
    | some redirect =>
      match Provider.fromConfig b id provider redirect with
      | .ok on => on
      | .error _ => none

/-- The providers that are on. -/
def AuthConfig.on (cfg : AuthConfig) : ById (Provider c) := cfg.providers.filterMap (cfg.provider b)

/-- `AuthHandle`: the ids of the providers that are on. -/
structure AuthHandle where
  providers : List Str

def AuthHandle.hasProvider (handle : AuthHandle) (id : Str) : Bool :=
  handle.providers.any (· == id)

/-- `AuthPlugin::build`, as far as the routes go: the providers that are on, the pages and the
mount, and around them the guard, which trusts the base URL and the configured origins. -/
def AuthPlugin.build (parseUrl : Str → Option Csrf.ParsedUrl) (cfg : AuthConfig) :
    AuthHandle × AuthApp (Provider c) where
  fst := { providers := (cfg.on b).entries.map Prod.fst }
  snd :=
    { flow :=
        { providers := (cfg.on b).get
          signInPath := cfg.signInPath
          defaultNext := cfg.defaultNext
          errorParam := cfg.errorParam }
      mount := cfg.mountPath
      trusted := Csrf.trustedOrigins parseUrl (cfg.base :: cfg.trustedOrigins) }

variable {b}

/-! ## 4. What is on -/

def oauth2Provider (b : Builders c) (id redirect : Str) (cfg : OAuth2ProviderConfig)
    (userinfoUrl : c.oauth.Url) : OAuth2Provider c.oauth where
  id
  client := b.client cfg.clientId cfg.authUrl cfg.tokenUrl redirect cfg.tokenAuth
    (if cfg.clientSecret.isEmpty then none else some cfg.clientSecret)
  scopes := cfg.scopes
  pkce := cfg.pkce
  userinfoUrl
  subjectField := cfg.subjectField
  emailField := cfg.emailField
  nameField := cfg.nameField

/-- **A provider built from its settings**: every URL parses, and the provider is told
`redirect`. -/
inductive Provider.BuiltFrom (b : Builders c) (id redirect : Str) :
    ProviderConfig → Provider c → Prop where
  | oauth2 (cfg : OAuth2ProviderConfig) (userinfoUrl : c.oauth.Url)
      (hredirect : (b.url redirect).isOk = true) (hauth : (b.url cfg.authUrl).isOk = true)
      (htoken : (b.url cfg.tokenUrl).isOk = true)
      (huserinfo : b.url cfg.userinfoUrl = .ok userinfoUrl) :
      BuiltFrom b id redirect (.oauth2 cfg)
        (.oauth2 (oauth2Provider b id redirect cfg userinfoUrl))
  | oidc (cfg : OidcProviderConfig) (issuer : c.openid.Issuer)
      (hredirect : (b.url redirect).isOk = true) (hissuer : b.issuer cfg.issuer = .ok issuer) :
      BuiltFrom b id redirect (.oidc cfg)
        (.oidc ⟨id, issuer, cfg.clientId, cfg.clientSecret, redirect, cfg.metadataTtlSecs⟩
          cfg.scopes)

theorem OAuth2Provider.new_ok_iff {id redirect : Str} {cfg : OAuth2ProviderConfig}
    {p : OAuth2Provider c.oauth} :
    OAuth2Provider.new b id cfg redirect = .ok p ↔
      (b.url cfg.authUrl).isOk = true ∧ (b.url cfg.tokenUrl).isOk = true ∧
        ∃ userinfoUrl, b.url cfg.userinfoUrl = .ok userinfoUrl ∧
          oauth2Provider b id redirect cfg userinfoUrl = p := by
  simp only [OAuth2Provider.new, bind, Except.bind, pure, Except.pure]
  cases b.url cfg.authUrl with
  | error err => simp [Except.mapError, Except.isOk, Except.toBool]
  | ok authUrl =>
    cases b.url cfg.tokenUrl with
    | error err => simp [Except.mapError, Except.isOk, Except.toBool]
    | ok tokenUrl =>
      cases b.url cfg.userinfoUrl with
      | error err => simp [Except.mapError]
      | ok userinfoUrl => simp [Except.mapError, Except.isOk, Except.toBool, oauth2Provider]

theorem OidcProvider.new_ok_iff {id redirect : Str} {cfg : OidcProviderConfig}
    {p : OidcProvider c.openid} :
    OidcProvider.new b id cfg redirect = .ok p ↔
      ∃ issuer, b.issuer cfg.issuer = .ok issuer ∧
        ⟨id, issuer, cfg.clientId, cfg.clientSecret, redirect, cfg.metadataTtlSecs⟩ = p := by
  simp only [OidcProvider.new, bind, Except.bind, pure, Except.pure]
  cases b.issuer cfg.issuer <;> simp [Except.mapError]

theorem Provider.fromConfig_ok_iff {id redirect : Str} {cfg : ProviderConfig}
    {provider : Provider c} :
    Provider.fromConfig b id cfg redirect = .ok (some provider) ↔
      cfg.clientId ≠ [] ∧ Provider.BuiltFrom b id redirect cfg provider := by
  by_cases hempty : cfg.clientId = []
  · simp [Provider.fromConfig, hempty]
  simp only [Provider.fromConfig, List.isEmpty_iff, hempty, if_false, ne_eq, not_false_eq_true,
    true_and, bind, Except.bind, pure, Except.pure]
  cases hredirect : b.url redirect with
  | error err =>
    constructor
    · intro h
      cases h
    · rintro (⟨_, _, hok, -⟩ | ⟨_, _, hok, -⟩) <;>
      · rw [hredirect] at hok
        cases hok
  | ok url =>
    have hparses : (b.url redirect).isOk = true := by rw [hredirect]; rfl
    cases cfg with
    | oauth2 cfg =>
      constructor
      · intro h
        cases hnew : OAuth2Provider.new b id cfg redirect with
        | error err => simp [hnew, Except.mapError] at h
        | ok p =>
          obtain rfl : .oauth2 p = provider := by simpa [hnew, Except.mapError] using h
          obtain ⟨hauth, htoken, userinfoUrl, huserinfo, rfl⟩ := OAuth2Provider.new_ok_iff.mp hnew
          exact .oauth2 cfg userinfoUrl hparses hauth htoken huserinfo
      · intro hbuilt
        cases hbuilt with
        | oauth2 _ userinfoUrl _ hauth htoken huserinfo =>
          have hnew : OAuth2Provider.new b id cfg redirect =
              .ok (oauth2Provider b id redirect cfg userinfoUrl) :=
            OAuth2Provider.new_ok_iff.mpr ⟨hauth, htoken, userinfoUrl, huserinfo, rfl⟩
          simp [hnew, Except.mapError]
    | oidc cfg =>
      constructor
      · intro h
        cases hnew : OidcProvider.new b id cfg redirect with
        | error err => simp [hnew, Except.mapError] at h
        | ok p =>
          obtain rfl : .oidc p cfg.scopes = provider := by simpa [hnew, Except.mapError] using h
          obtain ⟨issuer, hissuer, rfl⟩ := OidcProvider.new_ok_iff.mp hnew
          exact .oidc cfg issuer hparses hissuer
      · intro hbuilt
        cases hbuilt with
        | oidc _ issuer _ hissuer =>
          have hnew : OidcProvider.new b id cfg redirect = .ok
              ⟨id, issuer, cfg.clientId, cfg.clientSecret, redirect, cfg.metadataTtlSecs⟩ :=
            OidcProvider.new_ok_iff.mpr ⟨issuer, hissuer, rfl⟩
          simp [hnew, Except.mapError]

/-- **Which providers are on**: those with a client id, a redirect URL of their own or a base URL
to make one of, and URLs that parse. -/
theorem on_iff {cfg : AuthConfig} {id : Str} {provider : Provider c} :
    (cfg.on b).get id = some provider ↔
      ∃ settings redirect, cfg.providers.get id = some settings ∧ settings.clientId ≠ [] ∧
        cfg.redirectUrl id settings = some redirect ∧
        Provider.BuiltFrom b id redirect settings provider := by
  rw [AuthConfig.on, ById.get_filterMap, Option.bind_eq_some_iff]
  refine exists_congr fun settings => ?_
  by_cases hempty : settings.clientId = []
  · simp [AuthConfig.provider, hempty]
  cases hredirect : cfg.redirectUrl id settings with
  | none => simp [AuthConfig.provider, hredirect]
  | some redirect =>
    have hbuilt : Provider.BuiltFrom b id redirect settings provider ↔
        Provider.fromConfig b id settings redirect = .ok (some provider) := by
      rw [Provider.fromConfig_ok_iff, and_iff_right hempty]
    simp only [AuthConfig.provider, List.isEmpty_iff, hempty, if_false, hredirect, ne_eq,
      not_false_eq_true, true_and, Option.some.injEq, exists_and_left, exists_eq_left', hbuilt]
    refine and_congr_right fun _ => ?_
    cases Provider.fromConfig b id settings redirect <;> simp

/-! ## 5. The way back -/

theorem route_mount {mount : Str} {segments : List Str} (h : segments ≠ [])
    (hclean : ∀ segment ∈ segments, '/' ∉ segment) :
    (stripPrefix mount (mount ++ '/' :: ['/'].intercalate segments)).map (·.splitOn '/') =
      some ([] :: segments) := by
  rw [stripPrefix_eq_some_iff.mpr rfl, Option.map_some]
  have hjoin : '/' :: ['/'].intercalate segments = ['/'].intercalate ([] :: segments) := by
    rw [List.intercalate_cons_of_ne_nil h]
    rfl
  rw [hjoin, List.splitOn_intercalate _ (by simpa using hclean) (by simp)]

theorem route_callback {mount segment : Str} (hclean : '/' ∉ segment) :
    route mount (mount ++ '/' :: segment ++ "/callback".toList) = some (.callback segment) := by
  have hpath : mount ++ '/' :: segment ++ "/callback".toList =
      mount ++ '/' :: ['/'].intercalate [segment, "callback".toList] := by
    simp [List.intercalate_cons_cons]
  rw [route, hpath, route_mount (by simp) (by simpa using hclean)]
  simp

theorem trimEndMatches_slashes (c : Char) (m : Nat) (s : Str) :
    trimEndMatches c (s ++ List.replicate m c) = trimEndMatches c s := by
  simp only [trimEndMatches, List.rdropWhile, List.reverse_append, List.reverse_replicate]
  rw [List.dropWhile_append_of_pos (by simp)]

/-- Slashes around a mount make no difference. -/
theorem trimMatches_slashes (c : Char) (n m : Nat) (s : Str) :
    trimMatches c (List.replicate n c ++ s ++ List.replicate m c) = trimMatches c s := by
  rw [trimMatches, List.append_assoc, List.dropWhile_append_of_pos (by simp),
    List.dropWhile_append, trimMatches]
  split
  · rename_i hempty
    have hall : (List.replicate m c).dropWhile (· == c) = [] := by
      rw [List.dropWhile_eq_nil_iff]
      simp
    rw [hall, List.isEmpty_iff.mp hempty]
  · exact trimEndMatches_slashes c m _

variable (b) in
/-- **How the mount and the base URL are written** at their ends does not matter. -/
theorem build_slashes (parseUrl : Str → Option Csrf.ParsedUrl) (cfg : AuthConfig) (n m k : Nat) :
    AuthPlugin.build b parseUrl
        { cfg with
          mount := List.replicate n '/' ++ cfg.mount ++ List.replicate m '/'
          baseUrl := cfg.baseUrl ++ List.replicate k '/' } =
      AuthPlugin.build b parseUrl cfg := by
  generalize hcfg : ({ cfg with
    mount := List.replicate n '/' ++ cfg.mount ++ List.replicate m '/'
    baseUrl := cfg.baseUrl ++ List.replicate k '/' } : AuthConfig) = cfg'
  have hmount : cfg'.mountPath = cfg.mountPath := by
    rw [← hcfg, AuthConfig.mountPath, trimMatches_slashes]
    rfl
  have hbase : cfg'.base = cfg.base := by
    rw [← hcfg]
    exact trimEndMatches_slashes '/' k cfg.baseUrl
  have hprovider : cfg'.provider b = cfg.provider b := by
    funext id settings
    simp only [AuthConfig.provider, AuthConfig.redirectUrl, AuthConfig.callbackPath, hmount, hbase]
  simp only [AuthPlugin.build, AuthConfig.on, hprovider, hmount, hbase]
  simp only [← hcfg]

def AuthConfig.mountSegments (cfg : AuthConfig) : List Str :=
  match cfg.mountPath with
  | [] => []
  | _ :: path => path.splitOn '/'

theorem mountPath_cases (cfg : AuthConfig) :
    cfg.mountPath = [] ∨ ∃ path, cfg.mountPath = '/' :: path := by
  unfold AuthConfig.mountPath
  dsimp only
  split
  · exact .inl rfl
  · exact .inr ⟨_, rfl⟩

theorem callbackPath_segments (cfg : AuthConfig) (id : Str) :
    cfg.callbackPath id =
      '/' :: ['/'].intercalate (cfg.mountSegments ++ [id, "callback".toList]) := by
  have hlast : ['/'].intercalate [id, "callback".toList] = id ++ "/callback".toList := by
    simp [List.intercalate_cons_cons]
  unfold AuthConfig.callbackPath AuthConfig.mountSegments
  rcases mountPath_cases cfg with hmount | ⟨path, hmount⟩
  · rw [hmount, List.nil_append, List.nil_append, hlast]
    rfl
  · simp only [hmount]
    rw [intercalate_append (List.splitOn_ne_nil '/' path) (by simp), List.intercalate_splitOn,
      hlast]
    simp

/-- A provider without a redirect URL of its own is told one made of the configuration. -/
theorem redirectUrl_made {cfg : AuthConfig} {id redirect : Str} {settings : ProviderConfig}
    (hown : settings.redirect = none) (h : cfg.redirectUrl id settings = some redirect) :
    redirect = cfg.base ++ cfg.callbackPath id := by
  rw [AuthConfig.redirectUrl, hown] at h
  dsimp only at h
  split at h
  · cases h
  · exact (Option.some.inj h).symm

/-- **When the redirect URL made for a provider leads back**: the base URL is an origin, the mount
is asked for as it is written, and the id is one segment, which spells itself. -/
structure AuthConfig.LeadsBack (cfg : AuthConfig) (id : Str) : Prop where
  base : Site cfg.base
  mount : ∀ segment ∈ cfg.mountSegments,
    Segment segment ∧ ∀ c ∈ segment, escapedInPath c = false
  segment : Segment id
  spelled : '%' ∉ id

/-- **What the browser asks for** when the provider sends it back, with any parameters. -/
theorem AuthConfig.LeadsBack.target {cfg : AuthConfig} {id : Str} (h : cfg.LeadsBack id)
    (pairs : List (Str × Str)) :
    requestTarget (appended (parts (cfg.base ++ cfg.callbackPath id)) pairs).join =
      some (cfg.callbackPath (encodeSegment id), some (serialize pairs)) := by
  have hsegments : ∀ segment ∈ cfg.mountSegments ++ [id, "callback".toList],
      Segment segment := by
    intro segment hsegment
    rcases List.mem_append.mp hsegment with hmount | hlast
    · exact (h.mount segment hmount).1
    · rcases List.mem_cons.mp hlast with rfl | hlast
      · exact h.segment
      · obtain rfl := List.mem_singleton.mp hlast
        exact ⟨List.all_iff_forall_prop.mp (by decide), by decide, by decide⟩
  have hclean : ∀ c ∈ cfg.base ++ cfg.callbackPath id, c ≠ '?' ∧ c ≠ '#' := by
    intro c hc
    rcases List.mem_append.mp hc with hc | hc
    · exact h.base.clean c hc
    · rw [callbackPath_segments] at hc
      exact ⟨(path_clean hsegments c hc).1, (path_clean hsegments c hc).2.1⟩
  let redirect : Parts :=
    { path := cfg.base ++ cfg.callbackPath id
      query := none
      fragment := none
      path_clean := ⟨fun hmem => (hclean _ hmem).1 rfl, fun hmem => (hclean _ hmem).2 rfl⟩
      query_clean := by rintro q ⟨⟩ }
  have hparts : parts (cfg.base ++ cfg.callbackPath id) = redirect := parts_join redirect
  have hjoin : (appended redirect pairs).join =
      cfg.base ++ '/' :: ['/'].intercalate (cfg.mountSegments ++ [id, "callback".toList]) ++
        '?' :: serialize pairs := by
    rw [← callbackPath_segments]
    rfl
  have hencoded : (cfg.mountSegments ++ [id, "callback".toList]).map encodeSegment =
      cfg.mountSegments ++ [encodeSegment id, "callback".toList] := by
    have hmount : cfg.mountSegments.map encodeSegment = cfg.mountSegments :=
      (List.map_congr_left fun segment hsegment =>
        percentEncode_eq_self (h.mount segment hsegment).2).trans (List.map_id _)
    have hlast : encodeSegment "callback".toList = "callback".toList :=
      percentEncode_eq_self (List.all_iff_forall_prop.mp (by decide))
    simp only [List.map_append, List.map_cons, List.map_nil, hmount, hlast]
  rw [hparts, hjoin, requestTarget_plain h.base (by simp) hsegments (serialize_formChar pairs),
    hencoded, ← callbackPath_segments]

/-- A query that was written by form encoding is read back. -/
theorem pairs_of_serialize {http : HttpRequest} {pairs : List (Str × Str)}
    (h : http.query = some (serialize pairs)) : http.pairs = pairs := by
  rw [HttpRequest.pairs, h, Option.getD_some, parse_serialize]

/-- **The browser arrives at the callback**: with a path that spells the id of the provider, and
the parameters of the provider. -/
theorem dispatch_callback {mount segment id : Str} {http : HttpRequest} {query : CallbackQuery}
    (hspelled : pathParam segment = some id) (hclean : '/' ∉ segment)
    (hmethod : http.method = .get)
    (hpath : http.path = mount ++ '/' :: segment ++ "/callback".toList)
    (hquery : CallbackQuery.extract http.pairs = some query) :
    dispatch mount http = .ok (.callback id query) := by
  refine dispatch_ok_iff.mpr ⟨_, hpath ▸ route_callback hclean, ?_, ?_⟩
  · simp [Route.serves, hmethod]
  · simp [HttpRequest.extract, hspelled, hquery]

/-- **A request that follows a redirect URL**: what the browser asks for when a provider sends it
to the URL that it was told, with parameters of the provider's added to the query. -/
structure Follows (redirect : Str) (pairs : List (Str × Str)) (http : HttpRequest) : Prop where
  method : http.method = .get
  target : requestTarget (appended (parts redirect) pairs).join = some (http.path, http.query)

/-- The request is served by the callback of `id`, with the parameters as the provider sent them. -/
theorem Follows.serve {P I U : Type} {app : AuthApp P} {cfg : AuthConfig}
    (hmount : app.mount = cfg.mountPath) {id : Str} (hback : cfg.LeadsBack id)
    {pairs : List (Str × Str)} {http : HttpRequest}
    (h : Follows (cfg.base ++ cfg.callbackPath id) pairs http) {query : CallbackQuery}
    (hquery : CallbackQuery.extract pairs = some query) (parseUrl : Str → Option Csrf.ParsedUrl)
    (session : Session U) (w : World P I U) :
    app.request? parseUrl (w, http) = some (w, .callback id query) ∧
      app.serve parseUrl session (w, http) = callback app.flow w session id query := by
  have htarget := h.target
  rw [hback.target, Option.some.injEq, Prod.mk.injEq] at htarget
  obtain ⟨hpath, hform⟩ := htarget
  have hspelled : pathParam (encodeSegment id) = some id := by
    simp only [pathParam, encodeSegment, percentDecode_percentEncode hback.spelled,
      decodeUtf8_utf8, if_true]
  have hclean : '/' ∉ encodeSegment id :=
    not_mem_percentEncode (fun hmem => absurd (hback.segment.text _ hmem).1 (by decide)) (by decide)
  have hadmits : app.admits parseUrl http = true := by
    simp [AuthApp.admits, Csrf.allowed, h.method, Csrf.Method.isSafe]
  have hdispatch : dispatch app.mount http = .ok (.callback id query) := by
    rw [hmount]
    exact dispatch_callback hspelled hclean h.method hpath.symm
      (pairs_of_serialize hform.symm ▸ hquery)
  constructor
  · simp [AuthApp.request?, hadmits, hdispatch, Except.toOption]
  · simp [AuthApp.serve, hadmits, hdispatch, handle]

variable (b) in
/-- **What the plugin promises of its wiring**: who is on, what the handle says about it, and that
the redirect URL each provider is told leads back to that provider's callback. -/
structure Wired (parseUrl : Str → Option Csrf.ParsedUrl) (cfg : AuthConfig) (handle : AuthHandle)
    (app : AuthApp (Provider c)) : Prop where
  /-- A provider is on exactly if it has a client id, a redirect URL, and URLs that parse. -/
  on : ∀ id provider, app.flow.providers id = some provider ↔
    ∃ settings redirect, cfg.providers.get id = some settings ∧ settings.clientId ≠ [] ∧
      cfg.redirectUrl id settings = some redirect ∧
      Provider.BuiltFrom b id redirect settings provider
  /-- The handle has the ids of those that are on, each once and in order. -/
  listed : ∀ id, handle.hasProvider id = (app.flow.providers id).isSome
  sorted : handle.providers.Pairwise (· < ·)
  /-- A provider without a redirect URL of its own is told one made of the configuration, and the
  browser that follows it, with the provider's parameters, comes back to its callback. -/
  back : ∀ id settings provider, cfg.providers.get id = some settings → settings.redirect = none →
    app.flow.providers id = some provider →
      Provider.BuiltFrom b id (cfg.base ++ cfg.callbackPath id) settings provider ∧
      (cfg.LeadsBack id → ∀ pairs,
        (∃ http, Follows (cfg.base ++ cfg.callbackPath id) pairs http) ∧
        ∀ {I U : Type} (w : World (Provider c) I U) session query http,
          Follows (cfg.base ++ cfg.callbackPath id) pairs http →
          CallbackQuery.extract pairs = some query →
            app.serve parseUrl session (w, http) = callback app.flow w session id query)
  /-- Slashes around the mount and after the base URL make no difference. -/
  slashes : ∀ n m k, AuthPlugin.build b parseUrl
    { cfg with
      mount := List.replicate n '/' ++ cfg.mount ++ List.replicate m '/'
      baseUrl := cfg.baseUrl ++ List.replicate k '/' } = (handle, app)

end Build

end Muxa.Auth
