/-
# A browser's cache over deploys

What the `Cache-Control` of the single-page app is for: a browser that keeps files and reuses
them as their policy allows must not show a page of an old build.

The browser is the smallest one that follows the policy.  It may reuse any file it has, unless
its policy is `no-cache`; then it asks for it with the entity tag it was given in
`If-None-Match`, keeps its copy at a 304 under the policy the 304 carries, and takes whatever else
it is sent.  Between its loads, new
builds with their own configuration are deployed.  `loads_up_to_date_iff` says which paths are
never stale in any such run.
-/
import Mathlib.Data.Set.Defs
import Mathlib.Logic.Function.Basic
import Muxa.Lib.Run
import Muxa.Web.CacheControl

namespace Muxa.Web

open Lib Lib.Text Lib.Run

/-! ## 1. What a build sends -/

/-- A build, with the `[spa]` section it is deployed with. -/
structure Deploy where
  assets : List Asset
  cfg : SpaConfig

variable {intoRouter : MemoryServe → Routes} {d d' : Deploy} {path : Str} {asset : Asset}

namespace Deploy

/-- What the app answers where no other route is taken: an inert plugin leaves axum's 404. -/
def serve (intoRouter : MemoryServe → Routes) (d : Deploy) : Request → Response :=
  (build intoRouter d.assets d.cfg).getD fun _ => notFound

/-- The file at a path: what a `GET` without conditions is sent. -/
def page (intoRouter : MemoryServe → Routes) (d : Deploy) (path : Str) : Option Asset :=
  (d.serve intoRouter ⟨.get, path, []⟩).file

def own (d : Deploy) (asset : Asset) : Str := ((memoryServe d.assets).control asset).header

def policy (d : Deploy) (path : Str) (asset : Asset) : Str :=
  (overriding d.cfg (embedded d.assets) path).getD (d.own asset)

/-- The file is revalidated on every load: it is read from disk, or it is HTML that is not made
immutable. -/
def Revalidated (d : Deploy) (path : Str) (asset : Asset) : Prop :=
  embedded d.assets = false ∨
    asset.isHtml = true ∧ (path ∈ d.cfg.noCache ∨ under path d.cfg.assetsPrefix = false)

end Deploy

/-- The headers of a client that has a file: the entity tag it was sent with. -/
def Asset.having (stored : Asset) : List (Str × Str) := Web.having stored.etag

/-- What is relied on of memory-serve besides `Serves`, for a client that has `stored` and says so:
it is told that its version is the one of a file exactly when the etags are the same. -/
def MemoryServe.Compares (m : MemoryServe) (files : Routes) (stored : Asset) : Prop :=
  ∀ path handler asset request, files path = some handler → m.file path = some asset →
    request.method.isRead = true → request.ifNoneMatch = [EntityTag.quoted stored.etag] →
      ((handler request).status = 304 ↔ stored.etag = asset.etag)

theorem own_eq_noCache_iff :
    d.own asset = noCache ↔ asset.isHtml = true ∨ embedded d.assets = false := by
  rw [← control_memoryServe, Deploy.own]
  cases (memoryServe d.assets).control asset <;> decide

/-- A file is revalidated on every load exactly when both policies it can get say so: that of
the 200, and memory-serve's own, which a 304 has. -/
theorem revalidated_iff :
    d.Revalidated path asset ↔ d.policy path asset = noCache ∧ d.own asset = noCache := by
  have hmade : immutable ≠ noCache := by decide
  rw [own_eq_noCache_iff, Deploy.Revalidated, Deploy.policy, overriding]
  by_cases hlisted : path ∈ d.cfg.noCache
  · rw [if_pos (List.contains_iff_mem.mpr hlisted), Option.getD_some]
    simp only [hlisted, true_or, and_true, true_and]
    exact or_comm
  · rw [if_neg (fun h => hlisted (List.contains_iff_mem.mp h))]
    cases hembedded : embedded d.assets with
    | false =>
      have hown : d.own asset = noCache := own_eq_noCache_iff.mpr (.inr hembedded)
      simp [hown]
    | true =>
      cases hunder : under path d.cfg.assetsPrefix with
      | true => simp [hlisted, hmade]
      | false =>
        have hown : d.own asset = noCache ↔ _ := own_eq_noCache_iff
        rw [hembedded] at hown
        simp [hlisted, hown]

/-- A build that is served is served by `router`. -/
theorem build_cases (intoRouter : MemoryServe → Routes) (assets : List Asset) (cfg : SpaConfig) :
    build intoRouter assets cfg = none ∨
      build intoRouter assets cfg = some (router intoRouter assets cfg) := by
  unfold build
  split
  · exact .inl rfl
  split
  · exact .inl rfl
  split
  · exact .inl rfl
  · exact .inr rfl

/-- A file the routes answer with is a file of the build. -/
theorem mem_of_file {m : MemoryServe} (h : m.file path = some asset) : asset ∈ m.assets :=
  List.mem_of_find?_eq_some h

/-- What one build answers to a `GET` of one path: always a 404, or always one file of it, with
a 304 in place of the file for who has this version. -/
theorem serve_cases {matching : List Str → Asset → Prop}
    (hserves : (memoryServe d.assets).Serves matching (intoRouter (memoryServe d.assets)))
    (path : Str) :
    (∀ headers, d.serve intoRouter ⟨.get, path, headers⟩ = notFound) ∨
    ∃ asset ∈ d.assets,
      d.serve intoRouter ⟨.get, path, []⟩ =
        { status := 200, cacheControl := some (d.policy path asset), file := some asset } ∧
      ∀ stored, (memoryServe d.assets).Compares (intoRouter (memoryServe d.assets)) stored →
        d.serve intoRouter ⟨.get, path, stored.having⟩ =
          if stored.etag = asset.etag then { status := 304, cacheControl := some (d.own asset) }
          else { status := 200, cacheControl := some (d.policy path asset),
                 file := some asset } := by
  rcases build_cases intoRouter d.assets d.cfg with hinert | hrouter
  · left
    intro headers
    rw [Deploy.serve, hinert]
    rfl
  simp only [Deploy.serve, hrouter, Option.getD_some, router]
  rcases withFallback_cases (intoRouter (memoryServe d.assets)) d.cfg .get path with
    hnone | ⟨path', hfile⟩
  · left
    intro headers
    rw [cacheHeaders, hnone]
    rfl
  cases hhandler : intoRouter (memoryServe d.assets) path' with
  | none =>
    left
    intro headers
    simp only [cacheHeaders, hfile, Routes.oneshot, hhandler]
    rfl
  | some handler =>
    have hsome := hserves.routes path'
    rw [hhandler, Option.isSome_some] at hsome
    obtain ⟨asset, hasset⟩ := Option.isSome_iff_exists.mp hsome.symm
    have hreads := fun headers =>
      hserves.reads path' handler asset ⟨.get, path', headers⟩ hhandler hasset rfl
    -- the file, under the overriding value
    have hfull : ∀ headers, handler ⟨.get, path', headers⟩ =
        { status := 200, cacheControl := some (d.own asset), file := some asset } →
        cacheHeaders d.cfg (embedded d.assets) ⟨.get, path, headers⟩
            (withFallback (intoRouter (memoryServe d.assets)) d.cfg) =
          { status := 200, cacheControl := some (d.policy path asset), file := some asset } := by
      intro headers hok
      simp only [cacheHeaders, hfile, Routes.oneshot, hhandler, hok, Deploy.policy]
      cases overriding d.cfg (embedded d.assets) path <;> rfl
    refine .inr ⟨asset, mem_of_file hasset, ?_, fun stored hcompares => ?_⟩
    · rcases hreads [] with hok | ⟨hmatched, -⟩
      · exact hfull [] hok
      · exact absurd hmatched (hserves.unconditional asset)
    · have hnot :=
        hcompares path' handler asset ⟨.get, path', stored.having⟩ hhandler hasset rfl rfl
      by_cases hmatch : stored.etag = asset.etag
      · rw [if_pos hmatch]
        rcases hreads stored.having with hok | ⟨-, hnotModified⟩
        · have h304 := hnot.mpr hmatch
          rw [hok] at h304
          cases h304
        · simp only [cacheHeaders, hfile, Routes.oneshot, hhandler, hnotModified]
          rfl
      · rw [if_neg hmatch]
        rcases hreads stored.having with hok | ⟨-, hnotModified⟩
        · exact hfull stored.having hok
        · exact absurd (hnot.mp (by rw [hnotModified])) hmatch

/-! ## 2. The browser -/

/-- A file in the cache, with the policy it was last sent with. -/
structure Stored where
  file : Asset
  policy : Option Str
deriving DecidableEq

/-- A response that is not a 304: a file is kept, anything else is not. -/
def received (response : Response) : Option Stored :=
  if response.isSuccess then response.file.map fun file => ⟨file, response.cacheControl⟩ else none

def fetch (serve : Request → Response) (path : Str) : Option Stored → Option Stored
  | none => received (serve ⟨.get, path, []⟩)
  | some stored =>
    let response := serve ⟨.get, path, stored.file.having⟩
    -- a 304 updates the headers of the copy
    if response.status = 304 then
      some { stored with policy := response.cacheControl.or stored.policy }
    else received response

/-- Load a file: `reuse` says whether the browser makes use of what it may reuse. -/
def load (serve : Request → Response) (path : Str) (reuse : Bool) :
    Option Stored → Option Stored
  | none => fetch serve path none
  | some stored =>
    if reuse ∧ stored.policy ≠ some noCache then some stored else fetch serve path (some stored)

/-- What is deployed, and one browser's cache, which holds a copy of a file for each path it has
loaded. -/
structure Site where
  deployed : Deploy
  cache : Str → Option Stored

inductive Event where
  | deploy (d : Deploy)
  | load (path : Str) (reuse : Bool)
  /-- The browser makes room. -/
  | evict (path : Str)

/-- What a load leaves in the cache; its file is what is shown. -/
def Site.load (intoRouter : MemoryServe → Routes) (site : Site) (path : Str) (reuse : Bool) :
    Option Stored :=
  Web.load (site.deployed.serve intoRouter) path reuse (site.cache path)

def step (intoRouter : MemoryServe → Routes) (site : Site) : Event → Site
  | .deploy d => { site with deployed := d }
  | .load path reuse =>
    { site with cache := Function.update site.cache path (site.load intoRouter path reuse) }
  | .evict path => { site with cache := Function.update site.cache path none }

def Site.init (d : Deploy) : Site := ⟨d, fun _ => none⟩

/-- Only builds of a set are deployed. -/
def Event.Of (builds : Set Deploy) : Event → Prop
  | .deploy d => d ∈ builds
  | _ => True

/-! ## 3. What is never stale -/

section Fresh

variable {α : Type*} {content : Asset → α} {builds : Set Deploy}

/-- What a cache holds: a file that a build gave at the path, and where its policy lets it be
reused, a build that gives the same content there without asking for a revalidation. -/
structure Cached (intoRouter : MemoryServe → Routes) (content : Asset → α)
    (builds : Set Deploy) (path : Str) (stored : Stored) : Prop where
  file : ∃ d ∈ builds, stored.file ∈ d.assets
  policy : stored.policy = some noCache ∨ ∃ d ∈ builds, ∃ asset,
    d.page intoRouter path = some asset ∧ content asset = content stored.file ∧
      ¬ d.Revalidated path asset

/-- **What is relied on**: of memory-serve, for every build, whatever it takes for a match, and for
a client that has a file of any of them; and of its etags, that they tell different contents
apart. -/
structure Served (intoRouter : MemoryServe → Routes) (content : Asset → α)
    (builds : Set Deploy) : Prop where
  serves : ∀ d ∈ builds, ∃ matching,
    (memoryServe d.assets).Serves matching (intoRouter (memoryServe d.assets))
  compares : ∀ d ∈ builds, ∀ d' ∈ builds, ∀ stored ∈ d'.assets,
    (memoryServe d.assets).Compares (intoRouter (memoryServe d.assets)) stored
  etags : ∀ d ∈ builds, ∀ d' ∈ builds, ∀ asset ∈ d.assets, ∀ asset' ∈ d'.assets,
    asset.etag = asset'.etag → content asset = content asset'

/-- A copy of what a build gives, under one of the two policies it may be sent with. -/
theorem cached_of_sent (hd : d ∈ builds) (hpage : d.page intoRouter path = some asset)
    {stored : Stored} (hfile : ∃ d ∈ builds, stored.file ∈ d.assets)
    (hcontent : content asset = content stored.file)
    (hsent : stored.policy = some (d.policy path asset) ∨ stored.policy = some (d.own asset)) :
    Cached intoRouter content builds path stored := by
  refine ⟨hfile, ?_⟩
  by_cases hrevalidated : d.Revalidated path asset
  · obtain ⟨hpolicy, hown⟩ := revalidated_iff.mp hrevalidated
    rw [hpolicy, hown, or_self] at hsent
    exact .inl hsent
  · exact .inr ⟨d, hd, asset, hpage, hcontent, hrevalidated⟩

/-- **What a request brings**: the content of the build that is deployed, under a policy that
lets it be reused only where this build does not have it revalidated. -/
theorem fetch_spec (hserved : Served intoRouter content builds) (hd : d ∈ builds)
    {entry : Option Stored}
    (hentry : ∀ stored, entry = some stored → Cached intoRouter content builds path stored) :
    (∀ stored, fetch (d.serve intoRouter) path entry = some stored →
      Cached intoRouter content builds path stored) ∧
    (fetch (d.serve intoRouter) path entry).map (content ·.file) =
      (d.page intoRouter path).map content := by
  obtain ⟨matching, hserves⟩ := hserved.serves d hd
  rcases serve_cases hserves path with hnone | ⟨asset, hasset, hserve, hrevalidate⟩
  · have hfetch : fetch (d.serve intoRouter) path entry = none := by
      cases entry <;> simp [fetch, hnone, received, notFound, Response.isSuccess]
    rw [hfetch, Deploy.page, hnone]
    exact ⟨fun stored h => absurd h (Option.some_ne_none _).symm, rfl⟩
  have hpage : d.page intoRouter path = some asset := by
    rw [Deploy.page, hserve]
  rw [hpage]
  -- a file that is sent, or a copy that a 304 has confirmed
  have hbrought : ∀ brought, fetch (d.serve intoRouter) path entry = some brought →
      (∃ d ∈ builds, brought.file ∈ d.assets) → content asset = content brought.file →
      (brought.policy = some (d.policy path asset) ∨ brought.policy = some (d.own asset)) →
        (∀ stored, fetch (d.serve intoRouter) path entry = some stored →
          Cached intoRouter content builds path stored) ∧
        (fetch (d.serve intoRouter) path entry).map (content ·.file) =
          (some asset).map content := by
    intro brought hfetch hfile hcontent hsent
    rw [hfetch]
    refine ⟨fun stored h => Option.some.inj h ▸ cached_of_sent hd hpage hfile hcontent hsent, ?_⟩
    simp [hcontent]
  cases entry with
  | none =>
    refine hbrought ⟨asset, some (d.policy path asset)⟩ ?_ ⟨d, hd, hasset⟩ rfl (.inl rfl)
    simp [fetch, hserve, received, Response.isSuccess]
  | some stored =>
    obtain ⟨d₀, hd₀, hfile⟩ := (hentry stored rfl).file
    have hserve' := hrevalidate stored.file (hserved.compares d hd d₀ hd₀ _ hfile)
    by_cases hmatch : stored.file.etag = asset.etag
    · have hcontent : content asset = content stored.file :=
        hserved.etags d hd d₀ hd₀ _ hasset _ hfile hmatch.symm
      refine hbrought ⟨stored.file, some (d.own asset)⟩ ?_ ⟨d₀, hd₀, hfile⟩ hcontent (.inr rfl)
      simp [fetch, hserve', hmatch]
    · refine hbrought ⟨asset, some (d.policy path asset)⟩ ?_ ⟨d, hd, hasset⟩ rfl (.inl rfl)
      simp [fetch, hserve', hmatch, received, Response.isSuccess]

/-- A site whose cache holds what the builds gave. -/
structure Site.Inv (intoRouter : MemoryServe → Routes) (content : Asset → α)
    (builds : Set Deploy) (site : Site) : Prop where
  deployed : site.deployed ∈ builds
  cached : ∀ path stored, site.cache path = some stored →
    Cached intoRouter content builds path stored

/-- **What a load shows**: what the build that is deployed has, or a copy that some build lets
be reused. -/
theorem load_spec (hserved : Served intoRouter content builds) {site : Site}
    (hinv : site.Inv intoRouter content builds) (path : Str) (reuse : Bool) :
    (∀ stored, site.load intoRouter path reuse = some stored →
      Cached intoRouter content builds path stored) ∧
    ((site.load intoRouter path reuse).map (content ·.file) =
        (site.deployed.page intoRouter path).map content ∨
      ∃ d ∈ builds, ∃ asset, d.page intoRouter path = some asset ∧
        ¬ d.Revalidated path asset ∧
        (site.load intoRouter path reuse).map (content ·.file) = some (content asset)) := by
  have hfetch := fetch_spec hserved hinv.deployed (hinv.cached path)
  unfold Site.load load
  cases hcache : site.cache path with
  | none =>
    rw [hcache] at hfetch
    exact ⟨hfetch.1, .inl hfetch.2⟩
  | some stored =>
    rw [hcache] at hfetch
    dsimp only
    by_cases hreuse : reuse ∧ stored.policy ≠ some noCache
    · rw [if_pos hreuse]
      have hcached := hinv.cached path stored hcache
      refine ⟨fun kept h => Option.some.inj h ▸ hcached, .inr ?_⟩
      rcases hcached.policy with hnoCache | ⟨d, hd, asset, hpage, hcontent, hnot⟩
      · exact absurd hnoCache hreuse.2
      · exact ⟨d, hd, asset, hpage, hnot, by simp [hcontent]⟩
    · rw [if_neg hreuse]
      exact ⟨hfetch.1, .inl hfetch.2⟩

theorem Site.Inv.step (hserved : Served intoRouter content builds) {site : Site}
    (hinv : site.Inv intoRouter content builds) {event : Event} (hevent : event.Of builds) :
    (step intoRouter site event).Inv intoRouter content builds := by
  cases event with
  | deploy d => exact ⟨hevent, hinv.cached⟩
  | load path reuse =>
    refine ⟨hinv.deployed, fun path' stored h => ?_⟩
    by_cases heq : path' = path
    · subst heq
      simp only [Web.step, Function.update_self] at h
      exact (load_spec hserved hinv path' reuse).1 stored h
    · simp only [Web.step, Function.update_of_ne heq] at h
      exact hinv.cached path' stored h
  | evict path =>
    refine ⟨hinv.deployed, fun path' stored h => ?_⟩
    by_cases heq : path' = path
    · subst heq
      simp only [Web.step, Function.update_self] at h
      cases h
    · simp only [Web.step, Function.update_of_ne heq] at h
      exact hinv.cached path' stored h

theorem run_inv (hserved : Served intoRouter content builds) (hd : d ∈ builds)
    {events : List Event} (hevents : ∀ event ∈ events, event.Of builds) :
    (run (step intoRouter) (Site.init d) events).Inv intoRouter content builds :=
  run_invariant (fun _ _ hinv hevent => hinv.step hserved hevent) events _
    ⟨hd, fun _ _ h => by cases h⟩ (along_of_forall hevents)

/-- A first load, and the load after it: the policy of a 200, then that of a 304. -/
theorem load_twice (hserved : Served intoRouter content builds) (hd : d ∈ builds)
    (hpage : d.page intoRouter path = some asset) :
    (step intoRouter (Site.init d) (.load path false)).cache path =
        some ⟨asset, some (d.policy path asset)⟩ ∧
      (run (step intoRouter) (Site.init d) [.load path false, .load path false]).cache path =
        some ⟨asset, some (d.own asset)⟩ := by
  obtain ⟨matching, hserves⟩ := hserved.serves d hd
  rcases serve_cases hserves path with hnone | ⟨asset', hasset, hserve, hrevalidate⟩
  · rw [Deploy.page, hnone] at hpage
    cases hpage
  have hsame : asset' = asset := by
    rw [Deploy.page, hserve] at hpage
    exact Option.some.inj hpage
  subst hsame
  have hserve' := hrevalidate asset' (hserved.compares d hd d hd _ hasset)
  have hfirst : (step intoRouter (Site.init d) (.load path false)).cache path =
      some ⟨asset', some (d.policy path asset')⟩ := by
    simp [step, Site.init, Site.load, load, fetch, hserve, received, Response.isSuccess]
  refine ⟨hfirst, ?_⟩
  simp only [run_cons, run_nil]
  simp only [step, Function.update_self, Site.load] at hfirst ⊢
  rw [hfirst]
  simp [load, fetch, Site.init, hserve']

/-- A copy that may be reused is shown in place of a later build's file. -/
theorem shown_of_reusable {site : Site} {policy : Str}
    (hcache : site.cache path = some ⟨asset, some policy⟩) (hpolicy : policy ≠ noCache)
    (d' : Deploy) :
    (step intoRouter site (.deploy d')).load intoRouter path true =
      some ⟨asset, some policy⟩ := by
  simp [step, Site.load, load, hcache, hpolicy]

/-- **The paths that are never stale.**  Take any set of builds, deployed one after the other in
any order while a browser loads what it likes, reuses what it may and forgets what it likes.  In
all these runs a load of a path shows what the build of the moment has there if and only if each
build that has other content there than some build has its file revalidated on every load: it
reads it from disk, or it is HTML not made immutable.  Where every file at a path is, a load
shows nothing either once the path is gone. -/
theorem loads_up_to_date_iff (hserved : Served intoRouter content builds) (path : Str) :
    ((∀ d ∈ builds, ∀ events : List Event, (∀ event ∈ events, event.Of builds) → ∀ reuse,
        let site := run (step intoRouter) (Site.init d) events
        ∀ asset, site.deployed.page intoRouter path = some asset →
          (site.load intoRouter path reuse).map (content ·.file) = some (content asset)) ↔
      ∀ d ∈ builds, ∀ d' ∈ builds, ∀ asset asset', d.page intoRouter path = some asset →
        d'.page intoRouter path = some asset' →
          content asset = content asset' ∨ d.Revalidated path asset) ∧
    ((∀ d ∈ builds, ∀ asset, d.page intoRouter path = some asset → d.Revalidated path asset) →
      ∀ d ∈ builds, ∀ events : List Event, (∀ event ∈ events, event.Of builds) → ∀ reuse,
        let site := run (step intoRouter) (Site.init d) events
        (site.load intoRouter path reuse).map (content ·.file) =
          (site.deployed.page intoRouter path).map content) := by
  refine ⟨⟨?_, ?_⟩, ?_⟩
  · intro hfresh d hd d' hd' asset asset' hpage hpage'
    by_contra hstale
    obtain ⟨hcontent, hnot⟩ := not_or.mp hstale
    obtain ⟨hfirst, hagain⟩ := load_twice hserved hd hpage
    -- stale after the first load, or after it was revalidated
    rw [revalidated_iff, not_and_or] at hnot
    rcases hnot with hpolicy | hown
    · have hshown := hfresh d hd [.load path false, .deploy d'] (by simp [Event.Of, hd']) true
        asset' hpage'
      rw [run_cons, run_cons, run_nil, shown_of_reusable hfirst hpolicy] at hshown
      exact hcontent (Option.some.inj hshown)
    · have hshown := hfresh d hd ([.load path false, .load path false] ++ [.deploy d'])
        (by simp [Event.Of, hd']) true asset' (by rw [run_concat]; exact hpage')
      rw [run_concat, shown_of_reusable hagain hown] at hshown
      exact hcontent (Option.some.inj hshown)
  · intro h d hd events hevents reuse site asset hpage
    have hinv := run_inv hserved hd hevents
    rcases (load_spec hserved hinv path reuse).2 with
      hcurrent | ⟨d', hd', asset', hpage', hnot, hold⟩
    · rw [hcurrent, hpage, Option.map_some]
    · rw [hold]
      exact congrArg some ((h d' hd' _ hinv.deployed asset' asset hpage' hpage).resolve_right hnot)
  · intro h d hd events hevents reuse site
    have hinv := run_inv hserved hd hevents
    rcases (load_spec hserved hinv path reuse).2 with
      hcurrent | ⟨d', hd', asset', hpage', hnot, -⟩
    · exact hcurrent
    · exact absurd (h d' hd' asset' hpage') hnot

end Fresh

/-- A file's own entity tag matches its version and no other. -/
theorem MemoryServe.compares_serve (m : MemoryServe) {stored : Asset}
    (h : ∀ c ∈ stored.etag, EntityTag.isEtagChar c = true) : m.Compares m.serve stored := by
  intro path handler asset request hhandler hasset hread hvalues
  simp only [MemoryServe.serve, hasset, Option.map_some, Option.some.injEq] at hhandler
  subst hhandler
  rw [← EntityTag.listed_single h]
  dsimp only
  rw [hread, hvalues]
  cases EntityTag.listed [EntityTag.quoted stored.etag] asset.etag <;> simp

/-- The builds of two days: the page and the service worker have changed. -/
def monday : Deploy := ⟨dist, {}⟩

def tuesday : Deploy :=
  ⟨[embeddedFile "/index.html" "text/html" "e7", embeddedFile "/sw.js" "text/javascript" "e8"], {}⟩

theorem served_days : Served MemoryServe.serve Asset.etag {d | d = monday ∨ d = tuesday} where
  serves _ _ := ⟨_, MemoryServe.serves_serve _⟩
  compares := by
    have hetags : ∀ stored ∈ monday.assets ++ tuesday.assets, ∀ c ∈ stored.etag,
        EntityTag.isEtagChar c = true := by
      intro stored hstored
      have hall : stored.etag.all EntityTag.isEtagChar = true := by
        revert stored
        decide
      exact List.all_eq_true.mp hall
    rintro d - d' (rfl | rfl) stored hstored
    · exact MemoryServe.compares_serve _ (hetags stored (List.mem_append_left _ hstored))
    · exact MemoryServe.compares_serve _ (hetags stored (List.mem_append_right _ hstored))
  etags _ _ _ _ _ _ _ _ h := h

/-- A client route shows Tuesday's page on Tuesday, whatever the browser has; but a browser that
has loaded the service worker twice on Monday may keep it. -/
theorem loads_up_to_date_days :
    ((run (step MemoryServe.serve) (Site.init monday)
          [.load "/games/1".toList true, .deploy tuesday]).load MemoryServe.serve
        "/games/1".toList true).map (·.file.etag) = some "e7".toList ∧
      ¬ ∀ d ∈ {d | d = monday ∨ d = tuesday}, ∀ events : List Event,
        (∀ event ∈ events, event.Of {d | d = monday ∨ d = tuesday}) → ∀ reuse,
          let site := run (step MemoryServe.serve) (Site.init d) events
          ∀ asset, site.deployed.page MemoryServe.serve "/sw.js".toList = some asset →
            (site.load MemoryServe.serve "/sw.js".toList reuse).map (·.file.etag) =
              some asset.etag := by
  refine ⟨?_, fun hfresh => ?_⟩
  · have hpages : ∀ d ∈ {d | d = monday ∨ d = tuesday}, ∀ asset,
        d.page MemoryServe.serve "/games/1".toList = some asset →
          d.Revalidated "/games/1".toList asset := by
      rintro d (rfl | rfl) asset hpage
      · obtain rfl : page = asset := Option.some.inj (Eq.trans (by decide) hpage)
        exact .inr ⟨by decide, .inr (by decide)⟩
      · obtain rfl : embeddedFile "/index.html" "text/html" "e7" = asset :=
          Option.some.inj (Eq.trans (by decide) hpage)
        exact .inr ⟨by decide, .inr (by decide)⟩
    exact (loads_up_to_date_iff served_days _).2 hpages monday (.inl rfl)
      [.load "/games/1".toList true, .deploy tuesday]
      (List.forall_mem_cons.mpr ⟨trivial, List.forall_mem_singleton.mpr (.inr rfl)⟩) true
  · have h := (loads_up_to_date_iff served_days "/sw.js".toList).1.mp hfresh monday (.inl rfl)
      tuesday (.inr rfl) (embeddedFile "/sw.js" "text/javascript" "e4")
      (embeddedFile "/sw.js" "text/javascript" "e8") (by decide) (by decide)
    rcases h with h | h | ⟨h, -⟩
    · exact absurd h (by decide)
    · exact absurd h (by decide)
    · exact absurd h (by decide)

end Muxa.Web
