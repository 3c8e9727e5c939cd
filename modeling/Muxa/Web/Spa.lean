/-
# The single-page app

The fallback router of a frontend build: memory-serve's file routes, behind them `index.html`
for the paths of the client-side router (`client_route`), and around both a layer that overrides
`Cache-Control` where the path says more than the content type (`cache_headers`).

memory-serve is a parameter: a function from what its builder was told (`MemoryServe`) to one
handler for each route.  What is relied on is `MemoryServe.Serves`, for whatever it takes for a
match of an `If-None-Match` (`matching`).

`client_route` and `cache_headers` both ask whether the path is under a prefix.  They ask it of
the same text with the same function, which is about whole segments (`under_iff`); so what one
lets through as a client route the other never takes for a fingerprinted file
(`client_route_classifies`).
-/
import Mathlib.Data.List.DropRight
import Muxa.Lib.EntityTag
import Muxa.Lib.Segments
import Muxa.Lib.Text

namespace Muxa.Web

open Lib Lib.Text Lib.Segments

/-! ## 1. Files, requests and responses -/

/-- A file of the build: `memory_serve::Asset`. -/
structure Asset where
  route : Str
  contentType : Str
  /-- The opaque tag of its version; on the wire it is in quotes. -/
  etag : Str
  /-- The content, when it is embedded in the binary; else it is read from disk. -/
  bytes : Option (List UInt8)
deriving DecidableEq

def Asset.isHtml (asset : Asset) : Bool := asset.contentType == "text/html".toList

inductive Method where
  | get
  | head
  | other (name : Str)
deriving DecidableEq

def Method.isRead : Method → Bool
  | .get | .head => true
  | .other _ => false

structure Request where
  method : Method
  path : Str
  headers : List (Str × Str) := []
deriving DecidableEq

def Request.ifNoneMatch (request : Request) : List Str :=
  (request.headers.filter fun h => h.1 == "if-none-match".toList).map Prod.snd

/-- A response: its `Cache-Control`, and the file whose content it carries (of a `HEAD`, the
file whose headers it carries). -/
structure Response where
  status : Nat
  cacheControl : Option Str := none
  file : Option Asset := none
deriving DecidableEq

/-- `StatusCode::is_success`. -/
def Response.isSuccess (response : Response) : Bool :=
  200 ≤ response.status && response.status < 300

/-- `StatusCode::NOT_FOUND.into_response()`: no body. -/
def notFound : Response := { status := 404 }

/-- The route of the page served for client-side routes. -/
def index : Str := "/index.html".toList

/-- `Cache-Control` of fingerprinted files. -/
def immutable : Str := "max-age=31536000, immutable".toList

/-- `Cache-Control` of the files that must be revalidated on every load. -/
def noCache : Str := "no-cache".toList

/-! ## 2. memory-serve -/

/-- The `memory_serve::CacheControl`s in use. -/
inductive CacheControl where
  | noCache
  | medium
deriving DecidableEq

/-- What memory-serve writes for it. -/
def CacheControl.header : CacheControl → Str
  | .noCache => "no-cache".toList
  | .medium => "max-age=604800, stale-while-revalidate=86400".toList

/-- What memory-serve's builder is told: the files, which of them stands for `/`, and the policies
for pages and for other files. -/
structure MemoryServe where
  assets : List Asset
  indexFile : Option Str
  htmlCacheControl : CacheControl
  cacheControl : CacheControl

/-- The routes of a router: a handler for each path that has one. -/
abbrev Routes := Str → Option (Request → Response)

/-- A router without a fallback of its own answers 404. -/
def Routes.oneshot (files : Routes) (request : Request) : Response :=
  match files request.path with
  | some handler => handler request
  | none => notFound

namespace MemoryServe

/-- The file at a path; `/` is the index file. -/
def file (m : MemoryServe) (path : Str) : Option Asset :=
  let route := if path = "/".toList then m.indexFile.getD path else path
  m.assets.find? (fun asset => asset.route == route)

def control (m : MemoryServe) (asset : Asset) : CacheControl :=
  if asset.isHtml then m.htmlCacheControl else m.cacheControl

/-- **What is relied on of memory-serve**: it has a route for each file and for `/`; a read is
answered with the file and the `Cache-Control` of its content type, or with a 304 that has the
same `Cache-Control`; other methods fail.  A 304 is for a client that says what it has, in an
`If-None-Match` that matches the file.  What matches (a `*`, a tag of a list, a weak tag) is for
memory-serve to say; without the header nothing does. -/
structure Serves (m : MemoryServe) (matching : List Str → Asset → Prop) (files : Routes) :
    Prop where
  routes : ∀ path, (files path).isSome = (m.file path).isSome
  unconditional : ∀ asset, ¬ matching [] asset
  reads : ∀ path handler asset request, files path = some handler → m.file path = some asset →
    request.method.isRead = true →
      handler request = { status := 200, cacheControl := some (m.control asset).header,
                          file := some asset } ∨
      matching request.ifNoneMatch asset ∧
        handler request = { status := 304, cacheControl := some (m.control asset).header }
  refuses : ∀ path handler request, files path = some handler → request.method.isRead = false →
    (handler request).status = 405

/-- A router that does this: a read is answered with a 304 when an entity tag of the request
matches. -/
def serve (m : MemoryServe) : Routes := fun path =>
  (m.file path).map fun asset request =>
    if !request.method.isRead then { status := 405 }
    else if EntityTag.listed request.ifNoneMatch asset.etag then
      { status := 304, cacheControl := some (m.control asset).header }
    else { status := 200, cacheControl := some (m.control asset).header, file := some asset }

theorem serves_serve (m : MemoryServe) :
    m.Serves (fun values asset => EntityTag.listed values asset.etag = true) m.serve where
  routes path := Option.isSome_map
  unconditional asset := Bool.false_ne_true
  reads path handler asset request hhandler hasset hread := by
    simp only [serve, hasset, Option.map_some, Option.some.injEq] at hhandler
    subst hhandler
    simp only [hread, Bool.not_true, Bool.false_eq_true, if_false]
    split
    · rename_i hmatch
      exact .inr ⟨hmatch, rfl⟩
    · exact .inl rfl
  refuses path handler request hhandler hread := by
    obtain ⟨asset, -, rfl⟩ := Option.map_eq_some_iff.mp hhandler
    simp [hread]

end MemoryServe

/-! ## 3. The plugin -/

structure SpaConfig where
  enabled : Bool := true
  excludePrefixes : List Str :=
    ["/api".toList, "/health".toList, "/openapi.json".toList, "/docs".toList]
  assetsPrefix : Str := "/assets".toList
  noCache : List Str := ["/sw.js".toList]

/-- `path` is `p` or below it, segment-wise. -/
def under (path p : Str) : Bool := within ['/'] (p.rdropWhile (· == '/')) path

/-- A path that is not a file of the build: `index.html` if it may be a client-side route, else
404. -/
def clientRoute (files : Routes) (cfg : SpaConfig) (request : Request) : Response :=
  let excluded := (cfg.excludePrefixes ++ [cfg.assetsPrefix]).any (under request.path)
  if excluded || !request.method.isRead then notFound
  -- the method and the headers stay
  else files.oneshot { request with path := index }

/-- The value `cache_headers` puts in place of memory-serve's. -/
def overriding (cfg : SpaConfig) (embedded : Bool) (path : Str) : Option Str :=
  if cfg.noCache.contains path then some noCache
  else if embedded && under path cfg.assetsPrefix then some immutable
  else none

/-- `cache_headers`: a success is sent with the overriding policy of its path, if there is one.  A
304 is no success, and keeps memory-serve's. -/
def cacheHeaders (cfg : SpaConfig) (embedded : Bool) (request : Request)
    (next : Request → Response) : Response :=
  let response := next request
  if !response.isSuccess then response
  else
    match overriding cfg embedded request.path with
    | some value => { response with cacheControl := some value }
    | none => response

@[simp] theorem cacheHeaders_status (cfg : SpaConfig) (embedded : Bool) (request : Request)
    (next : Request → Response) :
    (cacheHeaders cfg embedded request next).status = (next request).status := by
  unfold cacheHeaders
  dsimp only
  split
  · rfl
  · split <;> rfl

@[simp] theorem cacheHeaders_file (cfg : SpaConfig) (embedded : Bool) (request : Request)
    (next : Request → Response) :
    (cacheHeaders cfg embedded request next).file = (next request).file := by
  unfold cacheHeaders
  dsimp only
  split
  · rfl
  · split <;> rfl

/-- A success gets the overriding value, where there is one. -/
theorem cacheHeaders_cacheControl (cfg : SpaConfig) (embedded : Bool) (request : Request)
    (next : Request → Response) :
    (cacheHeaders cfg embedded request next).cacheControl =
      if (next request).isSuccess then
        (overriding cfg embedded request.path).or (next request).cacheControl
      else (next request).cacheControl := by
  unfold cacheHeaders
  dsimp only
  cases hsuccess : (next request).isSuccess with
  | false => simp
  | true => cases hvalue : overriding cfg embedded request.path <;> simp

def embedded (assets : List Asset) : Bool := assets.all (·.bytes.isSome)

/-- memory-serve, as `router` sets it up. -/
def memoryServe (assets : List Asset) : MemoryServe :=
  { assets
    indexFile := some index
    htmlCacheControl := .noCache
    cacheControl := if embedded assets then .medium else .noCache }

/-- The file routes with `client_route` behind them. -/
def withFallback (files : Routes) (cfg : SpaConfig) (request : Request) : Response :=
  match files request.path with
  | some handler => handler request
  | none => clientRoute files cfg request

/-- The fallback router of the plugin: the files of the build, the page behind them for client-side
routes, and `cache_headers` around both. -/
def router (intoRouter : MemoryServe → Routes) (assets : List Asset) (cfg : SpaConfig)
    (request : Request) : Response :=
  cacheHeaders cfg (embedded assets) request (withFallback (intoRouter (memoryServe assets)) cfg)

/-- `SpaPlugin::build`: the fallback it registers, if any. -/
def build (intoRouter : MemoryServe → Routes) (assets : List Asset) (cfg : SpaConfig) :
    Option (Request → Response) :=
  if !cfg.enabled then none
  else if assets.isEmpty then none
  else if !assets.any (fun asset => asset.route == index) then none
  else some (router intoRouter assets cfg)

/-! ## 4. Paths by segments -/

def segments (path : Str) : List Str := path.splitOn '/'

/-- **`under` is about whole segments**, for any prefix and any path. -/
theorem under_iff {path p : Str} :
    under path p = true ↔ segments (p.rdropWhile (· == '/')) <+: segments path :=
  within_iff_splitOn

/-- The path may be a client-side route: no prefix that is the server's or the assets' covers
it. -/
def SpaConfig.Client (cfg : SpaConfig) (path : Str) : Prop :=
  ∀ p ∈ cfg.excludePrefixes ++ [cfg.assetsPrefix],
    ¬ segments (p.rdropWhile (· == '/')) <+: segments path

theorem client_iff {cfg : SpaConfig} {path : Str} :
    cfg.Client path ↔ (cfg.excludePrefixes ++ [cfg.assetsPrefix]).any (under path) = false := by
  simp only [SpaConfig.Client, List.any_eq_false, under_iff]

theorem clientRoute_eq_index {files : Routes} {cfg : SpaConfig} {request : Request}
    (hread : request.method.isRead = true) (hclient : cfg.Client request.path) :
    clientRoute files cfg request = files.oneshot { request with path := index } := by
  simp only [clientRoute, client_iff.mp hclient, hread, Bool.not_true, Bool.or_false,
    Bool.false_eq_true, if_false]

theorem clientRoute_eq_notFound {files : Routes} {cfg : SpaConfig} {request : Request}
    (h : ¬ (request.method.isRead = true ∧ cfg.Client request.path)) :
    clientRoute files cfg request = notFound := by
  unfold clientRoute
  refine if_pos ?_
  rw [Bool.or_eq_true_iff]
  by_cases hread : request.method.isRead = true
  · left
    by_contra hexcluded
    exact h ⟨hread, client_iff.mpr (Bool.not_eq_true _ ▸ hexcluded)⟩
  · right
    simpa using hread

/-- A client route is not under the assets prefix. -/
theorem not_under_of_client {cfg : SpaConfig} {path : Str} (h : cfg.Client path) :
    under path cfg.assetsPrefix = false := by
  have hassets := h cfg.assetsPrefix (List.mem_append_right _ List.mem_cons_self)
  rw [← under_iff] at hassets
  simpa using hassets

/-! ## 5. What a client route gets -/

theorem header_ne_immutable (control : CacheControl) : control.header ≠ immutable := by
  cases control <;> decide

/-- What `cache_headers` makes of a response of a client route. -/
theorem cacheHeaders_client {files : Routes} {cfg : SpaConfig} {request : Request}
    (hclient : cfg.Client request.path) (embedded : Bool) {control : CacheControl}
    (hcontrol : (clientRoute files cfg request).cacheControl = some control.header) :
    (cacheHeaders cfg embedded request (clientRoute files cfg)).cacheControl ∈
        [some control.header, some noCache] ∧
      (cacheHeaders cfg embedded request (clientRoute files cfg)).cacheControl ≠
        some immutable := by
  have hkept : some control.header ≠ some immutable := fun h =>
    header_ne_immutable control (Option.some.inj h)
  have hnever : some noCache ≠ some immutable := by decide
  have hvalue : overriding cfg embedded request.path = some noCache ∨
      overriding cfg embedded request.path = none := by
    unfold overriding
    rw [not_under_of_client hclient, Bool.and_false]
    split
    · exact .inl rfl
    · exact .inr rfl
  rw [cacheHeaders_cacheControl, hcontrol]
  split
  · rcases hvalue with hvalue | hvalue <;> rw [hvalue]
    · exact ⟨List.mem_cons_of_mem _ List.mem_cons_self, hnever⟩
    · exact ⟨List.mem_cons_self, hkept⟩
  · exact ⟨List.mem_cons_self, hkept⟩

theorem exists_index {assets : List Asset}
    (hindex : assets.any (fun asset => asset.route == index) = true) :
    ∃ asset, (memoryServe assets).file index = some asset ∧ asset.route = index := by
  have hfile : (memoryServe assets).file index =
      assets.find? (fun asset => asset.route == index) := by
    rw [MemoryServe.file, if_neg (by decide)]
    rfl
  have hsome : (assets.find? (fun asset => asset.route == index)).isSome := by
    rw [List.find?_isSome]
    exact List.any_eq_true.mp hindex
  obtain ⟨asset, hasset⟩ := Option.isSome_iff_exists.mp hsome
  exact ⟨asset, hfile.trans hasset, by simpa using List.find?_some hasset⟩

/-- The response for `index.html`: its 200, or its 304. -/
theorem oneshot_index {assets : List Asset} {matching : List Str → Asset → Prop}
    {files : Routes} {asset : Asset} {request : Request}
    (hserves : (memoryServe assets).Serves matching files)
    (hasset : (memoryServe assets).file index = some asset)
    (hread : request.method.isRead = true) :
    files.oneshot { request with path := index } =
        { status := 200, cacheControl := some ((memoryServe assets).control asset).header,
          file := some asset } ∨
      matching request.ifNoneMatch asset ∧
        files.oneshot { request with path := index } =
          { status := 304, cacheControl := some ((memoryServe assets).control asset).header } := by
  have hsome := hserves.routes index
  rw [hasset, Option.isSome_some] at hsome
  obtain ⟨handler, hhandler⟩ := Option.isSome_iff_exists.mp hsome
  simp only [Routes.oneshot, hhandler]
  exact hserves.reads index handler asset { request with path := index } hhandler hasset hread

/-- The route of the index answers every method: no 404 comes from there. -/
theorem oneshot_index_ne_notFound {assets : List Asset} {matching : List Str → Asset → Prop}
    {files : Routes} {asset : Asset} (hserves : (memoryServe assets).Serves matching files)
    (hasset : (memoryServe assets).file index = some asset) (request : Request) :
    files.oneshot { request with path := index } ≠ notFound := by
  intro hnone
  cases hread : request.method.isRead with
  | true =>
    rcases oneshot_index hserves hasset hread with h | ⟨-, h⟩
    · exact absurd (h.symm.trans hnone) (by simp [notFound])
    · exact absurd (h.symm.trans hnone) (by simp [notFound])
  | false =>
    have hsome := hserves.routes index
    rw [hasset, Option.isSome_some] at hsome
    obtain ⟨handler, hhandler⟩ := Option.isSome_iff_exists.mp hsome
    have h405 := hserves.refuses index handler { request with path := index } hhandler hread
    simp only [Routes.oneshot, hhandler] at hnone
    rw [hnone] at h405
    cases h405

/-- **The fallback classifies every path by whole segments**: a read of a path that no excluded
prefix nor the assets prefix covers gets `index.html` (its 200, or its 304 on a matching
`If-None-Match`), and everything else a 404 without a body.  `cache_headers` agrees: what is served
this way is never made immutable. -/
theorem client_route_classifies {assets : List Asset} {matching : List Str → Asset → Prop}
    {files : Routes} (hserves : (memoryServe assets).Serves matching files)
    (hindex : assets.any (fun asset => asset.route == index) = true) (cfg : SpaConfig)
    (request : Request) :
    (clientRoute files cfg request = files.oneshot { request with path := index } ↔
      request.method.isRead = true ∧ cfg.Client request.path) ∧
    (¬ (request.method.isRead = true ∧ cfg.Client request.path) →
      clientRoute files cfg request = notFound) ∧
    (request.method.isRead = true → cfg.Client request.path →
      ∃ asset control, asset.route = index ∧
        (clientRoute files cfg request =
            { status := 200, cacheControl := some control, file := some asset } ∨
          matching request.ifNoneMatch asset ∧
            clientRoute files cfg request = { status := 304, cacheControl := some control }) ∧
        ∀ embedded, (cacheHeaders cfg embedded request (clientRoute files cfg)).cacheControl ∈
            [some control, some noCache] ∧
          (cacheHeaders cfg embedded request (clientRoute files cfg)).cacheControl ≠
            some immutable) := by
  obtain ⟨asset, hasset, hroute⟩ := exists_index hindex
  have hindexed := oneshot_index_ne_notFound hserves hasset request
  refine ⟨⟨?_, fun h => clientRoute_eq_index h.1 h.2⟩, clientRoute_eq_notFound, ?_⟩
  · intro heq
    by_contra hnot
    exact hindexed (heq.symm.trans (clientRoute_eq_notFound hnot))
  · intro hread hclient
    have hgets := oneshot_index hserves hasset hread
    rw [← clientRoute_eq_index hread hclient] at hgets
    refine ⟨asset, _, hroute, hgets, fun embedded => ?_⟩
    exact cacheHeaders_client hclient embedded (by
      rcases hgets with h | ⟨-, h⟩ <;> rw [h])

/-- A file that is embedded in the binary. -/
def embeddedFile (route contentType etag : String) : Asset :=
  { route := route.toList, contentType := contentType.toList, etag := etag.toList,
    bytes := some [] }

def page : Asset := embeddedFile "/index.html" "text/html" "e1"

def dist : List Asset :=
  [page, embeddedFile "/assets/app-abc123.js" "text/javascript" "e2",
    embeddedFile "/assets/report.html" "text/html" "e3",
    embeddedFile "/sw.js" "text/javascript" "e4"]

/-- Its client-side routes get the page, its missing assets do not. -/
theorem client_route_games :
    clientRoute (memoryServe dist).serve {} { method := .get, path := "/games/1".toList } =
        (memoryServe dist).serve.oneshot { method := .get, path := index } ∧
      clientRoute (memoryServe dist).serve {}
        { method := .get, path := "/assets/gone-123.js".toList } = notFound :=
  ⟨(client_route_classifies (MemoryServe.serves_serve _) (by decide) {} _).1.mpr
      ⟨rfl, client_iff.mpr (by decide)⟩,
    (client_route_classifies (MemoryServe.serves_serve _) (by decide) {} _).2.1
      fun h => absurd (client_iff.mp h.2) (by decide)⟩

end Muxa.Web
