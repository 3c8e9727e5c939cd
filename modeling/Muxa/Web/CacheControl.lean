/-
# `Cache-Control`: what the two layers make of it together

memory-serve sets `Cache-Control` by content type, and `cache_headers` overrides it by path, on
successful responses only.  Each is what it is meant to be, and two guarantees of the
configuration hold only where they do not meet:

* HTML is `no-cache`, except under the assets prefix of an embedded build
  (`html_no_cache_iff`);
* a revalidation keeps a file's policy, except where `cache_headers` has changed it: the 304 has
  memory-serve's own `Cache-Control` (`revalidation_keeps_policy_iff`).
-/
import Muxa.Web.Spa

namespace Muxa.Web

open Lib Lib.Text

variable {intoRouter : MemoryServe → Routes} {assets : List Asset} {cfg : SpaConfig}
  {matching : List Str → Asset → Prop}

/-! ## 1. What memory-serve sends -/

/-- A success is a read of a file, with the `Cache-Control` of its content type. -/
theorem MemoryServe.Serves.success {m : MemoryServe} {files : Routes}
    (h : m.Serves matching files) {request : Request}
    (hsuccess : (files.oneshot request).isSuccess = true) :
    ∃ asset, (files.oneshot request).file = some asset ∧
      (files.oneshot request).cacheControl = some (m.control asset).header := by
  unfold Routes.oneshot at hsuccess ⊢
  cases hhandler : files request.path with
  | none =>
    simp only [hhandler] at hsuccess
    cases hsuccess
  | some handler =>
    simp only [hhandler] at hsuccess ⊢
    have hsome := h.routes request.path
    rw [hhandler, Option.isSome_some] at hsome
    obtain ⟨asset, hasset⟩ := Option.isSome_iff_exists.mp hsome.symm
    cases hread : request.method.isRead with
    | false =>
      have h405 := h.refuses _ handler request hhandler hread
      simp [Response.isSuccess, h405] at hsuccess
    | true =>
      rcases h.reads _ handler asset request hhandler hasset hread with hok | ⟨-, hnot⟩
      · exact ⟨asset, by rw [hok], by rw [hok]⟩
      · rw [hnot] at hsuccess
        cases hsuccess

/-- A response is that of a file route, that of `index.html`, or the 404: which one depends on
path and method only. -/
theorem withFallback_cases (files : Routes) (cfg : SpaConfig) (method : Method) (path : Str) :
    (∀ headers, withFallback files cfg ⟨method, path, headers⟩ = notFound) ∨
      ∃ path', ∀ headers, withFallback files cfg ⟨method, path, headers⟩ =
        files.oneshot ⟨method, path', headers⟩ := by
  cases hhandler : files path with
  | some handler =>
    right
    refine ⟨path, fun headers => ?_⟩
    simp only [withFallback, Routes.oneshot, hhandler]
  | none =>
    by_cases h : method.isRead = true ∧ cfg.Client path
    · right
      refine ⟨index, fun headers => ?_⟩
      simp only [withFallback, hhandler]
      exact clientRoute_eq_index h.1 h.2
    · left
      intro headers
      simp only [withFallback, hhandler]
      exact clientRoute_eq_notFound h

theorem withFallback_success {files : Routes}
    (hserves : (memoryServe assets).Serves matching files) {request : Request}
    (hsuccess : (withFallback files cfg request).isSuccess = true) :
    ∃ asset, (withFallback files cfg request).file = some asset ∧
      (withFallback files cfg request).cacheControl =
        some ((memoryServe assets).control asset).header := by
  obtain ⟨method, path, headers⟩ := request
  rcases withFallback_cases files cfg method path with hnone | ⟨path', hfile⟩
  · rw [hnone] at hsuccess
    cases hsuccess
  · rw [hfile] at hsuccess ⊢
    exact hserves.success hsuccess

/-- The `Cache-Control` of a file of the build: `no-cache` for HTML, and for every file that is
read from disk. -/
theorem control_memoryServe {asset : Asset} :
    (memoryServe assets).control asset = .noCache ↔
      asset.isHtml = true ∨ embedded assets = false := by
  unfold MemoryServe.control memoryServe
  cases asset.isHtml <;> cases embedded assets <;> simp

theorem isSuccess_router {request : Request} :
    (router intoRouter assets cfg request).isSuccess =
      (withFallback (intoRouter (memoryServe assets)) cfg request).isSuccess := by
  simp only [Response.isSuccess, router, cacheHeaders_status]

/-! ## 2. HTML -/

/-- **HTML is `no-cache` exactly outside the assets prefix.**  A successful response with an HTML
file of the build has `no-cache` if and only if its path is on the `no_cache` list or is not
under the assets prefix of an embedded build. -/
theorem html_no_cache_iff
    (hserves : (memoryServe assets).Serves matching (intoRouter (memoryServe assets)))
    {request : Request} {asset : Asset}
    (hsuccess : (router intoRouter assets cfg request).isSuccess = true)
    (hfile : (router intoRouter assets cfg request).file = some asset)
    (hhtml : asset.isHtml = true) :
    (router intoRouter assets cfg request).cacheControl = some noCache ↔
      request.path ∈ cfg.noCache ∨
        ¬ (embedded assets = true ∧ under request.path cfg.assetsPrefix = true) := by
  rw [isSuccess_router] at hsuccess
  obtain ⟨asset', hfile', hcontrol⟩ := withFallback_success hserves hsuccess
  rw [router, cacheHeaders_file, hfile', Option.some.injEq] at hfile
  subst hfile
  rw [control_memoryServe.mpr (.inl hhtml)] at hcontrol
  rw [router, cacheHeaders_cacheControl, if_pos hsuccess, hcontrol]
  have hmade : some immutable ≠ some noCache := by decide
  unfold overriding
  by_cases hlisted : request.path ∈ cfg.noCache
  · rw [if_pos (List.contains_iff_mem.mpr hlisted)]
    exact iff_of_true rfl (.inl hlisted)
  · rw [if_neg (fun h => hlisted (List.contains_iff_mem.mp h))]
    by_cases hassets : embedded assets = true ∧ under request.path cfg.assetsPrefix = true
    · rw [if_pos (Bool.and_eq_true_iff.mpr hassets)]
      exact iff_of_false hmade (not_or.mpr ⟨hlisted, not_not.mpr hassets⟩)
    · rw [if_neg (fun h => hassets (Bool.and_eq_true_iff.mp h))]
      exact iff_of_true rfl (.inr hassets)

/-- The page itself. -/
theorem html_no_cache_root :
    (router MemoryServe.serve dist {} { method := .get, path := "/".toList }).cacheControl =
      some noCache :=
  (html_no_cache_iff (MemoryServe.serves_serve _) (by decide)
    (show Response.file _ = some page by decide) (by decide)).mpr (.inr (by decide))

/-- An HTML report that the build puts under `/assets` is made immutable for a year. -/
theorem html_under_assets_immutable :
    let response := router MemoryServe.serve dist {}
      { method := .get, path := "/assets/report.html".toList }
    embedded dist = true ∧ response.isSuccess = true ∧ response.file.any Asset.isHtml = true ∧
      response.cacheControl = some immutable ∧ immutable ≠ noCache := by
  decide

/-! ## 3. Revalidation -/

/-- **What is relied on of memory-serve here**: the 304 of a handler has the `Cache-Control` of
its own 200. -/
def Revalidates (files : Routes) : Prop :=
  ∀ path handler, files path = some handler → ∀ full conditional : Request,
    (handler full).status = 200 → (handler conditional).status = 304 →
      (handler conditional).cacheControl = (handler full).cacheControl

theorem Revalidates.withFallback {files : Routes} (h : Revalidates files) {method : Method}
    {path : Str} {headers conditions : List (Str × Str)}
    (hfull : (withFallback files cfg ⟨method, path, headers⟩).status = 200)
    (hnot : (withFallback files cfg ⟨method, path, conditions⟩).status = 304) :
    (withFallback files cfg ⟨method, path, conditions⟩).cacheControl =
      (withFallback files cfg ⟨method, path, headers⟩).cacheControl := by
  rcases withFallback_cases files cfg method path with hnone | ⟨path', hfile⟩
  · rw [hnone] at hfull
    cases hfull
  rw [hfile headers] at hfull ⊢
  rw [hfile conditions] at hnot ⊢
  unfold Routes.oneshot at hfull hnot ⊢
  cases hhandler : files path' with
  | none =>
    simp only [hhandler] at hfull
    cases hfull
  | some handler =>
    simp only [hhandler] at hfull hnot ⊢
    exact h path' handler hhandler _ _ hfull hnot

/-- The overriding value is what a file already has: never `immutable`, and `no-cache` for HTML
and for files that are read from disk. -/
theorem overriding_own_iff {asset : Asset} {path : Str} :
    (∀ value, overriding cfg (embedded assets) path = some value →
      some ((memoryServe assets).control asset).header = none ∨
        some ((memoryServe assets).control asset).header = some value) ↔
      (path ∈ cfg.noCache → asset.isHtml = true ∨ embedded assets = false) ∧
        (path ∉ cfg.noCache → ¬ (embedded assets = true ∧ under path cfg.assetsPrefix = true)) := by
  have hown : ∀ control : CacheControl, control.header = noCache ↔ control = .noCache := by
    intro control
    cases control <;> decide
  unfold overriding
  by_cases hlisted : path ∈ cfg.noCache
  · rw [if_pos (List.contains_iff_mem.mpr hlisted)]
    simp only [Option.some.injEq, forall_eq', reduceCtorEq, false_or, hown, control_memoryServe,
      hlisted, forall_const, not_true_eq_false, false_implies, and_true]
  · rw [if_neg (fun h => hlisted (List.contains_iff_mem.mp h))]
    by_cases hassets : embedded assets = true ∧ under path cfg.assetsPrefix = true
    · rw [if_pos (Bool.and_eq_true_iff.mpr hassets)]
      refine iff_of_false ?_ fun h => h.2 hlisted hassets
      intro h
      rcases h immutable rfl with h | h
      · cases h
      · exact header_ne_immutable _ (Option.some.inj h)
    · rw [if_neg (fun h => hassets (Bool.and_eq_true_iff.mp h))]
      refine iff_of_true (fun value hvalue => by cases hvalue) ?_
      exact ⟨fun h => absurd h hlisted, fun _ => hassets⟩

/-- Where the value sent is the overriding one, or else the own one, the own one is no other
exactly when it is not overridden by another. -/
theorem own_kept_iff {inserted own : Option Str} {policy : Str}
    (h : inserted.or own = some policy) :
    (own = none ∨ own = some policy) ↔
      ∀ value, inserted = some value → own = none ∨ own = some value := by
  cases inserted with
  | none =>
    rw [Option.none_or] at h
    exact iff_of_true (.inr h) fun value hvalue => by cases hvalue
  | some value =>
    rw [Option.some_or, Option.some.injEq] at h
    subst h
    simp only [Option.some.injEq, forall_eq']

/-- **A revalidation keeps a file's policy exactly where `cache_headers` has not changed it.**
When a `GET` is answered 200 with a policy and a conditional one 304, the 304 has no other policy
if and only if the overriding value for the path, where there is one, is what memory-serve sends
itself.  With memory-serve's own values: a path on the `no_cache` list needs HTML, or a build read
from disk, and no other path may be under the assets prefix of an embedded build. -/
theorem revalidation_keeps_policy_iff
    (hrevalidates : Revalidates (intoRouter (memoryServe assets))) {path policy : Str}
    {headers conditions : List (Str × Str)}
    (hfull : (router intoRouter assets cfg ⟨.get, path, headers⟩).status = 200)
    (hpolicy : (router intoRouter assets cfg ⟨.get, path, headers⟩).cacheControl = some policy)
    (hnot : (router intoRouter assets cfg ⟨.get, path, conditions⟩).status = 304) :
    let revalidated := (router intoRouter assets cfg ⟨.get, path, conditions⟩).cacheControl
    let own :=
      (withFallback (intoRouter (memoryServe assets)) cfg ⟨.get, path, headers⟩).cacheControl
    ((revalidated = none ∨ revalidated = some policy) ↔
      ∀ value, overriding cfg (embedded assets) path = some value →
        own = none ∨ own = some value) ∧
    ((memoryServe assets).Serves matching (intoRouter (memoryServe assets)) →
      ∀ asset, (router intoRouter assets cfg ⟨.get, path, headers⟩).file = some asset →
        ((revalidated = none ∨ revalidated = some policy) ↔
          (path ∈ cfg.noCache → asset.isHtml = true ∨ embedded assets = false) ∧
          (path ∉ cfg.noCache →
            ¬ (embedded assets = true ∧ under path cfg.assetsPrefix = true)))) := by
  intro revalidated own
  simp only [router, cacheHeaders_status] at hfull hnot
  have hsuccess : (withFallback (intoRouter (memoryServe assets)) cfg
      ⟨.get, path, headers⟩).isSuccess = true := by simp [Response.isSuccess, hfull]
  have hfail : ¬ (withFallback (intoRouter (memoryServe assets)) cfg
      ⟨.get, path, conditions⟩).isSuccess = true := by simp [Response.isSuccess, hnot]
  have hrevalidated : revalidated = own := by
    simp only [revalidated, router, cacheHeaders_cacheControl, if_neg hfail]
    exact hrevalidates.withFallback hfull hnot
  have hkept : (overriding cfg (embedded assets) path).or own = some policy := by
    rw [router, cacheHeaders_cacheControl, if_pos hsuccess] at hpolicy
    exact hpolicy
  have hiff : (revalidated = none ∨ revalidated = some policy) ↔
      ∀ value, overriding cfg (embedded assets) path = some value →
        own = none ∨ own = some value := by
    rw [hrevalidated]
    exact own_kept_iff hkept
  refine ⟨hiff, fun hserves asset hfile => ?_⟩
  obtain ⟨asset', hfile', hcontrol⟩ := withFallback_success hserves hsuccess
  rw [router, cacheHeaders_file, hfile', Option.some.injEq] at hfile
  subst hfile
  have hown : own = some ((memoryServe assets).control asset').header := hcontrol
  rw [hiff, hown, overriding_own_iff]

theorem revalidates_serve (m : MemoryServe) : Revalidates m.serve := by
  intro path handler hhandler full conditional hfull hnot
  obtain ⟨asset, -, rfl⟩ := Option.map_eq_some_iff.mp hhandler
  dsimp only at hfull hnot ⊢
  split at hfull
  · cases hfull
  split at hfull
  · cases hfull
  split at hnot
  · cases hnot
  split at hnot
  · rename_i h1 h2 h3 h4
    rw [if_neg h3, if_pos h4, if_neg h1, if_neg h2]
  · cases hnot

/-- The headers of a client that has this version of the file: its entity tag, as it was sent. -/
def having (etag : Str) : List (Str × Str) :=
  [("if-none-match".toList, EntityTag.quoted etag)]

/-- The page keeps its policy. -/
theorem revalidation_root :
    (router MemoryServe.serve dist {} ⟨.get, "/".toList, having "e1".toList⟩).cacheControl = none ∨
      (router MemoryServe.serve dist {} ⟨.get, "/".toList, having "e1".toList⟩).cacheControl =
        some noCache :=
  ((revalidation_keeps_policy_iff (revalidates_serve _)
    (show (router MemoryServe.serve dist {} ⟨.get, "/".toList, []⟩).status = 200 by decide)
    (by decide) (by decide)).2 (MemoryServe.serves_serve _) page (by decide)).mpr
      ⟨fun h => absurd h (by decide), fun _ => by decide⟩

/-- The service worker gets a week through revalidation. -/
theorem service_worker_cached :
    let full := router MemoryServe.serve dist {} ⟨.get, "/sw.js".toList, []⟩
    let revalidated := router MemoryServe.serve dist {} ⟨.get, "/sw.js".toList, having "e4".toList⟩
    full.status = 200 ∧ full.cacheControl = some noCache ∧ revalidated.status = 304 ∧
      revalidated.cacheControl =
        some "max-age=604800, stale-while-revalidate=86400".toList := by
  decide

end Muxa.Web
