/-
# The router registry

Plugins mount routers, set the app's fallback and add layers in any order while they build, and a
routes function may take the routers mounted by hand out again.  `compose` then builds one router.
What it builds is a function of three lists read off the calls: the automatic mounts, the
fallbacks and the layers (`Registered`); how the calls of different kinds were interleaved, and
what was taken by hand in between, does not show (`compose_registered`).

The operations of axum's `Router` are parameters (`RouterCrate`).
-/
import Muxa.Core.Config
import Muxa.Lib.Run

namespace Muxa.Core

open Lib.Text Lib.Run

variable {E R : Type}

/-! ## 1. The registry -/

inductive Mount where
  /-- Merged or nested when the router is composed. -/
  | auto
  /-- Skipped there: handed out by `take_manual`. -/
  | manual
deriving DecidableEq

structure MountEntry (R : Type) where
  mountPrefix : Str
  router : R
  mount : Mount

/-- `RouterRegistry`: what the plugins have mounted, the fallback one of them may have set, and the
layers, in the order they were registered. -/
structure RouterRegistry (R : Type) where
  routes : List (MountEntry R) := []
  fallback : Option R := none
  layerFns : List (R → R) := []

/-- What is used of `axum::Router`. -/
structure RouterCrate (R : Type) where
  new : R
  merge : R → R → R
  nest : R → Str → R → R
  fallbackService : R → R → R

namespace RouterRegistry

def mount (registry : RouterRegistry R) (path : Str) (router : R) : RouterRegistry R :=
  { registry with routes := registry.routes ++ [⟨path, router, .auto⟩] }

def mountManual (registry : RouterRegistry R) (path : Str) (router : R) : RouterRegistry R :=
  { registry with routes := registry.routes ++ [⟨path, router, .manual⟩] }

/-- `RouterRegistry::fallback`: a second one is an error. -/
def setFallback (registry : RouterRegistry R) (router : R) :
    Except (Error E) (RouterRegistry R) :=
  if registry.fallback.isSome then
    .error (.other "another plugin already registered a fallback router".toList)
  else .ok { registry with fallback := some router }

def layer (registry : RouterRegistry R) (func : R → R) : RouterRegistry R :=
  { registry with layerFns := registry.layerFns ++ [func] }

/-- The entries `take_manual` extracts. -/
def isManualAt (path : Str) (entry : MountEntry R) : Bool :=
  entry.mount == .manual && entry.mountPrefix == path

def takeManual (registry : RouterRegistry R) (path : Str) : List R × RouterRegistry R :=
  let (taken, routes) := registry.routes.partition (isManualAt path)
  (taken.map MountEntry.router, { registry with routes })

/-- `RouterRegistry::compose`: the automatic mounts on a new router, the fallback behind them, and
the layers around all of it. -/
def compose (c : RouterCrate R) (registry : RouterRegistry R) : R :=
  let out := registry.routes.foldl (fun out entry =>
    if entry.mount == .auto then
      if entry.mountPrefix.isEmpty || entry.mountPrefix == "/".toList then
        c.merge out entry.router
      else c.nest out entry.mountPrefix entry.router
    else out) c.new
  let out := match registry.fallback with
    | some fallback => c.fallbackService out fallback
    | none => out
  registry.layerFns.foldl (fun out layer => layer out) out

end RouterRegistry

/-! ## 2. Runs of calls -/

inductive Call (R : Type) where
  | mount (path : Str) (router : R)
  | mountManual (path : Str) (router : R)
  | takeManual (path : Str)
  | fallback (router : R)
  | layer (func : R → R)

/-- The registry after a call; a fallback that is refused leaves it as it was. -/
def RouterRegistry.call (registry : RouterRegistry R) : Call R → RouterRegistry R
  | .mount path router => registry.mount path router
  | .mountManual path router => registry.mountManual path router
  | .takeManual path => (registry.takeManual path).2
  | .fallback router =>
    match registry.setFallback (E := Unit) router with
    | .ok registry' => registry'
    | .error _ => registry
  | .layer func => registry.layer func

def after (calls : List (Call R)) : RouterRegistry R := run RouterRegistry.call {} calls

/-- What a run registered, as far as `compose` is concerned. -/
structure Registered (R : Type) where
  mounts : List (Str × R)
  fallback : Option R
  layers : List (R → R)

namespace Call

def auto? : Call R → Option (Str × R)
  | mount path router => some (path, router)
  | _ => none

def manual? (path : Str) : Call R → Option R
  | mountManual path' router => if path' = path then some router else none
  | _ => none

def fallback? : Call R → Option R
  | fallback router => some router
  | _ => none

def takes (path : Str) : Call R → Bool
  | takeManual path' => path' == path
  | _ => false

def layer? : Call R → Option (R → R)
  | layer func => some func
  | _ => none

end Call

/-- The automatic mounts, the first fallback and the layers of a run. -/
def registered (calls : List (Call R)) : Registered R where
  mounts := calls.filterMap Call.auto?
  fallback := (calls.filterMap Call.fallback?).head?
  layers := calls.filterMap Call.layer?

/-- The routers a run mounts by hand under a path. -/
def manualMounts (path : Str) (calls : List (Call R)) : List R :=
  calls.filterMap (Call.manual? path)

/-- Mounts, one after the other on a router: merged at the root, nested anywhere else. -/
def mountAll (c : RouterCrate R) : R → List (Str × R) → R
  | out, [] => out
  | out, ([], router) :: mounts => mountAll c (c.merge out router) mounts
  | out, (['/'], router) :: mounts => mountAll c (c.merge out router) mounts
  | out, (path, router) :: mounts => mountAll c (c.nest out path router) mounts

/-- Layers, one around the other: the last one is the outermost. -/
def layered : R → List (R → R) → R
  | out, [] => out
  | out, layer :: layers => layered (layer out) layers

/-- **What registrations amount to**: the mounts on an empty router, under the fallback, under the
layers. -/
def Registered.compose (c : RouterCrate R) (what : Registered R) : R :=
  let mounted := mountAll c c.new what.mounts
  match what.fallback with
  | none => layered mounted what.layers
  | some fallback => layered (c.fallbackService mounted fallback) what.layers

/-! ## 3. What one call changes -/

namespace RouterRegistry

/-- What `compose` reads of a registry. -/
def view (registry : RouterRegistry R) : Registered R where
  mounts := (registry.routes.filter (·.mount == .auto)).map fun e => (e.mountPrefix, e.router)
  fallback := registry.fallback
  layers := registry.layerFns

def manuals (registry : RouterRegistry R) (path : Str) : List R :=
  (registry.routes.filter (isManualAt path)).map MountEntry.router

theorem takeManual_fst (registry : RouterRegistry R) (path : Str) :
    (registry.takeManual path).1 = registry.manuals path := by
  simp [takeManual, manuals, List.partition_eq_filter_filter]

theorem takeManual_snd (registry : RouterRegistry R) (path : Str) :
    (registry.takeManual path).2 =
      { registry with routes := registry.routes.filter fun e => !isManualAt path e } := by
  simp [takeManual, List.partition_eq_filter_filter, Function.comp_def]

/-- The root is the empty path or `/`. -/
theorem mountAll_cons (c : RouterCrate R) (out : R) (path : Str) (router : R)
    (mounts : List (Str × R)) :
    mountAll c out ((path, router) :: mounts) =
      mountAll c (if path.isEmpty || path == "/".toList then c.merge out router
        else c.nest out path router) mounts := by
  by_cases hempty : path = []
  · subst hempty
    rfl
  by_cases hroot : path = ['/']
  · subst hroot
    rfl
  · simp [mountAll, hempty, hroot]

/-- The loop over the entries mounts those that are automatic. -/
theorem foldl_mountAll (c : RouterCrate R) (routes : List (MountEntry R)) (out : R) :
    routes.foldl (fun out entry =>
      if entry.mount == .auto then
        if entry.mountPrefix.isEmpty || entry.mountPrefix == "/".toList then
          c.merge out entry.router
        else c.nest out entry.mountPrefix entry.router
      else out) out =
      mountAll c out ((routes.filter (·.mount == .auto)).map fun e =>
        (e.mountPrefix, e.router)) := by
  induction routes generalizing out with
  | nil => rfl
  | cons entry routes ih =>
    obtain ⟨path, router, mount⟩ := entry
    rw [List.foldl_cons, ih]
    cases mount with
    | manual => rfl
    | auto =>
      rw [List.filter_cons_of_pos rfl, List.map_cons, mountAll_cons]
      rfl

theorem foldl_layered (layers : List (R → R)) (out : R) :
    layers.foldl (fun out layer => layer out) out = layered out layers := by
  induction layers generalizing out with
  | nil => rfl
  | cons layer layers ih => exact ih (layer out)

theorem compose_eq (c : RouterCrate R) (registry : RouterRegistry R) :
    registry.compose c = registry.view.compose c := by
  simp only [compose, Registered.compose, view, foldl_mountAll, foldl_layered]
  cases registry.fallback <;> rfl

theorem view_takeManual (registry : RouterRegistry R) (path : Str) :
    (registry.takeManual path).2.view = registry.view := by
  have hkeep : ∀ e : MountEntry R,
      (e.mount == .auto && !isManualAt path e) = (e.mount == .auto) := by
    intro e
    cases h : e.mount <;> simp [isManualAt, h]
  simp [takeManual_snd, view, List.filter_filter, hkeep]

theorem manuals_takeManual (registry : RouterRegistry R) (path path' : Str) :
    (registry.takeManual path).2.manuals path' =
      if path' = path then [] else registry.manuals path' := by
  simp only [takeManual_snd, manuals, List.filter_filter]
  split
  · rename_i h
    subst h
    simp
  · rename_i h
    have hkeep : ∀ e : MountEntry R,
        (isManualAt path' e && !isManualAt path e) = isManualAt path' e := by
      intro e
      by_cases he : e.mountPrefix = path'
      · simp [isManualAt, he, h]
      · simp [isManualAt, he]
    simp only [hkeep]

end RouterRegistry

def Registered.add (what : Registered R) : Call R → Registered R
  | .mount path router => { what with mounts := what.mounts ++ [(path, router)] }
  | .fallback router => { what with fallback := what.fallback.or (some router) }
  | .layer func => { what with layers := what.layers ++ [func] }
  | .mountManual _ _ | .takeManual _ => what

theorem registered_concat (calls : List (Call R)) (a : Call R) :
    registered (calls ++ [a]) = (registered calls).add a := by
  cases a <;> simp [registered, Registered.add, Call.auto?, Call.fallback?, Call.layer?,
    List.head?_append]

theorem RouterRegistry.view_call (registry : RouterRegistry R) (a : Call R) :
    (registry.call a).view = registry.view.add a := by
  cases a with
  | mount path router => simp [call, mount, view, Registered.add]
  | mountManual path router => simp [call, mountManual, view, Registered.add]
  | takeManual path => exact view_takeManual registry path
  | fallback router =>
    cases h : registry.fallback <;> simp [call, setFallback, view, Registered.add, h]
  | layer func => simp [call, layer, view, Registered.add]

/-- **What `compose` reads after a run is what the run registered.** -/
theorem view_after (calls : List (Call R)) : (after calls).view = registered calls := by
  induction calls using List.reverseRecOn with
  | nil => rfl
  | append_singleton calls a ih =>
    have hstep : after (calls ++ [a]) = (after calls).call a := run_concat _ _ _ _
    rw [hstep, RouterRegistry.view_call, ih, registered_concat]

/-! ## 4. Routers mounted by hand -/

@[simp] theorem manualMounts_cons (path : Str) (a : Call R) (calls : List (Call R)) :
    manualMounts path (a :: calls) = (a.manual? path).toList ++ manualMounts path calls := by
  cases h : a.manual? path <;> simp [manualMounts, h]

theorem Call.manual?_of_takes {path : Str} {a : Call R} (h : a.takes path) :
    a.manual? path = none := by
  cases a <;> simp_all [takes, manual?]

theorem RouterRegistry.manuals_call (registry : RouterRegistry R) (path : Str) (a : Call R) :
    (registry.call a).manuals path =
      if a.takes path then [] else registry.manuals path ++ (a.manual? path).toList := by
  cases a with
  | mount path' router => simp [call, mount, manuals, isManualAt, Call.manual?, Call.takes]
  | mountManual path' router =>
    by_cases h : path' = path <;>
      simp [call, mountManual, manuals, isManualAt, Call.manual?, Call.takes, h]
  | takeManual path' =>
    simp [call, manuals_takeManual, Call.manual?, Call.takes, eq_comm (a := path)]
  | fallback router =>
    cases h : registry.fallback <;> simp [call, setFallback, manuals, Call.manual?, Call.takes, h]
  | layer func => simp [call, layer, manuals, Call.manual?, Call.takes]

/-- While nothing is taken at a path, the routers mounted there by hand pile up in order. -/
theorem manuals_run (path : Str) (calls : List (Call R)) (registry : RouterRegistry R)
    (hnone : ∀ a ∈ calls, a.takes path = false) :
    (run RouterRegistry.call registry calls).manuals path =
      registry.manuals path ++ manualMounts path calls := by
  induction calls generalizing registry with
  | nil => simp [manualMounts]
  | cons a calls ih =>
    obtain ⟨ha, hnone⟩ := List.forall_mem_cons.mp hnone
    rw [run_cons, ih _ hnone, RouterRegistry.manuals_call]
    simp [ha]

/-- The lists the `take_manual(path)` calls of a run hand out, in order. -/
def handedOut (path : Str) : RouterRegistry R → List (Call R) → List (List R)
  | _, [] => []
  | registry, a :: calls =>
    let rest := handedOut path (registry.call a) calls
    if a.takes path then (registry.takeManual path).1 :: rest else rest

/-- **Nothing is lost or handed out twice**: the routers mounted by hand at a path are those handed
out, and after them those still held. -/
theorem manuals_conserved (path : Str) (calls : List (Call R)) (registry : RouterRegistry R) :
    registry.manuals path ++ manualMounts path calls =
      (handedOut path registry calls).flatten ++
        (run RouterRegistry.call registry calls).manuals path := by
  induction calls generalizing registry with
  | nil => simp [manualMounts, handedOut]
  | cons a calls ih =>
    have hrest := ih (registry.call a)
    rw [RouterRegistry.manuals_call] at hrest
    by_cases ha : a.takes path
    · simp only [ha, if_true, List.nil_append] at hrest
      simp [handedOut, ha, RouterRegistry.takeManual_fst, Call.manual?_of_takes ha, hrest]
    · simp only [ha, Bool.false_eq_true, if_false, List.append_assoc] at hrest
      simp [handedOut, ha, hrest]

/-! ## 5. Composition -/

/-- **What a run of calls promises**, whatever the order of the plugins: what is composed depends
on what was registered only, and routers mounted by hand are handed out once. -/
structure OrderIndependent (c : RouterCrate R) (calls : List (Call R)) : Prop where
  /-- The automatic mounts in order, then the first fallback, then the layers in order. -/
  composed : (after calls).compose c = (registered calls).compose c
  /-- Runs that register the same compose to the same router. -/
  agree : ∀ calls', registered calls' = registered calls →
    (after calls').compose c = (after calls).compose c
  /-- The last layer wraps what was registered before it and after it. -/
  outermost : ∀ pre func post, calls = pre ++ .layer func :: post →
    post.filterMap Call.layer? = [] →
      (after calls).compose c = func ((after (pre ++ post)).compose c)
  /-- `take_manual` hands out what was mounted at its path since it was last called for it. -/
  handed : ∀ path pre post, calls = pre ++ post → (∀ a ∈ post, a.takes path = false) →
    (pre = [] ∨ ∃ pre', pre = pre' ++ [.takeManual path]) →
      ((after calls).takeManual path).1 = manualMounts path post
  /-- Every router mounted by hand is handed out once or still held. -/
  once : ∀ path, manualMounts path calls =
    (handedOut path {} calls).flatten ++ (after calls).manuals path
  /-- `take_manual` leaves the other entries, the fallback and the layers. -/
  leaves : ∀ path, ((after calls).takeManual path).2 =
    { after calls with
      routes := (after calls).routes.filter fun e => !RouterRegistry.isManualAt path e }

/-- The last layer is outside all others. -/
theorem layered_concat (out : R) (layers : List (R → R)) (func : R → R) :
    layered out (layers ++ [func]) = func (layered out layers) := by
  induction layers generalizing out with
  | nil => rfl
  | cons layer layers ih => exact ih (layer out)

/-- The last layer of a run: it comes last, and is all it adds. -/
theorem registered_layer (pre post : List (Call R)) (func : R → R)
    (hpost : post.filterMap Call.layer? = []) :
    registered (pre ++ .layer func :: post) =
      { registered (pre ++ post) with layers := (registered (pre ++ post)).layers ++ [func] } := by
  simp [registered, List.filterMap_cons, Call.auto?, Call.fallback?, Call.layer?, hpost]

/-- **The composed router depends on what was registered, not on the order of the calls.** -/
theorem compose_registered (c : RouterCrate R) (calls : List (Call R)) :
    OrderIndependent c calls := by
  have hcompose : ∀ calls, (after calls).compose c = (registered calls).compose c := by
    intro calls
    rw [RouterRegistry.compose_eq, view_after]
  constructor
  · exact hcompose calls
  · intro calls' h
    rw [hcompose, hcompose, h]
  · rintro pre func post rfl hpost
    rw [hcompose, hcompose, registered_layer pre post func hpost]
    simp only [Registered.compose, layered_concat]
    cases (registered (pre ++ post)).fallback <;> rfl
  · rintro path pre post rfl hnone hpre
    -- nothing is held for the path where the segment starts
    have hstart : (after pre).manuals path = [] := by
      rcases hpre with rfl | ⟨pre', rfl⟩
      · rfl
      · rw [after, run_concat, RouterRegistry.manuals_call]
        simp [Call.takes]
    have hrun : after (pre ++ post) = run RouterRegistry.call (after pre) post := run_append _ _ _ _
    rw [RouterRegistry.takeManual_fst, hrun, manuals_run path post _ hnone, hstart,
      List.nil_append]
  · intro path
    exact manuals_conserved path calls {}
  · exact fun path => RouterRegistry.takeManual_snd _ path

end Muxa.Core
