/-
# An exporter never exports its own exporting

A layer that ships events over the network makes its transport log, and the transport's events
reach the slot as all others do: if they reached a layer too, every export would cause the next.
The Sentry and the OpenTelemetry plugin therefore name the crates on their export path before they
add a layer.

Here any number of builds go on at once, of these plugins or of an app's own written the same way,
each through a registry that may be detached, each ending where it fails.  A layer that is in the
slot has had its path named (`named_of_layer`), the names stay, and the filter is in front of all
layers.  So what one layer's exporting logs reaches no layer, neither its own nor another plugin's,
and events cause at most one export for each layer (`exports_not_exported`).
-/
import Muxa.Telemetry.Excluded

namespace Muxa.Telemetry

open Lib.Text Lib.Run

/-! ## 1. The plugins -/

/-- The crates on the export path of Sentry. -/
def sentryTargets : List Str :=
  ["h2".toList, "hyper".toList, "hyper_util".toList, "reqwest".toList, "tower".toList]

/-- The crates on the OTLP export path. -/
def otelTargets : List Str :=
  ["h2".toList, "hyper".toList, "hyper_util".toList, "tower".toList, "tonic".toList,
    "reqwest".toList, "opentelemetry".toList, "opentelemetry_sdk".toList,
    "opentelemetry_otlp".toList]

/-- The types of the plugins' layers; an app's own exporter names its path. -/
inductive LayerType where
  | sentry
  | otelTraces
  | otelLogs
  | app (name : Str) (path : List Str)
deriving DecidableEq

/-- The crates that a layer of this type exports through. -/
def LayerType.path : LayerType → List Str
  | .sentry => sentryTargets
  | .otelTraces | .otelLogs => otelTargets
  | .app _ path => path

/-- A layer, and which build made it. -/
structure PluginLayer where
  type : LayerType
  build : Nat
deriving DecidableEq

/-- Whether the lock of the types could be taken in a call of `add_layer`, and whether `modify`
succeeded. -/
structure Outcome where
  locked : Bool
  modified : Bool

/-- The build of a plugin, as far as it is about telemetry.  `none`: the feature is off. -/
inductive Build where
  | sentry (bridge : Outcome)
  | otel (bridge logs : Option Outcome)
  | app (name : Str) (path : List Str) (layer : Outcome)

def addCall (registry : TelemetryRegistry) (build : Nat) (type : LayerType) (outcome : Outcome) :
    TelemetryRegistry × Call PluginLayer :=
  (registry, .addLayer ⟨type, build⟩ outcome.locked outcome.modified)

/-- The calls of `SentryPlugin::build`, of `export::install`, or of an app's own plugin, which may
end early. -/
def Build.calls (registry : TelemetryRegistry) (build : Nat) :
    Build → List (TelemetryRegistry × Call PluginLayer)
  | .sentry bridge =>
    [(registry, .excludeTargets sentryTargets), addCall registry build .sentry bridge]
  | .otel bridge logs =>
    (registry, .excludeTargets otelTargets) ::
      ((bridge.map (addCall registry build .otelTraces)).toList ++
        (logs.map (addCall registry build .otelLogs)).toList)
  | .app name path layer =>
    [(registry, .excludeTargets path), addCall registry build (.app name path) layer]

/-- **A build names the path of a layer first**, through the same registry. -/
theorem calls_of_add {registry registry' : TelemetryRegistry} {build : Nat} {b : Build}
    {layer : PluginLayer} {locked modified : Bool}
    (h : (registry', .addLayer layer locked modified) ∈ b.calls registry build) :
    ∃ rest, b.calls registry build = (registry', .excludeTargets layer.type.path) :: rest := by
  cases b with
  | sentry bridge =>
    simp only [Build.calls, addCall, List.mem_cons, Prod.mk.injEq, reduceCtorEq, and_false,
      Call.addLayer.injEq, List.not_mem_nil, or_false, false_or] at h
    obtain ⟨rfl, rfl, -⟩ := h
    exact ⟨_, rfl⟩
  | otel bridge logs =>
    cases bridge <;> cases logs <;>
      simp only [Build.calls, addCall, Option.map_none, Option.map_some, Option.toList_none,
        Option.toList_some, List.nil_append, List.cons_append, List.mem_cons, Prod.mk.injEq,
        reduceCtorEq, and_false, Call.addLayer.injEq, List.not_mem_nil, or_false, false_or] at h
    · obtain ⟨rfl, rfl, -⟩ := h
      exact ⟨_, rfl⟩
    · obtain ⟨rfl, rfl, -⟩ := h
      exact ⟨_, rfl⟩
    · rcases h with ⟨rfl, rfl, -⟩ | ⟨rfl, rfl, -⟩ <;> exact ⟨_, rfl⟩
  | app name path outcome =>
    simp only [Build.calls, addCall, List.mem_cons, Prod.mk.injEq, reduceCtorEq, and_false,
      Call.addLayer.injEq, List.not_mem_nil, or_false, false_or] at h
    obtain ⟨rfl, rfl, -⟩ := h
    exact ⟨_, rfl⟩

/-! ## 2. Builds at once -/

/-- The calls that were made so far, with the build that made each. -/
abbrev Calls : Type := List (Nat × (TelemetryRegistry × Call PluginLayer))

/-- Each build has made its calls in order, up to some point. -/
def Interleaves (builds : Nat → TelemetryRegistry × Build) (calls : Calls) : Prop :=
  ∀ n, (calls.filter (·.1 == n)).map Prod.snd <+: (builds n).2.calls (builds n).1 n

def slotOf (calls : Calls) : Slot PluginLayer LayerType :=
  slotAfter PluginLayer.type (calls.map Prod.snd)

theorem Interleaves.before {builds : Nat → TelemetryRegistry × Build} {calls pre : Calls}
    (h : Interleaves builds calls) (hpre : pre <+: calls) : Interleaves builds pre :=
  fun n => ((hpre.filter _).map _).trans (h n)

theorem added_of_mem {L K : Type} [DecidableEq K] {kind : L → K}
    {calls : List (TelemetryRegistry × Call L)} {layer : L}
    (h : layer ∈ (slotAfter kind calls).layers) : layer ∈ added calls := by
  obtain ⟨index, hindex⟩ := List.mem_iff_getElem?.mp h
  have hlast := (inStep_after kind calls).layerOf_kind hindex
  rw [layerOf_after] at hlast
  exact (List.mem_filter.mp (List.mem_of_getLast? hlast)).1

/-- **A layer that is there has had its path named.** -/
theorem named_of_layer {builds : Nat → TelemetryRegistry × Build} {calls : Calls}
    (h : Interleaves builds calls) {layer : PluginLayer} (hlayer : layer ∈ (slotOf calls).layers) :
    ∀ name ∈ layer.type.path, name ∈ named (calls.map Prod.snd) := by
  obtain ⟨⟨registry, call⟩, hcall, hadded⟩ := List.mem_filterMap.mp (added_of_mem hlayer)
  obtain ⟨⟨n, call'⟩, hmade, rfl⟩ := List.mem_map.mp hcall
  cases call with
  | excludeTargets targets => cases hadded
  | addLayer layer' locked modified =>
    simp only [addedBy] at hadded
    split at hadded
    · rename_i hall
      obtain rfl := Option.some.inj hadded
      have hattached : registry.attached = true := by
        cases hreg : registry.attached <;> simp_all
      have hown : (registry, .addLayer layer' locked modified) ∈
          (calls.filter (·.1 == n)).map Prod.snd :=
        List.mem_map.mpr ⟨_, List.mem_filter.mpr ⟨hmade, by simp⟩, rfl⟩
      obtain ⟨rest, hrest⟩ := calls_of_add ((h n).subset hown)
      -- the build has made a call, so it has made its first
      have hfirst : (registry, .excludeTargets layer'.type.path) ∈
          (calls.filter (·.1 == n)).map Prod.snd := by
        have hpre := h n
        rw [hrest] at hpre
        cases hcalls : (calls.filter (·.1 == n)).map Prod.snd with
        | nil =>
          rw [hcalls] at hown
          cases hown
        | cons first others =>
          rw [hcalls] at hpre
          rw [(List.cons_prefix_cons.mp hpre).1]
          exact List.mem_cons_self
      obtain ⟨⟨n', call⟩, hexclude, hsnd⟩ := List.mem_map.mp hfirst
      intro name hname
      refine List.mem_flatMap.mpr ⟨(registry, .excludeTargets layer'.type.path), ?_, ?_⟩
      · exact List.mem_map.mpr ⟨_, List.mem_of_mem_filter hexclude, hsnd⟩
      · simpa [hattached] using hname
    · cases hadded

/-! ## 3. Exporting -/

section Exporting

variable (levelFilter : Metadata → Bool) (logs : PluginLayer → Metadata → List Metadata)

def delivered (slot : Slot PluginLayer LayerType) (event : Metadata) : List PluginLayer :=
  if pluginFilter levelFilter slot event then slot.layers else []

def received (slot : Slot PluginLayer LayerType) (events : List Metadata) :
    List (PluginLayer × Metadata) :=
  events.flatMap fun event => (delivered levelFilter slot event).map fun layer => (layer, event)

/-- How many exports events lead to, up to a depth: each layer they reach exports them, which logs
events. -/
def exports (slot : Slot PluginLayer LayerType) : Nat → List Metadata → Nat
  | 0, _ => 0
  | depth + 1, events =>
    (received levelFilter slot events).length +
      exports slot depth ((received levelFilter slot events).flatMap fun r => logs r.1 r.2)

/-- Exporting through a layer logs in the crates on its path. -/
def OnPath : Prop :=
  ∀ layer event, ∀ logged ∈ logs layer event, ∃ name ∈ layer.type.path,
    inCrate logged.target name = true

variable {levelFilter logs}

theorem received_length_le (slot : Slot PluginLayer LayerType) (events : List Metadata) :
    (received levelFilter slot events).length ≤ events.length * slot.layers.length := by
  induction events with
  | nil => simp [received]
  | cons event events ih =>
    have hone : (delivered levelFilter slot event).length ≤ slot.layers.length := by
      unfold delivered
      split <;> simp
    rw [received, List.flatMap_cons, List.length_append, List.length_map, ← received,
      List.length_cons, Nat.succ_mul]
    omega

theorem exports_hidden {slot : Slot PluginLayer LayerType} {events : List Metadata}
    (h : ∀ event ∈ events, delivered levelFilter slot event = []) (depth : Nat) :
    exports levelFilter logs slot depth events = 0 := by
  have hnone : received levelFilter slot events = [] := by
    refine List.flatMap_eq_nil_iff.mpr fun event hevent => ?_
    rw [h event hevent, List.map_nil]
  induction depth generalizing events with
  | zero => rfl
  | succ depth ih =>
    rw [exports, hnone, List.length_nil, Nat.zero_add, List.flatMap_nil]
    exact ih (by simp) rfl

/-- **What exporting logs is hidden**, from the moment the layer is there. -/
theorem logged_hidden {builds : Nat → TelemetryRegistry × Build} {pre later : Calls}
    (h : Interleaves builds pre) (hlater : pre <+: later) (hpath : OnPath logs)
    {layer : PluginLayer} (hlayer : layer ∈ (slotOf pre).layers) {event logged : Metadata}
    (hlogged : logged ∈ logs layer event) :
    delivered levelFilter (slotOf later) logged = [] := by
  obtain ⟨name, hname, hin⟩ := hpath layer event logged hlogged
  have hnamed : name ∈ named (later.map Prod.snd) := by
    obtain ⟨more, rfl⟩ := hlater
    rw [List.map_append, named, List.flatMap_append]
    exact List.mem_append_left _ (named_of_layer h hlayer name hname)
  refine if_neg fun hpasses => ?_
  exact (pluginFilter_after.mp hpasses).2 ⟨name, hnamed, hin⟩

/-- **An exporter never exports its own exporting**, nor another's.  For any builds at once, each
through any registry and ending anywhere, any levels, and transports that log in the crates that
are named: what exporting through a layer logs reaches no layer, then or later; and however far it
is followed, events lead to no more than one export for each layer. -/
theorem exports_not_exported (builds : Nat → TelemetryRegistry × Build) (calls : Calls)
    (hcalls : Interleaves builds calls) (levelFilter : Metadata → Bool)
    (logs : PluginLayer → Metadata → List Metadata) (hpath : OnPath logs) :
    (∀ pre later, pre <+: later → later <+: calls → ∀ layer ∈ (slotOf pre).layers,
      ∀ event, ∀ logged ∈ logs layer event, delivered levelFilter (slotOf later) logged = []) ∧
    ∀ pre, pre <+: calls → ∀ depth events,
      exports levelFilter logs (slotOf pre) depth events ≤
        events.length * (slotOf pre).layers.length := by
  constructor
  · intro pre later hpre hlater layer hlayer event logged hlogged
    exact logged_hidden (hcalls.before (hpre.trans hlater)) hpre hpath hlayer hlogged
  · intro pre hpre depth events
    cases depth with
    | zero => exact Nat.zero_le _
    | succ depth =>
      have hnext : exports levelFilter logs (slotOf pre) depth
          ((received levelFilter (slotOf pre) events).flatMap fun r => logs r.1 r.2) = 0 := by
        refine exports_hidden (fun logged hlogged => ?_) depth
        obtain ⟨⟨layer, event⟩, hreceived, hlogged⟩ := List.mem_flatMap.mp hlogged
        obtain ⟨event', -, hdelivered⟩ := List.mem_flatMap.mp hreceived
        obtain ⟨layer', hlayer', heq⟩ := List.mem_map.mp hdelivered
        obtain ⟨rfl, rfl⟩ := Prod.mk.inj heq
        have hlayer : layer' ∈ (slotOf pre).layers := by
          unfold delivered at hlayer'
          split at hlayer'
          · exact hlayer'
          · cases hlayer'
        exact logged_hidden (hcalls.before hpre) List.prefix_rfl hpath hlayer hlogged
      rw [exports, hnext, Nat.add_zero]
      exact received_length_le _ _

end Exporting

/-- Sentry and OpenTelemetry, in one app. -/
def twoExporters : Nat → TelemetryRegistry × Build
  | 0 => (⟨true⟩, .sentry ⟨true, true⟩)
  | _ => (⟨true⟩, .otel (some ⟨true, true⟩) none)

def inTurns : Calls :=
  [(0, (⟨true⟩, .excludeTargets sentryTargets)), (1, (⟨true⟩, .excludeTargets otelTargets)),
    (1, addCall ⟨true⟩ 1 .otelTraces ⟨true, true⟩), (0, addCall ⟨true⟩ 0 .sentry ⟨true, true⟩)]

def transportLogs (layer : PluginLayer) (_ : Metadata) : List Metadata :=
  match layer.type with
  | .sentry => [⟨"reqwest::connect".toList, 4⟩]
  | .otelTraces | .otelLogs => [⟨"h2::client".toList, 4⟩]
  | .app _ _ => []

theorem exports_not_exported_in_turns :
    (∀ logged ∈ transportLogs ⟨.otelTraces, 1⟩ ⟨"shop".toList, 3⟩,
      delivered (fun _ => true) (slotOf inTurns) logged = []) ∧
    exports (fun _ => true) transportLogs (slotOf inTurns) 9 [⟨"shop".toList, 3⟩] ≤ 1 * 2 := by
  have hcalls : Interleaves twoExporters inTurns := by
    rintro (_ | _ | n)
    · exact ⟨[], rfl⟩
    · exact ⟨[], rfl⟩
    · simp [inTurns]
  have hpath : OnPath transportLogs := by
    rintro ⟨type, build⟩ event logged hlogged
    cases type with
    | app name path => cases hlogged
    | sentry =>
      obtain rfl := List.mem_singleton.mp hlogged
      exact ⟨"reqwest".toList, by simp [LayerType.path, sentryTargets], by decide⟩
    | otelTraces | otelLogs =>
      obtain rfl := List.mem_singleton.mp hlogged
      exact ⟨"h2".toList, by simp [LayerType.path, otelTargets], by decide⟩
  obtain ⟨hhidden, hbound⟩ := exports_not_exported twoExporters inTurns hcalls (fun _ => true)
    transportLogs hpath
  exact ⟨hhidden inTurns inTurns List.prefix_rfl List.prefix_rfl ⟨.otelTraces, 1⟩ (by decide) _,
    hbound inTurns List.prefix_rfl 9 [⟨"shop".toList, 3⟩]⟩

-- had its path not been named, every export would cause the next
example : exports (fun _ => true) transportLogs { layers := [⟨.sentry, 0⟩], kinds := [.sentry] } 9
    [⟨"shop".toList, 3⟩] = 9 := by decide

end Muxa.Telemetry
