/-
# The telemetry slot

A process has one slot for plugin layers: a stack of layers behind a reload handle, the list of
their types under a lock of its own, and the targets its filter hides.  Every registry that is
attached works on that slot; one that is not does nothing.

`add_layer` changes the stack and the list in two steps, of which the first can fail.  What one
call can do is `step_cases`; read as a map from types to layers, it is an update or nothing
(`layerOf_step`).  `slot_in_step` is what follows for whole runs.

The lock of the hidden targets is not modelled: nothing panics while it is held for writing.
-/
import Mathlib.Data.List.Nodup
import Muxa.Lib.Run
import Muxa.Lib.Segments
import Muxa.Lib.Text

namespace Muxa.Telemetry

open Lib.Text Lib.Run Lib.Segments

variable {L K : Type} [DecidableEq K]

/-! ## 1. The slot and its operations -/

/-- `Slot`, with the layers and their types as parameters: the stack of layers under the reload
handle, the type at each index, and the crates whose events the layers do not get. -/
structure Slot (L K : Type) where
  layers : List L := []
  /-- The type of the layer at each index. -/
  kinds : List K := []
  excluded : List Str := []

/-- `TelemetryRegistry`: a handle to the slot, or to nothing. -/
structure TelemetryRegistry where
  attached : Bool
deriving DecidableEq

/-- `add_layer`.  `locked` says whether the lock of `kinds` could be taken, `modified` whether
`modify` of the reload handle succeeded. -/
def TelemetryRegistry.addLayer (registry : TelemetryRegistry) (kind : L → K) (slot : Slot L K)
    (layer : L) (locked modified : Bool) : Slot L K :=
  if !registry.attached then slot
  else if !locked then slot
  else
    match slot.kinds.idxOf? (kind layer) with
    | some index => if modified then { slot with layers := slot.layers.set index layer } else slot
    | none =>
      if modified then
        { slot with layers := slot.layers ++ [layer], kinds := slot.kinds ++ [kind layer] }
      else slot

def TelemetryRegistry.excludeTargets (registry : TelemetryRegistry) (slot : Slot L K)
    (targets : List Str) : Slot L K :=
  if !registry.attached then slot
  else
    { slot with
      excluded := targets.foldl (fun excluded target =>
        if excluded.contains target then excluded else excluded ++ [target]) slot.excluded }

inductive Call (L : Type) where
  | addLayer (layer : L) (locked modified : Bool)
  | excludeTargets (targets : List Str)

def Slot.step (kind : L → K) (slot : Slot L K) : TelemetryRegistry × Call L → Slot L K
  | (registry, .addLayer layer locked modified) =>
    registry.addLayer kind slot layer locked modified
  | (registry, .excludeTargets targets) => registry.excludeTargets slot targets

def slotAfter (kind : L → K) (calls : List (TelemetryRegistry × Call L)) : Slot L K :=
  run (Slot.step kind) {} calls

def addedBy : TelemetryRegistry × Call L → Option L
  | (registry, .addLayer layer locked modified) =>
    if registry.attached && locked && modified then some layer else none
  | (_, .excludeTargets _) => none

def added (calls : List (TelemetryRegistry × Call L)) : List L := calls.filterMap addedBy

def Slot.layerOf (kind : L → K) (slot : Slot L K) (k : K) : Option L :=
  slot.layers.find? (fun layer => kind layer == k)

/-! ## 2. What one call does -/

/-- The stack and the list of types agree, and no type is there twice. -/
structure InStep (kind : L → K) (slot : Slot L K) : Prop where
  kinds : slot.kinds = slot.layers.map kind
  nodup : slot.kinds.Nodup

/-- Where a type is found, the stack splits around its layer. -/
theorem split_of_idxOf {kind : L → K} {layers : List L} {k : K} {index : Nat}
    (h : (layers.map kind).idxOf? k = some index) :
    ∃ before old after, layers = before ++ old :: after ∧ before.length = index ∧
      kind old = k ∧ k ∉ before.map kind := by
  rw [List.idxOf?_eq_some_iff] at h
  obtain ⟨hlt, hk, hfirst⟩ := h
  rw [List.length_map] at hlt
  refine ⟨layers.take index, layers[index], layers.drop (index + 1), ?_, ?_, ?_, ?_⟩
  · rw [List.getElem_cons_drop, List.take_append_drop]
  · rw [List.length_take, Nat.min_eq_left (Nat.le_of_lt hlt)]
  · simpa using hk
  · intro hmem
    rw [List.map_take, List.mem_take_iff_getElem] at hmem
    obtain ⟨j, hj, hjk⟩ := hmem
    exact hfirst j (by omega) hjk

/-- **What one call can do**: nothing to the layers, when it adds none; else the layer takes the
place of the one of its type, or comes last with its type. -/
theorem step_cases {kind : L → K} {slot : Slot L K} (h : InStep kind slot)
    (call : TelemetryRegistry × Call L) :
    (addedBy call = none ∧ (slot.step kind call).layers = slot.layers ∧
      (slot.step kind call).kinds = slot.kinds) ∨
    ∃ layer, addedBy call = some layer ∧
      ((∃ before old after, slot.layers = before ++ old :: after ∧ kind old = kind layer ∧
          kind layer ∉ before.map kind ∧
          (slot.step kind call).layers = before ++ layer :: after ∧
          (slot.step kind call).kinds = slot.kinds) ∨
        (kind layer ∉ slot.kinds ∧ (slot.step kind call).layers = slot.layers ++ [layer] ∧
          (slot.step kind call).kinds = slot.kinds ++ [kind layer])) := by
  obtain ⟨registry, call⟩ := call
  cases call with
  | excludeTargets targets =>
    left
    simp only [addedBy, Slot.step, TelemetryRegistry.excludeTargets, true_and]
    split <;> exact ⟨rfl, rfl⟩
  | addLayer layer locked modified =>
    cases hadded : registry.attached && locked && modified with
    | false =>
      left
      refine ⟨by simp [addedBy, hadded], ?_⟩
      simp only [Slot.step, TelemetryRegistry.addLayer]
      split
      · exact ⟨rfl, rfl⟩
      split
      · exact ⟨rfl, rfl⟩
      have hmodified : modified = false := by simp_all
      subst hmodified
      split <;> exact ⟨rfl, rfl⟩
    | true =>
      right
      refine ⟨layer, by simp [addedBy, hadded], ?_⟩
      obtain ⟨⟨hattached, rfl⟩, rfl⟩ : (registry.attached = true ∧ locked = true) ∧
        modified = true := by simpa using hadded
      simp only [Slot.step, TelemetryRegistry.addLayer, hattached, Bool.not_true,
        Bool.false_eq_true, if_false, if_true]
      cases hindex : slot.kinds.idxOf? (kind layer) with
      | none =>
        right
        exact ⟨List.idxOf?_eq_none_iff.mp hindex, rfl, rfl⟩
      | some index =>
        left
        rw [h.kinds] at hindex
        obtain ⟨before, old, after, hlayers, rfl, hold, hfirst⟩ := split_of_idxOf hindex
        refine ⟨before, old, after, hlayers, hold, hfirst, ?_, rfl⟩
        simp only [hlayers, List.set_append_right, Nat.le_refl, Nat.sub_self, List.set_cons_zero]

theorem InStep.step {kind : L → K} {slot : Slot L K} (h : InStep kind slot)
    (call : TelemetryRegistry × Call L) : InStep kind (slot.step kind call) := by
  rcases step_cases h call with
    ⟨-, hlayers, hkinds⟩ | ⟨layer, -, ⟨before, old, after, hsplit, hold, -, hlayers, hkinds⟩ |
      ⟨hnew, hlayers, hkinds⟩⟩
  · exact ⟨by rw [hkinds, hlayers, h.kinds], hkinds ▸ h.nodup⟩
  · refine ⟨?_, hkinds ▸ h.nodup⟩
    rw [hkinds, hlayers, h.kinds, hsplit]
    simp [hold]
  · refine ⟨by rw [hkinds, hlayers, h.kinds, List.map_append]; rfl, ?_⟩
    rw [hkinds, ← List.concat_eq_append]
    exact List.Nodup.concat hnew h.nodup

/-- A type that is not in a stack has no layer there. -/
theorem find_none {kind : L → K} {layers : List L} {k : K} (h : k ∉ layers.map kind) :
    layers.find? (fun layer => kind layer == k) = none := by
  rw [List.find?_eq_none]
  intro layer hlayer heq
  exact h (List.mem_map.mpr ⟨layer, hlayer, by simpa using heq⟩)

/-- **A call is an update of the map from types to layers**, or nothing. -/
theorem layerOf_step {kind : L → K} {slot : Slot L K} (h : InStep kind slot)
    (call : TelemetryRegistry × Call L) (k : K) :
    (slot.step kind call).layerOf kind k =
      match addedBy call with
      | some layer => if kind layer = k then some layer else slot.layerOf kind k
      | none => slot.layerOf kind k := by
  unfold Slot.layerOf
  rcases step_cases h call with
    ⟨hadded, hlayers, -⟩ | ⟨layer, hadded, ⟨before, old, after, hsplit, hold, hfirst, hlayers, -⟩ |
      ⟨hnew, hlayers, -⟩⟩
  · rw [hadded, hlayers]
  · rw [hadded, hlayers, hsplit]
    by_cases hk : kind layer = k
    · subst hk
      simp [find_none hfirst]
    · have hold' : ¬ kind old = k := by rwa [hold]
      simp [hk, hold']
  · rw [hadded, hlayers, List.find?_append]
    by_cases hk : kind layer = k
    · subst hk
      rw [h.kinds] at hnew
      simp [find_none hnew]
    · simp [hk]

/-! ## 3. Whole runs -/

theorem slotAfter_concat (kind : L → K) (calls : List (TelemetryRegistry × Call L))
    (call : TelemetryRegistry × Call L) :
    slotAfter kind (calls ++ [call]) = (slotAfter kind calls).step kind call :=
  run_concat _ _ _ _

theorem inStep_after (kind : L → K) (calls : List (TelemetryRegistry × Call L)) :
    InStep kind (slotAfter kind calls) := by
  induction calls using List.reverseRecOn with
  | nil => exact ⟨rfl, List.nodup_nil⟩
  | append_singleton calls call ih =>
    rw [slotAfter_concat]
    exact ih.step call

/-- The layer of a type is the one that was added last. -/
theorem layerOf_after (kind : L → K) (calls : List (TelemetryRegistry × Call L)) (k : K) :
    (slotAfter kind calls).layerOf kind k =
      ((added calls).filter (fun layer => kind layer == k)).getLast? := by
  induction calls using List.reverseRecOn with
  | nil => rfl
  | append_singleton calls call ih =>
    rw [slotAfter_concat, layerOf_step (inStep_after kind calls), added, List.filterMap_append,
      List.filterMap_cons, List.filterMap_nil]
    cases hadded : addedBy call with
    | none => simpa [added] using ih
    | some layer =>
      simp only [List.filter_append, List.filter_cons, List.filter_nil]
      by_cases hk : kind layer = k
      · simp [hk]
      · simpa [hk, added] using ih

/-- The types stay where they are while others are added. -/
theorem kinds_after_append (kind : L → K) (calls more : List (TelemetryRegistry × Call L)) :
    (slotAfter kind calls).kinds <+: (slotAfter kind (calls ++ more)).kinds := by
  induction more using List.reverseRecOn with
  | nil => rw [List.append_nil]
  | append_singleton more call ih =>
    rw [← List.append_assoc, slotAfter_concat]
    refine ih.trans ?_
    rcases step_cases (inStep_after kind (calls ++ more)) call with
      ⟨-, -, hkinds⟩ | ⟨layer, -, ⟨_, _, _, -, -, -, -, hkinds⟩ | ⟨-, -, hkinds⟩⟩
    · rw [hkinds]
    · rw [hkinds]
    · rw [hkinds]
      exact List.prefix_append _ _

theorem InStep.layerOf_kind {kind : L → K} {slot : Slot L K} (h : InStep kind slot) {index : Nat}
    {layer : L} (hlayer : slot.layers[index]? = some layer) :
    slot.layerOf kind (kind layer) = some layer := by
  obtain ⟨before, after, hsplit⟩ := List.append_of_mem (List.mem_of_getElem? hlayer)
  have hnodup := h.nodup
  rw [h.kinds, hsplit, List.map_append, List.map_cons] at hnodup
  have hbefore : kind layer ∉ before.map kind := fun hmem =>
    (List.nodup_append.mp hnodup).2.2 _ hmem _ List.mem_cons_self rfl
  simp [Slot.layerOf, hsplit, find_none hbefore]

theorem not_mem_kinds_after {kind : L → K} {calls : List (TelemetryRegistry × Call L)} {k : K}
    (h : k ∉ (added calls).map kind) : k ∉ (slotAfter kind calls).kinds := by
  intro hmem
  rw [(inStep_after kind calls).kinds] at hmem
  obtain ⟨layer, hlayer, rfl⟩ := List.mem_map.mp hmem
  obtain ⟨index, hindex⟩ := List.mem_iff_getElem?.mp hlayer
  have hlast := (inStep_after kind calls).layerOf_kind hindex
  rw [layerOf_after] at hlast
  have hadded := (List.mem_filter.mp (List.mem_of_getLast? hlast)).1
  exact h (List.mem_map_of_mem hadded)

/-- The first call that adds a type puts it at the end of the stack. -/
theorem kinds_of_first {kind : L → K} {before : List (TelemetryRegistry × Call L)}
    {call : TelemetryRegistry × Call L} {layer : L} (hadded : addedBy call = some layer)
    (hnew : kind layer ∉ (added before).map kind) :
    (slotAfter kind (before ++ [call])).kinds = (slotAfter kind before).kinds ++ [kind layer] := by
  have hnew' := not_mem_kinds_after hnew
  rw [slotAfter_concat]
  rcases step_cases (inStep_after kind before) call with
    ⟨hnone, -⟩ | ⟨layer', hadded', ⟨b, old, a, hsplit, hold, -⟩ | ⟨-, -, hkinds⟩⟩
  · rw [hnone] at hadded
    cases hadded
  · rw [hadded, Option.some.injEq] at hadded'
    subst hadded'
    rw [(inStep_after kind before).kinds, hsplit] at hnew'
    exact absurd (List.mem_map.mpr ⟨old, by simp, hold⟩) hnew'
  · rw [hadded, Option.some.injEq] at hadded'
    rw [hkinds, hadded']

/-- **A layer stands where the first one of its type was put**, whatever is added later. -/
theorem layer_at_first {kind : L → K} {before after : List (TelemetryRegistry × Call L)}
    {call : TelemetryRegistry × Call L} {layer : L} (hadded : addedBy call = some layer)
    (hnew : kind layer ∉ (added before).map kind) :
    (slotAfter kind (before ++ call :: after)).layers[(slotAfter kind before).layers.length]? =
      (slotAfter kind (before ++ call :: after)).layerOf kind (kind layer) := by
  obtain ⟨rest, hrest⟩ := kinds_after_append kind (before ++ [call]) after
  rw [kinds_of_first hadded hnew, List.append_assoc before, List.singleton_append] at hrest
  have h := inStep_after kind (before ++ call :: after)
  have hkind : (slotAfter kind (before ++ call :: after)).kinds[
      (slotAfter kind before).layers.length]? = some (kind layer) := by
    rw [← hrest, (inStep_after kind before).kinds]
    simp
  rw [h.kinds, List.getElem?_map] at hkind
  obtain ⟨layer', hlayer', hkind'⟩ := Option.map_eq_some_iff.mp hkind
  rw [hlayer', ← hkind', h.layerOf_kind hlayer']

/-- **One layer for each type, in step with the index**, after any calls through any registries:
the list of types has no duplicates and gives the type of the layer at each index; the layer of
a type is the one that was added last, where the first one of that type was put; and a call that
adds nothing changes neither list. -/
theorem slot_in_step (kind : L → K) (calls : List (TelemetryRegistry × Call L)) :
    let slot := slotAfter kind calls
    slot.kinds.Nodup ∧ slot.kinds.length = slot.layers.length ∧
    (∀ index : Nat, slot.kinds[index]? = slot.layers[index]?.map kind) ∧
    (∀ k, slot.layerOf kind k =
      ((added calls).filter (fun layer => kind layer == k)).getLast?) ∧
    (∀ before call after layer, calls = before ++ call :: after → addedBy call = some layer →
      kind layer ∉ (added before).map kind →
        slot.layers[(slotAfter kind before).layers.length]? = slot.layerOf kind (kind layer)) ∧
    ∀ call, addedBy call = none →
      (slotAfter kind (calls ++ [call])).layers = slot.layers ∧
        (slotAfter kind (calls ++ [call])).kinds = slot.kinds := by
  intro slot
  have h : InStep kind slot := inStep_after kind calls
  have hindex : ∀ index : Nat, slot.kinds[index]? = slot.layers[index]?.map kind := by
    intro index
    rw [h.kinds, List.getElem?_map]
  refine ⟨h.nodup, by rw [h.kinds, List.length_map], hindex, layerOf_after kind calls, ?_, ?_⟩
  · rintro before call after layer rfl hadded hnew
    exact layer_at_first hadded hnew
  · intro call hnone
    rw [slotAfter_concat]
    rcases step_cases h call with ⟨-, hlayers, hkinds⟩ | ⟨layer, hadded, -⟩
    · exact ⟨hlayers, hkinds⟩
    · rw [hnone] at hadded
      cases hadded

-- the second layer of type 0 takes the place of the first
example : (slotAfter (fun layer : Nat × String => layer.1)
    [(⟨true⟩, .addLayer (0, "otel") true true), (⟨true⟩, .addLayer (1, "sentry") true true),
      (⟨true⟩, .addLayer (1, "sentry, failed") true false), (⟨false⟩, .addLayer (2, "") true true),
      (⟨true⟩, .addLayer (0, "otel, rebuilt") true true)]).layers =
    [(0, "otel, rebuilt"), (1, "sentry")] := by decide

end Muxa.Telemetry
