/-
# The hidden targets

An exporter names the crates on its export path, and the slot's filter hides their targets from
every plugin layer.  The list only grows, whoever calls and however often (`mem_excluded_after`),
and `in_crate` is a question about segments for every target that is a path (`inCrate_iff`).  So a
target is hidden exactly when some named path is an initial run of its segments
(`excluded_by_segments`).
-/
import Muxa.Telemetry.Slot

namespace Muxa.Telemetry

open Lib.Text Lib.Run Lib.Segments

variable {L K : Type} [DecidableEq K]

/-! ## 1. The filter -/

/-- `target` is `krate` itself or one of its modules. -/
def inCrate (target krate : Str) : Bool := within [':', ':'] krate target

/-- `target` belongs to one of the `excluded` crates. -/
def isExcluded (excluded : List Str) (target : Str) : Bool := excluded.any (inCrate target)

/-- The metadata of an event or a span, as far as the filter reads it. -/
structure Metadata where
  target : Str
  level : Nat

/-- The filter in front of every plugin layer: the `RUST_LOG` levels minus the excluded
targets. -/
def pluginFilter (levelFilter : Metadata → Bool) (slot : Slot L K) (metadata : Metadata) : Bool :=
  levelFilter metadata && !isExcluded slot.excluded metadata.target

/-- A path of Rust: `::` between its identifiers. -/
def rustPath (identifiers : List Str) : Str := [':', ':'].intercalate identifiers

/-- **`in_crate` is about whole segments**, when the target is a path. -/
theorem inCrate_iff {identifiers : List Str} (h : Path ':' identifiers) {krate : Str} :
    inCrate (rustPath identifiers) krate = true ↔ splitPair ':' krate <+: identifiers :=
  within_iff_splitPair h

/-! ## 2. The list -/

/-- The paths that were named, through attached registries. -/
def named (calls : List (TelemetryRegistry × Call L)) : List Str :=
  calls.flatMap fun
    | (registry, .excludeTargets targets) => if registry.attached then targets else []
    | (_, .addLayer _ _ _) => []

theorem mem_pushNew {targets excluded : List Str} {name : Str} :
    name ∈ targets.foldl (fun excluded target =>
        if excluded.contains target then excluded else excluded ++ [target]) excluded ↔
      name ∈ excluded ∨ name ∈ targets := by
  induction targets generalizing excluded with
  | nil => simp
  | cons target targets ih =>
    rw [List.foldl_cons, ih, List.mem_cons]
    split
    · rename_i hknown
      have hmem := List.contains_iff_mem.mp hknown
      constructor
      · rintro (h | h)
        · exact .inl h
        · exact .inr (.inr h)
      · rintro (h | rfl | h)
        · exact .inl h
        · exact .inl hmem
        · exact .inr h
    · rw [List.mem_append, List.mem_singleton, or_assoc]

/-- **The list holds what was named**, and nothing else. -/
theorem mem_excluded_after (kind : L → K) (calls : List (TelemetryRegistry × Call L))
    {name : Str} : name ∈ (slotAfter kind calls).excluded ↔ name ∈ named calls := by
  induction calls using List.reverseRecOn with
  | nil => simp [slotAfter, named]
  | append_singleton calls call ih =>
    rw [slotAfter_concat, named, List.flatMap_append, List.mem_append, ← named, ← ih,
      List.flatMap_cons, List.flatMap_nil, List.append_nil]
    obtain ⟨registry, call⟩ := call
    cases call with
    | addLayer layer locked modified =>
      have hkept : ((slotAfter kind calls).step kind
          (registry, .addLayer layer locked modified)).excluded =
            (slotAfter kind calls).excluded := by
        simp only [Slot.step, TelemetryRegistry.addLayer]
        split
        · rfl
        split
        · rfl
        split <;> split <;> rfl
      rw [hkept]
      simp
    | excludeTargets targets =>
      simp only [Slot.step, TelemetryRegistry.excludeTargets]
      cases registry.attached with
      | false => simp
      | true => simpa using mem_pushNew

theorem isExcluded_after {kind : L → K} {calls : List (TelemetryRegistry × Call L)}
    {target : Str} : isExcluded (slotAfter kind calls).excluded target = true ↔
      ∃ name ∈ named calls, inCrate target name = true := by
  simp only [isExcluded, List.any_eq_true, mem_excluded_after]

/-- What passes the filter: what the levels let through and no named path covers. -/
theorem pluginFilter_after {kind : L → K} {calls : List (TelemetryRegistry × Call L)}
    {levelFilter : Metadata → Bool} {metadata : Metadata} :
    pluginFilter levelFilter (slotAfter kind calls) metadata = true ↔
      levelFilter metadata = true ∧
        ¬ ∃ name ∈ named calls, inCrate metadata.target name = true := by
  rw [pluginFilter, Bool.and_eq_true_iff, Bool.not_eq_true', ← Bool.not_eq_true, isExcluded_after]

/-- **Excluded crates are hidden by path segments, cumulatively.**  A target that is a path is
hidden if and only if a named path is an initial run of its segments.  What is hidden depends on
the set of names only, stays hidden, and does not include a crate whose name merely starts with
a named crate's name. -/
theorem excluded_by_segments (kind : L → K) (levelFilter : Metadata → Bool)
    (calls : List (TelemetryRegistry × Call L)) {identifiers : List Str}
    (hpath : Path ':' identifiers) (level : Nat) :
    (pluginFilter levelFilter (slotAfter kind calls) ⟨rustPath identifiers, level⟩ = true ↔
      levelFilter ⟨rustPath identifiers, level⟩ = true ∧
        ¬ ∃ name ∈ named calls, splitPair ':' name <+: identifiers) ∧
    (∀ calls', (∀ name, name ∈ named calls ↔ name ∈ named calls') →
      pluginFilter levelFilter (slotAfter kind calls) =
        pluginFilter levelFilter (slotAfter kind calls')) ∧
    (∀ more metadata,
      pluginFilter levelFilter (slotAfter kind (calls ++ more)) metadata = true →
        pluginFilter levelFilter (slotAfter kind calls) metadata = true) ∧
    ((∀ name ∈ named calls, ':' ∉ name ∧ ∃ suffix ≠ [], identifiers.head hpath.ne_nil =
        name ++ suffix) →
      pluginFilter levelFilter (slotAfter kind calls) ⟨rustPath identifiers, level⟩ =
        levelFilter ⟨rustPath identifiers, level⟩) := by
  have hfilter : pluginFilter levelFilter (slotAfter kind calls) ⟨rustPath identifiers, level⟩ =
      true ↔ levelFilter ⟨rustPath identifiers, level⟩ = true ∧
        ¬ ∃ name ∈ named calls, splitPair ':' name <+: identifiers := by
    simp only [pluginFilter_after, inCrate_iff hpath]
  refine ⟨hfilter, ?_, ?_, ?_⟩
  · intro calls' hsame
    funext metadata
    rw [Bool.eq_iff_iff, pluginFilter_after, pluginFilter_after]
    simp only [hsame]
  · intro more metadata hpasses
    rw [pluginFilter_after] at hpasses ⊢
    refine ⟨hpasses.1, ?_⟩
    rintro ⟨name, hname, hin⟩
    refine hpasses.2 ⟨name, ?_, hin⟩
    rw [named, List.flatMap_append]
    exact List.mem_append_left _ hname
  · intro hnames
    rw [Bool.eq_iff_iff, hfilter, and_iff_left_iff_imp]
    rintro - ⟨name, hname, hrun⟩
    obtain ⟨hcolon, suffix, hsuffix, hhead⟩ := hnames name hname
    rw [splitPair_of_not_mem hcolon] at hrun
    obtain ⟨rest, rfl⟩ := hrun
    exact hsuffix (List.append_right_eq_self.mp hhead.symm)

/-- One exporter names `hyper`: its modules are hidden, `hyper_util` is not. -/
theorem excluded_hyper :
    let calls : List (TelemetryRegistry × Call Nat) :=
      [(⟨true⟩, .excludeTargets ["hyper".toList]), (⟨true⟩, .excludeTargets ["hyper".toList])]
    ¬ pluginFilter (fun _ => true) (slotAfter id calls) ⟨"hyper::client".toList, 3⟩ = true ∧
      pluginFilter (fun _ => true) (slotAfter id calls) ⟨"hyper_util::client".toList, 3⟩ =
        true := by
  intro calls
  have hclient : Path ':' ["hyper".toList, "client".toList] := ⟨by simp, by decide⟩
  have hutil : Path ':' ["hyper_util".toList, "client".toList] := ⟨by simp, by decide⟩
  constructor
  · exact fun h =>
      absurd ((excluded_by_segments id (fun _ => true) calls hclient 3).1.mp h).2 (by decide)
  · exact (excluded_by_segments id (fun _ => true) calls hutil 3).1.mpr ⟨rfl, by decide⟩

end Muxa.Telemetry
