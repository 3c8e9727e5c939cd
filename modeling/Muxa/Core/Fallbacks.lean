/-
# Conventional variables under the configuration

A fallback is one more layer under the configuration, a table with the section's name whose only
entry is the key with the variable's value.  What `figment` does with layers is `Lib.Tree`; what is
relied on of it here, on top of `FigmentCrate.Lawful`, is `FigmentCrate.Layered`.

`fallbacks_fill_unset` says what a section with a plain name reads as: the configured section, and
the first value set for each key that it leaves unset.  A name with dots is another matter: the
fallback is written under the name as one key, the section is read by walking the name as a path,
and the two meet exactly when there is no dot (`fallback_found_iff`).
-/
import Muxa.Core.Config
import Muxa.Lib.Tree

namespace Muxa.Core

open Lib.Text

/-! ## 1. `figment`'s values -/

/-- A `figment` value that is neither a dict nor an array.  A float is kept as its text: nothing
here computes with one. -/
inductive Scalar where
  | string (text : Str)
  | char (ch : Char)
  | bool (value : Bool)
  | int (value : Int)
  | float (text : Str)
  | empty
deriving DecidableEq

abbrev Value := Lib.Tree Str Scalar

/-- Walk down from a value; an empty key ends the walk. -/
def walk : Value → List Str → Option Value
  | value, [] => some value
  | value, key :: keys =>
    if key.isEmpty then some value else (value.get key).bind fun value => walk value keys

/-- `Value::find`: the path is cut at its dots, so that a section whose name has a dot is looked
for in a table of a table. -/
def findPath (root : Value) (path : Str) : Option Value := walk root (path.splitOn '.')

/-- **What is relied on of `figment`'s trees**: a figment holds a table, `find_value` walks it, and
`join` lays what a provider loads under it. -/
structure FigmentCrate.Layered {F D E : Type} (c : FigmentCrate F D Value E) : Prop
    extends c.Lawful where
  tree_table : ∀ f root, c.tree f = .ok root → root.isTable = true
  find_eq : ∀ root path, c.find root path = findPath root path
  dict_eq : ∀ entries, c.dict entries = .table entries
  join_collect : ∀ f root entries, c.tree f = .ok root →
    c.tree (c.provide .join f (.ok (c.collect entries))) = .ok (root.join (.table entries))

theorem findPath_of_no_dot (root : Value) {path : Str} (hpath : path ≠ []) (hdot : '.' ∉ path) :
    findPath root path = root.get path := by
  have hempty : path.isEmpty = false := by simpa using hpath
  rw [findPath, List.splitOn_eq_singleton hdot, walk, hempty]
  cases root.get path <;> rfl

/-! ## 2. The layers of the fallbacks -/

/-- The text of a fallback's variable, when it is set and not empty. -/
def EnvFallback.text (env : Str → Option Str) (fallback : EnvFallback) : Option Str :=
  (env fallback.var).filter fun raw => !raw.isEmpty

def setFallbacks (env : Str → Option Str) (sectionName : Str) (fallbacks : List EnvFallback) :
    List FallbackValue :=
  fallbacks.filterMap (FallbackValue.read env sectionName)

section Layers

variable (parse : Str → Value)

/-- The section that a fallback makes, and the layer with it. -/
def FallbackValue.table (value : FallbackValue) : Value := .table [(value.key, parse value.raw)]

def FallbackValue.layer (value : FallbackValue) : Value :=
  .table [(value.sectionName, value.table parse)]

def EnvFallback.valueFor (env : Str → Option Str) (key : Str) (fallback : EnvFallback) :
    Option Value :=
  if fallback.key = key then (fallback.text env).map parse else none

/-- The value of the first fallback for a key that is set. -/
def firstSet (env : Str → Option Str) (fallbacks : List EnvFallback) (key : Str) : Option Value :=
  fallbacks.findSome? (EnvFallback.valueFor parse env key)

variable {parse}

theorem read_eq (env : Str → Option Str) (sectionName : Str) (fallback : EnvFallback) :
    FallbackValue.read env sectionName fallback = (fallback.text env).map fun raw =>
      { var := fallback.var, sectionName, key := fallback.key, raw } := rfl

theorem valueFor_eq_some {env : Str → Option Str} {key : Str} {fallback : EnvFallback}
    {value : Value} : EnvFallback.valueFor parse env key fallback = some value ↔
      fallback.key = key ∧ ∃ raw, fallback.text env = some raw ∧ parse raw = value := by
  rw [EnvFallback.valueFor]
  split <;> simp_all

theorem filterMap_layer_get (env : Str → Option Str) (sectionName : Str)
    (fallbacks : List EnvFallback) (key : Str) :
    ((setFallbacks env sectionName fallbacks).map (FallbackValue.layer parse)).filterMap
        (fun layer => layer.get key) =
      if key = sectionName then
        (setFallbacks env sectionName fallbacks).map (FallbackValue.table parse) else [] := by
  have hname : ∀ value ∈ setFallbacks env sectionName fallbacks,
      value.sectionName = sectionName := by
    intro value hvalue
    obtain ⟨fallback, -, hread⟩ := List.mem_filterMap.mp hvalue
    rw [read_eq] at hread
    obtain ⟨raw, -, rfl⟩ := Option.map_eq_some_iff.mp hread
    rfl
  generalize setFallbacks env sectionName fallbacks = set at hname ⊢
  induction set with
  | nil => simp
  | cons value set ih =>
    have hhead := hname value List.mem_cons_self
    rw [List.map_cons, List.filterMap_cons, ih fun v hv => hname v (List.mem_cons_of_mem _ hv),
      FallbackValue.layer, Lib.Tree.get_singleton, hhead]
    by_cases h : key = sectionName
    · rw [if_pos h, if_pos h, if_pos h, List.map_cons]
    · rw [if_neg h, if_neg h, if_neg h]

theorem filterMap_table_get (env : Str → Option Str) (sectionName : Str)
    (fallbacks : List EnvFallback) (key : Str) :
    ((setFallbacks env sectionName fallbacks).map (FallbackValue.table parse)).filterMap
        (fun table => table.get key) =
      fallbacks.filterMap (EnvFallback.valueFor parse env key) := by
  rw [setFallbacks, List.map_filterMap, List.filterMap_filterMap]
  refine List.filterMap_congr fun fallback _ => ?_
  rw [read_eq, EnvFallback.valueFor]
  cases fallback.text env with
  | none => simp
  | some raw =>
    simp only [Option.map_some, Option.bind_some, FallbackValue.table, Lib.Tree.get_singleton]
    by_cases h : fallback.key = key
    · rw [if_pos h, if_pos h.symm]
    · rw [if_neg h, if_neg fun heq => h heq.symm]

end Layers

/-! ## 3. The tree and the section -/

section Read

variable {F D E : Type} {c : FigmentCrate F D Value E}

/-- **The tree with the fallbacks under it.** -/
theorem tree_fallbacks (hc : c.Layered) (env : Str → Option Str) (sectionName : Str)
    (fallbacks : List EnvFallback) {figment : F} {root : Value}
    (hroot : c.tree figment = .ok root) :
    ∃ root', c.tree (provideAll c figment (fallbackLayers c env sectionName fallbacks)) =
        .ok root' ∧
      Lib.Tree.joinAll (some root) ((setFallbacks env sectionName fallbacks).map
        (FallbackValue.layer c.parseValue)) = some root' := by
  unfold fallbackLayers setFallbacks
  generalize fallbacks.filterMap (FallbackValue.read env sectionName) = set
  induction set generalizing figment root with
  | nil => exact ⟨root, hroot, rfl⟩
  | cons value set ih =>
    have hnext : c.tree (c.provide .join figment (value.data c)) =
        .ok (root.join (value.layer c.parseValue)) := by
      rw [FallbackValue.data, hc.dict_eq]
      exact hc.join_collect figment root _ hroot
    exact ih hnext

/-- The section that `get_or_env` deserializes. -/
def sectionRead (parse : Str → Value) (env : Str → Option Str) (root : Value) (sectionName : Str)
    (fallbacks : List EnvFallback) : Option Value :=
  (Lib.Tree.joinAll (some root) ((setFallbacks env sectionName fallbacks).map
    (FallbackValue.layer parse))).bind fun root => findPath root sectionName

variable {T : Type} (deserialize : Value → Except E T) (default : T)

def readAs : Option Value → Expected T
  | none => .absent
  | some value =>
    match deserialize value with
    | .ok t => .value t
    | .error _ => .fails

/-- **`get_or_env` deserializes the section** of the tree with the fallbacks under it. -/
theorem getOrEnv_reads (hc : c.Layered) (env : Str → Option Str) {figment : F} {root : Value}
    (hroot : c.tree figment = .ok root) {sectionName : Str} (hname : sectionName ≠ [])
    (fallbacks : List EnvFallback) :
    Meets default (getOrEnv c deserialize default env figment sectionName fallbacks)
      (readAs deserialize (sectionRead c.parseValue env root sectionName fallbacks)) := by
  obtain ⟨root', htree, hjoin⟩ := tree_fallbacks hc env sectionName fallbacks hroot
  have hmeets := (extractSection_meets_iff deserialize default hc.toLawful
    (provideAll c figment (fallbackLayers c env sectionName fallbacks)) sectionName).mpr
    (by rw [htree]; exact id)
  have hread : sectionRead c.parseValue env root sectionName fallbacks =
      findPath root' sectionName := by
    rw [sectionRead, hjoin]
    rfl
  rw [getOrEnv_provideAll deserialize default env figment hname, hread]
  unfold expected at hmeets
  rw [htree] at hmeets
  simp only [hc.find_eq] at hmeets
  cases hfind : findPath root' sectionName <;> rw [hfind] at hmeets <;> exact hmeets

/-- The deserializer of a section's value into that value. -/
def asIs (value : Value) : Except E (Option Value) := .ok (some value)

theorem getOrEnv_value (hc : c.Layered) (env : Str → Option Str) {figment : F} {root : Value}
    (hroot : c.tree figment = .ok root) {sectionName : Str} (hname : sectionName ≠ [])
    (fallbacks : List EnvFallback) :
    getOrEnv c asIs none env figment sectionName fallbacks =
      .ok (sectionRead c.parseValue env root sectionName fallbacks) := by
  have hmeets := getOrEnv_reads asIs none hc env hroot hname fallbacks
  cases hread : sectionRead c.parseValue env root sectionName fallbacks <;>
    rw [hread] at hmeets <;> exact hmeets

end Read

section Section

variable (parse : Str → Value) (env : Str → Option Str) {root : Value} {sectionName : Str}
  (fallbacks : List EnvFallback)

theorem isTable_layers : ∀ layer ∈ (setFallbacks env sectionName fallbacks).map
    (FallbackValue.layer parse), layer.isTable = true := by
  intro layer hlayer
  obtain ⟨value, -, rfl⟩ := List.mem_map.mp hlayer
  rfl

theorem isTable_tables : ∀ table ∈ (setFallbacks env sectionName fallbacks).map
    (FallbackValue.table parse), table.isTable = true := by
  intro table htable
  obtain ⟨value, -, rfl⟩ := List.mem_map.mp htable
  rfl

theorem get_joined (sectionName : Str) (hroot : root.isTable = true) (key : Str) :
    ((Lib.Tree.joinAll (some root) ((setFallbacks env sectionName fallbacks).map
        (FallbackValue.layer parse))).bind fun root => root.get key) =
      if key = sectionName then
        Lib.Tree.joinAll (root.get key) ((setFallbacks env sectionName fallbacks).map
          (FallbackValue.table parse))
      else root.get key := by
  rw [Lib.Tree.get_joinAll _ (isTable_layers parse env fallbacks) (by simpa using hroot),
    filterMap_layer_get]
  split <;> rfl

/-- **A section with a plain name** is the configured one with the fallbacks' sections under it. -/
theorem sectionRead_of_no_dot (hroot : root.isTable = true) (hname : sectionName ≠ [])
    (hdot : '.' ∉ sectionName) :
    sectionRead parse env root sectionName fallbacks =
      Lib.Tree.joinAll (findPath root sectionName) ((setFallbacks env sectionName fallbacks).map
        (FallbackValue.table parse)) := by
  simp only [sectionRead, findPath_of_no_dot _ hname hdot]
  rw [get_joined parse env fallbacks sectionName hroot, if_pos rfl]

/-- A key of the section: the fallbacks' values for it, under the configured one. -/
theorem get_sections (sectionName : Str) {configured : Option Value}
    (h : ∀ value ∈ configured, value.isTable = true) (key : Str) :
    ((Lib.Tree.joinAll configured ((setFallbacks env sectionName fallbacks).map
        (FallbackValue.table parse))).bind fun value => value.get key) =
      Lib.Tree.joinAll (configured.bind fun value => value.get key)
        (fallbacks.filterMap (EnvFallback.valueFor parse env key)) := by
  rw [Lib.Tree.get_joinAll _ (isTable_tables parse env fallbacks) h, filterMap_table_get]

end Section

/-! ## 4. A figment of trees -/

structure Root where
  value : Value
  isTable : value.isTable = true

def Root.empty : Root := ⟨.table [], rfl⟩

def Root.join (upper lower : Root) : Root where
  value := upper.value.join lower.value
  isTable := by rw [Lib.Tree.isTable_join, upper.isTable]

/-- What `figment` reads in a text without brackets and quotes: a boolean, a number or the text. -/
def guess (raw : Str) : Value :=
  if raw = "true".toList then .leaf (.bool true)
  else if raw = "false".toList then .leaf (.bool false)
  else if raw.all Char.isDigit then
    .leaf (.int (raw.foldl (fun n ch => 10 * n + (ch.toNat - '0'.toNat)) 0))
  else .leaf (.string raw)

theorem guess_isTable (raw : Str) : (guess raw).isTable = false := by
  unfold guess
  split_ifs <;> rfl

/-- A figment is the joined tree or the first error. -/
def treeCrate : FigmentCrate (Except Str Root) Root Value Str where
  new := .ok .empty
  provide order f loaded :=
    match f, loaded, order with
    | .ok old, .ok new, .merge => .ok (new.join old)
    | .ok old, .ok new, .join => .ok (old.join new)
    | .ok _, .error err, _ => .error err
    | .error err, _, _ => .error err
  findValue f path := f.bind fun root =>
    match findPath root.value path with
    | some value => .ok value
    | none => .error "missing field".toList
  extractInner deserialize f path := f.bind fun root =>
    match findPath root.value path with
    | some value => deserialize value
    | none => .error "missing field".toList
  parseValue := guess
  dict := .table
  collect entries := ⟨.table entries, rfl⟩
  tree f := f.map Root.value
  find := findPath

theorem treeCrate_lawful : treeCrate.Lawful := by
  refine FigmentCrate.lawful_of_tree "missing field".toList ⟨.table [], rfl⟩ ?_ ?_ ?_ ?_ ?_
  · intro order f root data h
    cases f with
    | error err => cases h
    | ok old => cases order <;> exact ⟨_, rfl⟩
  · intro order f err
    cases f <;> trivial
  · intro order f loaded h
    cases f with
    | error err => trivial
    | ok root => exact h.elim
  · intro f path
    cases f with
    | error err => rfl
    | ok root =>
      cases hget : findPath root.value path <;> simp [treeCrate, Except.bind, Except.map, hget]
  · intro T deserialize f path
    cases f with
    | error err => rfl
    | ok root => cases hget : findPath root.value path <;> simp [treeCrate, Except.bind, hget]

theorem treeCrate_layered : treeCrate.Layered where
  toLawful := treeCrate_lawful
  tree_table f root h := by
    cases f with
    | error err => cases h
    | ok root' => exact Except.ok.inj h ▸ root'.isTable
  find_eq _ _ := rfl
  dict_eq _ := rfl
  join_collect f root entries h := by
    cases f with
    | error err => cases h
    | ok root' =>
      obtain rfl : root'.value = root := Except.ok.inj h
      rfl

def url : EnvFallback := { var := "DATABASE_URL".toList, key := "url".toList }

def oneVar (var raw : String) (name : Str) : Option Str :=
  if name = var.toList then some raw.toList else none

/-- `[db] max = 3`. -/
def maxOnly : Root where
  value := .table [("db".toList, .table [("max".toList, .leaf (.int 3))])]
  isTable := rfl

/-! ## 5. A section with a plain name -/

def EnvFallback.IsSet (env : Str → Option Str) (fallback : EnvFallback) : Prop :=
  ∃ raw, fallback.text env = some raw

/-- **What a section reads as**: a value that is not a table stands; a table, or an absent section,
gets the first value set for each key that it leaves unset, and no other key; it is there if the
configuration or any fallback provides it. -/
structure Filled (parse : Str → Value) (env : Str → Option Str) (fallbacks : List EnvFallback)
    (configured found : Option Value) : Prop where
  scalar : ∀ value ∈ configured, value.isTable = false → found = some value
  present : (∀ value ∈ configured, value.isTable = true) →
    (found.isSome = true ↔
      configured.isSome = true ∨ ∃ fallback ∈ fallbacks, fallback.IsSet env)
  table : (∀ value ∈ configured, value.isTable = true) → ∀ value ∈ found, value.isTable = true
  keys : (∀ value ∈ configured, value.isTable = true) → ∀ key,
    (found.bind fun value => value.get key) =
      (configured.bind fun value => value.get key).or (firstSet parse env fallbacks key)

/-- No listed variable's text reads as a table. -/
def NoTables (parse : Str → Value) (env : Str → Option Str) (fallbacks : List EnvFallback) :
    Prop :=
  ∀ fallback ∈ fallbacks, ∀ raw, fallback.text env = some raw → (parse raw).isTable = false

theorem setFallbacks_isEmpty (env : Str → Option Str) (sectionName : Str)
    (fallbacks : List EnvFallback) :
    (setFallbacks env sectionName fallbacks).isEmpty = true ↔
      ∀ fallback ∈ fallbacks, ¬ fallback.IsSet env := by
  rw [List.isEmpty_iff, setFallbacks, List.filterMap_eq_nil_iff]
  refine forall₂_congr fun fallback _ => ?_
  rw [read_eq, EnvFallback.IsSet]
  cases fallback.text env <;> simp

theorem filled_joinAll {parse : Str → Value} {env : Str → Option Str}
    {fallbacks : List EnvFallback} (htables : NoTables parse env fallbacks) (sectionName : Str)
    (configured : Option Value) :
    Filled parse env fallbacks configured (Lib.Tree.joinAll configured
      ((setFallbacks env sectionName fallbacks).map (FallbackValue.table parse))) := by
  constructor
  · rintro value rfl hvalue
    exact Lib.Tree.joinAll_of_not_table hvalue _
  · intro _
    rw [Lib.Tree.joinAll_isSome, Bool.or_eq_true]
    refine or_congr Iff.rfl ?_
    have hempty := setFallbacks_isEmpty env sectionName fallbacks
    rw [Bool.not_eq_true', List.isEmpty_map, ← Bool.not_eq_true, hempty]
    simp only [not_forall, not_not, exists_prop]
  · exact Lib.Tree.joinAll_isTable _ (isTable_tables parse env fallbacks)
  · intro hconfigured key
    rw [get_sections parse env fallbacks sectionName hconfigured, Lib.Tree.joinAll_not_tables,
      List.head?_filterMap]
    · rfl
    · intro value hvalue
      obtain ⟨fallback, hmem, hfor⟩ := List.mem_filterMap.mp hvalue
      obtain ⟨-, raw, hraw, rfl⟩ := valueFor_eq_some.mp hfor
      exact htables fallback hmem raw hraw

/-- **Fallbacks fill what the configuration leaves unset, and nothing else.**  For a figment that
loaded, a section with a plain name reads as the configured section filled from the fallbacks
(`Filled`); without a name nothing is read; and with no fallback set `get_or_env` is `get`. -/
theorem fallbacks_fill_unset {F D E T : Type} (c : FigmentCrate F D Value E) (hc : c.Layered)
    (env : Str → Option Str) (figment : F) (root : Value) (hroot : c.tree figment = .ok root)
    (sectionName : Str) (hdot : '.' ∉ sectionName) (fallbacks : List EnvFallback)
    (htables : NoTables c.parseValue env fallbacks) (deserialize : Value → Except E T)
    (default : T) :
    (sectionName ≠ [] → ∃ found,
        Filled c.parseValue env fallbacks (findPath root sectionName) found ∧
        Meets default (getOrEnv c deserialize default env figment sectionName fallbacks)
          (readAs deserialize found)) ∧
      (sectionName = [] →
        getOrEnv c deserialize default env figment sectionName fallbacks = .ok default) ∧
      ((∀ fallback ∈ fallbacks, ¬ fallback.IsSet env) →
        getOrEnv c deserialize default env figment sectionName fallbacks =
          get c deserialize default env figment sectionName) := by
  refine ⟨fun hname => ?_, ?_, fun hunset => ?_⟩
  · refine ⟨_, filled_joinAll htables sectionName _, ?_⟩
    rw [← sectionRead_of_no_dot c.parseValue env fallbacks (hc.tree_table figment root hroot) hname
      hdot]
    exact getOrEnv_reads deserialize default hc env hroot hname fallbacks
  · rintro rfl
    rfl
  · have hnone := (setFallbacks_isEmpty env sectionName fallbacks).mpr hunset
    have hempty : setFallbacks env sectionName fallbacks = [] := List.isEmpty_iff.mp hnone
    unfold setFallbacks at hempty
    have hlayers : fallbackLayers c env sectionName fallbacks = [] := by
      rw [fallbackLayers, hempty]
      rfl
    rw [get, getOrEnv, getOrEnv, hlayers]
    rfl

/-- The section gets the `url` and keeps its `max`. -/
theorem fallbacks_fill_url :
    ∃ found, Filled guess (oneVar "DATABASE_URL" "postgres://standard") [url]
        (findPath maxOnly.value "db".toList) found ∧
      Meets none
        (getOrEnv treeCrate asIs none (oneVar "DATABASE_URL" "postgres://standard") (.ok maxOnly)
          "db".toList [url])
        (readAs (E := Str) asIs found) :=
  (fallbacks_fill_unset treeCrate treeCrate_layered (oneVar "DATABASE_URL" "postgres://standard")
    (.ok maxOnly) maxOnly.value rfl "db".toList (by decide) [url]
    (fun _ _ raw _ => guess_isTable raw) asIs none).1 (by decide)

/-! ## 6. A path -/

section Path

variable (parse : Str → Value) {env : Str → Option Str} {root : Value}

/-- The configuration has no section at the path, or a table without the key. -/
def LeavesUnset (root : Value) (path key : Str) : Prop :=
  ∀ value ∈ findPath root path, value.isTable = true ∧ value.get key = none

/-- Of the values for a key the first one set counts, unless tables lie under it. -/
theorem joinAll_valueFor {before after : List EnvFallback} {fallback : EnvFallback} {raw : Str}
    (hset : fallback.text env = some raw)
    (hbefore : ∀ other ∈ before, other.key = fallback.key → ¬ other.IsSet env)
    (hafter : ∀ other ∈ after, other.key = fallback.key → ∀ raw', other.text env = some raw' →
      (parse raw').isTable = false) :
    Lib.Tree.joinAll none ((before ++ fallback :: after).filterMap
      (EnvFallback.valueFor parse env fallback.key)) = some (parse raw) := by
  have hnone : before.filterMap (EnvFallback.valueFor parse env fallback.key) = [] := by
    refine List.filterMap_eq_nil_iff.mpr fun other hother => ?_
    cases hfor : EnvFallback.valueFor parse env fallback.key other with
    | none => rfl
    | some value =>
      obtain ⟨hkey, raw', htext, -⟩ := valueFor_eq_some.mp hfor
      exact absurd ⟨raw', htext⟩ (hbefore other hother hkey)
  have hfirst : EnvFallback.valueFor parse env fallback.key fallback = some (parse raw) :=
    valueFor_eq_some.mpr ⟨rfl, raw, hset, rfl⟩
  rw [List.filterMap_append, hnone, List.nil_append, List.filterMap_cons, hfirst]
  refine Lib.Tree.joinAll_not_tables (some (parse raw)) fun value hvalue => ?_
  obtain ⟨other, hmem, hfor⟩ := List.mem_filterMap.mp hvalue
  obtain ⟨hkey, raw', hraw', rfl⟩ := valueFor_eq_some.mp hfor
  exact hafter other hmem hkey raw' hraw'

/-- **A path with a dot walks past the fallbacks**: it ends at the root when it starts with the dot,
and where it ended without them otherwise. -/
theorem sectionRead_of_dot (env : Str → Option Str) (hroot : root.isTable = true) {path : Str}
    (hdot : '.' ∈ path) (fallbacks : List EnvFallback) :
    findPath root path = some root ∧ sectionRead parse env root path fallbacks =
        Lib.Tree.joinAll (some root) ((setFallbacks env path fallbacks).map
          (FallbackValue.layer parse)) ∨
      sectionRead parse env root path fallbacks = findPath root path := by
  obtain ⟨pre, rest, hpath, hpre⟩ := List.eq_append_cons_of_mem hdot
  have hwalk : ∀ value, findPath value path = walk value (pre :: rest.splitOn '.') := by
    intro value
    rw [findPath, hpath, List.splitOn_append_cons_self_of_not_mem hpre]
  by_cases hempty : pre.isEmpty = true
  · left
    simp only [sectionRead, hwalk, walk, hempty, if_true, true_and]
    exact Option.bind_fun_some _
  · right
    have hne : pre ≠ path := by
      rintro rfl
      exact hpre hdot
    have hget := get_joined parse env fallbacks path hroot pre
    rw [if_neg hne] at hget
    simp only [sectionRead, hwalk, walk, if_neg hempty]
    rw [← hget, Option.bind_assoc]

end Path

/-- **Fallbacks are found where sections are read exactly when the path has no dot.**  Take any
fallback that is set, for a key that the configuration leaves unset at the path and no fallback
before it provides: `get_or_env` deserializes a section that holds the variable's value under the
key if and only if the path is one key. -/
theorem fallback_found_iff {F D E : Type} (c : FigmentCrate F D Value E) (hc : c.Layered)
    (env : Str → Option Str) (figment : F) (root : Value) (hroot : c.tree figment = .ok root)
    (path : Str) (hpath : path ≠ []) (before after : List EnvFallback) (fallback : EnvFallback)
    (raw : Str) (hset : fallback.text env = some raw)
    (hbefore : ∀ other ∈ before, other.key = fallback.key → ¬ other.IsSet env)
    (hafter : ∀ other ∈ after, other.key = fallback.key → ∀ raw', other.text env = some raw' →
      (c.parseValue raw').isTable = false)
    (hunset : LeavesUnset root path fallback.key) :
    (∃ value, getOrEnv c asIs none env figment path (before ++ fallback :: after) =
          .ok (some value) ∧
        value.get fallback.key = some (c.parseValue raw)) ↔
      '.' ∉ path := by
  have htable := hc.tree_table figment root hroot
  have hvalues := joinAll_valueFor c.parseValue hset hbefore hafter
  rw [getOrEnv_value hc env hroot hpath]
  generalize before ++ fallback :: after = fallbacks at hvalues ⊢
  constructor
  · rintro ⟨value, hvalue, hget⟩ hdot
    replace hvalue := Except.ok.inj hvalue
    rcases sectionRead_of_dot c.parseValue env htable hdot fallbacks with ⟨hroot', hread⟩ | hread
    · -- the path ends at the root, where the fallback's key is not
      have hkey := get_joined c.parseValue env fallbacks path htable fallback.key
      rw [← hread, hvalue, (hunset root hroot').2, Option.bind_some, hget] at hkey
      split at hkey
      · -- unless it is the path itself: then the section with the value is there
        have hin := get_sections c.parseValue env fallbacks path
          (show ∀ value ∈ (none : Option Value), value.isTable = true by simp) fallback.key
        rw [← hkey, Option.bind_none, hvalues] at hin
        exact absurd (Lib.Tree.sizeOf_get_lt hin) (lt_irrefl _)
      · cases hkey
    · rw [hread] at hvalue
      rw [(hunset value hvalue).2] at hget
      cases hget
  · intro hdot
    have hin := get_sections c.parseValue env fallbacks path
      (fun value hvalue => (hunset value hvalue).1) fallback.key
    have hnone : ((findPath root path).bind fun value => value.get fallback.key) = none := by
      cases hfind : findPath root path with
      | none => rfl
      | some value => exact (hunset value hfind).2
    rw [hnone, hvalues, ← sectionRead_of_no_dot c.parseValue env fallbacks htable hpath hdot] at hin
    obtain ⟨value, hvalue, hget⟩ := Option.bind_eq_some_iff.mp hin
    exact ⟨value, by rw [hvalue], hget⟩

/-- A plain name: the fallback is found. -/
theorem fallback_found_db :
    ∃ value, getOrEnv treeCrate asIs none (oneVar "DATABASE_URL" "postgres://standard")
        (.ok maxOnly) "db".toList [url] = .ok (some value) ∧
      value.get "url".toList = some (guess "postgres://standard".toList) :=
  (fallback_found_iff treeCrate treeCrate_layered (oneVar "DATABASE_URL" "postgres://standard")
    (.ok maxOnly) maxOnly.value rfl "db".toList (by decide) [] [] url "postgres://standard".toList
    rfl (by simp) (by simp) (by rintro value ⟨⟩; exact ⟨rfl, rfl⟩)).mpr (by decide)

/-- **A path with a dot**: `DATABASE_URL` is set, the configuration has nothing at `app.db`, and the
section reads as absent. -/
theorem dotted_path_ignores_fallback :
    url.IsSet (oneVar "DATABASE_URL" "postgres://standard") ∧
      LeavesUnset maxOnly.value "app.db".toList "url".toList ∧
      getOrEnv treeCrate asIs none (oneVar "DATABASE_URL" "postgres://standard") (.ok maxOnly)
        "app.db".toList [url] = .ok none := by
  refine ⟨⟨_, rfl⟩, ?_, rfl⟩
  rintro value ⟨⟩

end Muxa.Core
