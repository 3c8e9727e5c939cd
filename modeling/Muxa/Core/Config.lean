/-
# Configuration sections

A plugin reads its section through `Sections`: absent means defaults, invalid means an error.
The configuration is a `figment`, a stack of layers that each loaded or failed to; the `figment`
crate is a parameter (`FigmentCrate`), and what is relied on of it is `FigmentCrate.Lawful`: the
error of a layer that failed is kept, and every later access returns it.

`extract_section` asks `find_value` whether the section is there and takes every error for "not
there".  A stack with a broken layer answers with an error for every section, so every section of
a broken configuration reads as its defaults.  `getOrEnv_meets_iff` says it exactly: reading a
section does what it should if and only if every layer loaded.
-/
import Muxa.Lib.Text

namespace Muxa.Core

open Lib.Text

/-! ## 1. Errors -/

/-- Why building the app failed; `E` is the error of the `figment` crate. -/
inductive Error (E : Type) where
  | pluginBuild (plugin : Str) (source : Error E)
  | config (source : E)
  | io (source : Str)
  | other (source : Str)

def Fails {E T : Type} : Except E T → Prop
  | .ok _ => False
  | .error _ => True

/-! ## 2. The `figment` crate -/

/-- How a layer is added: over what is there, or under it. -/
inductive Order where
  | merge
  | join

/-- The `figment` crate: `F` is a figment, `D` what a provider loads, `V` a value, `E` an
error. -/
structure FigmentCrate (F D V E : Type) where
  new : F
  /-- `Figment::merge` and `Figment::join`, of a provider that loaded or failed to. -/
  provide : Order → F → Except E D → F
  findValue : F → Str → Except E V
  /-- `Figment::extract_inner`, for a type with this deserializer. -/
  extractInner : {T : Type} → (V → Except E T) → F → Str → Except E T
  /-- `raw.parse::<Value>()`, `Value::from` of a dict, and `Profile::Default.collect`. -/
  parseValue : Str → V
  dict : List (Str × V) → V
  collect : List (Str × V) → D
  /-- What a figment holds: its merged tree, or the error of a layer. -/
  tree : F → Except E V
  /-- The value at a path of a tree. -/
  find : V → Str → Option V

/-- **What is relied on of `figment`**: the error of a layer is kept and returned by every
access; without one, the tree decides. -/
structure FigmentCrate.Lawful {F D V E : Type} (c : FigmentCrate F D V E) : Prop where
  new : ∃ root, c.tree c.new = .ok root
  provide_ok : ∀ order f root data, c.tree f = .ok root →
    ∃ root', c.tree (c.provide order f (.ok data)) = .ok root'
  provide_error : ∀ order f err, Fails (c.tree (c.provide order f (.error err)))
  provide_keeps : ∀ order f loaded, Fails (c.tree f) → Fails (c.tree (c.provide order f loaded))
  findValue_error : ∀ f path, Fails (c.tree f) → Fails (c.findValue f path)
  findValue_some : ∀ f root path value, c.tree f = .ok root → c.find root path = some value →
    c.findValue f path = .ok value
  findValue_none : ∀ f root path, c.tree f = .ok root → c.find root path = none →
    Fails (c.findValue f path)
  extractInner_ok : ∀ {T : Type} (deserialize : V → Except E T) f path value t,
    c.findValue f path = .ok value → deserialize value = .ok t →
      c.extractInner deserialize f path = .ok t
  extractInner_error : ∀ {T : Type} (deserialize : V → Except E T) f path value err,
    c.findValue f path = .ok value → deserialize value = .error err →
      Fails (c.extractInner deserialize f path)

/-- A crate whose accesses go through its tree is lawful when its layers are. -/
theorem FigmentCrate.lawful_of_tree {F D V E : Type} {c : FigmentCrate F D V E} (missing : E)
    (hnew : ∃ root, c.tree c.new = .ok root)
    (hok : ∀ order f root data, c.tree f = .ok root →
      ∃ root', c.tree (c.provide order f (.ok data)) = .ok root')
    (herror : ∀ order f err, Fails (c.tree (c.provide order f (.error err))))
    (hkeeps : ∀ order f loaded, Fails (c.tree f) → Fails (c.tree (c.provide order f loaded)))
    (hfind : ∀ f path, c.findValue f path = (c.tree f).bind fun root =>
      match c.find root path with
      | some value => .ok value
      | none => .error missing)
    (hextract : ∀ {T : Type} (deserialize : V → Except E T) f path,
      c.extractInner deserialize f path = (c.findValue f path).bind deserialize) : c.Lawful where
  new := hnew
  provide_ok := hok
  provide_error := herror
  provide_keeps := hkeeps
  findValue_error f path h := by
    rw [hfind]
    cases htree : c.tree f with
    | error err => trivial
    | ok root =>
      rw [htree] at h
      exact h.elim
  findValue_some f root path value h hvalue := by
    rw [hfind, h]
    simp only [Except.bind, hvalue]
  findValue_none f root path h hvalue := by
    rw [hfind, h]
    simp only [Except.bind, hvalue]
    trivial
  extractInner_ok deserialize f path value t h hde := by
    rw [hextract, h]
    exact hde
  extractInner_error deserialize f path value err h hde := by
    rw [hextract, h, Except.bind, hde]
    trivial

section Figment

variable {F D V E : Type} (c : FigmentCrate F D V E)

def provideAll (f : F) (layers : List (Order × Except E D)) : F :=
  layers.foldl (fun f layer => c.provide layer.1 f layer.2) f

def stack (layers : List (Order × Except E D)) : F := provideAll c c.new layers

def AllLoaded (layers : List (Order × Except E D)) : Prop := ∀ layer ∈ layers, ¬ Fails layer.2

variable {c}

/-- A figment that holds an error holds one whatever is added to it. -/
theorem provideAll_keeps (hc : c.Lawful) (layers : List (Order × Except E D)) {f : F}
    (h : Fails (c.tree f)) : Fails (c.tree (provideAll c f layers)) := by
  induction layers generalizing f with
  | nil => exact h
  | cons layer layers ih => exact ih (hc.provide_keeps layer.1 f layer.2 h)

/-- **A figment that holds a tree holds an error after more layers exactly when one of these
failed to load.** -/
theorem provideAll_fails_iff (hc : c.Lawful) (layers : List (Order × Except E D)) {f : F}
    (h : ¬ Fails (c.tree f)) :
    Fails (c.tree (provideAll c f layers)) ↔ ¬ AllLoaded layers := by
  induction layers generalizing f with
  | nil => simp [provideAll, AllLoaded, h]
  | cons layer layers ih =>
    obtain ⟨order, loaded⟩ := layer
    cases loaded with
    | error err =>
      refine iff_of_true (provideAll_keeps hc layers (hc.provide_error order f err)) fun hall => ?_
      exact hall (order, .error err) List.mem_cons_self trivial
    | ok data =>
      have hok : ¬ Fails (c.tree (c.provide order f (.ok data))) := by
        cases hf : c.tree f with
        | error err =>
          rw [hf] at h
          exact absurd trivial h
        | ok root =>
          obtain ⟨root', hroot'⟩ := hc.provide_ok order f root data hf
          rw [hroot']
          exact id
      refine (ih hok).trans (not_congr ⟨fun hall => ?_, fun hall => ?_⟩)
      · intro layer hl
        rcases List.mem_cons.mp hl with rfl | hl
        · exact id
        · exact hall layer hl
      · exact fun layer hl => hall layer (List.mem_cons_of_mem _ hl)

theorem stack_fails_iff (hc : c.Lawful) (layers : List (Order × Except E D)) :
    Fails (c.tree (stack c layers)) ↔ ¬ AllLoaded layers := by
  obtain ⟨root, hroot⟩ := hc.new
  exact provideAll_fails_iff hc layers (by rw [hroot]; exact id)

end Figment

/-! ## 3. Loading -/

/-- The env-var prefix for an app name. -/
def envPrefix (appName : Str) : Str :=
  appName.map (fun ch => if ch.isAlphanum then ch.toUpper else '_') ++ ['_']

/-- The process an app starts in: its environment variables, and what `Toml::file` and
`Env::prefixed(…).split("__").ignore(&["config"])` load in it. -/
structure Process (D E : Type) where
  env : Str → Option Str
  tomlFile : Str → Except E D
  envLayer : Str → Except E D

def defaultConfigPath : Str := "config.toml".toList

/-- `load_figment_from`, as the layers it stacks. -/
def loadFigmentFrom {D E : Type} (process : Process D E) (path appName : Str) :
    List (Order × Except E D) :=
  [(.merge, process.tomlFile path), (.merge, process.envLayer (envPrefix appName))]

/-- `load_figment`: the file that the prefix's `CONFIG` variable names, or the default one, and the
variables with the prefix over it. -/
def loadFigment {D E : Type} (process : Process D E) (appName : Str) : List (Order × Except E D) :=
  match process.env (envPrefix appName ++ "CONFIG".toList) with
  | some path => loadFigmentFrom process path appName
  | none => loadFigmentFrom process defaultConfigPath appName

/-! ## 4. Reading a section -/

/-- A conventional variable that stands in for one key of a section. -/
structure EnvFallback where
  var : Str
  key : Str

/-- An `EnvFallback` that is set. -/
structure FallbackValue where
  var : Str
  sectionName : Str
  key : Str
  raw : Str

/-- `FallbackValue::read`: an unset or empty variable is skipped. -/
def FallbackValue.read (env : Str → Option Str) (sectionName : Str) (fallback : EnvFallback) :
    Option FallbackValue :=
  ((env fallback.var).filter fun raw => !raw.isEmpty).map fun raw =>
    { var := fallback.var, sectionName, key := fallback.key, raw }

section Read

variable {F D V E : Type} (c : FigmentCrate F D V E)

def FallbackValue.data (value : FallbackValue) : Except E D :=
  .ok (c.collect [(value.sectionName, c.dict [(value.key, c.parseValue value.raw)])])

/-- The fallbacks of a section that are set, as layers below the configuration. -/
def fallbackLayers (env : Str → Option Str) (sectionName : Str) (fallbacks : List EnvFallback) :
    List (Order × Except E D) :=
  (fallbacks.filterMap (FallbackValue.read env sectionName)).map fun value => (.join, value.data c)

variable {T : Type} (deserialize : V → Except E T) (default : T)

/-- `extract_section`: the default where `find_value` fails, for whatever reason; otherwise what
the section deserializes to. -/
def extractSection (figment : F) (sectionName : Str) : Except (Error E) T :=
  match c.findValue figment sectionName with
  | .ok _ =>
    match c.extractInner deserialize figment sectionName with
    | .ok t => .ok t
    | .error err => .error (.config err)
  | .error _ => .ok default

/-- `Sections::get_or_env`: the section, with the fallbacks that are set as layers under the
configuration.  A plugin without a section gets the default. -/
def getOrEnv (env : Str → Option Str) (figment : F) (sectionName : Str)
    (fallbacks : List EnvFallback) : Except (Error E) T :=
  if sectionName.isEmpty then .ok default
  else
    let set := fallbackLayers c env sectionName fallbacks
    if set.isEmpty then extractSection c deserialize default figment sectionName
    else
      extractSection c deserialize default (provideAll c figment set) sectionName

/-- `Sections::get`: the section as it is configured. -/
def get (env : Str → Option Str) (figment : F) (sectionName : Str) : Except (Error E) T :=
  getOrEnv c deserialize default env figment sectionName []

/-! ## 5. What reading a section should do -/

/-- How the read of a section should end. -/
inductive Expected (T : Type) where
  /-- The configuration loaded and has no such section. -/
  | absent
  /-- The section is there and deserializes. -/
  | value (t : T)
  /-- A layer failed to load, or the section is there and does not deserialize. -/
  | fails

/-- What the configuration says about a section.  This is the specification: it looks at the tree
and at the error of a layer that did not load, not at the answer of `find_value`. -/
def expected (figment : F) (sectionName : Str) : Expected T :=
  match c.tree figment with
  | .error _ => .fails
  | .ok root =>
    match c.find root sectionName with
    | none => .absent
    | some value =>
      match deserialize value with
      | .ok t => .value t
      | .error _ => .fails

/-- The figment `get_or_env` reads: the configuration, and under it the fallbacks that are
set. -/
def withFallbacks (env : Str → Option Str) (layers : List (Order × Except E D))
    (sectionName : Str) (fallbacks : List EnvFallback) : F :=
  stack c (layers ++ fallbackLayers c env sectionName fallbacks)

/-- A result is the expected one: the default only for an absent section. -/
def Meets : Except (Error E) T → Expected T → Prop
  | r, .absent => r = .ok default
  | r, .value t => r = .ok t
  | r, .fails => Fails r

variable {c}

/-- **`extract_section` does what it should exactly when the figment holds a tree.** -/
theorem extractSection_meets_iff (hc : c.Lawful) (figment : F) (sectionName : Str) :
    Meets default (extractSection c deserialize default figment sectionName)
        (expected c deserialize figment sectionName) ↔ ¬ Fails (c.tree figment) := by
  unfold expected extractSection
  cases htree : c.tree figment with
  | error err =>
    -- the kept error looks like an absent section
    have hfind := hc.findValue_error figment sectionName (by rw [htree]; trivial)
    cases hvalue : c.findValue figment sectionName with
    | ok value =>
      rw [hvalue] at hfind
      exact hfind.elim
    | error err' => simp [Meets, Fails]
  | ok root =>
    refine iff_of_true ?_ id
    cases hpath : c.find root sectionName with
    | none =>
      have hfind := hc.findValue_none figment root sectionName htree hpath
      cases hvalue : c.findValue figment sectionName with
      | ok value =>
        rw [hvalue] at hfind
        exact hfind.elim
      | error err' => simp [hpath, Meets]
    | some value =>
      have hvalue := hc.findValue_some figment root sectionName value htree hpath
      cases hde : deserialize value with
      | ok t => simp [hpath, hvalue, hde, hc.extractInner_ok deserialize _ _ _ _ hvalue hde, Meets]
      | error err =>
        have hfails := hc.extractInner_error deserialize _ _ _ _ hvalue hde
        cases hinner : c.extractInner deserialize figment sectionName with
        | ok t =>
          rw [hinner] at hfails
          exact hfails.elim
        | error err' => simp [hpath, hvalue, hde, Meets, Fails]

/-- `get_or_env` reads the section of the configuration with the fallbacks under it. -/
theorem getOrEnv_provideAll (env : Str → Option Str) (figment : F) {sectionName : Str}
    (hname : sectionName ≠ []) (fallbacks : List EnvFallback) :
    getOrEnv c deserialize default env figment sectionName fallbacks =
      extractSection c deserialize default
        (provideAll c figment (fallbackLayers c env sectionName fallbacks)) sectionName := by
  have hempty : sectionName.isEmpty = false := by simpa using hname
  simp only [getOrEnv, hempty, Bool.false_eq_true, if_false]
  split
  · rename_i hset
    rw [List.isEmpty_iff.mp hset]
    rfl
  · rfl

theorem getOrEnv_eq (env : Str → Option Str) (layers : List (Order × Except E D))
    {sectionName : Str} (hname : sectionName ≠ []) (fallbacks : List EnvFallback) :
    getOrEnv c deserialize default env (stack c layers) sectionName fallbacks =
      extractSection c deserialize default
        (withFallbacks c env layers sectionName fallbacks) sectionName := by
  rw [getOrEnv_provideAll deserialize default env _ hname, withFallbacks, stack, stack,
    provideAll, provideAll, provideAll, List.foldl_append]

theorem allLoaded_append_fallbacks (env : Str → Option Str)
    (layers : List (Order × Except E D)) (sectionName : Str) (fallbacks : List EnvFallback) :
    AllLoaded (layers ++ fallbackLayers c env sectionName fallbacks) ↔ AllLoaded layers := by
  refine ⟨fun h layer hl => h layer (List.mem_append_left _ hl), fun h layer hl => ?_⟩
  rcases List.mem_append.mp hl with hl | hl
  · exact h layer hl
  · obtain ⟨value, -, rfl⟩ := List.mem_map.mp hl
    exact id

/-- **Reading a section does what it should exactly when every layer loaded.** -/
theorem getOrEnv_meets_iff (hc : c.Lawful) (env : Str → Option Str)
    (layers : List (Order × Except E D)) {sectionName : Str} (hname : sectionName ≠ [])
    (fallbacks : List EnvFallback) :
    Meets default (getOrEnv c deserialize default env (stack c layers) sectionName fallbacks)
        (expected c deserialize
          (withFallbacks c env layers sectionName fallbacks) sectionName) ↔
      AllLoaded layers := by
  rw [getOrEnv_eq deserialize default env layers hname fallbacks,
    extractSection_meets_iff deserialize default hc, withFallbacks, stack_fails_iff hc, not_not,
    allLoaded_append_fallbacks]

end Read

end Muxa.Core
