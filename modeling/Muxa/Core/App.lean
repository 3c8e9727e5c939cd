/-
# Building the app

`AppBuilder::with_plugin` reads the plugin's section, builds the plugin and pushes its output on
the state.  A plugin whose section does not read must fail the chain, so what `Core.Config` shows
of one section is put together here with the chain: `broken_config_iff`.  The stacks on which it
fails are exactly those with a layer that did not load, among them the one `load_figment` makes
of a `config.toml` that does not parse (`broken_toml_reads_defaults`).
-/
import Muxa.Core.Fallbacks

namespace Muxa.Core

open Lib.Text

variable {F D V E T S Out R : Type}

/-! ## 1. The plugin chain -/

/-- What a plugin builds with, besides its configuration and the state: the figment and the
rest of the build context. -/
structure BuildCtx (F R : Type) where
  figment : F
  rest : R

/-- The state so far, as a list of plugin outputs, and the build context. -/
structure AppBuilder (F S R : Type) where
  state : S
  ctx : BuildCtx F R

/-- A plugin: its section and fallbacks, its `Config` type with deserializer and default, and its
`build`. -/
structure Plugin (F V E T S Out R : Type) where
  name : Str
  configPrefix : Str
  envFallbacks : List EnvFallback
  deserialize : V → Except E T
  default : T
  build : T → S → BuildCtx F R → Except (Error E) (Out × BuildCtx F R)

def Plugin.readConfig (c : FigmentCrate F D V E) (env : Str → Option Str)
    (plugin : Plugin F V E T S Out R) (figment : F) : Except (Error E) T :=
  getOrEnv c plugin.deserialize plugin.default env figment plugin.configPrefix plugin.envFallbacks

/-- `AppBuilder::with_plugin`: read the plugin's section, build the plugin, and push its output on
the state.  An error of either ends the chain; one of `build` gets the plugin's name. -/
def withPlugin (c : FigmentCrate F D V E) (env : Str → Option Str) (builder : AppBuilder F S R)
    (plugin : Plugin F V E T S Out R) : Except (Error E) (AppBuilder F (Out × S) R) :=
  match plugin.readConfig c env builder.ctx.figment with
  | .error err => .error err
  | .ok cfg =>
    match plugin.build cfg builder.state builder.ctx with
    | .ok (out, ctx) => .ok { state := (out, builder.state), ctx }
    -- errors that name their plugin already pass through
    | .error (.pluginBuild name source) => .error (.pluginBuild name source)
    | .error other => .error (.pluginBuild plugin.name other)

/-- A section that does not read fails the chain. -/
theorem withPlugin_fails {c : FigmentCrate F D V E} {env : Str → Option Str}
    {builder : AppBuilder F S R} {plugin : Plugin F V E T S Out R}
    (h : Fails (plugin.readConfig c env builder.ctx.figment)) :
    Fails (withPlugin c env builder plugin) := by
  unfold withPlugin
  split
  · trivial
  · rename_i cfg hcfg
    rw [hcfg] at h
    exact h.elim

/-! ## 2. A broken configuration -/

/-- **A broken configuration never turns into defaults** when this holds of a builder and a
plugin: `get` and `get_or_env` on the plugin's section end as expected (the default only for an
absent section, an error for a broken one), and where an error is expected the chain fails. -/
structure ReadsSoundly (c : FigmentCrate F D V E) (env : Str → Option Str)
    (layers : List (Order × Except E D)) (plugin : Plugin F V E T S Out R) (state : S) (rest : R) :
    Prop where
  get : Meets plugin.default
    (get c plugin.deserialize plugin.default env (stack c layers) plugin.configPrefix)
    (expected c plugin.deserialize (stack c layers) plugin.configPrefix)
  getOrEnv : Meets plugin.default
    (getOrEnv c plugin.deserialize plugin.default env (stack c layers) plugin.configPrefix
      plugin.envFallbacks)
    (expected c plugin.deserialize (withFallbacks c env layers plugin.configPrefix
      plugin.envFallbacks) plugin.configPrefix)
  withPlugin : expected c plugin.deserialize (withFallbacks c env layers plugin.configPrefix
      plugin.envFallbacks) plugin.configPrefix = .fails →
    Fails (withPlugin c env ⟨state, ⟨stack c layers, rest⟩⟩ plugin)

/-- **The configuration is read soundly if and only if every layer loaded**, whatever the layers,
the section, its type and its fallbacks. -/
theorem broken_config_iff (c : FigmentCrate F D V E) (hc : c.Lawful) (env : Str → Option Str)
    (layers : List (Order × Except E D)) (plugin : Plugin F V E T S Out R)
    (hname : plugin.configPrefix ≠ []) (state : S) (rest : R) :
    ReadsSoundly c env layers plugin state rest ↔ AllLoaded layers := by
  have hiff := fun fallbacks => getOrEnv_meets_iff plugin.deserialize plugin.default hc env layers
    hname fallbacks
  constructor
  · exact fun h => (hiff plugin.envFallbacks).mp h.getOrEnv
  · intro hall
    have hread := (hiff plugin.envFallbacks).mpr hall
    refine ⟨?_, hread, fun hfails => withPlugin_fails ?_⟩
    · have hget := (hiff []).mpr hall
      rw [withFallbacks, fallbackLayers, List.filterMap_nil, List.map_nil, List.append_nil] at hget
      exact hget
    · rw [hfails] at hread
      exact hread

/-! ## 3. A file that does not parse -/

/-- A plugin that reads the key `max` of `[limits]`, 10 when there is no such section. -/
def limits : Plugin (Except Str Root) Value Str Nat Unit Nat Unit where
  name := "Limits".toList
  configPrefix := "limits".toList
  envFallbacks := []
  deserialize value :=
    match value.get "max".toList with
    | some (.leaf (.int max)) => .ok max.toNat
    | _ => .error "invalid type".toList
  default := 10
  build max _ ctx := .ok (max, ctx)

/-- A process without variables, whose `config.toml` loads as given; another file is not there,
which is no error. -/
def processWith (toml : Except Str Root) : Process Root Str where
  env _ := none
  tomlFile path := if path = defaultConfigPath then toml else .ok .empty
  envLayer _ := .ok .empty

/-- `max = 3` in `[limits]`. -/
def limitsToml : Root := ⟨.table [("limits".toList, .table [("max".toList, .leaf (.int 3))])], rfl⟩

theorem readsSoundly_limits :
    ReadsSoundly treeCrate (fun _ => none)
      (loadFigment (processWith (.ok limitsToml)) "katago-ws".toList) limits () () := by
  refine (broken_config_iff treeCrate treeCrate_lawful (fun _ => none) _ limits (by decide)
    () ()).mpr ?_
  intro layer hlayer
  rw [loadFigment, show (processWith _).env _ = none from rfl] at hlayer
  rcases List.mem_pair.mp hlayer with rfl | rfl <;> exact id

/-- **A file that does not parse reads as the defaults**: the plugin is built with 10. -/
theorem broken_toml_reads_defaults :
    let layers := loadFigment (processWith (.error "invalid TOML".toList)) "katago-ws".toList
    ¬ AllLoaded layers ∧
      get treeCrate limits.deserialize limits.default (fun _ => none) (stack treeCrate layers)
        "limits".toList = .ok 10 ∧
      withPlugin treeCrate (fun _ => none) ⟨(), ⟨stack treeCrate layers, ()⟩⟩ limits =
        .ok ⟨(10, ()), ⟨stack treeCrate layers, ()⟩⟩ := by
  intro layers
  have hlayer : (.merge, .error "invalid TOML".toList) ∈ layers := List.mem_cons_self
  have hread : limits.readConfig treeCrate (fun _ => none) (stack treeCrate layers) = .ok 10 := rfl
  refine ⟨fun h => h _ hlayer trivial, hread, ?_⟩
  simp only [withPlugin, hread]
  rfl

end Muxa.Core
