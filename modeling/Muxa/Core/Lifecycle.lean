/-
# The life of an app

An app is built by a chain of plugins and then run.  Each plugin reads its section, builds with
the outputs of those before it, and calls what it likes of the build context: routers, tasks, the
serve function.  `run` takes what has come together in the build context apart again.

`app_life` is the whole of it: the chain ends at the first plugin that fails, with an error that
names one plugin, and nothing is served or spawned; or every plugin is built, and then what is
served, what is spawned, and what `run` returns are functions of the calls of the plugins, in the
order of the chain.
-/
import Muxa.Core.App
import Muxa.Core.Router
import Muxa.Core.Shutdown

namespace Muxa.Core

open Lib.Text Lib.Run

variable {F D V E O R : Type}

/-! ## 1. The build context -/

/-- When serving ended, and with what; and when the app's shutdown token was cancelled while it
served (on ctrl-c, say), if it was. -/
structure Served (E : Type) where
  cancelled : Option Nat := none
  ended : Nat
  result : Except (Error E) Unit

/-- When the tasks are told to stop: with the token, and when serving has ended at the latest. -/
def Served.told (served : Served E) : Nat := served.cancelled.elim served.ended (min served.ended)

theorem Served.told_le (served : Served E) : served.told ≤ served.ended := by
  unfold Served.told
  cases served.cancelled with
  | none => exact Nat.le_refl _
  | some t => exact Nat.min_le_left _ _

/-- The serve loop, given the composed router. -/
abbrev ServeFn (R E : Type) : Type := R → Served E

/-- The build context as plugins know it: without the figment. -/
structure Registries (R E : Type) where
  router : RouterRegistry R := {}
  tasks : TaskRegistry := {}
  serveFn : Option (ServeFn R E) := none

/-- `BuildCtx::set_serve_fn`: a second one is an error. -/
def Registries.setServeFn (ctx : Registries R E) (serve : ServeFn R E) :
    Except (Error E) (Registries R E) :=
  if ctx.serveFn.isSome then .error (.other "another plugin already registered a serve_fn".toList)
  else .ok { ctx with serveFn := some serve }

/-- What a plugin can do to the build context. -/
inductive BuildCall (R E : Type) where
  | router (call : Call R)
  | spawn (name : Str) (task : SpawnTask)
  | setServeFn (serve : ServeFn R E)

namespace BuildCall

def router? : BuildCall R E → Option (Call R)
  | router call => some call
  | _ => none

def task? : BuildCall R E → Option (Str × SpawnTask)
  | spawn name task => some (name, task)
  | _ => none

def serve? : BuildCall R E → Option (ServeFn R E)
  | setServeFn serve => some serve
  | _ => none

end BuildCall

namespace Registries

/-- The build context after a call; one that is refused leaves it as it was. -/
def call (ctx : Registries R E) : BuildCall R E → Registries R E
  | .router call => { ctx with router := ctx.router.call call }
  | .spawn name task => { ctx with tasks := ctx.tasks.spawn name task }
  | .setServeFn serve =>
    match ctx.setServeFn serve with
    | .ok ctx' => ctx'
    | .error _ => ctx

def after (ctx : Registries R E) (calls : List (BuildCall R E)) : Registries R E :=
  run call ctx calls

/-- **What calls leave in the build context**: the calls on the router, the tasks in order, and
the first serve function. -/
theorem after_eq (ctx : Registries R E) (calls : List (BuildCall R E)) :
    ctx.after calls =
      { router := run RouterRegistry.call ctx.router (calls.filterMap BuildCall.router?)
        tasks := { tasks := ctx.tasks.tasks ++ calls.filterMap BuildCall.task? }
        serveFn := ctx.serveFn.or (calls.filterMap BuildCall.serve?).head? } := by
  induction calls generalizing ctx with
  | nil => simp [after]
  | cons a calls ih =>
    have hstep : ctx.after (a :: calls) = (ctx.call a).after calls := rfl
    rw [hstep, ih]
    cases a with
    | router call =>
      simp [Registries.call, List.filterMap_cons, BuildCall.router?, BuildCall.task?,
        BuildCall.serve?]
    | spawn name task =>
      simp [Registries.call, TaskRegistry.spawn, List.filterMap_cons, BuildCall.router?,
        BuildCall.task?, BuildCall.serve?]
    | setServeFn serve =>
      cases hserve : ctx.serveFn <;>
        simp [Registries.call, Registries.setServeFn, hserve, List.filterMap_cons,
          BuildCall.router?, BuildCall.task?, BuildCall.serve?]

theorem after_append (ctx : Registries R E) (calls calls' : List (BuildCall R E)) :
    ctx.after (calls ++ calls') = (ctx.after calls).after calls' := run_append _ _ _ _

end Registries

/-! ## 2. The chain -/

/-- A plugin of a chain whose outputs are of type `O`.  All it can do to the build context is to
call it, and it does not see the figment. -/
structure ChainPlugin (F V E O R : Type) where
  Config : Type
  name : Str
  configPrefix : Str
  envFallbacks : List EnvFallback
  deserialize : V → Except E Config
  default : Config
  build : Config → List O → Registries R E → List (BuildCall R E) × Except (Error E) O

def ChainPlugin.toPlugin (p : ChainPlugin F V E O R) :
    Plugin F V E p.Config (List O) O (Registries R E) where
  name := p.name
  configPrefix := p.configPrefix
  envFallbacks := p.envFallbacks
  deserialize := p.deserialize
  default := p.default
  build cfg state ctx :=
    match p.build cfg state ctx.rest with
    | (calls, .ok out) => .ok (out, { ctx with rest := ctx.rest.after calls })
    | (_, .error err) => .error err

abbrev Builder (F O R E : Type) : Type := AppBuilder F (List O) (Registries R E)

/-- `AppBuilder::with_plugin(..).await?`, the output pushed on the state. -/
def addPlugin (c : FigmentCrate F D V E) (env : Str → Option Str) (builder : Builder F O R E)
    (p : ChainPlugin F V E O R) : Except (Error E) (Builder F O R E) :=
  (withPlugin c env builder p.toPlugin).map fun b =>
    { state := b.state.1 :: b.state.2, ctx := b.ctx }

def chain (c : FigmentCrate F D V E) (env : Str → Option Str) :
    Builder F O R E → List (ChainPlugin F V E O R) → Except (Error E) (Builder F O R E)
  | builder, [] => .ok builder
  | builder, p :: plugins => (addPlugin c env builder p).bind fun b => chain c env b plugins

/-- The error of a plugin's build, naming the plugin unless it names one already. -/
def Error.tagged (plugin : Str) : Error E → Error E
  | .pluginBuild name source => .pluginBuild name source
  | err => .pluginBuild plugin err

/-- Why adding a plugin fails: its section does not read, or its build fails. -/
inductive PluginFails (c : FigmentCrate F D V E) (env : Str → Option Str)
    (builder : Builder F O R E) (p : ChainPlugin F V E O R) : Error E → Prop where
  | config (err : Error E)
      (hread : p.toPlugin.readConfig c env builder.ctx.figment = .error err) :
      PluginFails c env builder p err
  | build (cfg : p.Config) (calls : List (BuildCall R E)) (err : Error E)
      (hread : p.toPlugin.readConfig c env builder.ctx.figment = .ok cfg)
      (hbuild : p.build cfg builder.state builder.ctx.rest = (calls, .error err)) :
      PluginFails c env builder p (err.tagged p.name)

/-- The plugins are built one after the other: these are their calls, and this is what they
leave. -/
inductive Built (c : FigmentCrate F D V E) (env : Str → Option Str) :
    Builder F O R E → List (ChainPlugin F V E O R) → List (BuildCall R E) → List O →
      Builder F O R E → Prop where
  | nil (builder : Builder F O R E) : Built c env builder [] [] [] builder
  | cons {builder builder' : Builder F O R E} {p : ChainPlugin F V E O R}
      {plugins : List (ChainPlugin F V E O R)} {cfg : p.Config}
      {calls calls' : List (BuildCall R E)} {out : O} {outs : List O}
      (hread : p.toPlugin.readConfig c env builder.ctx.figment = .ok cfg)
      (hbuild : p.build cfg builder.state builder.ctx.rest = (calls, .ok out))
      (hrest : Built c env
        { state := out :: builder.state
          ctx := { builder.ctx with rest := builder.ctx.rest.after calls } }
        plugins calls' outs builder') :
      Built c env builder (p :: plugins) (calls ++ calls') (out :: outs) builder'

section Chain

variable {c : FigmentCrate F D V E} {env : Str → Option Str}

/-- **Adding a plugin** builds it on the state and the build context, or fails. -/
theorem addPlugin_cases (builder : Builder F O R E) (p : ChainPlugin F V E O R) :
    (∃ cfg calls out, p.toPlugin.readConfig c env builder.ctx.figment = .ok cfg ∧
        p.build cfg builder.state builder.ctx.rest = (calls, .ok out) ∧
        addPlugin c env builder p = .ok
          { state := out :: builder.state
            ctx := { builder.ctx with rest := builder.ctx.rest.after calls } }) ∨
      ∃ err, PluginFails c env builder p err ∧ addPlugin c env builder p = .error err := by
  cases hread : p.toPlugin.readConfig c env builder.ctx.figment with
  | error err =>
    exact .inr ⟨err, .config err hread, by simp only [addPlugin, withPlugin, hread, Except.map]⟩
  | ok cfg =>
    rcases hbuild : p.build cfg builder.state builder.ctx.rest with ⟨calls, err | out⟩
    · refine .inr ⟨err.tagged p.name, .build cfg calls err hread hbuild, ?_⟩
      have hplugin : p.toPlugin.build cfg builder.state builder.ctx = .error err := by
        simp only [ChainPlugin.toPlugin, hbuild]
      simp only [addPlugin, withPlugin, hread, hplugin]
      cases err <;> rfl
    · refine .inl ⟨cfg, calls, out, rfl, hbuild, ?_⟩
      have hplugin : p.toPlugin.build cfg builder.state builder.ctx =
          .ok (out, { builder.ctx with rest := builder.ctx.rest.after calls }) := by
        simp only [ChainPlugin.toPlugin, hbuild]
      simp only [addPlugin, withPlugin, hread, hplugin, Except.map]

/-- **The chain builds every plugin, or ends at the first that fails.** -/
theorem chain_cases (plugins : List (ChainPlugin F V E O R)) (builder : Builder F O R E) :
    (∃ calls outs builder', Built c env builder plugins calls outs builder' ∧
        chain c env builder plugins = .ok builder') ∨
      ∃ pre p post calls outs builder' err, plugins = pre ++ p :: post ∧
        Built c env builder pre calls outs builder' ∧ PluginFails c env builder' p err ∧
        chain c env builder plugins = .error err := by
  induction plugins generalizing builder with
  | nil => exact .inl ⟨[], [], builder, .nil builder, rfl⟩
  | cons p plugins ih =>
    rcases @addPlugin_cases _ _ _ _ _ _ c env builder p with
      ⟨cfg, calls, out, hread, hbuild, hadd⟩ | ⟨err, hfails, hadd⟩
    · rcases ih { state := out :: builder.state
                  ctx := { builder.ctx with rest := builder.ctx.rest.after calls } } with
        ⟨calls', outs, builder', hbuilt, hchain⟩ |
          ⟨pre, q, post, calls', outs, builder', err, rfl, hbuilt, hfails, hchain⟩
      · refine .inl ⟨calls ++ calls', out :: outs, builder', .cons hread hbuild hbuilt, ?_⟩
        simp only [chain, hadd, Except.bind, hchain]
      · refine .inr ⟨p :: pre, q, post, calls ++ calls', out :: outs, builder', err, rfl,
          .cons hread hbuild hbuilt, hfails, ?_⟩
        simp only [chain, hadd, Except.bind, hchain]
    · refine .inr ⟨[], p, plugins, [], [], builder, err, rfl, .nil builder, hfails, ?_⟩
      simp only [chain, hadd, Except.bind]

/-- **What the chain leaves**: the outputs, the last one first; the figment, as it was for every
plugin; and what the calls of all plugins leave, in the order of the chain. -/
theorem Built.leaves {builder builder' : Builder F O R E} {plugins : List (ChainPlugin F V E O R)}
    {calls : List (BuildCall R E)} {outs : List O}
    (h : Built c env builder plugins calls outs builder') :
    outs.length = plugins.length ∧ builder'.state = outs.reverse ++ builder.state ∧
      builder'.ctx.figment = builder.ctx.figment ∧
      builder'.ctx.rest = builder.ctx.rest.after calls := by
  induction h with
  | nil builder => exact ⟨rfl, rfl, rfl, rfl⟩
  | cons hread hbuild hrest ih =>
    obtain ⟨hlength, hstate, hfigment, hrest⟩ := ih
    refine ⟨by simp [hlength], by simp [hstate], hfigment, ?_⟩
    rw [hrest, Registries.after_append]

end Chain

/-! ## 3. The run -/

/-- What a run came to: its result, the router that was served, the tasks that were spawned and
what became of them, and when it was over. -/
structure Finished (R E : Type) where
  result : Except (Error E) Unit
  served : Option R := none
  spawned : List (Str × Fate) := []
  outcomes : TaskOutcomes := {}
  ended : Option Nat := none

/-- `AppBuilder::run`.  The shutdown token is cancelled when serving has ended, if nobody has
cancelled it before. -/
def AppBuilder.run {S : Type} (r : RouterCrate R) (builder : AppBuilder F S (Registries R E)) :
    Finished R E :=
  match builder.ctx.rest.serveFn with
  | none =>
    { result := .error (.other ("no serve function registered — add a serving plugin " ++
        "(e.g. a web plugin) as the last plugin in the chain").toList) }
  | some serve =>
    let router := builder.ctx.rest.router.compose r
    let served := serve router
    let tasks := builder.ctx.rest.tasks.spawnAll served.told
    let (ended, outcomes) := joinTasks tasks served.ended
    { result := served.result, served := some router, spawned := tasks, outcomes,
      ended := some ended }

/-- **What a run without a serve function is**: an error, and nothing else. -/
structure NotServed (finished : Finished R E) : Prop where
  result : Fails finished.result
  served : finished.served = none
  spawned : finished.spawned = []

/-- **What a run with the serve function `serve` is**, for the calls the plugins made: the routers,
fallback and layers they registered are served as one router; the tasks they registered are
spawned, each once and in order, and told to stop when serving has ended at the latest; the run ends
within the grace period after that, with the result of serving, whatever became of the tasks. -/
structure ServedBy (r : RouterCrate R) (calls : List (BuildCall R E)) (serve : ServeFn R E)
    (finished : Finished R E) : Prop where
  router : finished.served =
    some ((registered (calls.filterMap BuildCall.router?)).compose r)
  result : ∀ router, finished.served = some router → finished.result = (serve router).result
  spawned : ∀ router, finished.served = some router →
    finished.spawned = (calls.filterMap BuildCall.task?).map fun task =>
      (task.1, task.2 (serve router).told)
  told : ∀ router, finished.served = some router → (serve router).told ≤ (serve router).ended
  ended : ∀ router, finished.served = some router → ∃ t, finished.ended = some t ∧
    (serve router).ended ≤ t ∧ t ≤ (serve router).ended + taskShutdownGrace

/-- The wait for the tasks ends between its start and the deadline. -/
theorem joinTasks_bounds (tasks : List (Str × Fate)) (start : Nat) :
    start ≤ (joinTasks tasks start).1 ∧ (joinTasks tasks start).1 ≤ start + taskShutdownGrace := by
  unfold joinTasks
  rw [joinTasks_from (Nat.le_add_right _ _)]
  simp only [overAt]
  split
  · rename_i last hlast
    exact ⟨Nat.le_min.mpr ⟨Nat.le_add_right _ _, le_lastFinish hlast⟩, Nat.min_le_left _ _⟩
  · exact ⟨Nat.le_add_right _ _, Nat.le_refl _⟩

/-- **A run is a function of the calls of the plugins.** -/
theorem run_of_calls {S : Type} (r : RouterCrate R) {calls : List (BuildCall R E)}
    {builder : AppBuilder F S (Registries R E)}
    (hrest : builder.ctx.rest = Registries.after {} calls) :
    match (calls.filterMap BuildCall.serve?).head? with
    | none => NotServed (builder.run r)
    | some serve => ServedBy r calls serve (builder.run r) := by
  rw [Registries.after_eq] at hrest
  cases hserve : (calls.filterMap BuildCall.serve?).head? with
  | none =>
    have hnone : builder.ctx.rest.serveFn = none := by rw [hrest, hserve]; rfl
    simp only [AppBuilder.run, hnone]
    exact ⟨trivial, rfl, rfl⟩
  | some serve =>
    have hsome : builder.ctx.rest.serveFn = some serve := by rw [hrest, hserve]; rfl
    have hview : builder.ctx.rest.router.compose r =
        (registered (calls.filterMap BuildCall.router?)).compose r := by
      rw [RouterRegistry.compose_eq, ← view_after, hrest]
      rfl
    have htasks : builder.ctx.rest.tasks.tasks = calls.filterMap BuildCall.task? := by
      rw [hrest]
      rfl
    simp only [AppBuilder.run, hsome, TaskRegistry.spawnAll, htasks, hview]
    refine ⟨rfl, ?_, ?_, fun router _ => (serve router).told_le, ?_⟩
    · rintro router h
      cases h
      rfl
    · rintro router h
      cases h
      rfl
    · rintro router h
      cases h
      exact ⟨_, rfl, joinTasks_bounds _ _⟩

/-- **The life of an app.**  For every configuration, environment and chain of plugins, one of two
things happens.  Some plugin is the first to fail: every plugin before it was built, with the
configuration the app has and the outputs of those before it; the chain ends there with that
plugin's error, which names a plugin if its build failed.  Or every plugin is built; the state holds
one output of each, the last plugin's first; and the run serves, spawns and returns what the calls
of the plugins say, taken in the order of the chain, of which the first serve function counts. -/
theorem app_life (c : FigmentCrate F D V E) (env : Str → Option Str) (r : RouterCrate R)
    (figment : F) (plugins : List (ChainPlugin F V E O R)) :
    let builder : Builder F O R E := { state := [], ctx := { figment, rest := {} } }
    (∃ pre p post calls outs builder' err, plugins = pre ++ p :: post ∧
        Built c env builder pre calls outs builder' ∧ builder'.ctx.figment = figment ∧
        builder'.state = outs.reverse ∧ PluginFails c env builder' p err ∧
        chain c env builder plugins = .error err) ∨
      ∃ calls outs builder', Built c env builder plugins calls outs builder' ∧
        chain c env builder plugins = .ok builder' ∧ outs.length = plugins.length ∧
        builder'.state = outs.reverse ∧ builder'.ctx.figment = figment ∧
        match (calls.filterMap BuildCall.serve?).head? with
        | none => NotServed (builder'.run r)
        | some serve => ServedBy r calls serve (builder'.run r) := by
  intro builder
  rcases @chain_cases _ _ _ _ _ _ c env plugins builder with
    ⟨calls, outs, builder', hbuilt, hchain⟩ |
      ⟨pre, p, post, calls, outs, builder', err, rfl, hbuilt, hfails, hchain⟩
  · obtain ⟨hlength, hstate, hfigment, hrest⟩ := hbuilt.leaves
    exact .inr ⟨calls, outs, builder', hbuilt, hchain, hlength, by simpa [builder] using hstate,
      hfigment, run_of_calls r hrest⟩
  · obtain ⟨-, hstate, hfigment, -⟩ := hbuilt.leaves
    exact .inl ⟨pre, p, post, calls, outs, builder', err, rfl, hbuilt, hfigment,
      by simpa [builder] using hstate, hfails, hchain⟩

end Muxa.Core
