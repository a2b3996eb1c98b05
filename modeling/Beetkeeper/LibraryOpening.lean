/-
Opening the beets library.  Every request and the import worker opens it in a
thread of its own; the configuration file is applied and the plugins are
loaded by whichever thread comes first, each behind a lock of its own.
-/
import Beetkeeper.StagedInit
import Beetkeeper.ImportConfig

namespace Beetkeeper

open StagedInit

/-- What the user's configuration file holds; `none` is a key it leaves
out. -/
structure BeetsConfigFile where
  quiet : Option (Option Bool)
  groupAlbums : Option (Option Bool)
  flat : Option (Option Bool)
  log : Option (Option String)
  setFields : Option StrDict
  plugins : Option (List String)
deriving Repr, DecidableEq

/-- `config.set_file`, as far as the `import` section goes: the file becomes
the source of highest priority. -/
def ImportConfig.setFile (config : ImportConfig) (file : BeetsConfigFile) :
    ImportConfig where
  quiet := file.quiet.toList ++ config.quiet
  groupAlbums := file.groupAlbums.toList ++ config.groupAlbums
  flat := file.flat.toList ++ config.flat
  log := file.log.getD config.log
  setFields := file.setFields.toList ++ config.setFields

/-- What is global to a process: beets' configuration with the plugin names it
resolves to, the plugin registry, and `_failed_plugin_names`. -/
structure ProcessGlobals where
  config : ImportConfig
  pluginNames : List String
  loadedPlugins : List String
  failedPluginNames : List String
deriving Repr, DecidableEq

/-- The guarded part of `_apply_config_file_once`. -/
def applyConfigFile (file : BeetsConfigFile) (globals : ProcessGlobals) :
    ProcessGlobals :=
  { globals with
    config := globals.config.setFile file
    pluginNames := file.plugins.getD globals.pluginNames }

/-- The guarded part of `_load_plugins_once`; `loads` says of which plugins
the package is there and starts. -/
def loadPlugins (loads : String → Bool) (globals : ProcessGlobals) :
    ProcessGlobals :=
  let loaded := globals.loadedPlugins ++ globals.pluginNames.filter loads
  { globals with
    loadedPlugins := loaded
    failedPluginNames := globals.failedPluginNames ++
      globals.pluginNames.filter fun name => decide (name ∉ loaded) }

/-- `open_library`, and what the import worker does to the configuration once
it has the library. -/
def openLibrary (file : BeetsConfigFile) (loads : String → Bool) :
    Setup ProcessGlobals JobRun where
  stages := [applyConfigFile file, loadPlugins loads]
  use run globals :=
    { globals with config := globals.config.afterRun run }

/-- `_failed_plugins_warning`. -/
def failedPluginsWarning (globals : ProcessGlobals) : Option String :=
  if globals.failedPluginNames = [] then none
  else
    let count := globals.failedPluginNames.length
    let names := ", ".intercalate globals.failedPluginNames
    some (s!"Warning: {count} configured beets plugin(s) failed to load: " ++
      s!"{names}. Install the missing plugin packages in beetkeeper's " ++
      "environment (tracebacks are in the server log).")

/-- A process before any library is opened. -/
def ProcessGlobals.fresh (config : ImportConfig) (pluginNames : List String) :
    ProcessGlobals :=
  ⟨config, pluginNames, [], []⟩

section

variable {T : Type*} [DecidableEq T] {file : BeetsConfigFile}
  {loads : String → Bool} {globals : ProcessGlobals}
  {actions : List (StagedInit.Action T JobRun)}
  {state : State T ProcessGlobals JobRun}

/-- Job runs touch the configuration alone. -/
theorem after_eq (stages : List (ProcessGlobals → ProcessGlobals))
    (runs : List JobRun) (globals : ProcessGlobals) :
    (openLibrary file loads).after stages runs globals =
      { stages.foldl (fun globals stage => stage globals) globals with
        config := (stages.foldl (fun globals stage => stage globals)
          globals).config.afterRuns runs } := by
  have hrun : ∀ (globals : ProcessGlobals),
      runs.foldl (fun globals run => (openLibrary file loads).use run globals)
        globals = { globals with config := globals.config.afterRuns runs } := by
    induction runs with
    | nil => exact fun _ => rfl
    | cons run rest ih => exact fun globals => ih _
  exact hrun _

/-- The file is applied and the plugins are loaded at most once each, in this
order, and both before any `open_library` returns. -/
theorem opens_initialise_once
    (hexec : Transition.exec (openLibrary file loads).step
      (State.initial globals) actions = some state) :
    state.performed <+: [0, 1] ∧
      ∀ thread, state.places thread = .ready → state.performed = [0, 1] := by
  have hstate := consistent_of_exec hexec
  have hwithin : state.performed.length ≤ 2 := hstate.within
  constructor
  · have htake := List.take_range (i := state.performed.length) (n := 2)
    rw [Nat.min_eq_left hwithin, ← hstate.ordered] at htake
    exact htake ▸ List.take_prefix ..
  · intro thread hready
    have hlength : state.performed.length = 2 :=
      hstate.length_of_ready hready
    rw [hstate.ordered, hlength]
    rfl

/-- The configuration the threads leave is that of a process which applies
the file and then runs the jobs one after another, wherever the library was
opened in between. -/
theorem config_is_sequential
    (hexec : Transition.exec (openLibrary file loads).step
      (State.initial globals) actions = some state) :
    state.shared.config =
      (if 0 ∈ state.performed then globals.config.setFile file
        else globals.config).afterRuns
          (actions.filterMap StagedInit.Action.used?) := by
  have hstate := consistent_of_exec hexec
  have huses : state.uses = actions.filterMap StagedInit.Action.used? :=
    uses_of_exec hexec
  rw [← huses, hstate.shared, after_eq, hstate.ordered, List.length_range]
  obtain hnone | hone | hboth : state.performed.length = 0 ∨
      state.performed.length = 1 ∨ state.performed.length = 2 := by
    have hwithin : state.performed.length ≤ 2 := hstate.within
    omega
  · rw [hnone]
    rfl
  · rw [hone]
    rfl
  · rw [hboth]
    rfl

theorem loadPlugins_failed (config : ImportConfig)
    (pluginNames : List String) :
    (loadPlugins loads (ProcessGlobals.fresh config
      pluginNames)).failedPluginNames =
        pluginNames.filter fun name => !loads name := by
  refine List.filter_congr fun name hname => ?_
  have hloaded : name ∈ [] ++ pluginNames.filter loads ↔
      loads name = true := by
    rw [List.nil_append, List.mem_filter]
    exact and_iff_right hname
  calc decide (name ∉ [] ++ pluginNames.filter loads)
      = decide (loads name ≠ true) :=
        decide_eq_decide.mpr (not_congr hloaded)
    _ = !loads name := by simp

/-- Whoever has opened the library finds among the failed plugins exactly
those configured that do not load, and a job's output warns if and only if
there are any. -/
theorem failed_plugins_are_known {config : ImportConfig}
    {pluginNames : List String} {thread : T}
    (hexec : Transition.exec (openLibrary file loads).step
      (State.initial (ProcessGlobals.fresh config pluginNames)) actions =
        some state)
    (hready : state.places thread = .ready) :
    state.shared.failedPluginNames =
        ((file.plugins.getD pluginNames).filter fun name => !loads name) ∧
      (failedPluginsWarning state.shared = none ↔
        ∀ name ∈ file.plugins.getD pluginNames, loads name = true) := by
  have hstate := consistent_of_exec hexec
  have hlength : state.performed.length = 2 := hstate.length_of_ready hready
  have hfailed : state.shared.failedPluginNames =
      (file.plugins.getD pluginNames).filter fun name => !loads name := by
    rw [hstate.shared, after_eq, hlength]
    exact loadPlugins_failed (config.setFile file) _
  refine ⟨hfailed, ?_⟩
  rw [failedPluginsWarning, ite_eq_left_iff, hfailed]
  simp only [reduceCtorEq, imp_false, not_not, List.filter_eq_nil_iff,
    Bool.not_eq_true', Bool.not_eq_false]

end

/-- A file that sets one field and names two plugins. -/
def taggedFile : BeetsConfigFile where
  quiet := none
  groupAlbums := none
  flat := none
  log := none
  setFields := some [("genre", "Jazz")]
  plugins := some ["musicbrainz", "fetchart"]

/-- Threads 0 and 1 open the library at once; both find the first flag unset.
Thread 1, the worker's, runs a job once it is through. -/
def twoOpens : List (StagedInit.Action Nat JobRun) :=
  [.start 0, .start 1, .look 0, .look 1, .acquire 1, .lookAgain 1, .raises 1,
    .acquire 0, .lookAgain 0, .perform 0, .start 1, .look 1, .mark 0,
    .release 0, .acquire 1, .lookAgain 1, .release 1, .look 1, .look 0,
    .acquire 1, .lookAgain 1, .perform 1, .mark 1, .release 1,
    .use 1 ⟨importJob 1 [("mood", "calm")], .ok []⟩, .acquire 0,
    .lookAgain 0, .release 0]

/-- Where the two threads end. -/
def openedTwice : Option (State Nat ProcessGlobals JobRun) :=
  Transition.exec (openLibrary taggedFile fun name =>
      decide (name = "musicbrainz")).step
    (State.initial (ProcessGlobals.fresh shippedConfig [])) twoOpens

theorem openedTwice_ends :
    ∃ state, openedTwice = some state ∧ state.places 0 = .ready ∧
      state.performed = [0, 1] := by
  have hended : openedTwice.map (fun state =>
      (state.places 0, state.performed)) = some (.ready, [0, 1]) := by
    decide
  obtain ⟨state, hexec, hboth⟩ := Option.map_eq_some_iff.mp hended
  obtain ⟨hready, hperformed⟩ := Prod.mk.inj hboth
  exact ⟨state, hexec, hready, hperformed⟩

theorem two_opens_initialise_once :
    ∃ state, openedTwice = some state ∧ state.places 0 = .ready ∧
      state.performed = [0, 1] := by
  obtain ⟨state, hexec, hready, _⟩ := openedTwice_ends
  exact ⟨state, hexec, hready, (opens_initialise_once hexec).2 0 hready⟩

theorem config_is_sequential_two_opens :
    ∃ state, openedTwice = some state ∧ state.shared.config =
      (shippedConfig.setFile taggedFile).afterRuns
        [⟨importJob 1 [("mood", "calm")], .ok []⟩] := by
  obtain ⟨state, hexec, _, hperformed⟩ := openedTwice_ends
  refine ⟨state, hexec, ?_⟩
  rw [config_is_sequential hexec, hperformed]
  rfl

theorem failed_plugins_are_known_two_opens :
    ∃ state, openedTwice = some state ∧
      state.shared.failedPluginNames = ["fetchart"] := by
  obtain ⟨state, hexec, hready, _⟩ := openedTwice_ends
  refine ⟨state, hexec, ?_⟩
  rw [(failed_plugins_are_known hexec hready).1]
  decide

end Beetkeeper
