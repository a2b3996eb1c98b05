/-
The process-global `import` configuration that jobs overlay.  An assignment
adds a source above all others; reading a flag sees the top source only, while
the importer enumerates `set_fields` over all of them.  So what an earlier job
put there shows through wherever a later job is silent.
-/
import Mathlib.Data.List.Nodup
import Beetkeeper.LayeredMap
import Beetkeeper.ImportJobs

namespace Beetkeeper

open LayeredMap

namespace StrDict

def keys (dict : StrDict) : List String := dict.map Prod.fst

def get? (dict : StrDict) (key : String) : Option String := ofEntries dict key

/-- `dict[key] = value`: a key that is there keeps its place. -/
def set (dict : StrDict) (key value : String) : StrDict :=
  if key ∈ keys dict then
    dict.map fun entry => if entry.1 = key then (key, value) else entry
  else dict ++ [(key, value)]

/-- `{**first, **second}`. -/
def union (first second : StrDict) : StrDict :=
  second.foldl (fun dict entry => set dict entry.1 entry.2) first

theorem get?_cons (entry : String × String) (rest : StrDict) (key : String) :
    get? (entry :: rest) key =
      if key = entry.1 then some entry.2 else get? rest key := by
  rw [get?, ofEntries, List.lookup_cons]
  by_cases hkey : key = entry.1
  · simp [hkey]
  · rw [beq_eq_false_iff_ne.mpr hkey, if_neg hkey]
    rfl

theorem mem_keys_iff {dict : StrDict} {key : String} :
    key ∈ keys dict ↔ get? dict key ≠ none := by
  rw [keys, ← ofEntries_isSome_iff, Option.isSome_iff_ne_none]
  exact Iff.rfl

theorem mem_of_get?_eq_some {dict : StrDict} {key value : String}
    (hget : get? dict key = some value) : (key, value) ∈ dict := by
  obtain ⟨before, after, rfl, _⟩ := List.lookup_eq_some_iff.mp hget
  exact List.mem_append_right _ List.mem_cons_self

theorem get?_eq_some_of_mem {dict : StrDict} {key value : String}
    (hkeys : (keys dict).Nodup) (hmem : (key, value) ∈ dict) :
    get? dict key = some value := by
  induction dict with
  | nil => cases hmem
  | cons entry rest ih =>
      rw [keys, List.map_cons, List.nodup_cons] at hkeys
      rw [get?_cons]
      rcases List.mem_cons.mp hmem with rfl | hrest
      · exact if_pos rfl
      · have hne : key ≠ entry.1 := by
          rintro rfl
          exact hkeys.1 (List.mem_map.mpr ⟨_, hrest, rfl⟩)
        rw [if_neg hne]
        exact ih hkeys.2 hrest

theorem get?_append (first second : StrDict) (key : String) :
    get? (first ++ second) key = (get? first key).or (get? second key) := by
  induction first with
  | nil => rfl
  | cons entry rest ih =>
      rw [List.cons_append, get?_cons, get?_cons, ih]
      split
      · rfl
      · rfl

/-- Replacing the value under a key where it is there. -/
theorem get?_replace (dict : StrDict) (key value other : String) :
    get? (dict.map fun entry =>
        if entry.1 = key then (key, value) else entry) other =
      if other = key then (get? dict key).map fun _ => value
      else get? dict other := by
  induction dict with
  | nil =>
      split
      · rfl
      · rfl
  | cons entry rest ih =>
      rw [List.map_cons, get?_cons, get?_cons, get?_cons, ih]
      by_cases hentry : entry.1 = key
      · by_cases hother : other = key
        · simp [hentry, hother]
        · simp [hentry, hother]
      · by_cases hother : other = key
        · simp [hentry, hother, Ne.symm hentry]
        · simp [hentry, hother]

theorem get?_set (dict : StrDict) (key value other : String) :
    get? (set dict key value) other =
      if other = key then some value else get? dict other := by
  unfold set
  split
  · rename_i hkey
    obtain ⟨old, hold⟩ := Option.ne_none_iff_exists'.mp (mem_keys_iff.mp hkey)
    rw [get?_replace, hold, Option.map_some]
  · rename_i hkey
    have hnone : get? dict key = none := by
      by_contra hsome
      exact hkey (mem_keys_iff.mpr hsome)
    rw [get?_append, get?_cons]
    by_cases hother : other = key
    · rw [hother, hnone, if_pos rfl, Option.none_or]
      exact (if_pos rfl).symm
    · rw [if_neg hother, if_neg hother]
      exact Option.or_none

theorem mem_set {dict : StrDict} {key value : String}
    {entry : String × String} (hmem : entry ∈ set dict key value) :
    entry ∈ dict ∨ entry = (key, value) := by
  unfold set at hmem
  split at hmem
  · obtain ⟨old, hold, rfl⟩ := List.mem_map.mp hmem
    split
    · exact Or.inr rfl
    · exact Or.inl hold
  · exact (List.mem_append.mp hmem).imp_right List.mem_singleton.mp

theorem keys_set (dict : StrDict) (key value : String) :
    keys (set dict key value) =
      if key ∈ keys dict then keys dict else keys dict ++ [key] := by
  unfold set
  split
  · rw [keys, List.map_map, keys]
    apply List.map_congr_left
    intro entry _
    by_cases hentry : entry.1 = key
    · simp [hentry]
    · simp [hentry]
  · rw [keys, List.map_append]
    rfl

theorem nodup_keys_set {dict : StrDict} (hkeys : (keys dict).Nodup)
    (key value : String) : (keys (set dict key value)).Nodup := by
  rw [keys_set]
  split
  · exact hkeys
  · rename_i hfresh
    rw [← List.concat_eq_append]
    exact hkeys.concat hfresh

theorem nodup_keys_union {first : StrDict} (hkeys : (keys first).Nodup)
    (second : StrDict) : (keys (union first second)).Nodup := by
  induction second using List.reverseRecOn with
  | nil => exact hkeys
  | append_singleton rest entry ih =>
      rw [union, List.foldl_concat]
      exact nodup_keys_set ih entry.1 entry.2

/-- Mappings with the same values under every key have the same entries. -/
theorem mem_iff_of_get?_eq {first second : StrDict}
    (hfirst : (keys first).Nodup) (hsecond : (keys second).Nodup)
    (hsame : ∀ key, get? first key = get? second key)
    (entry : String × String) : entry ∈ first ↔ entry ∈ second := by
  constructor
  · intro hentry
    apply mem_of_get?_eq_some
    rw [← hsame]
    exact get?_eq_some_of_mem hfirst hentry
  · intro hentry
    apply mem_of_get?_eq_some
    rw [hsame]
    exact get?_eq_some_of_mem hsecond hentry

/-- The entries of the second mapping win. -/
theorem get?_union_of_mem {first second : StrDict} {key value : String}
    (hkeys : (keys second).Nodup) (hmem : (key, value) ∈ second) :
    get? (union first second) key = some value := by
  induction second using List.reverseRecOn with
  | nil => cases hmem
  | append_singleton rest entry ih =>
      rw [keys, List.map_append] at hkeys
      have hrest : get? (union first (rest ++ [entry])) key =
          if key = entry.1 then some entry.2
          else get? (union first rest) key := by
        rw [union, List.foldl_concat, get?_set]
        rfl
      rw [hrest]
      rcases List.mem_append.mp hmem with hearlier | hlast
      · have hne : key ≠ entry.1 := by
          rintro rfl
          exact (List.nodup_append.mp hkeys).2.2 _
            (List.mem_map.mpr ⟨_, hearlier, rfl⟩) _ List.mem_cons_self rfl
        rw [if_neg hne]
        exact ih (List.nodup_append.mp hkeys).1 hearlier
      · obtain rfl := List.mem_singleton.mp hlast
        exact if_pos rfl

end StrDict

/-- `Parser.escapable_chars`. -/
def templateSpecials : List Char := ['$', '%', '}', ',']

/-- `_escape_template_literal`, with `$` as `ESCAPE_CHAR`. -/
def escapeTemplateLiteral (value : String) : String :=
  String.ofList (value.toList.flatMap fun c =>
    if c ∈ templateSpecials then ['$', c] else [c])

/-- `_merged_set_fields`. -/
def mergedSetFields (job : ImportJob) (preserved : StrDict) : StrDict :=
  StrDict.union job.setFields
    (preserved.map fun entry => (entry.1, escapeTemplateLiteral entry.2))

/-- beets' `import` section, each key with its sources, highest priority
first.  A flag that is no boolean is `none`; a `set_fields` that is empty or no
mapping is `[]`. -/
structure ImportConfig where
  quiet : List (Option Bool)
  groupAlbums : List (Option Bool)
  flat : List (Option Bool)
  log : Option String
  setFields : List StrDict
deriving Repr, DecidableEq

/-- `_apply_job_import_config`: each assignment adds a source on top. -/
def ImportConfig.applyJobImportConfig (config : ImportConfig)
    (job : ImportJob) (preserved : StrDict) : ImportConfig :=
  { config with
    groupAlbums := some job.groupAlbums :: config.groupAlbums
    flat := some job.flat :: config.flat
    setFields := mergedSetFields job preserved :: config.setFields }

/-- What `ImportTask.set_fields` enumerates while a session runs. -/
def ImportConfig.fieldsSet (config : ImportConfig) : StrDict :=
  items config.setFields

/-- One run of `_run_import_blocking`: the job, and how what precedes the
settings ends (opening the library and, on a clean slate, the removal, which
hands on the preserved fields). -/
structure JobRun where
  job : ImportJob
  prelude : Except String StrDict

/-- The preserved fields of the run, or the error that ends it before any
setting is applied. -/
def JobRun.preserved (run : JobRun) : Except String StrDict :=
  run.prelude.map fun fields => if run.job.isCleanSlate then fields else []

/-- The configuration a run leaves behind. -/
def ImportConfig.afterRun (config : ImportConfig) (run : JobRun) :
    ImportConfig :=
  match run.preserved with
  | .ok preserved => config.applyJobImportConfig run.job preserved
  | .error _ => config

/-- The configuration after some jobs, run one after another. -/
def ImportConfig.afterRuns (config : ImportConfig) (runs : List JobRun) :
    ImportConfig :=
  runs.foldl ImportConfig.afterRun config

/-- The settings the runs of a process applied, in order. -/
def appliedSettings (runs : List JobRun) : List (ImportJob × StrDict) :=
  runs.filterMap fun run =>
    run.preserved.toOption.map fun preserved => (run.job, preserved)

/-- Every run that got to its settings left one source above the earlier
ones. -/
theorem afterRuns_eq (config : ImportConfig) (runs : List JobRun) :
    config.afterRuns runs =
      { config with
        groupAlbums := ((appliedSettings runs).map fun applied =>
          some applied.1.groupAlbums).reverse ++ config.groupAlbums
        flat := ((appliedSettings runs).map fun applied =>
          some applied.1.flat).reverse ++ config.flat
        setFields := ((appliedSettings runs).map fun applied =>
          mergedSetFields applied.1 applied.2).reverse ++
            config.setFields } := by
  induction runs generalizing config with
  | nil => rfl
  | cons run rest ih =>
      have hstep : config.afterRuns (run :: rest) =
          (config.afterRun run).afterRuns rest := rfl
      rw [hstep, ih]
      cases hpreserved : run.preserved with
      | error message =>
          simp [ImportConfig.afterRun, hpreserved, appliedSettings,
            Except.toOption]
      | ok preserved =>
          simp [ImportConfig.afterRun, hpreserved, appliedSettings,
            Except.toOption, ImportConfig.applyJobImportConfig]

/-- The importer sees a source alone exactly when it has every key of the
sources below it. -/
theorem items_get?_iff (top : StrDict) (rest : List StrDict) :
    (∀ key, StrDict.get? (items (top :: rest)) key = StrDict.get? top key) ↔
      ∀ source ∈ rest, ∀ key ∈ StrDict.keys source,
        key ∈ StrDict.keys top := by
  have hitems : (∀ key, StrDict.get? (items (top :: rest)) key =
      StrDict.get? top key) ↔
      merged (ofEntries top :: rest.map ofEntries) = ofEntries top := by
    rw [← funext_iff]
    exact Eq.congr_left (ofEntries_items (top :: rest))
  rw [hitems, merged_eq_top_iff, List.forall_mem_map]
  exact forall₂_congr fun source _ => covers_ofEntries_iff

/-- A job sets exactly its merged fields if and only if they have every key
the configuration file sets and every key an earlier job of the process
set. -/
theorem fields_set_are_merged_iff (config : ImportConfig)
    (earlier : List JobRun) (job : ImportJob) (preserved : StrDict) :
    (∀ key, StrDict.get? (((config.afterRuns earlier).applyJobImportConfig job
        preserved).fieldsSet) key =
      StrDict.get? (mergedSetFields job preserved) key) ↔
    (∀ source ∈ config.setFields, ∀ key ∈ StrDict.keys source,
      key ∈ StrDict.keys (mergedSetFields job preserved)) ∧
    (∀ applied ∈ appliedSettings earlier,
      ∀ key ∈ StrDict.keys (mergedSetFields applied.1 applied.2),
        key ∈ StrDict.keys (mergedSetFields job preserved)) := by
  have hsources : ((config.afterRuns earlier).applyJobImportConfig job
      preserved).fieldsSet = items (mergedSetFields job preserved ::
        (config.afterRuns earlier).setFields) := rfl
  rw [hsources, items_get?_iff, afterRuns_eq]
  simp only [List.mem_append, List.mem_reverse, List.mem_map]
  constructor
  · intro hall
    refine ⟨fun source hsource => hall source (Or.inr hsource), ?_⟩
    intro applied happlied
    exact hall _ (Or.inl ⟨applied, happlied, rfl⟩)
  · rintro ⟨hfile, hearlier⟩ source (⟨applied, happlied, rfl⟩ | hsource)
    · exact hearlier applied happlied
    · exact hfile source hsource

/-- beets' shipped defaults. -/
def shippedConfig : ImportConfig where
  quiet := [some false]
  groupAlbums := [some false]
  flat := [some false]
  log := none
  setFields := [[]]

/-- A plain import that was claimed, with the fields it was submitted with. -/
def importJob (id : JobId) (setFields : StrDict) : ImportJob where
  id := id
  status := .running
  paths := []
  createdAt := 0
  error := none
  pendingDecision := none
  decisionSubmitted := false
  output := none
  quiet := false
  logpath := none
  groupAlbums := false
  flat := false
  setFields := setFields
  cleanSlateAlbumId := none
  cleanSlateItemId := none
  cleanSlateAllowFewerFiles := false

/-- The second job sets no field, yet its albums get the genre of the
first. -/
theorem earlier_fields_leak :
    ¬ ∀ key, StrDict.get? (((shippedConfig.afterRuns
        [⟨importJob 1 [("genre", "Jazz")], .ok []⟩]).applyJobImportConfig
          (importJob 2 []) []).fieldsSet) key =
      StrDict.get? (mergedSetFields (importJob 2 []) []) key := by
  intro hall
  have hgenre := hall "genre"
  revert hgenre
  decide

example : mergedSetFields (importJob 1 [("genre", "$albumartist")])
    [("hash", "a$b,c{d}")] =
      [("genre", "$albumartist"), ("hash", "a$$b$,c{d$}")] := by
  decide

end Beetkeeper
