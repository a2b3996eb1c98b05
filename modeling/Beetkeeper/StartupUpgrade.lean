/-
Bringing the database schema to head when the server starts, and the backup
taken before.  What the tables hold and what the schema statements do to them
is left open; a statement may fail by itself, and the upgrade may be cut off
after any number of statements, which then stay applied.
-/
import Mathlib.Logic.Function.Basic
import Mathlib.Data.List.Basic
import Beetkeeper.Transition

namespace Beetkeeper

open Transition

abbrev Revision := String

/-- The migration scripts that ship with beetkeeper, from base to head. -/
def revisionChain : List Revision :=
  ["7f3051110f7f", "bcdd3073515d", "c7a2f4e1b9d0", "e2b9f4c1a307",
    "f5d81c9a4b26", "d4e8a2c6b1f3", "b6e0f3a9c512", "c8d1a4f7b923",
    "e1b7d5c2a984", "a9c4e7d2f610", "b3f9d7c1e845", "d7c3a9e5f218"]

/-- A database: its `alembic_version` table, if there is one, and the rest. -/
structure DbContent (T : Type) where
  versionTable : Option (Option Revision)
  tables : T
deriving Repr, DecidableEq

/-- `current_revision`. -/
def DbContent.revision {T : Type} (content : DbContent T) : Option Revision :=
  content.versionTable.join

/-- The tables of an empty database, and the statements of each script. -/
structure Schema (T : Type) where
  blank : T
  statements : Revision → List (T → Option T)

/-- What the database's directory holds under each name. -/
abbrev DbFiles (T : Type) := String → Option (DbContent T)

structure Start where
  autoUpgrade : Bool
  /-- the steps the upgrade takes before it is cut off, if it is -/
  failAfter : Option Nat
deriving Repr, DecidableEq

inductive StartError where
  | migrationState (message : String)
  | upgradeFailed
deriving Repr, DecidableEq

/-- `current or 'unstamped'`. -/
def revisionLabel : Option Revision → String
  | some revision => if revision = "" then "unstamped" else revision
  | none => "unstamped"

def backupName (name : String) (current : Option Revision) : String :=
  name ++ (".pre-" ++ (revisionLabel current ++ ".bak"))

/-- The scripts between a revision and head. -/
def pendingRevisions : Option Revision → List Revision
  | none => revisionChain
  | some current => (revisionChain.dropWhile (· != current)).tail

/-- The revision is one this beetkeeper knows, or there is none. -/
def Known (current : Option Revision) : Prop :=
  ∀ revision ∈ current, revision ∈ revisionChain

instance (current : Option Revision) : Decidable (Known current) := by
  unfold Known
  infer_instance

section

variable {T : Type}

/-- Statement after statement, until one fails or the budget is used up; the
rest of the budget when all were executed. -/
def runStatements : List (T → Option T) → Option Nat → T →
    T × Option (Option Nat)
  | [], budget, tables => (tables, some budget)
  | _ :: _, some 0, tables => (tables, none)
  | statement :: rest, budget, tables =>
      match statement tables with
      | none => (tables, none)
      | some next => runStatements rest (budget.map Nat.pred) next

/-- Script after script; each is stamped when all its statements were
executed. -/
def upgradeThrough (schema : Schema T) : List Revision → Option Nat →
    DbContent T → DbContent T × Bool
  | [], _, content => (content, true)
  | revision :: rest, budget, content =>
      match runStatements (schema.statements revision) budget
          content.tables with
      | (tables, some (some (budget + 1))) =>
          upgradeThrough schema rest (some budget)
            ⟨some (some revision), tables⟩
      | (tables, some none) =>
          upgradeThrough schema rest none ⟨some (some revision), tables⟩
      | (tables, _) => (⟨content.versionTable, tables⟩, false)

/-- `upgrade head`: alembic creates its table first. -/
def DbContent.upgrade (schema : Schema T) (failAfter : Option Nat)
    (content : DbContent T) : DbContent T × Bool :=
  if failAfter = some 0 then (content, false)
  else
    upgradeThrough schema (pendingRevisions content.revision)
      (failAfter.map Nat.pred) ⟨some content.revision, content.tables⟩

/-- The content of the database; a file that is missing is created empty
when it is opened. -/
def contentOf (schema : Schema T) (name : String) (files : DbFiles T) :
    DbContent T :=
  (files name).getD ⟨none, schema.blank⟩

/-- Reading the stamped revision opens the database. -/
def openDatabase (schema : Schema T) (name : String) (files : DbFiles T) :
    DbFiles T :=
  Function.update files name (some (contentOf schema name files))

/-- `_backup_sqlite_file`, if there was a file. -/
def backupSqliteFile (schema : Schema T) (name : String)
    (files : DbFiles T) : DbFiles T :=
  if (files name).isSome then
    Function.update (openDatabase schema name files)
      (backupName name (contentOf schema name files).revision)
      (some (contentOf schema name files))
  else openDatabase schema name files

/-- `startup_upgrade` on the database of this name. -/
def startupUpgrade (schema : Schema T) (directory name : String)
    (start : Start) (files : DbFiles T) :
    DbFiles T × Except StartError Unit :=
  if (contentOf schema name files).revision = revisionChain.getLast? then
    (openDatabase schema name files, .ok ())
  else if ¬ Known (contentOf schema name files).revision then
    (openDatabase schema name files, .error (.migrationState
      (s!"The database at '{directory}/{name}' is stamped with schema " ++
        "revision '" ++
        revisionLabel (contentOf schema name files).revision ++
        "', which this beetkeeper version does not know about — it was " ++
        "likely written by a newer beetkeeper. Refusing to start " ++
        "(downgrades are never applied automatically); upgrade beetkeeper " ++
        "instead.")))
  else if start.autoUpgrade = false then
    (openDatabase schema name files, .error (.migrationState
      (s!"The database at '{directory}/{name}' is behind this beetkeeper " ++
        "version and `database.auto_upgrade` is disabled. Run `beetkeeper " ++
        "db upgrade`, then start the server again.")))
  else
    match (contentOf schema name files).upgrade schema start.failAfter with
    | (upgraded, true) =>
        (Function.update (backupSqliteFile schema name files) name
          (some upgraded), .ok ())
    | (upgraded, false) =>
        (Function.update (backupSqliteFile schema name files) name
          (some upgraded), .error .upgradeFailed)

/-- The attempt to upgrade a database there was: the revision it is stamped
with and its content. -/
def upgradeAttempt? (name : String) (start : Start) (files : DbFiles T) :
    Option (Option Revision × DbContent T) :=
  (files name).bind fun content =>
    if content.revision ≠ revisionChain.getLast? ∧ Known content.revision ∧
        start.autoUpgrade = true then
      some (content.revision, content)
    else none

/-- The content before the first upgrade attempt from each revision. -/
abbrev FirstAttempts (T : Type) := Option Revision → Option (DbContent T)

def noteAttempt (name : String) (files : DbFiles T) (start : Start)
    (firsts : FirstAttempts T) : FirstAttempts T :=
  match upgradeAttempt? name start files with
  | some (revision, content) =>
      Function.update firsts revision
        (some ((firsts revision).getD content))
  | none => firsts

/-- One start after another, with the first attempts noted. -/
def startStep (schema : Schema T) (directory name : String) :
    DbFiles T × FirstAttempts T → Start →
      Option (DbFiles T × FirstAttempts T) :=
  recording
    (fun files start =>
      some (startupUpgrade schema directory name start files).1)
    (noteAttempt name)

/-- The backup of each revision holds what the database held before the first
upgrade attempt from it. -/
def BackupsKept (name : String) (state : DbFiles T × FirstAttempts T) :
    Prop :=
  ∀ revision content, state.2 revision = some content →
    state.1 (backupName name revision) = some content

/-- What a start is to leave behind: the backups, and after a
`MigrationStateError` the content. -/
def StartKeeps (schema : Schema T) (directory name : String)
    (before : DbFiles T × FirstAttempts T) (start : Start)
    (after : DbFiles T × FirstAttempts T) : Prop :=
  BackupsKept name after ∧
    ∀ message, (startupUpgrade schema directory name start before.1).2 =
        .error (.migrationState message) →
      contentOf schema name after.1 = contentOf schema name before.1

/-- The start attempts no upgrade, or finds what the first attempt from this
revision found. -/
def FindsFirstContent (name : String)
    (state : DbFiles T × FirstAttempts T) (start : Start) : Prop :=
  ∀ revision content, upgradeAttempt? name start state.1 =
      some (revision, content) →
    ∀ first, state.2 revision = some first → content = first

/-- A backup is never the database itself. -/
theorem backupName_ne (name : String) (revision : Option Revision) :
    backupName name revision ≠ name := by
  intro hsame
  have hlength := congrArg String.length hsame
  simp only [backupName, String.length_append] at hlength
  have hmark : ".pre-".length = 5 := by decide
  omega

/-- Known revisions have labels of their own. -/
theorem revisionLabel_inj {first second : Option Revision}
    (hfirst : Known first) (hsecond : Known second)
    (hlabel : revisionLabel first = revisionLabel second) :
    first = second := by
  have hchain : ∀ revision ∈ revisionChain,
      revisionLabel (some revision) = revision ∧ revision ≠ "unstamped" := by
    decide
  cases first with
  | none =>
      cases second with
      | none => rfl
      | some revision =>
          obtain ⟨hown, hother⟩ := hchain revision (hsecond revision rfl)
          rw [hown] at hlabel
          exact absurd hlabel.symm hother
  | some found =>
      obtain ⟨hown, hother⟩ := hchain found (hfirst found rfl)
      rw [hown] at hlabel
      cases second with
      | none => exact absurd hlabel hother
      | some revision =>
          rw [(hchain revision (hsecond revision rfl)).1] at hlabel
          rw [hlabel]

theorem backupName_inj {name : String} {first second : Option Revision}
    (hfirst : Known first) (hsecond : Known second)
    (hname : backupName name first = backupName name second) :
    first = second := by
  apply revisionLabel_inj hfirst hsecond
  have hlists := congrArg String.toList hname
  simp only [backupName, String.toList_append,
    List.append_cancel_left_eq, List.append_cancel_right_eq] at hlists
  exact String.toList_injective hlists

theorem upgradeAttempt?_eq_some {name : String} {start : Start}
    {files : DbFiles T} {revision : Option Revision}
    {content : DbContent T} :
    upgradeAttempt? name start files = some (revision, content) ↔
      files name = some content ∧ content.revision = revision ∧
        revision ≠ revisionChain.getLast? ∧ Known revision ∧
        start.autoUpgrade = true := by
  simp only [upgradeAttempt?, Option.bind_eq_some_iff,
    Option.ite_none_right_eq_some, Option.some.injEq, Prod.mk.injEq]
  constructor
  · rintro ⟨found, hfile, hattempts, rfl, rfl⟩
    exact ⟨hfile, rfl, hattempts⟩
  · rintro ⟨hfile, rfl, hattempts⟩
    exact ⟨content, hfile, hattempts, rfl, rfl⟩

theorem contentOf_eq {schema : Schema T} {name : String} {files : DbFiles T}
    {content : DbContent T} (hfile : files name = some content) :
    contentOf schema name files = content := by
  rw [contentOf, hfile, Option.getD_some]

@[simp] theorem contentOf_openDatabase (schema : Schema T) (name : String)
    (files : DbFiles T) :
    contentOf schema name (openDatabase schema name files) =
      contentOf schema name files := by
  simp [contentOf, openDatabase]

theorem openDatabase_other {schema : Schema T} {name other : String}
    {files : DbFiles T} (hname : other ≠ name) :
    openDatabase schema name files other = files other :=
  Function.update_of_ne hname _ _

theorem backupSqliteFile_other {schema : Schema T} {name other : String}
    {files : DbFiles T} (hname : other ≠ name)
    (hbackup : ∀ content, files name = some content →
      other ≠ backupName name content.revision) :
    backupSqliteFile schema name files other = files other := by
  unfold backupSqliteFile
  split
  · rename_i hfile
    obtain ⟨content, hcontent⟩ := Option.isSome_iff_exists.mp hfile
    rw [contentOf_eq hcontent, Function.update_of_ne (hbackup _ hcontent)]
    exact openDatabase_other hname
  · exact openDatabase_other hname

/-- The backup of an attempt holds what the attempt found. -/
theorem startupUpgrade_backup {schema : Schema T} {directory name : String}
    {start : Start} {files : DbFiles T} {revision : Option Revision}
    {content : DbContent T}
    (hattempt : upgradeAttempt? name start files =
      some (revision, content)) :
    (startupUpgrade schema directory name start files).1
      (backupName name revision) = some content := by
  obtain ⟨hfile, rfl, hhead, hknown, hauto⟩ :=
    upgradeAttempt?_eq_some.mp hattempt
  have hbacked : backupSqliteFile schema name files
      (backupName name content.revision) = some content := by
    simp [backupSqliteFile, hfile, contentOf_eq hfile]
  have hother := backupName_ne name content.revision
  rw [startupUpgrade, contentOf_eq hfile, if_neg hhead,
    if_neg (not_not.mpr hknown), if_neg (by simp [hauto])]
  split
  · exact (Function.update_of_ne hother _ _).trans hbacked
  · exact (Function.update_of_ne hother _ _).trans hbacked

/-- A start touches the database and the backup of its attempt only. -/
theorem startupUpgrade_other {schema : Schema T} {directory name : String}
    {start : Start} {files : DbFiles T} {other : String}
    (hname : other ≠ name)
    (hbackup : ∀ revision content, upgradeAttempt? name start files =
      some (revision, content) → other ≠ backupName name revision) :
    (startupUpgrade schema directory name start files).1 other =
      files other := by
  unfold startupUpgrade
  split
  · exact openDatabase_other hname
  · rename_i hhead
    split
    · exact openDatabase_other hname
    · rename_i hknown
      split
      · exact openDatabase_other hname
      · rename_i hauto
        have hbacked : backupSqliteFile schema name files other =
            files other := by
          refine backupSqliteFile_other hname fun content hfile => ?_
          rw [contentOf_eq hfile] at hhead hknown
          exact hbackup _ content (upgradeAttempt?_eq_some.mpr
            ⟨hfile, rfl, hhead, not_not.mp hknown, by simpa using hauto⟩)
        split
        · exact (Function.update_of_ne hname _ _).trans hbacked
        · exact (Function.update_of_ne hname _ _).trans hbacked

/-- The backups of other revisions stay as they are. -/
theorem startupUpgrade_otherBackup {schema : Schema T}
    {directory name : String} {start : Start} {files : DbFiles T}
    {revision : Option Revision} (hknown : Known revision)
    (hother : ∀ content, upgradeAttempt? name start files ≠
      some (revision, content)) :
    (startupUpgrade schema directory name start files).1
        (backupName name revision) = files (backupName name revision) := by
  apply startupUpgrade_other (backupName_ne name revision)
  intro attempted content hattempt hname
  have hattempted := (upgradeAttempt?_eq_some.mp hattempt).2.2.2.1
  rw [backupName_inj hknown hattempted hname] at hother
  exact hother content hattempt

/-- A start that refuses to touch the database does not. -/
theorem startupUpgrade_refused {schema : Schema T} {directory name : String}
    {start : Start} {files : DbFiles T} {message : String}
    (herror : (startupUpgrade schema directory name start files).2 =
      .error (.migrationState message)) :
    contentOf schema name
        (startupUpgrade schema directory name start files).1 =
      contentOf schema name files := by
  unfold startupUpgrade at herror ⊢
  split at herror
  · cases herror
  · rename_i hhead
    rw [if_neg hhead]
    split at herror
    · rename_i hknown
      rw [if_pos hknown, contentOf_openDatabase]
    · rename_i hknown
      rw [if_neg hknown]
      split at herror
      · rename_i hauto
        rw [if_pos hauto, contentOf_openDatabase]
      · split at herror <;> cases herror

/-- The first attempts noted are from known revisions, and their backups
stand. -/
structure AttemptsNoted (name : String)
    (state : DbFiles T × FirstAttempts T) : Prop where
  known : ∀ revision content, state.2 revision = some content →
    Known revision
  kept : BackupsKept name state

section

variable {schema : Schema T} {directory name : String}
  {before after : DbFiles T × FirstAttempts T} {start : Start}

theorem noteAttempt_some {files : DbFiles T} {firsts : FirstAttempts T}
    {revision : Option Revision} {content : DbContent T}
    (hattempt : upgradeAttempt? name start files =
      some (revision, content)) :
    noteAttempt name files start firsts =
      Function.update firsts revision
        (some ((firsts revision).getD content)) := by
  simp only [noteAttempt, hattempt]

theorem noteAttempt_other {files : DbFiles T} {firsts : FirstAttempts T}
    {revision : Option Revision}
    (hother : ∀ content, upgradeAttempt? name start files ≠
      some (revision, content)) :
    noteAttempt name files start firsts revision = firsts revision := by
  cases hattempt : upgradeAttempt? name start files with
  | none => simp only [noteAttempt, hattempt]
  | some attempt =>
      rw [noteAttempt_some hattempt]
      apply Function.update_of_ne
      rintro rfl
      exact hother attempt.2 hattempt

theorem known_step
    (hknown : ∀ revision content, before.2 revision = some content →
      Known revision)
    (hstep : startStep schema directory name before start = some after) :
    ∀ revision content, after.2 revision = some content →
      Known revision := by
  obtain ⟨_, hnoted⟩ := recording_eq_some.mp hstep
  intro revision content hfirst
  rw [hnoted] at hfirst
  by_cases hattempts : ∃ found, upgradeAttempt? name start before.1 =
      some (revision, found)
  · obtain ⟨found, hattempt⟩ := hattempts
    exact (upgradeAttempt?_eq_some.mp hattempt).2.2.2.1
  · rw [noteAttempt_other (not_exists.mp hattempts)] at hfirst
    exact hknown revision content hfirst

/-- The backups stand after a start exactly if it attempted no upgrade or
found what the first attempt had found. -/
theorem backupsKept_step_iff (hbefore : AttemptsNoted name before)
    (hstep : startStep schema directory name before start = some after) :
    BackupsKept name after ↔ FindsFirstContent name before start := by
  obtain ⟨hfiles, hnoted⟩ := recording_eq_some.mp hstep
  have hfiles := Option.some.inj hfiles
  constructor
  · intro hkept revision content hattempt first hfirst
    have hstill : after.2 revision = some first := by
      rw [hnoted, noteAttempt_some hattempt, hfirst]
      exact Function.update_self _ _ _
    have hbackup := hkept revision first hstill
    rw [← hfiles, startupUpgrade_backup hattempt] at hbackup
    exact Option.some.inj hbackup
  · intro hfinds revision first hfirst
    rw [hnoted] at hfirst
    rw [← hfiles]
    by_cases hattempts : ∃ content, upgradeAttempt? name start before.1 =
        some (revision, content)
    · obtain ⟨content, hattempt⟩ := hattempts
      rw [noteAttempt_some hattempt, Function.update_self] at hfirst
      rw [startupUpgrade_backup hattempt]
      cases hearlier : before.2 revision with
      | none =>
          rw [hearlier, Option.getD_none] at hfirst
          exact hfirst
      | some earlier =>
          rw [hearlier, Option.getD_some] at hfirst
          rw [hfinds revision content hattempt earlier hearlier]
          exact hfirst
    · have hearlier : before.2 revision = some first := by
        rw [← hfirst, noteAttempt_other (not_exists.mp hattempts)]
      rw [startupUpgrade_otherBackup (hbefore.known revision first hearlier)
        (not_exists.mp hattempts)]
      exact hbefore.kept revision first hearlier

end

/-- Along every sequence of starts, each start leaves the backups and refused
databases as it should, exactly as long as no start attempts an upgrade from
a revision on a content other than the one the first attempt from it found. -/
theorem backups_are_kept_iff (schema : Schema T) (directory name : String)
    (files : DbFiles T) (starts : List Start) :
    EveryStep (startStep schema directory name)
        (StartKeeps schema directory name) (files, fun _ => none) starts ↔
      Admitted (startStep schema directory name) (FindsFirstContent name)
        (files, fun _ => none) starts := by
  have hinit : AttemptsNoted name
      ((files, fun _ => none) : DbFiles T × FirstAttempts T) :=
    ⟨nofun, nofun⟩
  refine everyStep_congr_of ?_ ?_ hinit starts
  · intro before start after hbefore hstep hkeeps
    exact ⟨known_step hbefore.known hstep, hkeeps.1⟩
  · intro before start after hbefore hstep
    rw [StartKeeps, backupsKept_step_iff hbefore hstep, and_iff_left]
    intro message herror
    obtain ⟨hfiles, _⟩ := recording_eq_some.mp hstep
    rw [← Option.some.inj hfiles]
    exact startupUpgrade_refused herror

end

/-- The columns of the job table, and the statements of the last script. -/
def addColumn (column : String) (columns : List String) :
    Option (List String) :=
  if column ∈ columns then none else some (columns ++ [column])

def dropColumn (column : String) (columns : List String) :
    Option (List String) :=
  if column ∈ columns then some (columns.erase column) else none

def jobColumns : Schema (List String) where
  blank := []
  statements := fun revision =>
    if revision = "d7c3a9e5f218" then
      [addColumn "clean_slate_album_id", addColumn "clean_slate_item_id",
        addColumn "clean_slate_allow_fewer_files",
        dropColumn "reimport_report_json", dropColumn "write_tags",
        dropColumn "move_files", dropColumn "singletons",
        dropColumn "query_json"]
    else []

/-- A database at the revision before the last. -/
def staleDatabase : DbFiles (List String) := fun name =>
  if name = "beetkeeper.db" then
    some ⟨some (some "b3f9d7c1e845"), ["reimport_report_json", "write_tags",
      "move_files", "singletons", "query_json"]⟩
  else none

/-- The first start is cut off after it has added one column; the second one
copies what is left over the backup. -/
theorem second_start_overwrites_backup :
    ¬ EveryStep (startStep jobColumns "/config" "beetkeeper.db")
      (StartKeeps jobColumns "/config" "beetkeeper.db")
      (staleDatabase, fun _ => none)
      [⟨true, some 2⟩, ⟨true, none⟩] := by
  intro hkeeps
  obtain ⟨_, hsecond⟩ := hkeeps _ rfl
  obtain ⟨⟨hkept, _⟩, _⟩ := hsecond _ rfl
  have hbackup := hkept (some "b3f9d7c1e845")
    ⟨some (some "b3f9d7c1e845"), ["reimport_report_json", "write_tags",
      "move_files", "singletons", "query_json"]⟩ (by decide)
  revert hbackup
  decide

end Beetkeeper
