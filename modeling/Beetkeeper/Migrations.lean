/-
The migration scripts of beetkeeper's database, and what bringing a database
to head and back does to its tables and to their rows.
-/
import Beetkeeper.SchemaScript
import Beetkeeper.StartupUpgrade

namespace Beetkeeper

open SchemaScript

inductive DbTable where
  | listenerEvent
  | albumEvent
  | trackEvent
  | importJob
  | importLock
  | authSession
  | importSourcePath
  | importDestinationPath
  | inferredSourcePath
deriving Repr, DecidableEq

inductive DbColumn where
  | id
  | eventId
  | eventType
  | pushedAt
  | listenerEventId
  | beetsAlbumId
  | beetsItemId
  | albumName
  | trackTitle
  | status
  | pathsJson
  | createdAt
  | updatedAt
  | claimedBy
  | error
  | abortRequested
  | pendingDecisionJson
  | submittedDecisionJson
  | output
  | quiet
  | logpath
  | groupAlbums
  | flat
  | setFieldsJson
  | holder
  | leaseExpiresAt
  | tokenHash
  | expiresAt
  | sourcePath
  | destinationPath
  | queryJson
  | singletons
  | moveFiles
  | writeTags
  | reimportReportJson
  | subjectType
  | beetsId
  | method
  | queryParamsJson
  | inferredAt
  | cleanSlateAlbumId
  | cleanSlateItemId
  | cleanSlateAllowFewerFiles
deriving Repr, DecidableEq

abbrev DbScript := Script DbTable DbColumn

abbrev DbShape := Shape DbTable DbColumn

abbrev Db := Database DbTable DbColumn

/-- A migration script. -/
structure Migration where
  revision : Revision
  upgrade : DbScript
  downgrade : DbScript

section Scripts

def notNull (name : DbColumn) (type : ColumnType) : Column DbColumn :=
  ⟨name, type, false, none⟩

def nullable (name : DbColumn) (type : ColumnType) : Column DbColumn :=
  ⟨name, type, true, none⟩

/-- `server_default=sa.text("0")`. -/
def defaultZero (name : DbColumn) : Column DbColumn :=
  ⟨name, .boolean, false, some (.integer 0)⟩

/-- The reference of a child table to its event. -/
def toListenerEvent : ForeignKey DbTable DbColumn :=
  ⟨.listenerEventId, .listenerEvent, .eventId, true⟩

def initialEventTables : Migration where
  revision := "7f3051110f7f"
  upgrade :=
    [.createTable .listenerEvent
      { columns := [notNull .eventId .integer, notNull .eventType .string,
          notNull .pushedAt .dateTime]
        primaryKey := [.eventId] },
      .createTable .albumEvent
      { columns := [notNull .id .integer, nullable .listenerEventId .integer,
          notNull .beetsAlbumId .integer]
        primaryKey := [.id]
        foreignKeys := [toListenerEvent] },
      .createTable .trackEvent
      { columns := [notNull .id .integer, nullable .listenerEventId .integer,
          notNull .beetsItemId .integer, nullable .beetsAlbumId .integer]
        primaryKey := [.id]
        foreignKeys := [toListenerEvent] }]
  downgrade :=
    [.dropTable .trackEvent, .dropTable .albumEvent, .dropTable .listenerEvent]

def importJobPersistenceTables : Migration where
  revision := "bcdd3073515d"
  upgrade :=
    [.createTable .importJob
      { columns := [notNull .id .string, notNull .status .string,
          notNull .pathsJson .string, notNull .createdAt .dateTime,
          notNull .updatedAt .dateTime, nullable .claimedBy .string,
          nullable .error .string, notNull .abortRequested .boolean,
          nullable .pendingDecisionJson .string,
          nullable .submittedDecisionJson .string]
        primaryKey := [.id] },
      .createTable .importLock
      { columns := [notNull .id .integer, nullable .holder .string,
          nullable .leaseExpiresAt .dateTime]
        primaryKey := [.id] }]
  downgrade := [.dropTable .importLock, .dropTable .importJob]

def importJobOutputColumn : Migration where
  revision := "c7a2f4e1b9d0"
  upgrade := [.addColumn .importJob (nullable .output .string)]
  downgrade := [.dropColumn .importJob .output]

def importJobQuietColumn : Migration where
  revision := "e2b9f4c1a307"
  upgrade := [.addColumn .importJob (defaultZero .quiet)]
  downgrade := [.dropColumn .importJob .quiet]

def importJobSettingsColumns : Migration where
  revision := "f5d81c9a4b26"
  upgrade :=
    [.addColumn .importJob (nullable .logpath .string),
      .addColumn .importJob (defaultZero .groupAlbums),
      .addColumn .importJob (defaultZero .flat),
      .addColumn .importJob (nullable .setFieldsJson .string)]
  downgrade :=
    [.dropColumn .importJob .setFieldsJson, .dropColumn .importJob .flat,
      .dropColumn .importJob .groupAlbums, .dropColumn .importJob .logpath]

def authSessionTable : Migration where
  revision := "d4e8a2c6b1f3"
  upgrade :=
    [.createTable .authSession
      { columns := [notNull .tokenHash .string, notNull .createdAt .dateTime,
          notNull .expiresAt .dateTime]
        primaryKey := [.tokenHash] }]
  downgrade := [.dropTable .authSession]

def importPathTables : Migration where
  revision := "b6e0f3a9c512"
  upgrade :=
    [.createTable .importSourcePath
      { columns := [notNull .id .integer, nullable .listenerEventId .integer,
          notNull .sourcePath .string]
        primaryKey := [.id]
        foreignKeys := [toListenerEvent] },
      .createTable .importDestinationPath
      { columns := [notNull .id .integer, nullable .listenerEventId .integer,
          notNull .destinationPath .string]
        primaryKey := [.id]
        foreignKeys := [toListenerEvent] }]
  downgrade := [.dropTable .importDestinationPath, .dropTable .importSourcePath]

def eventTableIndexes : Migration where
  revision := "c8d1a4f7b923"
  upgrade :=
    [.createIndex "ix_listener_event_pushed_at_event_id" .listenerEvent
        [.pushedAt, .eventId],
      .createIndex "ix_album_event_listener_event_id" .albumEvent
        [.listenerEventId],
      .createIndex "ix_album_event_beets_album_id" .albumEvent [.beetsAlbumId],
      .createIndex "ix_track_event_listener_event_id" .trackEvent
        [.listenerEventId],
      .createIndex "ix_track_event_beets_item_id" .trackEvent [.beetsItemId],
      .createIndex "ix_import_source_path_listener_event_id" .importSourcePath
        [.listenerEventId],
      .createIndex "ix_import_destination_path_listener_event_id"
        .importDestinationPath [.listenerEventId]]
  downgrade :=
    [.dropIndex "ix_import_destination_path_listener_event_id"
        .importDestinationPath,
      .dropIndex "ix_import_source_path_listener_event_id" .importSourcePath,
      .dropIndex "ix_track_event_beets_item_id" .trackEvent,
      .dropIndex "ix_track_event_listener_event_id" .trackEvent,
      .dropIndex "ix_album_event_beets_album_id" .albumEvent,
      .dropIndex "ix_album_event_listener_event_id" .albumEvent,
      .dropIndex "ix_listener_event_pushed_at_event_id" .listenerEvent]

def eventSubjectNameColumns : Migration where
  revision := "e1b7d5c2a984"
  upgrade :=
    [.addColumn .albumEvent (nullable .albumName .string),
      .addColumn .trackEvent (nullable .trackTitle .string),
      .addColumn .trackEvent (nullable .albumName .string)]
  downgrade :=
    [.dropColumn .trackEvent .albumName, .dropColumn .trackEvent .trackTitle,
      .dropColumn .albumEvent .albumName]

def importJobReimportColumns : Migration where
  revision := "a9c4e7d2f610"
  upgrade :=
    [.addColumn .importJob (nullable .queryJson .string),
      .addColumn .importJob (defaultZero .singletons),
      .addColumn .importJob (nullable .moveFiles .boolean),
      .addColumn .importJob (nullable .writeTags .boolean),
      .addColumn .importJob (nullable .reimportReportJson .string)]
  downgrade :=
    [.dropColumn .importJob .reimportReportJson,
      .dropColumn .importJob .writeTags, .dropColumn .importJob .moveFiles,
      .dropColumn .importJob .singletons, .dropColumn .importJob .queryJson]

def inferredSourcePathTable : Migration where
  revision := "b3f9d7c1e845"
  upgrade :=
    [.createTable .inferredSourcePath
      { columns := [notNull .id .integer, notNull .subjectType .string,
          notNull .beetsId .integer, notNull .sourcePath .string,
          notNull .method .string, nullable .queryParamsJson .string,
          notNull .inferredAt .dateTime]
        primaryKey := [.id]
        uniques :=
          [("uq_inferred_source_path_subject", [.subjectType, .beetsId])] }]
  downgrade := [.dropTable .inferredSourcePath]

/-- The columns of the clean slate replace those of the reimport. -/
def importJobCleanSlate : Migration where
  revision := "d7c3a9e5f218"
  upgrade :=
    [.addColumn .importJob (nullable .cleanSlateAlbumId .integer),
      .addColumn .importJob (nullable .cleanSlateItemId .integer),
      .addColumn .importJob (defaultZero .cleanSlateAllowFewerFiles),
      .dropColumn .importJob .reimportReportJson,
      .dropColumn .importJob .writeTags, .dropColumn .importJob .moveFiles,
      .dropColumn .importJob .singletons, .dropColumn .importJob .queryJson]
  downgrade :=
    [.addColumn .importJob (nullable .queryJson .string),
      .addColumn .importJob (defaultZero .singletons),
      .addColumn .importJob (nullable .moveFiles .boolean),
      .addColumn .importJob (nullable .writeTags .boolean),
      .addColumn .importJob (nullable .reimportReportJson .string),
      .dropColumn .importJob .cleanSlateAllowFewerFiles,
      .dropColumn .importJob .cleanSlateItemId,
      .dropColumn .importJob .cleanSlateAlbumId]

def migrations : List Migration :=
  [initialEventTables, importJobPersistenceTables, importJobOutputColumn,
    importJobQuietColumn, importJobSettingsColumns, authSessionTable,
    importPathTables, eventTableIndexes, eventSubjectNameColumns,
    importJobReimportColumns, inferredSourcePathTable, importJobCleanSlate]

example : migrations.map Migration.revision = revisionChain := rfl

end Scripts

section Models

/-- The tables `SQLModel.metadata` describes. -/
def modelTables : DbShape :=
  [(.listenerEvent,
      { columns := [notNull .eventId .integer, notNull .eventType .string,
          notNull .pushedAt .dateTime]
        primaryKey := [.eventId]
        indexes := [("ix_listener_event_pushed_at_event_id",
          [.pushedAt, .eventId])] }),
    (.albumEvent,
      { columns := [notNull .id .integer, nullable .listenerEventId .integer,
          notNull .beetsAlbumId .integer, nullable .albumName .string]
        primaryKey := [.id]
        foreignKeys := [toListenerEvent]
        indexes := [("ix_album_event_listener_event_id", [.listenerEventId]),
          ("ix_album_event_beets_album_id", [.beetsAlbumId])] }),
    (.trackEvent,
      { columns := [notNull .id .integer, nullable .listenerEventId .integer,
          notNull .beetsItemId .integer, nullable .beetsAlbumId .integer,
          nullable .trackTitle .string, nullable .albumName .string]
        primaryKey := [.id]
        foreignKeys := [toListenerEvent]
        indexes := [("ix_track_event_listener_event_id", [.listenerEventId]),
          ("ix_track_event_beets_item_id", [.beetsItemId])] }),
    (.importSourcePath,
      { columns := [notNull .id .integer, nullable .listenerEventId .integer,
          notNull .sourcePath .string]
        primaryKey := [.id]
        foreignKeys := [toListenerEvent]
        indexes := [("ix_import_source_path_listener_event_id",
          [.listenerEventId])] }),
    (.importDestinationPath,
      { columns := [notNull .id .integer, nullable .listenerEventId .integer,
          notNull .destinationPath .string]
        primaryKey := [.id]
        foreignKeys := [toListenerEvent]
        indexes := [("ix_import_destination_path_listener_event_id",
          [.listenerEventId])] }),
    (.inferredSourcePath,
      { columns := [notNull .id .integer, notNull .subjectType .string,
          notNull .beetsId .integer, notNull .sourcePath .string,
          notNull .method .string, nullable .queryParamsJson .string,
          notNull .inferredAt .dateTime]
        primaryKey := [.id]
        uniques :=
          [("uq_inferred_source_path_subject", [.subjectType, .beetsId])] }),
    (.authSession,
      { columns := [notNull .tokenHash .string, notNull .createdAt .dateTime,
          notNull .expiresAt .dateTime]
        primaryKey := [.tokenHash] }),
    (.importJob,
      { columns := [notNull .id .string, notNull .status .string,
          notNull .pathsJson .string, notNull .createdAt .dateTime,
          notNull .updatedAt .dateTime, nullable .claimedBy .string,
          nullable .error .string, notNull .abortRequested .boolean,
          notNull .quiet .boolean, nullable .logpath .string,
          notNull .groupAlbums .boolean, notNull .flat .boolean,
          nullable .setFieldsJson .string,
          nullable .cleanSlateAlbumId .integer,
          nullable .cleanSlateItemId .integer,
          notNull .cleanSlateAllowFewerFiles .boolean,
          nullable .pendingDecisionJson .string,
          nullable .submittedDecisionJson .string, nullable .output .string]
        primaryKey := [.id] }),
    (.importLock,
      { columns := [notNull .id .integer, nullable .holder .string,
          nullable .leaseExpiresAt .dateTime]
        primaryKey := [.id] })]

/-- The tables of a database, as far as the models describe them: in whatever
order, without the defaults. -/
structure TableAgrees (table model : TableShape DbTable DbColumn) : Prop where
  columns : (table.columns.map fun column =>
    { column with serverDefault := none }).Perm model.columns
  primaryKey : table.primaryKey = model.primaryKey
  uniques : table.uniques.Perm model.uniques
  foreignKeys : table.foreignKeys.Perm model.foreignKeys
  indexes : table.indexes.Perm model.indexes

instance (table model : TableShape DbTable DbColumn) :
    Decidable (TableAgrees table model) :=
  decidable_of_iff
    ((table.columns.map fun column =>
        { column with serverDefault := none }).Perm model.columns ∧
      table.primaryKey = model.primaryKey ∧
      table.uniques.Perm model.uniques ∧
      table.foreignKeys.Perm model.foreignKeys ∧
      table.indexes.Perm model.indexes)
    ⟨fun ⟨hcolumns, hkey, huniques, hforeign, hindexes⟩ =>
        ⟨hcolumns, hkey, huniques, hforeign, hindexes⟩,
      fun hagrees => ⟨hagrees.columns, hagrees.primaryKey, hagrees.uniques,
        hagrees.foreignKeys, hagrees.indexes⟩⟩

/-- The tables are those of the models. -/
def AgreesWithModels (shape : DbShape) : Prop :=
  shape.tables.Perm modelTables.tables ∧
    ∀ entry ∈ shape, ∀ model ∈ modelTables,
      entry.1 = model.1 → TableAgrees entry.2 model.2

instance (shape : DbShape) : Decidable (AgreesWithModels shape) :=
  inferInstanceAs (Decidable (_ ∧ _))

end Models

section Rows

/-- A row after an upgrade: what both sets of columns have is unchanged, what
is new holds its default. -/
structure CarriedOver (before after : DbShape) (table : DbTable)
    (old new : Row DbColumn) : Prop where
  kept : ∀ name ∈ before.namesOf table, name ∈ after.namesOf table →
    new name = old name
  filled : ∀ column ∈ after.columnsOf table,
    column.name ∉ before.namesOf table → new column.name = column.fill

/-- Every row is carried over, and new tables are empty. -/
structure RowsCarriedOver (before after : Db) : Prop where
  carried : ∀ table ∈ before.shape.tables,
    List.Forall₂ (CarriedOver before.shape after.shape table)
      (before.rows table) (after.rows table)
  fresh : ∀ table ∈ after.shape.tables, table ∉ before.shape.tables →
    after.rows table = []

/-- A row after an upgrade and the downgrade back: only the columns that were
dropped on the way have lost what they held. -/
structure Restored (before head : DbShape) (table : DbTable)
    (old new : Row DbColumn) : Prop where
  kept : ∀ name, name ∈ head.namesOf table ∨ name ∉ before.namesOf table →
    new name = old name
  lost : ∀ column ∈ before.columnsOf table,
    column.name ∉ head.namesOf table → new column.name = column.fill

end Rows

section Chain

/-- How many scripts a database of this revision has seen. -/
def scriptCount : Option Revision → Nat
  | none => 0
  | some revision => revisionChain.idxOf revision + 1

def upgradeScript (scripts : List Migration) : DbScript :=
  scripts.flatMap Migration.upgrade

/-- The scripts are reverted from the last one on. -/
def downgradeScript (scripts : List Migration) : DbScript :=
  scripts.reverse.flatMap Migration.downgrade

/-- The tables the first scripts make. -/
def shapeAt (count : Nat) : DbShape :=
  (shapeAfter (upgradeScript (migrations.take count)) []).getD []

theorem shapeAfter_take (count : Nat) :
    shapeAfter (upgradeScript (migrations.take count)) [] =
        some (shapeAt count) ∧
      shapeAfter (upgradeScript (migrations.drop count)) (shapeAt count) =
        some (shapeAt migrations.length) := by
  have hall : shapeAfter (upgradeScript migrations) [] =
      some (shapeAt migrations.length) := by decide +kernel
  have hsplit : upgradeScript migrations =
      upgradeScript (migrations.take count) ++
        upgradeScript (migrations.drop count) := by
    rw [upgradeScript, upgradeScript, upgradeScript, ← List.flatMap_append,
      List.take_append_drop]
  rw [hsplit, shapeAfter_append] at hall
  rw [shapeAt]
  cases hfirst : shapeAfter (upgradeScript (migrations.take count)) [] with
  | none =>
      rw [hfirst] at hall
      cases hall
  | some shape =>
      rw [hfirst] at hall
      exact ⟨rfl, hall⟩

theorem shapeAfter_downgrade {count : Nat} (hcount : count ≤ 12) :
    shapeAfter (downgradeScript (migrations.drop count))
        (shapeAt migrations.length) = some (shapeAt count) := by
  have hall : ∀ n : Fin 13,
      shapeAfter (downgradeScript (migrations.drop n.val))
        (shapeAt migrations.length) = some (shapeAt n.val) := by
    decide +kernel
  exact hall ⟨count, by omega⟩

theorem head_agrees : AgreesWithModels (shapeAt migrations.length) := by
  decide +kernel

/-- What the pending scripts do to the tables there are and to those to
come. -/
structure UpgradeTouches (count : Nat) (table : DbTable) : Prop where
  kept : ∀ name ∈ (shapeAt count).namesOf table,
    name ∈ (shapeAt migrations.length).namesOf table →
      lastTouch (upgradeScript (migrations.drop count)) table name = none
  filled : ∀ column ∈ (shapeAt migrations.length).columnsOf table,
    column.name ∉ (shapeAt count).namesOf table →
      lastTouch (upgradeScript (migrations.drop count)) table column.name =
        some column.fill

theorem upgrade_touches {count : Nat} (hcount : count ≤ 12) {table : DbTable}
    (htable : table ∈ (shapeAt count).tables) :
    (∀ statement ∈ upgradeScript (migrations.drop count),
        statement.empties table = false) ∧ UpgradeTouches count table := by
  have hempties : ∀ n : Fin 13, ∀ table ∈ (shapeAt n.val).tables,
      ∀ statement ∈ upgradeScript (migrations.drop n.val),
        statement.empties table = false := by decide +kernel
  have hkept : ∀ n : Fin 13, ∀ table ∈ (shapeAt n.val).tables,
      ∀ name ∈ (shapeAt n.val).namesOf table,
        name ∈ (shapeAt migrations.length).namesOf table →
          lastTouch (upgradeScript (migrations.drop n.val)) table name =
            none := by decide +kernel
  have hfilled : ∀ n : Fin 13, ∀ table ∈ (shapeAt n.val).tables,
      ∀ column ∈ (shapeAt migrations.length).columnsOf table,
        column.name ∉ (shapeAt n.val).namesOf table →
          lastTouch (upgradeScript (migrations.drop n.val)) table
            column.name = some column.fill := by decide +kernel
  have hlt : count < 13 := by omega
  exact ⟨hempties ⟨count, hlt⟩ table htable,
    hkept ⟨count, hlt⟩ table htable, hfilled ⟨count, hlt⟩ table htable⟩

theorem upgrade_creates {count : Nat} (hcount : count ≤ 12) {table : DbTable}
    (hhead : table ∈ (shapeAt migrations.length).tables)
    (hnew : table ∉ (shapeAt count).tables) :
    ∃ statement ∈ upgradeScript (migrations.drop count),
      statement.empties table = true := by
  have hall : ∀ n : Fin 13, ∀ table ∈ (shapeAt migrations.length).tables,
      table ∉ (shapeAt n.val).tables →
        ∃ statement ∈ upgradeScript (migrations.drop n.val),
          statement.empties table = true := by decide +kernel
  exact hall ⟨count, by omega⟩ table hhead hnew

end Chain

section Startup

/-- The upgrade script of a revision. -/
def scriptOf (revision : Revision) : DbScript :=
  ((migrations.find? fun script => script.revision = revision).map
    Migration.upgrade).getD []

/-- The schema of beetkeeper's database, and the statements of each script. -/
def beetkeeperSchema : Schema Db where
  blank := ⟨[], fun _ => []⟩
  statements revision := (scriptOf revision).map Statement.run

theorem pendingRevisions_eq {current : Option Revision}
    (hknown : Known current) :
    pendingRevisions current = revisionChain.drop (scriptCount current) ∧
      scriptCount current ≤ 12 ∧
      (pendingRevisions current = [] → current = revisionChain.getLast?) := by
  cases current with
  | none => exact ⟨rfl, by decide, by decide⟩
  | some revision =>
      have hall : ∀ revision ∈ revisionChain,
          pendingRevisions (some revision) =
              revisionChain.drop (scriptCount (some revision)) ∧
            scriptCount (some revision) ≤ 12 ∧
            (pendingRevisions (some revision) = [] →
              some revision = revisionChain.getLast?) := by decide +kernel
      exact hall revision (hknown revision rfl)

theorem flatMap_scriptOf (count : Nat) :
    (revisionChain.drop count).flatMap scriptOf =
      upgradeScript (migrations.drop count) := by
  have hall : revisionChain.map scriptOf =
      migrations.map Migration.upgrade := by decide +kernel
  rw [upgradeScript, List.flatMap_def, List.flatMap_def, List.map_drop, hall,
    List.map_drop]

/-- A script that is not refused is executed to its end. -/
theorem runStatements_run {script : DbScript} {tables after : Db}
    (hrun : runScript script tables = some after) :
    runStatements (script.map Statement.run) none tables =
      (after, some none) := by
  induction script generalizing tables with
  | nil =>
      obtain rfl := Option.some.inj hrun
      rfl
  | cons statement rest ih =>
      rw [runScript] at hrun
      obtain ⟨next, hnext, hrest⟩ := Option.bind_eq_some_iff.mp hrun
      rw [List.map_cons, runStatements, hnext]
      · exact ih hrest
      · rintro ⟨⟩

/-- The induction is on the revisions that are pending. -/
theorem upgradeThrough_run {revisions : List Revision}
    (content : DbContent Db) {after : Db}
    (hrun : runScript (revisions.flatMap scriptOf) content.tables =
      some after) :
    upgradeThrough beetkeeperSchema revisions none content =
      (⟨revisions.getLast?.elim content.versionTable fun last =>
        some (some last), after⟩, true) := by
  induction revisions generalizing content with
  | nil =>
      obtain rfl := Option.some.inj hrun
      rfl
  | cons revision rest ih =>
      rw [List.flatMap_cons, runScript_append] at hrun
      obtain ⟨next, hnext, hrest⟩ := Option.bind_eq_some_iff.mp hrun
      have hscript : runStatements (beetkeeperSchema.statements revision) none
          content.tables = (next, some none) := runStatements_run hnext
      rw [upgradeThrough, hscript]
      have hlater := ih ⟨some (some revision), next⟩ hrest
      simp only [hlater]
      cases rest with
      | nil => rfl
      | cons other rest => rfl

/-- What the pending scripts make of the tables of a revision. -/
theorem runScript_pending {count : Nat} (hcount : count ≤ 12) {tables : Db}
    (hshape : tables.shape = shapeAt count) :
    ∃ after, runScript (upgradeScript (migrations.drop count)) tables =
        some after ∧
      AgreesWithModels after.shape ∧ RowsCarriedOver tables after := by
  have hafter := (shapeAfter_take count).2
  rw [← hshape] at hafter
  refine ⟨_, runScript_of_shape hafter, head_agrees, ?_, ?_⟩
  · intro table htable
    rw [hshape] at htable
    obtain ⟨hkept, htouches⟩ := upgrade_touches hcount htable
    apply forall₂_rowsAfter hkept
    intro row _
    refine ⟨?_, ?_⟩
    · intro name hname hhead
      rw [hshape] at hname
      simp only [htouches.kept name hname hhead, Option.getD_none]
    · intro column hcolumn hnew
      rw [hshape] at hnew
      simp only [htouches.filled column hcolumn hnew, Option.getD_some]
  · intro table hhead hnew
    rw [hshape] at hnew
    exact rowsAfter_of_empties (upgrade_creates hcount hhead hnew) _

theorem upgrade_known {content : DbContent Db}
    (hknown : Known content.revision)
    (hshape : content.tables.shape = shapeAt (scriptCount content.revision)) :
    ∃ after : DbContent Db,
      content.upgrade beetkeeperSchema none = (after, true) ∧
      after.revision = revisionChain.getLast? ∧
      AgreesWithModels after.tables.shape ∧
      RowsCarriedOver content.tables after.tables := by
  obtain ⟨hpending, hcount, hempty⟩ := pendingRevisions_eq hknown
  obtain ⟨tables, hrun, hagrees, hcarried⟩ :=
    runScript_pending hcount hshape
  have hscripts : runScript ((pendingRevisions content.revision).flatMap
      scriptOf) content.tables = some tables := by
    rw [hpending, flatMap_scriptOf, hrun]
  have hupgrade : content.upgrade beetkeeperSchema none = _ :=
    upgradeThrough_run ⟨some content.revision, content.tables⟩ hscripts
  refine ⟨_, hupgrade, ?_, hagrees, hcarried⟩
  by_cases hlast : (pendingRevisions content.revision).getLast? = none
  · rw [hlast]
    exact hempty (List.getLast?_eq_none_iff.mp hlast)
  · have hsame : (pendingRevisions content.revision).getLast? =
        revisionChain.getLast? := by
      rw [hpending, List.getLast?_drop] at hlast ⊢
      split at hlast
      · exact absurd rfl hlast
      · rename_i hmore
        rw [if_neg hmore]
    rw [hsame]
    rfl

/-- Starting the server on a database of any known revision, or on none, with
whatever rows in its tables: it does not fail, the tables are then those of
the models, and every row has been carried over. -/
theorem start_brings_tables_to_models (directory name : String)
    (files : DbFiles Db)
    (hknown : Known (contentOf beetkeeperSchema name files).revision)
    (hshape : (contentOf beetkeeperSchema name files).tables.shape =
      shapeAt (scriptCount
        (contentOf beetkeeperSchema name files).revision)) :
    ∃ (later : DbFiles Db) (after : DbContent Db),
      startupUpgrade beetkeeperSchema directory name ⟨true, none⟩ files =
        (later, .ok ()) ∧
      later name = some after ∧
      after.revision = revisionChain.getLast? ∧
      AgreesWithModels after.tables.shape ∧
      RowsCarriedOver (contentOf beetkeeperSchema name files).tables
        after.tables := by
  by_cases hcurrent : (contentOf beetkeeperSchema name files).revision =
      revisionChain.getLast?
  · obtain ⟨_, hcount, _⟩ := pendingRevisions_eq hknown
    obtain ⟨tables, hrun, hagrees, hcarried⟩ := runScript_pending hcount hshape
    have hdone : migrations.drop (scriptCount revisionChain.getLast?) = [] :=
      rfl
    rw [hcurrent, hdone] at hrun
    obtain rfl := Option.some.inj hrun
    rw [startupUpgrade, if_pos hcurrent]
    exact ⟨_, _, rfl, Function.update_self _ _ _, hcurrent, hagrees, hcarried⟩
  · obtain ⟨after, hupgrade, hhead, hagrees, hcarried⟩ :=
      upgrade_known hknown hshape
    rw [startupUpgrade, if_neg hcurrent, if_neg (not_not.mpr hknown),
      if_neg (by decide), hupgrade]
    exact ⟨_, after, rfl, Function.update_self _ _ _, hhead, hagrees,
      hcarried⟩

/-- A database at the first revision, with one event in it. -/
def oldEvent : Row DbColumn := fun column =>
  match column with
  | .eventId => .integer 1
  | .eventType => .text "album_removed"
  | .pushedAt => .text "2026-01-01 00:00:00.000000"
  | _ => .null

def oldDatabase : DbFiles Db := fun name =>
  if name = "beetkeeper.db" then
    some ⟨some (some "7f3051110f7f"), shapeAt 1, fun table =>
      if table = .listenerEvent then [oldEvent] else []⟩
  else none

theorem start_brings_old_database_to_models :
    ∃ (later : DbFiles Db) (after : DbContent Db),
      startupUpgrade beetkeeperSchema "/config" "beetkeeper.db" ⟨true, none⟩
          oldDatabase = (later, .ok ()) ∧
      later "beetkeeper.db" = some after ∧
      after.revision = revisionChain.getLast? ∧
      AgreesWithModels after.tables.shape ∧
      RowsCarriedOver (contentOf beetkeeperSchema "beetkeeper.db"
        oldDatabase).tables after.tables :=
  start_brings_tables_to_models "/config" "beetkeeper.db" oldDatabase
    (by decide) rfl

end Startup

section Downgrade

/-- What going to head and back does to a column: it is left alone, or it did
not exist before, or the way to head dropped it. -/
theorem round_trip_touches {count : Nat} (hcount : count ≤ 12)
    {table : DbTable} (htable : table ∈ (shapeAt count).tables) :
    (∀ statement ∈ upgradeScript (migrations.drop count) ++
        downgradeScript (migrations.drop count),
      statement.empties table = false) ∧
    (∀ name ∈ touched (upgradeScript (migrations.drop count) ++
        downgradeScript (migrations.drop count)) table,
      (name ∈ (shapeAt migrations.length).namesOf table ∨
          name ∉ (shapeAt count).namesOf table) →
        lastTouch (upgradeScript (migrations.drop count) ++
          downgradeScript (migrations.drop count)) table name = some .null ∧
        name ∉ (shapeAt count).namesOf table) ∧
    ∀ column ∈ (shapeAt count).columnsOf table,
      column.name ∉ (shapeAt migrations.length).namesOf table →
        lastTouch (upgradeScript (migrations.drop count) ++
          downgradeScript (migrations.drop count)) table column.name =
            some column.fill := by
  have hempties : ∀ n : Fin 13, ∀ table ∈ (shapeAt n.val).tables,
      ∀ statement ∈ upgradeScript (migrations.drop n.val) ++
          downgradeScript (migrations.drop n.val),
        statement.empties table = false := by decide +kernel
  have hnew : ∀ n : Fin 13, ∀ table ∈ (shapeAt n.val).tables,
      ∀ name ∈ touched (upgradeScript (migrations.drop n.val) ++
          downgradeScript (migrations.drop n.val)) table,
        (name ∈ (shapeAt migrations.length).namesOf table ∨
            name ∉ (shapeAt n.val).namesOf table) →
          lastTouch (upgradeScript (migrations.drop n.val) ++
            downgradeScript (migrations.drop n.val)) table name =
              some .null ∧
          name ∉ (shapeAt n.val).namesOf table := by decide +kernel
  have hlost : ∀ n : Fin 13, ∀ table ∈ (shapeAt n.val).tables,
      ∀ column ∈ (shapeAt n.val).columnsOf table,
        column.name ∉ (shapeAt migrations.length).namesOf table →
          lastTouch (upgradeScript (migrations.drop n.val) ++
            downgradeScript (migrations.drop n.val)) table column.name =
              some column.fill := by decide +kernel
  have hlt : count < 13 := by omega
  exact ⟨hempties ⟨count, hlt⟩ table htable, hnew ⟨count, hlt⟩ table htable,
    hlost ⟨count, hlt⟩ table htable⟩

/-- Downgrading a database that has been upgraded to head gives it back as it
was: the same tables with the same rows, but for the columns that are dropped
on the way to head, which come back with their defaults. -/
theorem downgrade_undoes_upgrade (current : Option Revision) (before : Db)
    (hknown : Known current)
    (hshape : before.shape = shapeAt (scriptCount current))
    (hcanonical : before.Canonical) :
    ∃ head restored : Db,
      runScript (upgradeScript (migrations.drop (scriptCount current)))
          before = some head ∧
      runScript (downgradeScript (migrations.drop (scriptCount current)))
          head = some restored ∧
      restored.shape = before.shape ∧
      ∀ table, List.Forall₂ (Restored before.shape head.shape table)
        (before.rows table) (restored.rows table) := by
  obtain ⟨_, hcount, _⟩ := pendingRevisions_eq hknown
  have hup := (shapeAfter_take (scriptCount current)).2
  have hdown := shapeAfter_downgrade hcount
  rw [← hshape] at hup hdown
  refine ⟨⟨_, rowsAfter _ before.rows⟩,
    ⟨_, rowsAfter _ (rowsAfter _ before.rows)⟩, runScript_of_shape hup,
    runScript_of_shape hdown, rfl, ?_⟩
  intro table
  simp only [← rowsAfter_append]
  by_cases htable : table ∈ before.shape.tables
  · have hthere := htable
    rw [hshape] at hthere
    obtain ⟨hkept, hnew, hlost⟩ := round_trip_touches hcount hthere
    apply forall₂_rowsAfter hkept
    intro row hrow
    refine ⟨?_, ?_⟩
    · intro name hname
      by_cases htouched : name ∈ touched
          (upgradeScript (migrations.drop (scriptCount current)) ++
            downgradeScript (migrations.drop (scriptCount current))) table
      · have hname' := hname
        rw [hshape] at hname'
        obtain ⟨hnull, habsent⟩ := hnew name htouched hname'
        rw [← hshape] at habsent
        rw [hnull, hcanonical.columns table row hrow name habsent]
        rfl
      · rw [lastTouch_eq_none htouched]
        rfl
    · intro column hcolumn hdropped
      rw [hshape] at hcolumn
      rw [hlost column hcolumn hdropped]
      rfl
  · rw [rowsAfter_nil _ (hcanonical.tables table htable),
      hcanonical.tables table htable]
    exact List.Forall₂.nil

/-- A job that was a reimport of singletons. -/
def reimportJob : Row DbColumn := fun column =>
  match column with
  | .id => .text "7"
  | .singletons => .integer 1
  | _ => .null

/-- The database before the last script. -/
def reimportDatabase : Db where
  shape := shapeAt 11
  rows table := if table = .importJob then [reimportJob] else []

theorem reimportDatabase_canonical : reimportDatabase.Canonical where
  tables table htable := by
    have hother : table ≠ .importJob := by
      rintro rfl
      exact absurd htable (by decide +kernel)
    exact if_neg hother
  columns table row hrow name hname := by
    by_cases hjob : table = .importJob
    · subst hjob
      obtain rfl : row = reimportJob := List.mem_singleton.mp hrow
      have hid : name ≠ .id := by
        rintro rfl
        exact absurd hname (by decide +kernel)
      have hsingletons : name ≠ .singletons := by
        rintro rfl
        exact absurd hname (by decide +kernel)
      unfold reimportJob
      split
      · exact absurd rfl hid
      · exact absurd rfl hsingletons
      · rfl
    · have hrows : reimportDatabase.rows table = [] := if_neg hjob
      rw [hrows] at hrow
      cases hrow

/-- The job comes back, and is no reimport of singletons any more. -/
theorem downgrade_undoes_upgrade_reimport :
    ∃ head restored : Db,
      runScript (upgradeScript (migrations.drop
          (scriptCount (some "b3f9d7c1e845")))) reimportDatabase = some head ∧
      runScript (downgradeScript (migrations.drop
          (scriptCount (some "b3f9d7c1e845")))) head = some restored ∧
      restored.shape = reimportDatabase.shape ∧
      ∀ table, List.Forall₂
        (Restored reimportDatabase.shape head.shape table)
        (reimportDatabase.rows table) (restored.rows table) :=
  downgrade_undoes_upgrade (some "b3f9d7c1e845") reimportDatabase (by decide)
    rfl reimportDatabase_canonical

end Downgrade

end Beetkeeper
