/-
Scripts of schema statements over a database: what a script makes of the shape
of the tables does not depend on the rows, and a cell holds what the last
statement that touched its column put there.
-/
import Mathlib.Data.List.Forall2
import Mathlib.Logic.Function.Basic

universe u v

namespace SchemaScript

inductive SqlValue where
  | null
  | integer (n : Int)
  | text (text : String)
deriving Repr, DecidableEq

inductive ColumnType where
  | integer
  | string
  | dateTime
  | boolean
deriving Repr, DecidableEq

/-- A column; without a default, rows that are there already get `NULL`. -/
structure Column (C : Type u) where
  name : C
  type : ColumnType
  nullable : Bool
  serverDefault : Option SqlValue := none
deriving DecidableEq

def Column.fill {C : Type u} (column : Column C) : SqlValue :=
  column.serverDefault.getD .null

structure ForeignKey (T : Type v) (C : Type u) where
  column : C
  table : T
  target : C
  cascades : Bool
deriving DecidableEq

structure TableShape (T : Type v) (C : Type u) where
  columns : List (Column C)
  primaryKey : List C
  uniques : List (String × List C) := []
  foreignKeys : List (ForeignKey T C) := []
  indexes : List (String × List C) := []
deriving DecidableEq

abbrev Shape (T : Type v) (C : Type u) := List (T × TableShape T C)

abbrev Row (C : Type u) := C → SqlValue

structure Database (T : Type v) (C : Type u) where
  shape : Shape T C
  rows : T → List (Row C)

inductive Statement (T : Type v) (C : Type u) where
  | createTable (table : T) (shape : TableShape T C)
  | dropTable (table : T)
  | addColumn (table : T) (column : Column C)
  | dropColumn (table : T) (column : C)
  | createIndex (name : String) (table : T) (columns : List C)
  | dropIndex (name : String) (table : T)
deriving DecidableEq

variable {T : Type v} {C : Type u}

namespace TableShape

def names (shape : TableShape T C) : List C := shape.columns.map Column.name

/-- The columns a key or an index is made of. -/
def keyed (shape : TableShape T C) : List C :=
  shape.primaryKey ++ shape.uniques.flatMap Prod.snd ++
    shape.foreignKeys.map ForeignKey.column ++ shape.indexes.flatMap Prod.snd

end TableShape

variable [DecidableEq T] [DecidableEq C]

namespace Shape

def tables (shape : Shape T C) : List T := shape.map Prod.fst

def indexNames (shape : Shape T C) : List String :=
  shape.flatMap fun entry => entry.2.indexes.map Prod.fst

/-- The columns of a table, if it is there. -/
def columnsOf (shape : Shape T C) (table : T) : List (Column C) :=
  ((shape.lookup table).map TableShape.columns).getD []

def namesOf (shape : Shape T C) (table : T) : List C :=
  (shape.columnsOf table).map Column.name

/-- Change one table, if it is there and the change is not refused. -/
def alter (table : T) (change : TableShape T C → Option (TableShape T C)) :
    Shape T C → Option (Shape T C)
  | [] => none
  | (name, shape) :: rest =>
      if name = table then
        (change shape).map fun changed => (name, changed) :: rest
      else (alter table change rest).map ((name, shape) :: ·)

end Shape

namespace Statement

/-- What a statement makes of the tables; `none` where it is refused. -/
def onShape (statement : Statement T C) (shape : Shape T C) :
    Option (Shape T C) :=
  match statement with
  | createTable table new =>
      if table ∈ shape.tables then none else some (shape ++ [(table, new)])
  | dropTable table =>
      if table ∈ shape.tables then
        some (shape.filter fun entry => entry.1 ≠ table)
      else none
  | addColumn table column =>
      shape.alter table fun old =>
        -- a column that may not be NULL needs a default
        if column.name ∈ old.names ∨
            column.nullable = false ∧ column.serverDefault = none then none
        else some { old with columns := old.columns ++ [column] }
  | dropColumn table column =>
      shape.alter table fun old =>
        if column ∈ old.names ∧ column ∉ old.keyed then
          some { old with
            columns := old.columns.filter fun other => other.name ≠ column }
        else none
  | createIndex name table columns =>
      if name ∈ shape.indexNames then none
      else
        shape.alter table fun old =>
          if ∀ column ∈ columns, column ∈ old.names then
            some { old with indexes := old.indexes ++ [(name, columns)] }
          else none
  | dropIndex name table =>
      shape.alter table fun old =>
        if name ∈ old.indexes.map Prod.fst then
          some { old with
            indexes := old.indexes.filter fun index => index.1 ≠ name }
        else none

/-- What a statement makes of the rows. -/
def onRows (statement : Statement T C) (rows : T → List (Row C)) :
    T → List (Row C) :=
  match statement with
  | createTable table _ => Function.update rows table []
  | dropTable table => Function.update rows table []
  | addColumn table column =>
      Function.update rows table
        ((rows table).map fun row =>
          Function.update row column.name column.fill)
  | dropColumn table column =>
      Function.update rows table
        ((rows table).map fun row => Function.update row column .null)
  | createIndex _ _ _ => rows
  | dropIndex _ _ => rows

def run (statement : Statement T C) (database : Database T C) :
    Option (Database T C) :=
  (statement.onShape database.shape).map fun shape =>
    ⟨shape, statement.onRows database.rows⟩

end Statement

abbrev Script (T : Type v) (C : Type u) := List (Statement T C)

/-- Statement after statement, until one is refused. -/
def runScript : Script T C → Database T C → Option (Database T C)
  | [], database => some database
  | statement :: rest, database =>
      (statement.run database).bind (runScript rest)

def shapeAfter : Script T C → Shape T C → Option (Shape T C)
  | [], shape => some shape
  | statement :: rest, shape =>
      (statement.onShape shape).bind (shapeAfter rest)

def rowsAfter : Script T C → (T → List (Row C)) → T → List (Row C)
  | [], rows => rows
  | statement :: rest, rows => rowsAfter rest (statement.onRows rows)

/-- Rows decide neither whether a script is refused nor which tables it
leaves. -/
theorem runScript_eq (script : Script T C) (database : Database T C) :
    runScript script database =
      (shapeAfter script database.shape).map fun shape =>
        ⟨shape, rowsAfter script database.rows⟩ := by
  induction script generalizing database with
  | nil => rfl
  | cons statement rest ih =>
      rw [runScript, shapeAfter, Statement.run]
      cases statement.onShape database.shape with
      | none => rfl
      | some shape => exact ih ⟨shape, statement.onRows database.rows⟩

theorem runScript_of_shape {script : Script T C} {database : Database T C}
    {shape : Shape T C}
    (hshape : shapeAfter script database.shape = some shape) :
    runScript script database =
      some ⟨shape, rowsAfter script database.rows⟩ := by
  rw [runScript_eq, hshape, Option.map_some]

theorem shapeAfter_append (first second : Script T C) (shape : Shape T C) :
    shapeAfter (first ++ second) shape =
      (shapeAfter first shape).bind (shapeAfter second) := by
  induction first generalizing shape with
  | nil => rfl
  | cons statement rest ih =>
      rw [List.cons_append, shapeAfter, shapeAfter]
      cases statement.onShape shape with
      | none => rfl
      | some next => exact ih next

theorem runScript_append (first second : Script T C)
    (database : Database T C) :
    runScript (first ++ second) database =
      (runScript first database).bind (runScript second) := by
  induction first generalizing database with
  | nil => rfl
  | cons statement rest ih =>
      rw [List.cons_append, runScript, runScript]
      cases statement.run database with
      | none => rfl
      | some next => exact ih next

theorem rowsAfter_append (first second : Script T C)
    (rows : T → List (Row C)) :
    rowsAfter (first ++ second) rows =
      rowsAfter second (rowsAfter first rows) := by
  induction first generalizing rows with
  | nil => rfl
  | cons statement rest ih => exact ih _

/-- No rows outside the tables, and nothing in them outside the columns. -/
structure Database.Canonical (database : Database T C) : Prop where
  tables : ∀ table ∉ database.shape.tables, database.rows table = []
  columns : ∀ table, ∀ row ∈ database.rows table,
    ∀ name ∉ database.shape.namesOf table, row name = .null

section Cells

/-- The statement leaves the table empty. -/
def Statement.empties (statement : Statement T C) (table : T) : Bool :=
  match statement with
  | createTable name _ => decide (table = name)
  | dropTable name => decide (table = name)
  | _ => false

/-- What the statement puts into a column. -/
def Statement.touch? (statement : Statement T C) (table : T) (name : C) :
    Option SqlValue :=
  match statement with
  | addColumn other column =>
      if table = other ∧ name = column.name then some column.fill else none
  | dropColumn other column =>
      if table = other ∧ name = column then some .null else none
  | _ => none

/-- What the last statement that touches a column puts there. -/
def lastTouch : Script T C → T → C → Option SqlValue
  | [], _, _ => none
  | statement :: rest, table, name =>
      (lastTouch rest table name).or (statement.touch? table name)

/-- The columns of a table that a script touches. -/
def touched (script : Script T C) (table : T) : List C :=
  script.flatMap fun statement =>
    match statement with
    | .addColumn other column => if table = other then [column.name] else []
    | .dropColumn other column => if table = other then [column] else []
    | _ => []

theorem lastTouch_eq_none {script : Script T C} {table : T} {name : C}
    (hname : name ∉ touched script table) :
    lastTouch script table name = none := by
  induction script with
  | nil => rfl
  | cons statement rest ih =>
      rw [touched, List.flatMap_cons, List.mem_append, not_or] at hname
      obtain ⟨hhere, hrest⟩ := hname
      rw [lastTouch, ih hrest, Option.none_or]
      cases statement with
      | createTable other shape => rfl
      | dropTable other => rfl
      | addColumn other column =>
          refine if_neg ?_
          rintro ⟨rfl, rfl⟩
          simp at hhere
      | dropColumn other column =>
          refine if_neg ?_
          rintro ⟨rfl, rfl⟩
          simp at hhere
      | createIndex index other columns => rfl
      | dropIndex index other => rfl

theorem Statement.onRows_eq (statement : Statement T C)
    (rows : T → List (Row C)) (table : T) :
    statement.onRows rows table =
      if statement.empties table then []
      else (rows table).map fun row name =>
        (statement.touch? table name).getD (row name) := by
  cases statement with
  | createTable other shape =>
      by_cases htable : table = other
      · simp [onRows, empties, htable]
      · simp [onRows, empties, touch?, htable]
  | dropTable other =>
      by_cases htable : table = other
      · simp [onRows, empties, htable]
      · simp [onRows, empties, touch?, htable]
  | addColumn other column =>
      by_cases htable : table = other
      · subst htable
        have hrow : ∀ row : Row C,
            Function.update row column.name column.fill =
              fun name => ((addColumn table column).touch? table name).getD
                (row name) := by
          intro row
          funext name
          by_cases hname : name = column.name
          · simp [touch?, hname]
          · simp [touch?, hname]
        simp [onRows, empties, hrow]
      · simp [onRows, empties, touch?, htable]
  | dropColumn other column =>
      by_cases htable : table = other
      · subst htable
        have hrow : ∀ row : Row C,
            Function.update row column .null =
              fun name => ((dropColumn table column).touch? table name).getD
                (row name) := by
          intro row
          funext name
          by_cases hname : name = column
          · simp [touch?, hname]
          · simp [touch?, hname]
        simp [onRows, empties, hrow]
      · simp [onRows, empties, touch?, htable]
  | createIndex name other columns => simp [onRows, empties, touch?]
  | dropIndex name other => simp [onRows, empties, touch?]

/-- An empty table stays empty. -/
theorem rowsAfter_nil (script : Script T C) {rows : T → List (Row C)}
    {table : T} (hempty : rows table = []) :
    rowsAfter script rows table = [] := by
  induction script generalizing rows with
  | nil => exact hempty
  | cons statement rest ih =>
      apply ih
      rw [statement.onRows_eq, hempty]
      simp

theorem rowsAfter_of_empties {script : Script T C} {table : T}
    (hempties : ∃ statement ∈ script, statement.empties table = true)
    (rows : T → List (Row C)) : rowsAfter script rows table = [] := by
  induction script generalizing rows with
  | nil => simp at hempties
  | cons statement rest ih =>
      by_cases hhere : statement.empties table = true
      · have hempty : statement.onRows rows table = [] := by
          rw [statement.onRows_eq, if_pos hhere]
        exact rowsAfter_nil rest hempty
      · obtain ⟨other, hmem, hother⟩ := hempties
        rcases List.mem_cons.mp hmem with rfl | hrest
        · exact absurd hother hhere
        · exact ih ⟨other, hrest, hother⟩ _

/-- A cell holds what the last statement that touched it put there. -/
theorem rowsAfter_eq {script : Script T C} {table : T}
    (hkept : ∀ statement ∈ script, statement.empties table = false)
    (rows : T → List (Row C)) :
    rowsAfter script rows table =
      (rows table).map fun row name =>
        (lastTouch script table name).getD (row name) := by
  induction script generalizing rows with
  | nil => simp [rowsAfter, lastTouch]
  | cons statement rest ih =>
      obtain ⟨hhere, hrest⟩ := List.forall_mem_cons.mp hkept
      rw [rowsAfter, ih hrest, statement.onRows_eq, hhere,
        if_neg Bool.false_ne_true, List.map_map]
      apply List.map_congr_left
      intro row _
      funext name
      rw [Function.comp_apply, lastTouch]
      cases lastTouch rest table name with
      | none => rfl
      | some value => rfl

/-- Row for row, what holds of a row and of what the script makes of it. -/
theorem forall₂_rowsAfter {script : Script T C} {table : T}
    {rows : T → List (Row C)} {P : Row C → Row C → Prop}
    (hkept : ∀ statement ∈ script, statement.empties table = false)
    (hrow : ∀ row ∈ rows table,
      P row fun name => (lastTouch script table name).getD (row name)) :
    List.Forall₂ P (rows table) (rowsAfter script rows table) := by
  rw [rowsAfter_eq hkept, List.forall₂_map_right_iff, List.forall₂_same]
  exact hrow

end Cells

end SchemaScript
