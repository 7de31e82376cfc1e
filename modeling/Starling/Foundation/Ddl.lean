import Starling.Foundation.Run
import Starling.Foundation.Table

namespace Starling.Ddl

open Option Table AList

/-!
# Statements that define data

A small model of the SQL that schema scripts use.  A relation has declared columns and
rows, and a row has a value for each column by name.  Every statement commits on its own
or fails and changes nothing.

Two facts separate the schema from the rows.  Whether a statement succeeds, and what it
does to the schema, depends on the schema alone, so a script can be tried out on empty
tables.  And a statement carries every row along, changing at most the column that it
writes.
-/

inductive Value where
  | null
  | integer (value : Int)
  | text (value : String)
  | blob (bytes : List UInt8)

/-- `LENGTH`: the characters of a text before its first NUL, the bytes of a blob. -/
def Value.length : Value -> Value
  | .null => .null
  | .integer value => .integer (toString value).length
  | .text value => .integer (value.toList.takeWhile (fun char => char.toNat ≠ 0)).length
  | .blob bytes => .integer bytes.length

abbrev Row := Table String Value

structure Column where
  name : String
  declaration : String
  deriving DecidableEq

structure Relation where
  columns : List Column
  constraints : List String
  rows : List Row

namespace Relation

def names (relation : Relation) : List String := relation.columns.map Column.name

/-- What is left of a relation without its rows. -/
def schema (relation : Relation) : List Column × List String := (relation.columns, relation.constraints)

theorem names_of_schema {left right : Relation} (same : left.schema = right.schema) :
    left.names = right.names := congrArg (fun schema => schema.1.map Column.name) same

end Relation

structure Index where
  table : String
  columns : List (String × Bool)
  deriving DecidableEq

structure Db where
  tables : Table String Relation
  indexes : Table String Index
  userVersion : Int

namespace Db

def empty : Db := ⟨∅, ∅, 0⟩

def put (db : Db) (name : String) (relation : Relation) : Db :=
  { db with tables := db.tables.insert name relation }

def rows (db : Db) (name : String) : List Row := ((db.tables.lookup name).map Relation.rows).getD []

def names (db : Db) (name : String) : List String := ((db.tables.lookup name).map Relation.names).getD []

theorem lookup_put (db : Db) (name other) (relation : Relation) : (db.put name relation).tables.lookup other =
      if other = name then some relation else db.tables.lookup other :=
  lookup_insert_eq db.tables name other relation

theorem rows_put (db : Db) (name other) (relation : Relation) :
    (db.put name relation).rows other = if other = name then relation.rows else db.rows other := by
  rw [rows, lookup_put]
  split <;> rfl

end Db

inductive Statement where
  /-- `CREATE TABLE IF NOT EXISTS`. -/
  | createTable (name : String) (columns : List Column) (constraints : List String)
  /-- `CREATE INDEX IF NOT EXISTS`. -/
  | createIndex (name : String) (index : Index)
  /-- `ALTER TABLE … ADD COLUMN … DEFAULT …`. -/
  | addColumn (table : String) (column : Column) (fill : Value)
  /-- `UPDATE … SET column = LENGTH(source)`. -/
  | setLength (table column source : String)
  /-- `PRAGMA user_version = …`. -/
  | setVersion (version : Int)

inductive Failure where
  | noSuchTable (name : String)
  | noSuchColumn (name : String)
  | duplicateColumn (name : String)

namespace Statement

def exec (db : Db) : Statement -> Except Failure Db
  | createTable name columns constraints =>
    .ok (if name ∈ db.tables then db else db.put name ⟨columns, constraints, []⟩)
  | createIndex name index =>
    if name ∈ db.indexes then .ok db
    else
      match db.tables.lookup index.table with
      | none => .error (.noSuchTable index.table)
      | some relation =>
        match index.columns.find? (fun column => column.1 ∉ relation.names) with
        | some column => .error (.noSuchColumn column.1)
        | none => .ok { db with indexes := db.indexes.insert name index }
  | addColumn table column fill =>
    match db.tables.lookup table with
    | none => .error (.noSuchTable table)
    | some relation =>
      if column.name ∈ relation.names then .error (.duplicateColumn column.name)
      else
        .ok (db.put table ⟨relation.columns ++ [column], relation.constraints,
            relation.rows.map (fun row => row.insert column.name fill)⟩)
  | setLength table column source =>
    match db.tables.lookup table with
    | none => .error (.noSuchTable table)
    | some relation =>
      if column ∉ relation.names then .error (.noSuchColumn column)
      else if source ∉ relation.names then .error (.noSuchColumn source)
      else
        .ok (db.put table { relation with
            rows := relation.rows.map (fun row =>
              row.insert column ((row.lookup source).getD .null).length) })
  | setVersion version => .ok { db with userVersion := version }

/-- The table and the column that a statement writes. -/
def target : Statement -> Option (String × String)
  | addColumn table column _ => some (table, column.name)
  | setLength table column _ => some (table, column)
  | _ => none

def writes (table column : String) (statement : Statement) : Bool := decide (statement.target = some (table, column))

/-- `PRAGMA user_version`. -/
def stamps : Statement -> Bool
  | setVersion _ => true
  | _ => false

/-- `ALTER TABLE`. -/
def alters : Statement -> Bool
  | addColumn _ _ _ => true
  | _ => false

end Statement

/-! ## The schema evolves by itself -/

structure SameSchema (left right : Db) : Prop where
  tables : ∀ name, (left.tables.lookup name).map Relation.schema = (right.tables.lookup name).map Relation.schema
  indexes : ∀ name, left.indexes.lookup name = right.indexes.lookup name
  version : left.userVersion = right.userVersion

namespace SameSchema

variable {left right : Db}

theorem trans {third} (first : SameSchema left right) (second : SameSchema right third) : SameSchema left third :=
  ⟨fun name => (first.tables name).trans (second.tables name),
    fun name => (first.indexes name).trans (second.indexes name), first.version.trans second.version⟩

theorem symm (same : SameSchema left right) : SameSchema right left :=
  ⟨fun name => (same.tables name).symm, fun name => (same.indexes name).symm, same.version.symm⟩

theorem names (same : SameSchema left right) (name : String) : left.names name = right.names name := by
  have columns := congrArg
    (fun schema => (schema.map (fun parts : List Column × List String => parts.1.map Column.name)).getD [])
    (same.tables name)
  simp only [map_map] at columns
  exact columns

variable {name : String} {relation : Relation}

section

variable (same : SameSchema left right)
include same

theorem lookup (found : left.tables.lookup name = some relation) :
    ∃ other, right.tables.lookup name = some other ∧ relation.schema = other.schema := by
  have tables := same.tables name
  rw [found] at tables
  rcases map_eq_some_iff.mp tables.symm with ⟨other, atName, equal⟩
  exact ⟨other, atName, equal.symm⟩

theorem mem_tables (member : name ∈ left.tables) : name ∈ right.tables := by
  rcases mem_iff_lookup.mp member with ⟨_, found⟩
  rcases same.lookup found with ⟨other, atName, _⟩
  exact mem_iff_lookup.mpr ⟨other, atName⟩

theorem mem_indexes (member : name ∈ left.indexes) : name ∈ right.indexes := by
  rw [mem_iff_lookup] at member ⊢
  rw [← same.indexes name]
  exact member

theorem put (name : String) {other} (equal : relation.schema = other.schema) :
    SameSchema (left.put name relation) (right.put name other) := by
  refine ⟨?_, same.indexes, same.version⟩
  intro looked
  rw [Db.lookup_put, Db.lookup_put]
  split
  · rw [map_some, map_some, equal]
  · exact same.tables looked

end

theorem of_put {db next} (found : db.tables.lookup name = some relation)
    (equal : next.schema = relation.schema) : SameSchema (db.put name next) db := by
  refine ⟨?_, fun _ => rfl, rfl⟩
  intro looked
  rw [Db.lookup_put]
  split
  next here => rw [here, found, map_some, map_some, equal]
  · rfl

theorem exec (same : SameSchema left right) {statement} {next : Db} (done : Statement.exec left statement = .ok next) :
    ∃ other, Statement.exec right statement = .ok other ∧ SameSchema next other := by
  cases statement with
  | createTable name =>
    cases done
    refine ⟨_, rfl, ?_⟩
    by_cases present : name ∈ left.tables
    · rw [if_pos present, if_pos (same.mem_tables present)]
      exact same
    · rw [if_neg present, if_neg (fun member => present (same.symm.mem_tables member))]
      exact same.put name rfl
  | createIndex name index =>
    simp only [Statement.exec] at done ⊢
    by_cases present : name ∈ left.indexes
    · rw [if_pos present] at done
      rw [if_pos (same.mem_indexes present)]
      cases done
      exact ⟨right, rfl, same⟩
    · rw [if_neg present] at done
      rw [if_neg (fun member => present (same.symm.mem_indexes member))]
      cases found : left.tables.lookup index.table with
      | none => simp only [found, reduceCtorEq] at done
      | some =>
        rcases same.lookup found with ⟨_, atRight, equal⟩
        simp only [found, atRight, ← Relation.names_of_schema equal] at done ⊢
        split at done
        · cases done
        · cases done
          refine ⟨_, rfl, same.tables, ?_, same.version⟩
          intro looked
          simp [lookup_insert_eq, same.indexes looked]
  | addColumn table =>
    simp only [Statement.exec] at done ⊢
    cases found : left.tables.lookup table with
    | none => simp only [found, reduceCtorEq] at done
    | some relation =>
      rcases same.lookup found with ⟨other, atRight, equal⟩
      simp only [found, atRight, ← Relation.names_of_schema equal] at done ⊢
      split at done
      · cases done
      next new =>
        cases done
        rw [if_neg new]
        have columns : relation.columns = other.columns := congrArg Prod.fst equal
        have constraints : relation.constraints = other.constraints := congrArg Prod.snd equal
        refine ⟨_, rfl, same.put table ?_⟩
        simp [Relation.schema, columns, constraints]
  | setLength table =>
    simp only [Statement.exec] at done ⊢
    cases found : left.tables.lookup table with
    | none => simp only [found, reduceCtorEq] at done
    | some =>
      rcases same.lookup found with ⟨_, atRight, equal⟩
      simp only [found, atRight, ← Relation.names_of_schema equal] at done ⊢
      split at done
      · cases done
      next known =>
        split at done
        · cases done
        next readable =>
          cases done
          rw [if_neg known, if_neg readable]
          exact ⟨_, rfl, same.put table equal⟩
  | setVersion =>
    cases done
    exact ⟨_, rfl, same.tables, same.indexes, rfl⟩

theorem run (same : SameSchema left right) {statements next} (done : run Statement.exec left statements = .ok next) :
    ∃ other, Starling.run Statement.exec right statements = .ok other ∧ SameSchema next other := by
  induction statements generalizing left right with
  | nil =>
    cases done
    exact ⟨right, rfl, same⟩
  | cons statement rest ih =>
    rcases run_of_cons done with ⟨_, first, later⟩
    rcases same.exec first with ⟨_, atRight, sameMiddle⟩
    rw [run_cons_ok rest atRight]
    exact ih sameMiddle later

end SameSchema

structure Outline where
  tables : List (String × List Column × List String)
  indexes : List (String × Index)
  version : Int
  deriving DecidableEq

def Db.outline (db : Db) : Outline where
  tables := db.tables.entries.map (fun entry => (entry.1, entry.2.schema))
  indexes := db.indexes.entries.map (fun entry => (entry.1, entry.2))
  version := db.userVersion

theorem mem_view_iff {K V W : Type} [DecidableEq K] {table : Table K V} {view key} {value : W} :
    (table.lookup key).map view = some value ↔
      (key, value) ∈ table.entries.map (fun entry => (entry.1, view entry.2)) := by
  rw [map_eq_some_iff, List.mem_map]
  constructor
  · rintro ⟨stored, found, rfl⟩
    exact ⟨⟨key, stored⟩, lookup_eq_some_iff.mp found, rfl⟩
  · rintro ⟨⟨_, stored⟩, member, equal⟩
    cases equal
    exact ⟨stored, lookup_eq_some_iff.mpr member, rfl⟩

theorem SameSchema.of_outline {left right : Db} (same : left.outline = right.outline) : SameSchema left right := by
  have tables := congrArg Outline.tables same
  have indexes := congrArg Outline.indexes same
  refine ⟨?_, ?_, congrArg Outline.version same⟩
  · intro name
    apply Option.ext
    intro schema
    rw [mem_view_iff, mem_view_iff]
    exact iff_of_eq (congrArg (fun list => (name, schema) ∈ list) tables)
  · intro name
    apply Option.ext
    intro index
    have whole : ∀ db : Db, db.indexes.lookup name = (db.indexes.lookup name).map (fun index => index) :=
      fun _ => map_id'.symm
    rw [whole left, whole right, mem_view_iff, mem_view_iff]
    exact iff_of_eq (congrArg (fun list => (name, index) ∈ list) indexes)

/-! ## Rows are carried along -/

/-- Every table keeps its rows in order, and a row keeps all columns but the written
ones. -/
def Carries (written : String -> String -> Bool) (before after : Db) : Prop :=
  ∀ name, ∃ change : Row -> Row, after.rows name = (before.rows name).map change ∧
    ∀ row column, written name column = false -> (change row).lookup column = row.lookup column

namespace Carries

theorem refl (written : String -> String -> Bool) (db : Db) : Carries written db db := by
  intro name
  exact ⟨id, (List.map_id _).symm, fun _ _ _ => rfl⟩

variable {written : String -> String -> Bool} {after before db : Db}

theorem trans {first second third} (left : Carries written first second)
    (right : Carries written second third) : Carries written first third := by
  intro name
  rcases left name with ⟨change, moved, kept⟩
  rcases right name with ⟨later, movedLater, keptLater⟩
  refine ⟨later ∘ change, ?_, ?_⟩
  · rw [movedLater, moved, List.map_map]
  · intro row column unwritten
    exact (keptLater (change row) column unwritten).trans (kept row column unwritten)

theorem mono {more} (carries : Carries written before after)
    (fewer : ∀ name column, more name column = false -> written name column = false) :
    Carries more before after := by
  intro name
  rcases carries name with ⟨change, moved, kept⟩
  exact ⟨change, moved, fun row column unwritten => kept row column (fewer name column unwritten)⟩

theorem put {table relation next} (found : db.tables.lookup table = some relation)
    {change} (moved : next.rows = relation.rows.map change)
    (kept : ∀ row column, written table column = false -> (change row).lookup column = row.lookup column) :
    Carries written db (db.put table next) := by
  have atTable : db.rows table = relation.rows := by
    rw [Db.rows, found]
    rfl
  intro name
  by_cases here : name = table
  · subst here
    refine ⟨change, ?_, kept⟩
    rw [Db.rows_put, if_pos rfl, moved, atTable]
  · refine ⟨id, ?_, fun _ _ _ => rfl⟩
    rw [Db.rows_put, if_neg here, List.map_id]

theorem of_rows (same : ∀ name, after.rows name = before.rows name) : Carries written before after := by
  intro name
  exact ⟨id, (same name).trans (List.map_id _).symm, fun _ _ _ => rfl⟩

theorem exec {next statement} (done : Statement.exec db statement = .ok next) :
    Carries (fun table column => statement.writes table column) db next := by
  cases statement with
  | createTable =>
    cases done
    split
    · exact refl _ db
    next absent =>
      apply of_rows
      intro other
      rw [Db.rows_put]
      split
      next here =>
        rw [here, Db.rows, lookup_eq_none.mpr absent]
        rfl
      · rfl
  | createIndex =>
    simp only [Statement.exec] at done
    split at done
    · cases done
      exact refl _ db
    · split at done
      · cases done
      · split at done
        · cases done
        · cases done
          exact of_rows (fun _ => rfl)
  | addColumn table column =>
    simp only [Statement.exec] at done
    split at done
    · cases done
    next found =>
      split at done
      · cases done
      · cases done
        refine put found rfl ?_
        intro row other unwritten
        have apart : other ≠ column.name := by
          intro same
          exact of_decide_eq_false unwritten (congrArg (fun name => some (table, name)) same.symm)
        rw [lookup_insert_ne apart]
  | setLength table column =>
    simp only [Statement.exec] at done
    split at done
    · cases done
    next found =>
      split at done
      · cases done
      · split at done
        · cases done
        · cases done
          refine put found rfl ?_
          intro row other unwritten
          have apart : other ≠ column := by
            intro same
            exact of_decide_eq_false unwritten (congrArg (fun name => some (table, name)) same.symm)
          rw [lookup_insert_ne apart]
  | setVersion =>
    cases done
    exact of_rows (fun _ => rfl)

theorem run {statements next} (done : run Statement.exec db statements = .ok next) :
    Carries (fun table column => statements.any (Statement.writes table column)) db next := by
  induction statements generalizing db with
  | nil =>
    cases done
    exact refl _ _
  | cons statement rest ih =>
    rcases run_of_cons done with ⟨middle, first, later⟩
    have atFirst : Carries (fun table column => (statement :: rest).any (Statement.writes table column)) db middle := by
      apply (exec first).mono
      intro table column unwritten
      rw [List.any_cons, Bool.or_eq_false_iff] at unwritten
      exact unwritten.1
    have atRest : Carries (fun table column => (statement :: rest).any (Statement.writes table column))
        middle next := by
      apply (ih later).mono
      intro table column unwritten
      rw [List.any_cons, Bool.or_eq_false_iff] at unwritten
      exact unwritten.2
    exact atFirst.trans atRest

theorem every (carries : Carries written before after) {table} {fact : Row -> Prop}
    (reads : ∀ row other : Row, (∀ column, written table column = false -> other.lookup column =
      row.lookup column) -> fact row -> fact other) (holds : ∀ row ∈ before.rows table, fact row) :
    ∀ row ∈ after.rows table, fact row := by
  rcases carries table with ⟨change, moved, kept⟩
  intro row member
  rw [moved] at member
  rcases List.mem_map.mp member with ⟨old, present, rfl⟩
  exact reads old (change old) (fun column unwritten => kept old column unwritten) (holds old present)

end Carries

variable {db next : Db}

theorem version_of_exec {statement} (unstamped : statement.stamps = false)
    (done : Statement.exec db statement = .ok next) : next.userVersion = db.userVersion := by
  cases statement with
  | createTable =>
    cases done
    split <;> rfl
  | createIndex =>
    simp only [Statement.exec] at done
    split at done
    · cases done
      rfl
    · split at done
      · cases done
      · split at done
        · cases done
        · cases done
          rfl
  | addColumn =>
    simp only [Statement.exec] at done
    split at done
    · cases done
    · split at done
      · cases done
      · cases done
        rfl
  | setLength =>
    simp only [Statement.exec] at done
    split at done
    · cases done
    · split at done
      · cases done
      · split at done
        · cases done
        · cases done
          rfl
  | setVersion => cases unstamped

theorem version_of_run {statements} (unstamped : ∀ statement ∈ statements, statement.stamps = false)
    (done : run Statement.exec db statements = .ok next) : next.userVersion = db.userVersion := by
  induction statements generalizing db with
  | nil =>
    cases done
    rfl
  | cons statement rest ih =>
    rcases run_of_cons done with ⟨_, first, later⟩
    rw [ih (fun other member => unstamped other (List.mem_cons_of_mem _ member)) later]
    exact version_of_exec (unstamped statement List.mem_cons_self) first

/-! ## What the two writing statements establish -/

theorem fill_of_addColumn {table column fill} (done : Statement.exec db (.addColumn table column fill) = .ok next) :
    ∀ row ∈ next.rows table, row.lookup column.name = some fill := by
  simp only [Statement.exec] at done
  split at done
  · cases done
  · split at done
    · cases done
    · cases done
      intro row member
      rw [Db.rows_put, if_pos rfl] at member
      rcases List.mem_map.mp member with ⟨old, _, rfl⟩
      exact lookup_insert old

theorem length_of_setLength {table column source} (apart : source ≠ column)
    (done : Statement.exec db (.setLength table column source) = .ok next) : ∀ row ∈ next.rows table,
      row.lookup column = some ((row.lookup source).getD .null).length := by
  simp only [Statement.exec] at done
  split at done
  · cases done
  · split at done
    · cases done
    · split at done
      · cases done
      · cases done
        intro row member
        rw [Db.rows_put, if_pos rfl] at member
        rcases List.mem_map.mp member with ⟨_, _, rfl⟩
        rw [lookup_insert, lookup_insert_ne apart]

end Starling.Ddl
