import Starling.Foundation.Ddl

namespace Starling.Storage

/-!
# Schema migrations

`Db::migrate` runs the scripts that the stored version asks for and stamps the version
once, at the end.  Every statement commits on its own.  A process that dies in between
leaves a prefix of the scripts and the old version behind, and the next `Db::open` runs
them from the start.  The scripts of 0001 and 0004 can be repeated; the two `ALTER TABLE`
statements cannot.
-/

open Ddl List Statement SameSchema

/-! ## migrations/*.sql -/

def migration0001 : List Statement :=
  [.createTable "paired_owners"
      [⟨"pubkey", "BLOB PRIMARY KEY NOT NULL"⟩, ⟨"label", "TEXT"⟩, ⟨"paired_at", "INTEGER NOT NULL"⟩,
        ⟨"relay_onion_address", "TEXT NOT NULL"⟩, ⟨"local_port", "INTEGER NOT NULL UNIQUE"⟩,
        ⟨"storage_cap_bytes", "INTEGER"⟩] [],
    .createTable "pending_pairings" [⟨"token", "BLOB PRIMARY KEY NOT NULL"⟩, ⟨"created_at", "INTEGER NOT NULL"⟩,
        ⟨"expires_at", "INTEGER NOT NULL"⟩, ⟨"consumed_at", "INTEGER"⟩, ⟨"created_by", "TEXT NOT NULL"⟩,
        ⟨"label", "TEXT"⟩] [],
    .createIndex "idx_pending_pairings_expires" ⟨"pending_pairings", [("expires_at", false)]⟩,
    .createTable "served_events"
      [⟨"pubkey", "BLOB NOT NULL"⟩, ⟨"id", "TEXT NOT NULL"⟩, ⟨"created_at", "INTEGER NOT NULL"⟩,
        ⟨"msg_seq", "INTEGER NOT NULL"⟩, ⟨"nonce", "BLOB NOT NULL"⟩, ⟨"payload", "BLOB NOT NULL"⟩]
      ["PRIMARY KEY (pubkey, id)", "FOREIGN KEY (pubkey) REFERENCES paired_owners(pubkey) ON DELETE CASCADE"],
    .createIndex "idx_served_events_owner_time" ⟨"served_events", [("pubkey", false), ("created_at", true)]⟩,
    .createTable "served_media"
      [⟨"pubkey", "BLOB NOT NULL"⟩, ⟨"hash", "TEXT NOT NULL"⟩, ⟨"size", "INTEGER NOT NULL"⟩,
        ⟨"created_at", "INTEGER NOT NULL"⟩, ⟨"path", "TEXT NOT NULL"⟩]
      ["PRIMARY KEY (pubkey, hash)", "FOREIGN KEY (pubkey) REFERENCES paired_owners(pubkey) ON DELETE CASCADE"],
    .createTable "admin_credentials"
      [⟨"id", "INTEGER PRIMARY KEY CHECK (id = 1)"⟩, ⟨"password_hash", "TEXT NOT NULL"⟩,
        ⟨"updated_at", "INTEGER NOT NULL"⟩] []]

def migration0002 : List Statement :=
  [.addColumn "served_events" ⟨"size", "INTEGER NOT NULL DEFAULT 0"⟩ (.integer 0),
    .setLength "served_events" "size" "payload"]

def migration0003 : List Statement :=
  [.addColumn "served_events" ⟨"item_type", "TEXT NOT NULL DEFAULT 'event'"⟩ (.text "event")]

def migration0004 : List Statement :=
  [.createTable "voice_slots" [⟨"pubkey", "BLOB NOT NULL REFERENCES paired_owners(pubkey) ON DELETE CASCADE"⟩,
        ⟨"token_hash", "BLOB NOT NULL"⟩, ⟨"max_participants", "INTEGER"⟩,
        ⟨"updated_at", "INTEGER NOT NULL"⟩]
      ["PRIMARY KEY (pubkey, token_hash)"]]

/-! ## Db::migrate -/

def scripts (version : Int) : List Statement :=
  (if version < 1 then migration0001 else []) ++ (if version < 2 then migration0002 else []) ++
    (if version < 3 then migration0003 else []) ++ (if version < 4 then migration0004 else [])

def pending (version : Int) : List Statement := scripts version ++ [.setVersion 4]

def migrate (db : Ddl.Db) : Except Failure Ddl.Db := run Statement.exec db (pending db.userVersion)

theorem script_sublist (needed : Prop) [Decidable needed] (script : List Statement) :
    (if needed then script else []).Sublist script := by
  split
  · exact List.Sublist.refl script
  · exact nil_sublist script

theorem scripts_sublist (version : Int) : (scripts version).Sublist (scripts 0) :=
  (((script_sublist _ migration0001).append (script_sublist _ migration0002)).append
    (script_sublist _ migration0003)).append (script_sublist _ migration0004)

variable {column table : String} {db next final : Ddl.Db}

theorem unwritten_of_sublist {part whole : List Statement} (fewer : part.Sublist whole)
    (none : whole.any (writes table column) = false) :
    part.any (writes table column) = false := by
  rw [any_eq_false] at none ⊢
  exact fun statement member => none statement (fewer.subset member)

/-- The recorded sizes of the events are the lengths of their payloads. -/
def EventsSized (db : Ddl.Db) : Prop :=
  ∀ row ∈ db.rows "served_events", row.lookup "size" = some ((row.lookup "payload").getD .null).length

def EventsTyped (db : Ddl.Db) : Prop :=
  ∀ row ∈ db.rows "served_events", row.lookup "item_type" = some (.text "event")

theorem EventsSized.run {statements} (done : run exec db statements = .ok next)
    (unwritten : statements.any (writes "served_events" "size") = false ∧ statements.any
      (writes "served_events" "payload") = false) (sized : EventsSized db) : EventsSized next := by
  refine (Carries.run done).every ?_ sized
  intro row other kept holds
  rw [kept "size" unwritten.1, kept "payload" unwritten.2]
  exact holds

theorem EventsTyped.run {statements : List Statement} (done : run exec db statements = .ok next)
    (unwritten : statements.any (writes "served_events" "item_type") = false)
    (typed : EventsTyped db) : EventsTyped next := by
  refine (Carries.run done).every ?_ typed
  intro row other kept holds
  rw [kept "item_type" unwritten]
  exact holds

theorem sized_of_migrate (done : migrate db = .ok final) (sized : 2 ≤ db.userVersion -> EventsSized db) :
    EventsSized final := by
  unfold migrate pending scripts at done
  by_cases late : db.userVersion < 2
  · rw [if_pos late] at done
    -- The last statement of 0002 sets the sizes, and nothing after it touches them.
    have tail : (if db.userVersion < 1 then migration0001 else []) ++ migration0002 ++
        (if db.userVersion < 3 then migration0003 else []) ++
          (if db.userVersion < 4 then migration0004 else []) ++ [setVersion 4] =
        ((if db.userVersion < 1 then migration0001 else []) ++
          [.addColumn "served_events" ⟨"size", "INTEGER NOT NULL DEFAULT 0"⟩ (.integer 0)]) ++
        (.setLength "served_events" "size" "payload" :: (migration0003 ++ migration0004 ++ [.setVersion 4])) := by
      rw [if_pos (show db.userVersion < 3 by omega), if_pos (show db.userVersion < 4 by omega)]
      simp [migration0002]
    rw [tail] at done
    rcases run_of_append done with ⟨_, _, updated⟩
    rcases run_of_cons updated with ⟨_, update, rest⟩
    exact EventsSized.run rest (by decide) (length_of_setLength (by decide) update)
  · rw [if_neg late, if_neg (show ¬db.userVersion < 1 by omega)] at done
    -- Neither 0003 nor 0004 writes a size or a payload.
    have fewer : ((if db.userVersion < 3 then migration0003 else []) ++
        (if db.userVersion < 4 then migration0004 else []) ++ [setVersion 4]).Sublist
          (migration0003 ++ migration0004 ++ [.setVersion 4]) :=
      ((script_sublist _ migration0003).append (script_sublist _ migration0004)).append_right _
    exact EventsSized.run done ⟨unwritten_of_sublist fewer rfl, unwritten_of_sublist fewer rfl⟩ (sized (by omega))

theorem typed_of_migrate (done : migrate db = .ok final) (old : db.userVersion < 3) : EventsTyped final := by
  unfold migrate pending scripts at done
  rw [if_pos old, if_pos (show db.userVersion < 4 by omega), append_assoc, append_assoc] at done
  rcases run_of_append done with ⟨_, _, later⟩
  rcases run_of_cons later with ⟨_, added, rest⟩
  exact EventsTyped.run rest (by decide) (fill_of_addColumn added)

/-! ## Databases of every version -/

/-- Where a database comes from: a new file, a relay from before the versions, or a relay
that had stamped one of the versions. -/
inductive Origin where
  | fresh
  | unversioned
  | version1
  | version2
  | version3
  | version4

namespace Origin

def script : Origin -> List Statement
  | fresh => []
  | unversioned => migration0001
  | version1 => migration0001 ++ [.setVersion 1]
  | version2 => migration0001 ++ migration0002 ++ [.setVersion 2]
  | version3 => migration0001 ++ migration0002 ++ migration0003 ++ [.setVersion 3]
  | version4 => migration0001 ++ migration0002 ++ migration0003 ++ migration0004 ++ [.setVersion 4]

def model (origin : Origin) : Ddl.Db := finalState Statement.exec Ddl.Db.empty origin.script

end Origin

section

variable (version : Int)

/-- The process died before the first `ALTER TABLE`, or after the stamp. -/
def diesSafely (executed : Nat) : Bool :=
  ((pending version).take executed).all (fun statement => !statement.alters) ||
    decide ((pending version).length ≤ executed)

section

variable (origin : Origin)

/-- What becomes of the schema when the process dies after some statements and the database
is opened again: nothing if a statement failed already, and else whether it now has the
full schema. -/
def Origin.reopens (executed : Nat) : Option Bool :=
  match run Statement.exec origin.model ((pending origin.model.userVersion).take executed) with
  | .error _ => none
  | .ok cut =>
    match migrate cut with
    | .ok final => if final.outline = Origin.version4.model.outline then some true else none
    | .error _ => some false

theorem Origin.reopens_eq : ∀ executed, executed < 13 ->
      origin.reopens executed = some (diesSafely origin.model.userVersion executed) := by
  cases origin with
  | _ => decide +kernel

theorem Origin.targets_new : (pending origin.model.userVersion).all (fun statement =>
      match statement.target with
      | none => true
      | some (table, column) => decide (column ∉ origin.model.names table)) = true := by
  cases origin with
  | _ => decide +kernel

theorem Origin.columns_unwritten (present : column ∈ origin.model.names table) :
    (pending origin.model.userVersion).any (writes table column) = false := by
  rw [any_eq_false]
  intro statement member written
  have new := all_eq_true.mp origin.targets_new statement member
  rw [of_decide_eq_true written] at new
  exact of_decide_eq_true new present

/-- Before the first `ALTER TABLE` nothing is written at all. -/
theorem Origin.early_unwritten : ∀ executed, executed < 13 ->
      ((pending origin.model.userVersion).take executed).all (fun statement => !statement.alters) = true ->
        ((pending origin.model.userVersion).take executed).all (fun statement => statement.target = none) = true := by
  cases origin with
  | _ => decide +kernel

end

theorem pending_length : (pending version).length ≤ 12 := by
  have fewer := (scripts_sublist version).length_le
  have all : (scripts 0).length = 11 := rfl
  rw [pending, length_append, length_singleton]
  omega

/-! ## Opening again -/

structure Upgraded (start final : Ddl.Db) : Prop where
  schema : SameSchema final Origin.version4.model
  /-- Every row is still there with all its columns. -/
  rows : ∀ table, ∃ change : Row -> Row, final.rows table = (start.rows table).map change ∧
    ∀ row column, column ∈ start.names table -> (change row).lookup column = row.lookup column
  sized : EventsSized final
  typed : start.userVersion < 3 -> EventsTyped final

theorem take_pending (executed) : (pending version).take executed = (pending version).take (min executed 12) := by
  have length := pending_length version
  by_cases short : executed ≤ 12
  · rw [min_eq_left short]
  · rw [min_eq_right (by omega), take_of_length_le length, take_of_length_le (by omega)]

theorem diesSafely_min (executed) : diesSafely version executed = diesSafely version (min executed 12) := by
  have length := pending_length version
  have complete : (pending version).length ≤ executed ↔ (pending version).length ≤ min executed 12 := by omega
  rw [diesSafely, diesSafely, take_pending, decide_eq_decide.mpr complete]

end

theorem Origin.reopens_cases (origin : Origin) (executed : Nat) :
    ∃ cut, run exec origin.model ((pending origin.model.userVersion).take executed) = .ok cut ∧
      ((diesSafely origin.model.userVersion executed = true ∧
          ∃ final, migrate cut = .ok final ∧ SameSchema final version4.model) ∨
        (diesSafely origin.model.userVersion executed = false ∧ ∃ failure, migrate cut = .error failure)) := by
  have checked := origin.reopens_eq (min executed 12) (by omega)
  rw [take_pending, diesSafely_min]
  unfold reopens at checked
  split at checked
  · cases checked
  next cut reached =>
    refine ⟨cut, reached, ?_⟩
    split at checked
    next final migrated =>
      split at checked
      next same => exact .inl ⟨(Option.some.inj checked).symm, final, migrated, of_outline same⟩
      · cases checked
    next failure migrated => exact .inr ⟨(Option.some.inj checked).symm, failure, migrated⟩

theorem SameSchema.migrate {left right} (same : SameSchema left right) (done : migrate left = .ok next) :
    ∃ other, migrate right = .ok other ∧ SameSchema next other := by
  unfold Storage.migrate at done ⊢
  rw [← same.version]
  exact same.run done

theorem scripts_unstamped (version) : ∀ statement ∈ scripts version, statement.stamps = false := by
  have none : (scripts 0).all (fun statement => !statement.stamps) = true := rfl
  intro statement member
  have unstamped := all_eq_true.mp none statement ((scripts_sublist version).subset member)
  exact (Bool.not_eq_true' _).mp unstamped

theorem version_of_cut {cut executed} (early : executed < (pending db.userVersion).length)
    (reached : run exec db ((pending db.userVersion).take executed) = .ok cut) :
    cut.userVersion = db.userVersion := by
  rw [pending, length_append, length_singleton] at early
  rw [pending, take_append_of_le_length (by omega)] at reached
  exact version_of_run
    (fun statement member => scripts_unstamped db.userVersion statement (mem_of_mem_take member)) reached

theorem version_of_migrate (done : migrate db = .ok final) : final.userVersion = 4 := by
  rcases run_of_append done with ⟨_, _, stamped⟩
  cases stamped
  rfl

theorem columns_of_migrate {origin : Origin} (shape : SameSchema db origin.model)
    (present : column ∈ db.names table) :
    (pending db.userVersion).any (writes table column) = false := by
  rw [shape.version]
  apply origin.columns_unwritten
  rw [← shape.names table]
  exact present

theorem silent_of_safe {origin : Origin} (shape : SameSchema db origin.model) {executed}
    (early : executed < (pending db.userVersion).length) (safe : diesSafely db.userVersion executed = true)
    (table column : String) :
    ((pending db.userVersion).take executed).any (writes table column) = false := by
  have calm : ((pending db.userVersion).take executed).all (fun statement => !statement.alters) = true := by
    rw [diesSafely, decide_eq_false (not_le.mpr early), Bool.or_false] at safe
    exact safe
  rw [take_pending, shape.version] at calm ⊢
  have untargeted := origin.early_unwritten (min executed 12) (by omega) calm
  rw [any_eq_false]
  intro statement member written
  have none := of_decide_eq_true (all_eq_true.mp untargeted statement member)
  rw [of_decide_eq_true written] at none
  cases none

section Reopened

variable {origin : Origin} {db cut final : Ddl.Db} {executed : Nat}

section

variable (shape : SameSchema db origin.model)
include shape

theorem rows_of_reopen (reached : run exec db ((pending db.userVersion).take executed) = .ok cut)
    (done : migrate cut = .ok final) (later : ∀ table column, column ∈ db.names table ->
      (pending cut.userVersion).any (writes table column) = false) (table : String) :
    ∃ change : Row -> Row, final.rows table = (db.rows table).map change ∧
      ∀ row column, column ∈ db.names table -> (change row).lookup column = row.lookup column := by
  have toCut : Carries (fun table column => column ∉ db.names table) db cut := by
    apply (Carries.run reached).mono
    intro table column kept
    exact unwritten_of_sublist (take_sublist executed _)
      (columns_of_migrate shape (not_not.mp (of_decide_eq_false kept)))
  have toFinal : Carries (fun table column => column ∉ db.names table) cut final := by
    apply (Carries.run done).mono
    intro table column kept
    exact later table column (not_not.mp (of_decide_eq_false kept))
  rcases toCut.trans toFinal table with ⟨change, moved, kept⟩
  exact ⟨change, moved, fun row column present => kept row column (by simpa using present)⟩

theorem upgraded_of_stamped (sized : 2 ≤ db.userVersion -> EventsSized db)
    (reached : run exec db ((pending db.userVersion).take executed) = .ok cut)
    (complete : (pending db.userVersion).length ≤ executed) (done : migrate cut = .ok final)
    (schema : SameSchema final Origin.version4.model) : Upgraded db final := by
  have migrated : migrate db = .ok cut := by
    rw [take_of_length_le complete] at reached
    exact reached
  have four : cut.userVersion = 4 := version_of_migrate migrated
  have idle : ∀ table column, (pending cut.userVersion).any (writes table column) = false := by
    intro table column
    rw [four]
    rfl
  refine ⟨schema, ?_, ?_, ?_⟩
  · exact rows_of_reopen shape reached done (fun table column _ => idle table column)
  · exact sized_of_migrate done (fun _ => sized_of_migrate migrated sized)
  · intro old
    exact EventsTyped.run done (idle _ _) (typed_of_migrate migrated old)

theorem upgraded_of_early (sized : 2 ≤ db.userVersion -> EventsSized db)
    (reached : run exec db ((pending db.userVersion).take executed) = .ok cut)
    (early : executed < (pending db.userVersion).length) (safe : diesSafely db.userVersion executed = true)
    (done : migrate cut = .ok final) (schema : SameSchema final Origin.version4.model) :
    Upgraded db final := by
  have version := version_of_cut early reached
  have silent := silent_of_safe shape early safe
  refine ⟨schema, ?_, ?_, ?_⟩
  · apply rows_of_reopen shape reached done
    intro table column present
    rw [version]
    exact columns_of_migrate shape present
  · apply sized_of_migrate done
    intro recent
    exact EventsSized.run reached ⟨silent _ _, silent _ _⟩ (sized (version ▸ recent))
  · intro old
    exact typed_of_migrate done (version.symm ▸ old)

end

end Reopened

/-- A process that is killed after any number of statements leaves a database that opens
again, to the full schema with every row kept, sized and typed, exactly if it was killed
before the first `ALTER TABLE` or after the stamp. -/
theorem reopen_upgrades_iff (origin : Origin) (db : Ddl.Db) (shape : SameSchema db origin.model)
    (sized : 2 ≤ db.userVersion -> EventsSized db) (executed : Nat) :
    ∃ cut, run Statement.exec db ((pending db.userVersion).take executed) = .ok cut ∧
      ((∃ final, migrate cut = .ok final ∧ Upgraded db final) ↔ diesSafely db.userVersion executed = true) := by
  rcases origin.reopens_cases executed with ⟨_, modelReached, outcome⟩
  rw [← shape.version] at modelReached outcome
  rcases shape.symm.run modelReached with ⟨cut, reached, same⟩
  refine ⟨cut, reached, ?_⟩
  rcases outcome with ⟨safe, _, modelDone, full⟩ | ⟨risky, _, modelFailed⟩
  · refine iff_of_true ?_ safe
    rcases SameSchema.migrate same modelDone with ⟨final, done, sameFinal⟩
    have schema := sameFinal.symm.trans full
    refine ⟨final, done, ?_⟩
    by_cases complete : (pending db.userVersion).length ≤ executed
    · exact upgraded_of_stamped shape sized reached complete done schema
    · exact upgraded_of_early shape sized reached (Nat.lt_of_not_le complete) safe done schema
  · refine iff_of_false ?_ (by rw [risky]; exact Bool.false_ne_true)
    rintro ⟨_, done, _⟩
    rcases SameSchema.migrate same.symm done with ⟨_, modelDone, _⟩
    rw [modelFailed] at modelDone
    cases modelDone

def storedNotes : Ddl.Relation where
  columns :=
    [⟨"pubkey", "BLOB NOT NULL"⟩, ⟨"id", "TEXT NOT NULL"⟩, ⟨"created_at", "INTEGER NOT NULL"⟩,
      ⟨"msg_seq", "INTEGER NOT NULL"⟩, ⟨"nonce", "BLOB NOT NULL"⟩, ⟨"payload", "BLOB NOT NULL"⟩]
  constraints := ["PRIMARY KEY (pubkey, id)", "FOREIGN KEY (pubkey) REFERENCES paired_owners(pubkey) ON DELETE CASCADE"]
  rows := [((∅ : Ddl.Row).insert "id" (.text "n")).insert "payload" (.blob [1, 2, 3])]

def noteDb : Ddl.Db := Origin.version1.model.put "served_events" storedNotes

/-- The process is killed right after the first `ALTER TABLE`, and the database does not
open any more. -/
theorem killed_after_alter_stays_closed :
    (run Statement.exec noteDb ((pending noteDb.userVersion).take 1)).toBool = true ∧
      migrate (finalState Statement.exec noteDb ((pending noteDb.userVersion).take 1)) =
        .error (.duplicateColumn "size") := by
  constructor
  · decide +kernel
  · rfl

/-- Killed after the stamp, the database opens to the full schema. -/
theorem reopen_upgrades_iff_note :
    let all := (pending noteDb.userVersion).length
    diesSafely noteDb.userVersion all = true ∧
      ∃ cut, run Statement.exec noteDb ((pending noteDb.userVersion).take all) = .ok cut ∧
        ∃ final, migrate cut = .ok final ∧ Upgraded noteDb final := by
  intro all
  have safe : diesSafely noteDb.userVersion all = true := by decide +kernel
  have shape : SameSchema noteDb Origin.version1.model := by
    have found : Origin.version1.model.tables.lookup "served_events" = some { storedNotes with rows := [] } := rfl
    exact of_put found rfl
  rcases reopen_upgrades_iff Origin.version1 noteDb shape (fun late => absurd late (by decide +kernel)) all with
    ⟨cut, reached, opens⟩
  exact ⟨safe, cut, reached, opens.mpr safe⟩

end Starling.Storage
