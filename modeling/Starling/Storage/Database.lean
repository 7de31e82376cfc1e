import Mathlib.Algebra.Ring.Int.Defs
import Starling.Foundation.Table
import Starling.Wire.Bytes

namespace Starling.Storage

open Table AList

/-!
# The relay's database

The tables of `migrations/*.sql` and the access functions over them.  A primary key
is the key of its table, so no two rows share one.  The foreign keys and the unique
port of `paired_owners` are enforced by SQLite and are fields of `Database` here: a
database that breaks them cannot be built, and an insertion that would break them
fails.
-/

structure PairedOwner where
  label : Option String
  pairedAt : Int
  relayOnionAddress : String
  localPort : Nat
  storageCapBytes : Option Int
  deriving DecidableEq

structure PendingPairing where
  createdAt : Int
  expiresAt : Int
  consumedAt : Option Int
  createdBy : String
  label : Option String
  deriving DecidableEq

structure ServedEvent where
  payload : Bytes
  size : Int
  deriving DecidableEq

structure ServedMedia where
  size : Int
  createdAt : Int
  path : String
  deriving DecidableEq

/-- The rows by primary key, with `ON DELETE CASCADE` references and unique ports. -/
structure Database where
  pairedOwners : Table Bytes32 PairedOwner
  pendingPairings : Table Bytes PendingPairing
  servedEvents : Table (Bytes32 × String) ServedEvent
  servedMedia : Table (Bytes32 × String) ServedMedia
  eventsOwned : ∀ key ∈ servedEvents, key.1 ∈ pairedOwners
  mediaOwned : ∀ key ∈ servedMedia, key.1 ∈ pairedOwners
  portsUnique : ∀ left right leftRow rightRow,
    pairedOwners.lookup left = some leftRow -> pairedOwners.lookup right = some rightRow ->
      leftRow.localPort = rightRow.localPort -> left = right

/-- `COALESCE(SUM(size), 0)` over the rows that pass a test. -/
def sumSizes {K V : Type} (table : Table K V) (keep : K -> Bool) (size : V -> Int) : Int :=
  ((table.entries.filter (fun row => keep row.1)).map (fun row => size row.2)).sum

namespace Database

def empty : Database where
  pairedOwners := ∅
  pendingPairings := ∅
  servedEvents := ∅
  servedMedia := ∅
  eventsOwned := nofun
  mediaOwned := nofun
  portsUnique := by
    intro left right leftRow rightRow found
    rw [lookup_empty] at found
    cases found

end Database

/-! ## owners.rs -/

namespace Owners

section

variable (db : Database) (pubkey : Bytes32)

def get : Option PairedOwner := db.pairedOwners.lookup pubkey

def usedPorts : List Nat := db.pairedOwners.entries.map (fun row => row.2.localPort)

def lowestFreePort (lo hi : Nat) (used : List Nat) : Option Nat :=
  (List.range' lo (hi + 1 - lo)).find? (fun port => port ∉ used)

theorem mem_usedPorts {db pubkey owner} (found : get db pubkey = some owner) : owner.localPort ∈ usedPorts db :=
  List.mem_map.mpr ⟨⟨pubkey, owner⟩, lookup_eq_some_iff.mp found, rfl⟩

/-- `INSERT INTO paired_owners`: fails on a taken key or port. -/
def insert (owner : PairedOwner) : Option Database :=
  if fresh : get db pubkey = none ∧ owner.localPort ∉ usedPorts db then
    some
      { db with
        pairedOwners := db.pairedOwners.insert pubkey owner
        eventsOwned := fun key member => mem_insert _ |>.mpr (.inr (db.eventsOwned key member))
        mediaOwned := fun key member => mem_insert _ |>.mpr (.inr (db.mediaOwned key member))
        portsUnique := by
          intro left right leftRow rightRow atLeft atRight same
          rw [lookup_insert_eq] at atLeft atRight
          split at atLeft
          next leftNew =>
            split at atRight
            next rightNew => rw [leftNew, rightNew]
            · cases atLeft
              exact (fresh.2 (same ▸ mem_usedPorts atRight)).elim
          · split at atRight
            · cases atRight
              exact (fresh.2 (same ▸ mem_usedPorts atLeft)).elim
            · exact db.portsUnique left right leftRow rightRow atLeft atRight same }
  else none

/-- `DELETE FROM paired_owners`, which cascades to the Owner's events and media. -/
def delete : Database :=
  { db with
    pairedOwners := db.pairedOwners.erase pubkey
    servedEvents := db.servedEvents.retain (fun key _ => key.1 ≠ pubkey)
    servedMedia := db.servedMedia.retain (fun key _ => key.1 ≠ pubkey)
    eventsOwned := owned_cascade db.eventsOwned
    mediaOwned := owned_cascade db.mediaOwned
    portsUnique := by
      intro left right leftRow rightRow atLeft atRight same
      exact db.portsUnique left right leftRow rightRow (of_lookup_erase atLeft) (of_lookup_erase atRight) same }

end

theorem insert_eq_some {db after pubkey owner} (inserted : insert db pubkey owner = some after) :
    get db pubkey = none ∧ after.pairedOwners = db.pairedOwners.insert pubkey owner ∧
      after.pendingPairings = db.pendingPairings ∧ after.servedEvents = db.servedEvents ∧
      after.servedMedia = db.servedMedia := by
  unfold insert at inserted
  split at inserted
  next fresh =>
    cases inserted
    exact ⟨fresh.1, rfl, rfl, rfl, rfl⟩
  · cases inserted

end Owners

/-! ## pairings.rs -/

namespace Pairings

section

variable (db : Database) (token : Bytes)

def get : Option PendingPairing := db.pendingPairings.lookup token

/-- `INSERT INTO pending_pairings`: fails on a token that has a row already. -/
def insert (pairing : PendingPairing) : Option Database :=
  if get db token = none then
    some { db with pendingPairings := db.pendingPairings.insert token pairing }
  else none

/-- Consume a token; the count is one when it was there and unconsumed. -/
def markConsumed (unixTs : Int) : Database × Nat :=
  match get db token with
  | some pairing =>
    match pairing.consumedAt with
    | none =>
      ({ db with pendingPairings := db.pendingPairings.insert token { pairing with consumedAt := some unixTs } }, 1)
    | some _ => (db, 0)
  | none => (db, 0)

/-- The row after `consume_all_unconsumed`. -/
def consumed (unixTs : Int) (pairing : PendingPairing) : PendingPairing :=
  match pairing.consumedAt with
  | none => { pairing with consumedAt := some unixTs }
  | some _ => pairing

def consumeAllUnconsumed (unixTs : Int) : Database :=
  { db with pendingPairings := db.pendingPairings.mapValues (consumed unixTs) }

def pruneExpired (now : Int) : Database :=
  { db with pendingPairings := db.pendingPairings.retain (fun _ pairing => ¬ pairing.expiresAt < now) }

theorem markConsumed_one {db token unixTs} (won : (markConsumed db token unixTs).2 = 1) :
    ∃ pairing, get db token = some pairing ∧ pairing.consumedAt = none ∧
      (markConsumed db token unixTs).1.pendingPairings =
        db.pendingPairings.insert token { pairing with consumedAt := some unixTs } := by
  unfold markConsumed at won ⊢
  cases found : get db token with rw [found] at won
  | none => cases won
  | some pairing =>
    cases consumed : pairing.consumedAt with
    | none => exact ⟨pairing, rfl, consumed, by simp only [consumed]⟩
    | some =>
      simp only [consumed] at won
      cases won

theorem markConsumed_frame (unixTs) : (markConsumed db token unixTs).1.pairedOwners = db.pairedOwners ∧
      (markConsumed db token unixTs).1.servedEvents = db.servedEvents := by
  unfold markConsumed
  split
  · split <;> exact ⟨rfl, rfl⟩
  · exact ⟨rfl, rfl⟩

end

theorem insert_eq_some {db after token pairing} (inserted : insert db token pairing = some after) :
    after.pendingPairings = db.pendingPairings.insert token pairing ∧
      after.pairedOwners = db.pairedOwners ∧ after.servedEvents = db.servedEvents := by
  unfold insert at inserted
  split at inserted
  · cases inserted
    exact ⟨rfl, rfl, rfl⟩
  · cases inserted

end Pairings

/-! ## events.rs -/

namespace Events

/-- `INSERT OR IGNORE INTO served_events`; the reference to the Owner is not ignored. -/
def insert (db : Database) (pubkey : Bytes32) (id : String) (payload : Bytes) : Option (Database × Bool) :=
  if (pubkey, id) ∈ db.servedEvents then some (db, false)
  else if owned : pubkey ∈ db.pairedOwners then
    some ({ db with
        servedEvents := db.servedEvents.insert (pubkey, id) ⟨payload, payload.length⟩
        eventsOwned := owned_insert db.eventsOwned owned }, true)
  else none

def totalBytes (db : Database) (pubkey : Bytes32) : Int :=
  sumSizes db.servedEvents (fun key => key.1 = pubkey) ServedEvent.size

theorem insert_eq_some {db after pubkey id payload new} (stored : insert db pubkey id payload = some (after, new)) :
    after.pairedOwners = db.pairedOwners ∧ after.pendingPairings = db.pendingPairings ∧
      ∀ key row, db.servedEvents.lookup key = some row -> after.servedEvents.lookup key = some row := by
  unfold insert at stored
  split at stored
  · cases stored
    exact ⟨rfl, rfl, fun key row found => found⟩
  next absent =>
    split at stored
    · cases stored
      refine ⟨rfl, rfl, ?_⟩
      intro key row found
      rw [lookup_insert_eq, if_neg]
      · exact found
      · rintro rfl
        exact absent (mem_iff_lookup.mpr ⟨row, found⟩)
    · cases stored

end Events

/-! ## media.rs -/

namespace Media

section

variable (db : Database) (pubkey : Bytes32)

def get (hash : String) : Option ServedMedia := db.servedMedia.lookup (pubkey, hash)

/-- `INSERT … ON CONFLICT DO UPDATE`; fails without a row for the Owner. -/
def upsert (hash : String) (media : ServedMedia) : Option Database :=
  if owned : pubkey ∈ db.pairedOwners then
    some
      { db with
        servedMedia := db.servedMedia.insert (pubkey, hash) media
        mediaOwned := owned_insert db.mediaOwned owned }
  else none

def delete (hash : String) : Database × Option ServedMedia :=
  match get db pubkey hash with
  | some media =>
    ({ db with
      servedMedia := db.servedMedia.erase (pubkey, hash)
      mediaOwned := fun key member => db.mediaOwned key (mem_erase.mp member).2 }, some media)
  | none => (db, none)

def totalBytes : Int := sumSizes db.servedMedia (fun key => key.1 = pubkey) ServedMedia.size

end

theorem upsert_eq_some {db after pubkey hash media} (stored : upsert db pubkey hash media = some after) :
    after.servedMedia = db.servedMedia.insert (pubkey, hash) media := by
  unfold upsert at stored
  split at stored
  · cases stored
    rfl
  · cases stored

end Media

/-! ## accounting.rs -/

namespace Accounting

inductive CapCheck where
  | ok
  | ownerExceeded
  | hostExceeded
  deriving DecidableEq

def ownerUsage (db : Database) (pubkey : Bytes32) : Int := Events.totalBytes db pubkey + Media.totalBytes db pubkey

def hostUsage (db : Database) : Int :=
  sumSizes db.servedEvents (fun _ => true) ServedEvent.size + sumSizes db.servedMedia (fun _ => true) ServedMedia.size

/-- A cap of zero means no limit. -/
def checkCapacity (db : Database) (pubkey : Bytes32) (incoming ownerCap diskCap : Int) : CapCheck :=
  if ownerCap > 0 ∧ ownerUsage db pubkey + incoming > ownerCap then .ownerExceeded
  else if diskCap > 0 ∧ hostUsage db + incoming > diskCap then .hostExceeded
  else .ok

end Accounting

end Starling.Storage
