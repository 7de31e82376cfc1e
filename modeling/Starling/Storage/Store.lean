import Mathlib.Algebra.Order.BigOperators.Group.List
import Starling.Foundation.Keyset
import Starling.Storage.Database
import Starling.Wire.VoiceFrames

namespace Starling.Storage

open List Option Table AList

/-!
# The whole store

`Database` holds what the pairing and the media routes read.  The event and voice
routes read more: the ordering columns and the type of a served event, and the table
`voice_slots`.  `Store` adds them.  Its fields say that both views of `served_events`
have the same rows, that the recorded size is the length of the payload, and that a
slot belongs to a paired Owner.
-/

section Sizes

variable {K V : Type} [DecidableEq K] {keep : K -> Bool} {size : V -> Int}

theorem sumSizes_eq_of_lookup {left right} (same : ∀ key, keep key = true -> left.lookup key = right.lookup key) :
    sumSizes left keep size = sumSizes right keep size := by
  have perm := (filter_perm_of_lookup same).map (fun row : Sigma (fun _ : K => V) => size row.2)
  exact perm.sum_eq

theorem sumSizes_eq_of_view {W : Type} {left right} {view : W -> V}
    (same : ∀ key, left.lookup key = (right.lookup key).map view) :
    sumSizes left keep size = sumSizes right keep (fun value => size (view value)) := by
  have perm : left.entries.Perm
      (right.entries.map (fun entry => (⟨entry.1, view entry.2⟩ : Sigma (fun _ : K => V)))) := by
    have viewNodup : (right.entries.map
        (fun entry => (⟨entry.1, view entry.2⟩ : Sigma (fun _ : K => V)))).Nodup := by
      have keys := pairwise_map.mp right.keys_nodup
      rw [List.Nodup, pairwise_map]
      refine keys.imp ?_
      intro first second apart equal
      exact apart (congrArg (fun entry : Sigma (fun _ : K => V) => entry.1) equal)
    apply (perm_ext_iff_of_nodup left.nodupKeys.nodup viewNodup).mpr
    rintro ⟨key, _⟩
    rw [← Table.lookup_eq_some_iff, same, map_eq_some_iff, List.mem_map]
    constructor
    · rintro ⟨stored, found, rfl⟩
      exact ⟨⟨key, stored⟩, lookup_eq_some_iff.mp found, rfl⟩
    · rintro ⟨⟨_, stored⟩, member, equal⟩
      cases equal
      exact ⟨stored, lookup_eq_some_iff.mpr member, rfl⟩
  have summed := ((perm.filter (fun entry => keep entry.1)).map (fun entry => size entry.2)).sum_eq
  rw [sumSizes, summed, List.filter_map, List.map_map]
  rfl

section

variable (table : Table K V)

def charge (keep : K -> Bool) (size : V -> Int) (key : K) : Int :=
  if keep key then ((table.lookup key).map size).getD 0 else 0

theorem sumSizes_insert (key value) : sumSizes (table.insert key value) keep size =
      (if keep key then size value else 0) + sumSizes (table.erase key) keep size := by
  rw [sumSizes, sumSizes, entries_insert, filter_cons]
  split
  · rw [map_cons, sum_cons]
    rfl
  · rw [Int.zero_add]
    rfl

theorem sumSizes_eq_charge_add (key) :
    sumSizes table keep size = charge table keep size key + sumSizes (table.erase key) keep size := by
  cases found : table.lookup key with
  | none =>
    have absent : charge table keep size key = 0 := by
      simp [charge, found]
    rw [absent, Int.zero_add]
    apply sumSizes_eq_of_lookup
    intro other _
    rw [lookup_erase_eq]
    split
    next same => rw [same, found]
    · rfl
  | some value =>
    have refilled : sumSizes table keep size = sumSizes (table.insert key value) keep size := by
      apply sumSizes_eq_of_lookup
      intro other _
      rw [lookup_insert_eq]
      split
      next same => rw [same, found]
      · rfl
    rw [refilled, sumSizes_insert]
    simp [charge, found]

theorem sumSizes_replace (key value) : sumSizes (table.insert key value) keep size =
      sumSizes table keep size - charge table keep size key + (if keep key then size value else 0) := by
  have whole : sumSizes table keep size = charge table keep size key + sumSizes (table.erase key) keep size :=
    sumSizes_eq_charge_add table key
  rw [sumSizes_insert]
  omega

theorem charge_of_absent {table key} (absent : key ∉ table) : charge table keep size key = 0 := by
  rw [charge, lookup_eq_none.mpr absent]
  exact ite_self 0

theorem sumSizes_retain_le (test) (nonneg : ∀ key value, table.lookup key = some value -> 0 ≤ size value) :
    sumSizes (table.retain test) keep size ≤ sumSizes table keep size := by
  have fewer : (table.retain test).entries.Sublist table.entries := filter_sublist
  apply ((fewer.filter (fun row => keep row.1)).map (fun row => size row.2)).sum_le_sum
  intro summand member
  rcases mem_map.mp member with ⟨entry, kept, rfl⟩
  exact nonneg entry.1 entry.2 (lookup_eq_some_iff.mpr (mem_filter.mp kept).1)

end

theorem sumSizes_le_of_lookup {left right}
    (fewer : ∀ key, left.lookup key = none ∨ left.lookup key = right.lookup key)
    (nonneg : ∀ key value, right.lookup key = some value -> 0 ≤ size value) :
    sumSizes left keep size ≤ sumSizes right keep size := by
  have cut : sumSizes left keep size = sumSizes (right.retain (fun key _ => key ∈ left)) keep size := by
    apply sumSizes_eq_of_lookup
    intro key _
    apply Option.ext
    intro value
    rw [lookup_retain_eq_some, decide_eq_true_eq, mem_iff_lookup]
    rcases fewer key with gone | same
    · simp [gone]
    · rw [same]
      exact ⟨fun found => ⟨found, value, found⟩, fun both => both.1⟩
  rw [cut]
  exact sumSizes_retain_le right _ nonneg

theorem sumSizes_eq_zero {table} (absent : ∀ key, keep key = true -> table.lookup key = none) :
    sumSizes table keep size = 0 := by
  have emptied : sumSizes table keep size = sumSizes (∅ : Table K V) keep size := by
    apply sumSizes_eq_of_lookup
    intro key kept
    rw [absent key kept, lookup_empty]
  rw [emptied]
  rfl

end Sizes

/-- A complete row of `served_events`, without its key. -/
structure EventRow extends ServedEvent where
  createdAt : Int
  msgSeq : Int
  nonce : Bytes
  itemType : String
  deriving DecidableEq

/-- What `events::insert` is given besides the key. -/
structure NewEvent where
  createdAt : Int
  msgSeq : Int
  nonce : Bytes
  payload : Bytes
  itemType : String

/-- The row that an insertion writes; its size is `payload.len()`. -/
def NewEvent.row (event : NewEvent) : EventRow where
  payload := event.payload
  size := event.payload.length
  createdAt := event.createdAt
  msgSeq := event.msgSeq
  nonce := event.nonce
  itemType := event.itemType

structure VoiceSlot where
  maxParticipants : Option Nat
  updatedAt : Int

structure Store where
  db : Database
  eventRows : Table (Bytes32 × String) EventRow
  voiceSlots : Table (Bytes32 × Bytes) VoiceSlot
  eventsAgree : ∀ key, db.servedEvents.lookup key = (eventRows.lookup key).map EventRow.toServedEvent
  sized : ∀ key row, eventRows.lookup key = some row -> row.size = row.payload.length
  slotsOwned : ∀ key ∈ voiceSlots, key.1 ∈ db.pairedOwners

namespace Store

def empty : Store where
  db := Database.empty
  eventRows := ∅
  voiceSlots := ∅
  eventsAgree := fun key => rfl
  sized := by
    intro key row found
    rw [lookup_empty] at found
    cases found
  slotsOwned := nofun

section

variable (store : Store) (pubkey : Bytes32)

theorem mem_eventRows_iff (key) : key ∈ store.eventRows ↔ key ∈ store.db.servedEvents := by
  rw [← lookup_isSome, ← lookup_isSome, store.eventsAgree key, isSome_map]

/-! ## events.rs -/

def addEvent (id : String) (event : NewEvent) (owned : pubkey ∈ store.db.pairedOwners) : Store where
  db :=
    { store.db with
      servedEvents := store.db.servedEvents.insert (pubkey, id) event.row.toServedEvent
      eventsOwned := owned_insert store.db.eventsOwned owned }
  eventRows := store.eventRows.insert (pubkey, id) event.row
  voiceSlots := store.voiceSlots
  eventsAgree := by
    intro key
    rw [lookup_insert_eq, lookup_insert_eq]
    split
    · rfl
    · exact store.eventsAgree key
  sized := of_lookup_insert store.sized rfl
  slotsOwned := store.slotsOwned

/-- `INSERT OR IGNORE INTO served_events`; the reference to the Owner is not ignored. -/
def insertEvent (id : String) (event : NewEvent) : Option (Store × Bool) :=
  if (pubkey, id) ∈ store.eventRows then some (store, false)
  else if owned : pubkey ∈ store.db.pairedOwners then
    some (store.addEvent pubkey id event owned, true)
  else none

theorem insertEvent_cases {store after : Store} {pubkey id event}
    {new : Bool} (stored : store.insertEvent pubkey id event = some (after, new)) :
    (pubkey, id) ∈ store.eventRows ∧ after = store ∨ (pubkey, id) ∉ store.eventRows ∧
        ∃ owned : pubkey ∈ store.db.pairedOwners, after = store.addEvent pubkey id event owned := by
  rw [insertEvent] at stored
  split at stored
  next known =>
    cases stored
    exact .inl ⟨known, rfl⟩
  next fresh =>
    split at stored
    next owned =>
      cases stored
      exact .inr ⟨fresh, owned, rfl⟩
    · cases stored

/-- `DELETE FROM served_events WHERE pubkey = ?1 AND id = ?2`. -/
def deleteEvent (id : String) : Store where
  db :=
    { store.db with
      servedEvents := store.db.servedEvents.erase (pubkey, id)
      eventsOwned := fun key member => store.db.eventsOwned key (mem_erase.mp member).2 }
  eventRows := store.eventRows.erase (pubkey, id)
  voiceSlots := store.voiceSlots
  eventsAgree := by
    intro key
    rw [lookup_erase_eq, lookup_erase_eq]
    split
    · rfl
    · exact store.eventsAgree key
  sized := fun key row found => store.sized key row (of_lookup_erase found)
  slotsOwned := store.slotsOwned

end

def deleteBatch (pubkey : Bytes32) : List String -> Store -> Store × Int
  | [], store => (store, 0)
  | id :: rest, store =>
    let (after, deleted) := deleteBatch pubkey rest (store.deleteEvent pubkey id)
    (after, (if (pubkey, id) ∈ store.eventRows then 1 else 0) + deleted)

/-- `SELECT COUNT(*) FROM served_events WHERE pubkey = ?1`. -/
def countEvents (store : Store) (pubkey : Bytes32) : Nat :=
  (store.eventRows.entries.filter (fun entry => entry.1.1 = pubkey)).length

/-! ## voice_slots.rs -/

/-- `DELETE FROM voice_slots WHERE pubkey = ?1`. -/
def clearSlots (store : Store) (pubkey : Bytes32) : Store :=
  { store with
    voiceSlots := store.voiceSlots.retain (fun key _ => key.1 ≠ pubkey)
    slotsOwned := by
      intro key member
      rcases mem_iff_lookup.mp member with ⟨slot, found⟩
      rw [lookup_retain_eq_some] at found
      exact store.slotsOwned key (mem_iff_lookup.mpr ⟨slot, found.1⟩) }

/-- `INSERT INTO voice_slots`: fails on a taken key or without a row for the Owner. -/
def insertSlot (store : Store) (pubkey : Bytes32) (tokenHash : Bytes) (slot : VoiceSlot) : Option Store :=
  if (pubkey, tokenHash) ∈ store.voiceSlots then none
  else if owned : pubkey ∈ store.db.pairedOwners then
    some
      { store with
        voiceSlots := store.voiceSlots.insert (pubkey, tokenHash) slot
        slotsOwned := owned_insert store.slotsOwned owned }
  else none

def insertSlots (pubkey : Bytes32) (now : Int) : List Voice.VoiceSlotEntry -> Store -> Option Store
  | [], store => some store
  | entry :: rest, store =>
    match store.insertSlot pubkey entry.tokenHash ⟨entry.maxParticipants, now⟩ with
    | none => none
    | some after => insertSlots pubkey now rest after

section

variable (store : Store) (pubkey : Bytes32)

def replaceSet (slots : List Voice.VoiceSlotEntry) (now : Int) : Option Store :=
  insertSlots pubkey now slots (store.clearSlots pubkey)

/-- `SELECT COUNT(*) FROM voice_slots WHERE pubkey = ?1`. -/
def countSlots : Nat := (store.voiceSlots.entries.filter (fun entry => entry.1.1 = pubkey)).length

/-! ## owners.rs and media.rs -/

/-- `INSERT INTO paired_owners`, which concerns no other table. -/
def insertOwner (owner : PairedOwner) : Option Store :=
  match inserted : Owners.insert store.db pubkey owner with
  | none => none
  | some db =>
    some
      { store with
        db := db
        eventsAgree := by
          rw [(Owners.insert_eq_some inserted).2.2.2.1]
          exact store.eventsAgree
        slotsOwned := by
          intro key member
          rw [(Owners.insert_eq_some inserted).2.1]
          exact (mem_insert _).mpr (.inr (store.slotsOwned key member)) }

theorem insertOwner_cases {store after : Store} {pubkey} {owner : PairedOwner}
    (inserted : store.insertOwner pubkey owner = some after) :
    Owners.insert store.db pubkey owner = some after.db ∧ after.eventRows = store.eventRows ∧
      after.voiceSlots = store.voiceSlots := by
  unfold insertOwner at inserted
  split at inserted
  · cases inserted
  next found =>
    cases inserted
    exact ⟨found, rfl, rfl⟩

/-- `DELETE FROM paired_owners`, which cascades to all three tables. -/
def deleteOwner : Store where
  db := Owners.delete store.db pubkey
  eventRows := store.eventRows.retain (fun key _ => key.1 ≠ pubkey)
  voiceSlots := store.voiceSlots.retain (fun key _ => key.1 ≠ pubkey)
  eventsAgree := by
    intro key
    have servedEvents : (Owners.delete store.db pubkey).servedEvents =
        store.db.servedEvents.retain (fun other _ => other.1 ≠ pubkey) := rfl
    rw [servedEvents, lookup_retain_fst, lookup_retain_fst, store.eventsAgree key]
    split
    · rfl
    · rfl
  sized := by
    intro key row found
    rw [lookup_retain_eq_some] at found
    exact store.sized key row found.1
  slotsOwned := owned_cascade store.slotsOwned

def withMedia (servedMedia : Table (Bytes32 × String) ServedMedia)
    (owned : ∀ key ∈ servedMedia, key.1 ∈ store.db.pairedOwners) : Store where
  db := { store.db with servedMedia := servedMedia, mediaOwned := owned }
  eventRows := store.eventRows
  voiceSlots := store.voiceSlots
  eventsAgree := store.eventsAgree
  sized := store.sized
  slotsOwned := store.slotsOwned

end

end Store

end Starling.Storage
