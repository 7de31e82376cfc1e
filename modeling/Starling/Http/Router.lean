import Starling.Http.MediaStore
import Starling.Http.Reads

namespace Starling.Http

/-!
# The routes of an Owner

`owner_router`: the signed routes that change the store, and `GET /status`.  A handler
does its database work in one IMMEDIATE transaction, which a storage error rolls back.
The media handlers are those of `World`, started on a relay at rest and run to their
end.
-/

open Storage List Option Table AList Store

/-- `PushItem`; the type is `"event"` where the wire leaves it out. -/
structure PushItem where
  id : String
  payload : Bytes
  itemType : String

/-- What the relay reads of an `EncryptedEventHeader`. -/
structure EventHeader where
  createdAt : Int
  msgSeq : Int
  nonce : Bytes

/-- The CBOR readers of the bodies, and `[voice] max_participants` where voice hosting is
enabled. -/
structure RouterSite extends Site where
  parseBatch : Bytes -> Option (List PushItem)
  parseEventDelete : Bytes -> Option (List String)
  parseHeader : Bytes -> Option EventHeader
  parseSlots : Bytes -> Option (List Voice.VoiceSlotEntry)
  voiceMax : Option Nat

inductive Reply where
  | plain (answer : Answer)
  /-- A `PushReceipt`. -/
  | pushReceipt (accepted rejected : Int)
  /-- A `VoiceSlotReceipt`. -/
  | slotReceipt (slots : Int)
  deriving DecidableEq

def Reply.code : Reply -> Nat
  | .plain answer => answer.code
  | .pushReceipt _ _ => 202
  | .slotReceipt _ => 200

def ownerCap (site : Site) (db : Database) (owner : Bytes32) : Int :=
  ((Owners.get db owner).bind PairedOwner.storageCapBytes).getD site.perOwnerDefault

/-! ## routes/events.rs -/

def maxIdLen : Nat := 64

/-- The row that an item asks for.  An oversized id and an event whose header does not
parse are rejected; an unknown type is ordered by its arrival. -/
def itemEvent (site : RouterSite) (now : Int) (item : PushItem) : Option NewEvent :=
  if item.id.utf8ByteSize > maxIdLen then none
  else if item.itemType = "event" then
    (site.parseHeader item.payload).map (fun header =>
      ⟨header.createdAt, header.msgSeq, header.nonce, item.payload, item.itemType⟩)
  else some ⟨now, 0, [], item.payload, item.itemType⟩

variable {event : NewEvent} {now : Int} {owner : Bytes32} {after store : Store}

theorem itemEvent_payload {site item}
    (built : itemEvent site now item = some event) : event.payload = item.payload := by
  unfold itemEvent at built
  split at built
  · cases built
  · split at built
    · rcases map_eq_some_iff.mp built with ⟨_, _, rfl⟩
      rfl
    · cases built
      rfl

/-- The loop over the items.  A storage error ends it, and the transaction with it. -/
def storeItems (site : RouterSite) (now : Int) (owner : Bytes32) :
    List PushItem -> Store -> Int -> Int -> Option (Store × Int × Int)
  | [], store, accepted, rejected => some (store, accepted, rejected)
  | item :: rest, store, accepted, rejected =>
    match itemEvent site now item with
    | none => storeItems site now owner rest store accepted (rejected + 1)
    | some event =>
      match store.insertEvent owner item.id event with
      | none => none
      | some (after, _) => storeItems site now owner rest after (accepted + 1) rejected

/-- The payload bytes of a batch, duplicates and rejects included. -/
def batchBytes (items : List PushItem) : Int := (items.map (fun item => (item.payload.length : Int))).sum

section

variable (site : RouterSite) (store : Store)

/-- The transaction of a push; without a result it is rolled back. -/
def pushBatch (now : Int) (owner : Bytes32) (items : List PushItem) : Option (Store × Reply) :=
  match Accounting.checkCapacity store.db owner (batchBytes items)
      (ownerCap site.toSite store.db owner) site.diskCap with
  | .ownerExceeded => some (store, .plain (.text 507 "owner storage cap exceeded"))
  | .hostExceeded => some (store, .plain (.text 507 "relay storage cap exceeded"))
  | .ok =>
    (storeItems site now owner items store 0 0).map (fun stored =>
      (stored.1, .pushReceipt stored.2.1 stored.2.2))

structure Signed where
  now : Wire.I64
  headers : HeaderMap
  body : Bytes
  later : Int

/-- `verify_owner_request` on a POST request. -/
def Signed.refusal (site : Site) (owner : Bytes32) (path : String) (request : Signed) : Option Answer :=
  match verifyOwnerRequest site.K request.now request.headers (Wire.ascii "POST") (Wire.ascii path)
      request.body owner with
  | .error (code, message) => some (.text code message)
  | .ok () => none

theorem Signed.refusal_code {site : Site} {path} {request : Signed} {answer : Answer}
    (refused : request.refusal site owner path = some answer) : answer.code ≠ 202 := by
  unfold refusal at refused
  cases checked : verifyOwnerRequest site.K request.now request.headers (Wire.ascii "POST")
      (Wire.ascii path) request.body owner with
  | ok =>
    rw [checked] at refused
    cases refused
  | error =>
    rw [checked] at refused
    cases refused
    rcases verifyOwnerRequest_error checked with code | code
    · exact code ▸ (by decide : unauthorized ≠ 202)
    · exact code ▸ (by decide : forbidden ≠ 202)

/-- `push_handler`; the storage may fail in its transaction. -/
def pushEvents (owner : Bytes32) (request : Signed) (fault : Bool) : Store × Reply :=
  match request.refusal site.toSite owner "/events" with
  | some answer => (store, .plain answer)
  | none =>
    match site.parseBatch request.body with
    | none => (store, .plain (.text 400 "malformed cbor body"))
    | some items =>
      if fault then (store, .plain internalError)
      else (pushBatch site store request.later owner items).getD (store, .plain internalError)

/-- `delete_handler`. -/
def deleteEvents (owner : Bytes32) (request : Signed) (fault : Bool) : Store × Reply :=
  match request.refusal site.toSite owner "/events/delete" with
  | some answer => (store, .plain answer)
  | none =>
    match site.parseEventDelete request.body with
    | none => (store, .plain (.text 400 "malformed cbor body"))
    | some ids =>
      if fault then (store, .plain internalError)
      else
        let (after, deleted) := Store.deleteBatch owner ids store
        (after, .plain (.receipt deleted ((ids.length : Int) - deleted)))

/-- Only the rows of `served_events` differ. -/
structure EventsOnly (before after : Store) : Prop where
  owners : after.db.pairedOwners = before.db.pairedOwners
  media : after.db.servedMedia = before.db.servedMedia
  slots : after.voiceSlots = before.voiceSlots

theorem EventsOnly.refl (store) : EventsOnly store store := ⟨rfl, rfl, rfl⟩

theorem EventsOnly.trans {first second third} (left : EventsOnly first second)
    (right : EventsOnly second third) : EventsOnly first third :=
  ⟨right.owners.trans left.owners, right.media.trans left.media, right.slots.trans left.slots⟩

def firstRow (now : Int) (id : String) (items : List PushItem) : Option EventRow :=
  items.findSome? (fun item =>
    if item.id = id then (itemEvent site now item).map NewEvent.row else none)

end

theorem eventsOnly_insertEvent {id new}
    (stored : store.insertEvent owner id event = some (after, new)) : EventsOnly store after := by
  rcases insertEvent_cases stored with ⟨_, same⟩ | ⟨_, _, same⟩
  · rw [same]
    exact EventsOnly.refl store
  · rw [same]
    exact ⟨rfl, rfl, rfl⟩

theorem lookup_insertEvent {id new} (stored : store.insertEvent owner id event = some (after, new))
    (key) : after.eventRows.lookup key =
      (store.eventRows.lookup key).or (if key = (owner, id) then some event.row else none) := by
  rcases insertEvent_cases stored with ⟨known, same⟩ | ⟨fresh, _, same⟩
  · rw [same]
    split
    next atKey =>
      rcases mem_iff_lookup.mp known with ⟨_, found⟩
      rw [atKey, found, some_or]
    · rw [or_none]
  · have rows : after.eventRows = store.eventRows.insert (owner, id) event.row := by
      rw [same]
      rfl
    rw [rows, lookup_insert_eq]
    split
    next atKey => rw [atKey, lookup_eq_none.mpr fresh, none_or]
    · rw [or_none]

theorem storeItems_induction {site accepts rejects} {motive : List PushItem -> Store -> Int -> Int -> Prop}
    (done : motive [] after accepts rejects)
    (reject : ∀ item rest store accepted rejected, itemEvent site now item = none -> motive rest store
      accepted (rejected + 1) -> motive (item :: rest) store accepted rejected)
    (accept : ∀ item rest store middle new event accepted rejected, itemEvent site now item = some
      event -> store.insertEvent owner item.id event = some (middle, new) -> motive rest middle (accepted +
      1) rejected -> motive (item :: rest) store accepted rejected) {items accepted rejected}
    (stored : storeItems site now owner items store accepted rejected = some (after, accepts, rejects)) :
    motive items store accepted rejected := by
  induction items generalizing store accepted rejected with
  | nil =>
    cases stored
    exact done
  | cons item rest ih =>
    rw [storeItems] at stored
    cases event : itemEvent site now item with rw [event] at stored
    | none => exact reject item rest store accepted rejected event (ih stored)
    | some built =>
      cases inserted : store.insertEvent owner item.id built with
      | none => simp only [inserted, reduceCtorEq] at stored
      | some result =>
        simp only [inserted] at stored
        exact accept item rest store result.1 result.2 built accepted rejected event inserted (ih stored)

section StoredBatch

variable {site : RouterSite} {now : Int} {owner : Bytes32} {items : List PushItem}
variable {store after : Store} {accepted rejected accepts rejects : Int}
variable (stored : storeItems site now owner items store accepted rejected = some (after, accepts, rejects))
include stored

theorem eventsOnly_storeItems : EventsOnly store after := by
  refine storeItems_induction (motive := fun _ store _ _ => EventsOnly store after) ?_ ?_ ?_ stored
  · exact EventsOnly.refl after
  · intro item rest store accepted rejected _ ih
    exact ih
  · intro item rest store middle new event accepted rejected _ inserted ih
    exact (eventsOnly_insertEvent inserted).trans ih

theorem lookup_storeItems (pubkey id) : after.eventRows.lookup (pubkey, id) = (store.eventRows.lookup (pubkey, id)).or
        (if pubkey = owner then firstRow site now id items else none) := by
  refine storeItems_induction (motive := fun items store _ _ =>
    after.eventRows.lookup (pubkey, id) = (store.eventRows.lookup (pubkey, id)).or
        (if pubkey = owner then firstRow site now id items else none)) ?_ ?_ ?_ stored
  · simp [firstRow]
  · intro item rest store accepted rejected event ih
    rw [ih]
    simp [firstRow, event]
  · intro item rest store middle new event accepted rejected built inserted ih
    rw [ih, lookup_insertEvent inserted, Option.or_assoc]
    congr 1
    by_cases mine : pubkey = owner
    · by_cases named : id = item.id
      · simp [firstRow, built, mine, named]
      · simp [firstRow, mine, named, Ne.symm named]
    · simp [mine]

theorem count_storeItems : accepts + rejects = accepted + rejected + items.length := by
  refine storeItems_induction (motive := fun items _ accepted rejected =>
    accepts + rejects = accepted + rejected + items.length) ?_ ?_ ?_ stored
  · rw [length_nil, Int.ofNat_zero, Int.add_zero]
  · intro item rest store accepted rejected _ counted
    rw [length_cons]
    push_cast
    omega
  · intro item rest store middle new event accepted rejected _ _ counted
    rw [length_cons]
    push_cast
    omega

end StoredBatch

theorem eventsOnly_deleteBatch (owner ids store) : EventsOnly store (deleteBatch owner ids store).1 := by
  induction ids generalizing store with
  | nil => exact EventsOnly.refl store
  | cons id rest ih =>
    have first : EventsOnly store (store.deleteEvent owner id) := ⟨rfl, rfl, rfl⟩
    exact first.trans (ih (store.deleteEvent owner id))

theorem lookup_deleteBatch (owner ids store key) :
    (deleteBatch owner ids store).1.eventRows.lookup key =
      if key.1 = owner ∧ key.2 ∈ ids then none else store.eventRows.lookup key := by
  induction ids generalizing store with
  | nil => simp [deleteBatch]
  | cons id rest ih =>
    have unfolded : (deleteBatch owner (id :: rest) store).1 =
        (deleteBatch owner rest (store.deleteEvent owner id)).1 := rfl
    have erased : (store.deleteEvent owner id).eventRows = store.eventRows.erase (owner, id) := rfl
    rw [unfolded, ih, erased, lookup_erase_eq]
    by_cases mine : key.1 = owner
    · by_cases named : key.2 = id
      · have atKey : key = (owner, id) := Prod.ext mine named
        simp [atKey]
      · have elsewhere : key ≠ (owner, id) := fun same => named (congrArg Prod.snd same)
        simp [mine, named, elsewhere]
    · have elsewhere : key ≠ (owner, id) := fun same => mine (congrArg Prod.fst same)
      simp [mine, elsewhere]

section

variable (site : RouterSite)

theorem pushEvents_cases (store : Store) (owner : Bytes32) (request : Signed) (fault : Bool) :
    ((pushEvents site store owner request fault).1 = store ∧
      (pushEvents site store owner request fault).2.code ≠ 202) ∨
    ∃ items accepts rejects, site.parseBatch request.body = some items ∧
      Accounting.checkCapacity store.db owner (batchBytes items)
        (ownerCap site.toSite store.db owner) site.diskCap = .ok ∧
      storeItems site request.later owner items store 0 0 =
        some ((pushEvents site store owner request fault).1, accepts, rejects) ∧
      (pushEvents site store owner request fault).2 = .pushReceipt accepts rejects := by
  unfold pushEvents
  cases refused : request.refusal site.toSite owner "/events" with
  | some => exact .inl ⟨rfl, Signed.refusal_code refused⟩
  | none =>
    cases parsed : site.parseBatch request.body with
    | none => exact .inl ⟨rfl, (by decide : 400 ≠ 202)⟩
    | some items =>
      cases fault with
      | true => exact .inl ⟨rfl, (by decide : 500 ≠ 202)⟩
      | false =>
        simp only [Bool.false_eq_true, if_false, pushBatch]
        cases capacity : Accounting.checkCapacity store.db owner (batchBytes items)
            (ownerCap site.toSite store.db owner) site.diskCap with
        | ownerExceeded | hostExceeded => exact .inl ⟨rfl, (by decide : 507 ≠ 202)⟩
        | ok =>
          cases stored : storeItems site request.later owner items store 0 0 with
          | none => exact .inl ⟨rfl, (by decide : 500 ≠ 202)⟩
          | some result => exact .inr ⟨items, result.2.1, result.2.2, rfl, capacity, stored, rfl⟩

theorem deleteEvents_cases (store : Store) (owner : Bytes32) (request : Signed) (fault : Bool) :
    ((deleteEvents site store owner request fault).1 = store ∧
      ∃ answer, (deleteEvents site store owner request fault).2 = .plain answer ∧
        ∀ deleted missing, answer ≠ .receipt deleted missing) ∨
    ∃ ids, site.parseEventDelete request.body = some ids ∧
      (deleteEvents site store owner request fault).1 = (deleteBatch owner ids store).1 ∧
      (deleteEvents site store owner request fault).2 = .plain (.receipt (deleteBatch owner ids store).2
          ((ids.length : Int) - (deleteBatch owner ids store).2)) := by
  unfold deleteEvents
  cases refused : request.refusal site.toSite owner "/events/delete" with
  | some answer =>
    refine .inl ⟨rfl, answer, rfl, ?_⟩
    unfold Signed.refusal at refused
    split at refused <;> cases refused
    exact fun _ _ => Answer.noConfusion
  | none =>
    cases parsed : site.parseEventDelete request.body with
    | none => exact .inl ⟨rfl, _, rfl, fun _ _ never => Answer.noConfusion never⟩
    | some ids =>
      cases fault with
      | true => exact .inl ⟨rfl, _, rfl, fun _ _ never => Answer.noConfusion never⟩
      | false => exact .inr ⟨ids, rfl, rfl, rfl⟩

/-! ## routes/voice.rs -/

def maxSlots : Nat := 4096

def slotProblem (voiceMax : Nat) (slot : Voice.VoiceSlotEntry) : Option String :=
  if slot.tokenHash.length ≠ 32 then some "token_hash must be 32 bytes"
  else
    match slot.maxParticipants with
    | some cap => if cap < 2 ∨ cap > voiceMax then some "max_participants out of range" else none
    | none => none

/-- `rooms_handler`, and the slots that it hands to the registrar after the commit. -/
def voiceRooms (store : Store) (owner : Bytes32) (request : Signed)
    (fault : Bool) : Store × Reply × Option (List Voice.VoiceSlotEntry) :=
  match request.refusal site.toSite owner "/voice/rooms" with
  | some answer => (store, .plain answer, none)
  | none =>
    match site.voiceMax with
    | none => (store, .plain (.text 404 "voice hosting disabled"), none)
    | some voiceMax =>
      match site.parseSlots request.body with
      | none => (store, .plain (.text 400 "malformed slot push"), none)
      | some slots =>
        if slots.length > maxSlots then (store, .plain (.text 400 "too many slots"), none)
        else
          match slots.findSome? (slotProblem voiceMax) with
          | some problem => (store, .plain (.text 400 problem), none)
          | none =>
            if fault then (store, .plain internalError, none)
            else
              match store.replaceSet owner slots request.later with
              | none => (store, .plain internalError, none)
              | some after => (after, .slotReceipt slots.length, some slots)

def pushedSlot (now : Int) (slots : List Voice.VoiceSlotEntry) (tokenHash : Bytes) : Option VoiceSlot :=
  (slots.find? (fun entry => entry.tokenHash = tokenHash)).map (fun entry =>
    ⟨entry.maxParticipants, now⟩)

/-- Only the rows of `voice_slots` differ. -/
structure SlotsOnly (before after : Store) : Prop where
  db : after.db = before.db
  events : after.eventRows = before.eventRows

theorem insertSlot_cases {tokenHash slot} (stored : store.insertSlot owner tokenHash slot = some after) :
    (owner, tokenHash) ∉ store.voiceSlots ∧ owner ∈ store.db.pairedOwners ∧ SlotsOnly store after ∧
      after.voiceSlots = store.voiceSlots.insert (owner, tokenHash) slot := by
  unfold insertSlot at stored
  split at stored
  · cases stored
  next fresh =>
    split at stored
    next owned =>
      cases stored
      exact ⟨fresh, owned, ⟨rfl, rfl⟩, rfl⟩
    · cases stored

theorem insertSlots_spec {slots} (stored : insertSlots owner now slots store = some after) :
    SlotsOnly store after ∧ ∀ pubkey tokenHash, after.voiceSlots.lookup (pubkey, tokenHash) =
        (store.voiceSlots.lookup (pubkey, tokenHash)).or
          (if pubkey = owner then pushedSlot now slots tokenHash else none) := by
  induction slots generalizing store with
  | nil =>
    cases stored
    refine ⟨⟨rfl, rfl⟩, ?_⟩
    intro pubkey tokenHash
    simp [pushedSlot]
  | cons entry rest ih =>
    rw [insertSlots] at stored
    cases inserted : store.insertSlot owner entry.tokenHash ⟨entry.maxParticipants, now⟩ with
    | none => simp only [inserted, reduceCtorEq] at stored
    | some =>
      simp only [inserted] at stored
      rcases insertSlot_cases inserted with ⟨fresh, _, only, rows⟩
      rcases ih stored with ⟨onlyRest, lookups⟩
      refine ⟨⟨onlyRest.db.trans only.db, onlyRest.events.trans only.events⟩, ?_⟩
      intro pubkey tokenHash
      rw [lookups, rows]
      by_cases mine : pubkey = owner
      · by_cases named : tokenHash = entry.tokenHash
        · subst mine named
          rw [lookup_eq_none.mpr fresh]
          simp [pushedSlot]
        · simp [pushedSlot, mine, named, Ne.symm named]
      · simp [mine]

theorem replaceSet_spec {slots}
    (replaced : store.replaceSet owner slots now = some after) : SlotsOnly store after ∧ ∀ pubkey tokenHash,
      after.voiceSlots.lookup (pubkey, tokenHash) =
        if pubkey = owner then pushedSlot now slots tokenHash
        else store.voiceSlots.lookup (pubkey, tokenHash) := by
  rcases insertSlots_spec replaced with ⟨only, lookups⟩
  refine ⟨⟨only.db, only.events⟩, ?_⟩
  intro pubkey tokenHash
  have cleared : (store.clearSlots owner).voiceSlots.lookup (pubkey, tokenHash) =
      if pubkey = owner then none else store.voiceSlots.lookup (pubkey, tokenHash) :=
    lookup_retain_fst store.voiceSlots owner (pubkey, tokenHash)
  rw [lookups, cleared]
  by_cases mine : pubkey = owner <;> simp [mine]

theorem voiceRooms_cases (store owner request fault) :
    ((voiceRooms site store owner request fault).1 = store ∧
      (voiceRooms site store owner request fault).2.2 = none) ∨
    ∃ slots, store.replaceSet owner slots request.later = some (voiceRooms site store owner request fault).1 ∧
      (voiceRooms site store owner request fault).2 = (.slotReceipt slots.length, some slots) ∧
      ∀ slot ∈ slots, slot.tokenHash.length = 32 := by
  unfold voiceRooms
  cases refused : request.refusal site.toSite owner "/voice/rooms" with
  | some => exact .inl ⟨rfl, rfl⟩
  | none =>
    cases site.voiceMax with
    | none => exact .inl ⟨rfl, rfl⟩
    | some voiceMax =>
      cases parsed : site.parseSlots request.body with
      | none => exact .inl ⟨rfl, rfl⟩
      | some slots =>
        simp only
        split
        · exact .inl ⟨rfl, rfl⟩
        · cases wrong : slots.findSome? (slotProblem voiceMax) with
          | some => exact .inl ⟨rfl, rfl⟩
          | none =>
            cases fault with
            | true => exact .inl ⟨rfl, rfl⟩
            | false =>
              cases replaced : store.replaceSet owner slots request.later with
              | none => exact .inl ⟨by simp, by simp⟩
              | some =>
                refine Or.inr ⟨slots, ?_, ?_, ?_⟩
                · simpa using replaced
                · simp
                · intro slot member
                  have sound := List.findSome?_eq_none_iff.mp wrong slot member
                  unfold slotProblem at sound
                  by_contra short
                  rw [if_pos short] at sound
                  cases sound

/-! ## routes/status.rs -/

structure VoiceStatus where
  enabled : Bool
  maxParticipants : Nat
  slotCount : Int

structure Status where
  pubkey : Bytes32
  version : String
  eventCount : Int
  storageUsed : Int
  storageLimit : Int
  mediaStorageUsed : Int
  voice : VoiceStatus

def status (store : Store) (owner : Bytes32) : Status where
  pubkey := owner
  version := protocolVersion
  eventCount := store.countEvents owner
  storageUsed := Accounting.ownerUsage store.db owner
  storageLimit := ownerCap site.toSite store.db owner
  mediaStorageUsed := Media.totalBytes store.db owner
  voice :=
    match site.voiceMax with
    | some voiceMax => ⟨true, voiceMax, store.countSlots owner⟩
    | none => ⟨false, 0, 0⟩

end

end Starling.Http
