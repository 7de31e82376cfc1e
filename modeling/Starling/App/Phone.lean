import Starling.App.Events
import Starling.App.FollowKeys
import Starling.Foundation.Run

namespace Starling.App

open List Option

/-!
# What a phone makes of the items that it receives

Items reach a phone in two ways.  The sync engine pulls an envelope from a peer and reads its
`event` items; `POST /events` brings an envelope that anybody may have sent, with `event`,
`room-key` and `room-event` items.  Every path ends in an upsert of a whole event row, and the
room items also write the row, the roster and the retired keys of a room.  The checks differ
from path to path: which of the two public keys of an encrypted event is looked at, whether the
event has to refer to a known one, and which keys are tried.
-/

structure Room where
  name : String
  creatorPubkey : Pubkey
  createdAt : Int
  lastActivityAt : Int
  roomKey : FeedKey
  roomKeyEpoch : Int
  roomKeyValidFrom : Int
  roomMsgSeqCounter : Nat
  membershipEpoch : Int
  isMember : Bool
  lastReadAt : Int
  deriving DecidableEq

structure RoomMember where
  addedAt : Int
  removedAt : Option Int

def RoomMember.isActive (member : RoomMember) : Bool := member.removedAt.isNone

/-- A room key that was current during the half-open window from `validFrom` to `validUntil`. -/
structure RetiredRoomKey where
  roomKey : FeedKey
  validFrom : Int
  validUntil : Int

structure RoomCreateContent where
  name : String
  creatorPubkey : Pubkey
  createdAt : Int

structure RoomMembershipContent where
  members : List Pubkey
  membershipEpoch : Int
  roomKeyEpoch : Int

/-- A parsed `room-key` item.  Only the key is sealed. -/
structure RoomKeyDelivery where
  roomId : String
  epoch : Int
  validFrom : Int
  sender : Pubkey
  sealed : SealedDelivery FeedKey
  deriving DecidableEq

/-- A parsed `room-event` item; `none` are bytes that are no encrypted event. -/
structure RoomEventDelivery where
  roomId : String
  event : Option SealedEvent
  deriving DecidableEq

section Contents

variable (K : EventCrypto)

/-- `none` stands for the exception of a malformed content. -/
def decodeRoomCreateContent (bytes : Bytes) : Option RoomCreateContent := do
  let decoded ← K.cborDecode bytes
  let entries ← decoded.asMap
  let name ← (Dynamic.entry "name" entries).asText
  let creatorPubkey ← (Dynamic.entry "creator_pubkey" entries).asText
  let createdAt ← (Dynamic.entry "created_at" entries).asInt
  some ⟨name, creatorPubkey, createdAt⟩

def decodeRoomMembershipContent (bytes : Bytes) : Option RoomMembershipContent := do
  let decoded ← K.cborDecode bytes
  let entries ← decoded.asMap
  let items ← (Dynamic.entry "members" entries).asList
  let members ← items.mapM Dynamic.asText
  let membershipEpoch ← (Dynamic.entry "membership_epoch" entries).asInt
  let roomKeyEpoch ← (Dynamic.entry "room_key_epoch" entries).asInt
  some ⟨members, membershipEpoch, roomKeyEpoch⟩

end Contents

/-- A row of `follow_entries`, and whether its status is `active`. -/
structure FollowEntry where
  follow : Follow
  active : Bool

structure Phone where
  identity : Option Identity
  events : Table String EventEntry
  follows : Table Pubkey FollowEntry
  followKeys : List FollowKeyRow
  acceptedFollowers : List Pubkey
  rooms : Table String Room
  members : Table (String × Pubkey) RoomMember
  roomKeys : Table (String × Int) RetiredRoomKey

namespace Phone

section

variable (phone : Phone) (roomId : String)

def ownPubkey : Option Pubkey := phone.identity.map Identity.pubkey

section

variable (pubkey : Pubkey)

/-- `setLastDecryptFailureAt`, and with `none` also `clearLastDecryptFailureIfSet`. -/
def setLastDecryptFailureAt (stamp : Option Int) : Phone :=
  match phone.follows.lookup pubkey with
  | none => phone
  | some entry =>
    { phone with
      follows := phone.follows.insert pubkey
        { entry with follow := { entry.follow with lastDecryptFailureAt := stamp } } }

def mutualFollow : Bool :=
  (match phone.follows.lookup pubkey with
    | none => false
    | some entry => entry.active) &&
    decide (pubkey ∈ phone.acceptedFollowers)

def upsertEvent (row : EventEntry) : Phone :=
  { phone with events := phone.events.insert row.id row }

def saveRoom (room : Room) : Phone :=
  { phone with rooms := phone.rooms.insert roomId room }

def saveRoomMember (member : RoomMember) : Phone :=
  { phone with members := phone.members.insert (roomId, pubkey) member }

def setRoomMemberRemoved (removedAt : Int) : Phone :=
  match phone.members.lookup (roomId, pubkey) with
  | none => phone
  | some member => phone.saveRoomMember roomId pubkey { member with removedAt := some removedAt }

def appendRoomKeyHistory (epoch : Int) (retired : RetiredRoomKey) :
    Phone :=
  { phone with roomKeys := phone.roomKeys.insert (roomId, epoch) retired }

/-- `getRoomMembers`. -/
def roomMembers : List (Pubkey × RoomMember) :=
  (phone.members.entries.filter (fun entry => entry.1.1 = roomId)).map (fun entry => (entry.1.2, entry.2))

/-- `getRoomKeyHistory`. -/
def roomKeyHistory : List RetiredRoomKey :=
  inOrder RetiredRoomKey.validFrom ((phone.roomKeys.entries.filter (fun entry => entry.1.1 = roomId)).map Sigma.snd)

def activeMember : Bool :=
  match phone.members.lookup (roomId, pubkey) with
  | none => false
  | some member => member.isActive

end

end

section Feed

variable (K : EventCrypto)

section

variable (phone : Phone) (follow : Follow)

/-- `saveEvent`: no payload, and own if the author is us. -/
def saveEvent (event : Event) (msgSeq : Int) : Phone :=
  phone.upsertEvent (eventToCompanion K event (some msgSeq) (decide (phone.ownPubkey = some event.pubkey)) none)

def saveOwnEventWithEncrypted (event : Event) (msgSeq : Nat) (encrypted : SealedEvent) :
    Phone :=
  phone.upsertEvent (eventToCompanion K event (some msgSeq) true (some encrypted))

def saveIncomingEventWithEncrypted (event : Event) (encrypted : SealedEvent) : Phone :=
  phone.upsertEvent (eventToCompanion K event (some encrypted.msgSeq) false (some encrypted))

def openPulled (encrypted : SealedEvent) : Option Event :=
  (follow.candidates phone.followKeys encrypted.createdAt).findSome? (decryptEvent K encrypted)

def anchorAuthor (author : Pubkey) : Bool := decide (author = follow.pubkey) || decide (phone.ownPubkey = some author)

def anchors (ref : Option String) : Bool :=
  match ref with
  | none => false
  | some target =>
    match phone.events.lookup target with
    | none => false
    | some anchor => phone.anchorAuthor follow anchor.pubkey

/-- `_processEventItem`. -/
def processEventItem (now : Int) (phone : Phone) (follow : Follow) (payload : Option SealedEvent) : Phone × Bool :=
  match payload with
  | none => (phone, false)
  | some encrypted =>
    match phone.openPulled K follow encrypted with
    | none => (phone.setLastDecryptFailureAt follow.pubkey (some now), false)
    | some event =>
      if event.pubkey ≠ follow.pubkey ∧ phone.anchors follow event.ref = false then (phone, false)
      else
        ((phone.saveEvent K event encrypted.msgSeq).setLastDecryptFailureAt follow.pubkey none, true)

/-- An `event` item of `ingestPushedEnvelope`: the wrapper names the follow whose key is tried. -/
def openPushed (encrypted : SealedEvent) : Option Event := do
  let entry ← phone.follows.lookup encrypted.pubkey
  decryptEvent K encrypted entry.follow.feedKey

def ingestPushedEvent (payload : Option SealedEvent) : Phone × Bool :=
  match payload with
  | none => (phone, false)
  | some encrypted =>
    match phone.openPushed K encrypted with
    | none => (phone, false)
    | some event => (phone.saveEvent K event encrypted.msgSeq, true)

end

end Feed

section

variable (own : Identity) (now : Int)

/-- `unsealDeliveryPayload`; both public keys have to be base32. -/
def unsealRoomKey (delivery : RoomKeyDelivery) : Option FeedKey := do
  let _ ← crockfordBase32Decode delivery.sender
  let _ ← crockfordBase32Decode own.pubkey
  delivery.sealed.content

def provisionalRoom (delivery : RoomKeyDelivery) (roomKey : FeedKey) (now : Int) : Room where
  name := ""
  creatorPubkey := delivery.sender
  createdAt := now
  lastActivityAt := now
  roomKey := roomKey
  roomKeyEpoch := delivery.epoch
  roomKeyValidFrom := delivery.validFrom
  roomMsgSeqCounter := 0
  membershipEpoch := 0
  isMember := true
  lastReadAt := 0

/-- The second half of `ingestRoomKeyItem`, with the key unsealed. -/
def acceptRoomKey (phone : Phone) (delivery : RoomKeyDelivery) (roomKey : FeedKey) : Phone :=
  match phone.rooms.lookup delivery.roomId with
  | none =>
    (phone.saveRoom delivery.roomId (provisionalRoom delivery roomKey now)).saveRoomMember
      delivery.roomId own.pubkey ⟨now, none⟩
  | some existing =>
    if existing.roomKeyEpoch < delivery.epoch then
      (phone.appendRoomKeyHistory delivery.roomId existing.roomKeyEpoch ⟨existing.roomKey,
          if existing.roomKeyValidFrom = 0 then existing.createdAt else existing.roomKeyValidFrom,
          delivery.validFrom⟩).saveRoom delivery.roomId
        { existing with
          roomKey := roomKey
          roomKeyEpoch := delivery.epoch
          roomKeyValidFrom := delivery.validFrom
          roomMsgSeqCounter := 0
          isMember := true }
    else if delivery.epoch < existing.roomKeyEpoch then
      match phone.roomKeys.lookup (delivery.roomId, delivery.epoch) with
      | some _ => phone
      | none =>
        phone.appendRoomKeyHistory delivery.roomId delivery.epoch
          ⟨roomKey, delivery.validFrom, existing.roomKeyValidFrom⟩
    else if existing.isMember then phone
    else phone.saveRoom delivery.roomId { existing with isMember := true }

def ingestRoomKeyItem (phone : Phone) (payload : Option RoomKeyDelivery) :
    Phone :=
  match payload with
  | none => phone
  | some delivery =>
    if phone.mutualFollow delivery.sender then
      match unsealRoomKey own delivery with
      | none => phone
      | some roomKey => acceptRoomKey own now phone delivery roomKey
    else phone

structure Ingested where
  phone : Phone
  threw : Bool

/-- The current key, and the retired ones whose window has the second of the wrapper. -/
def roomCandidates (phone : Phone) (roomId : String) (room : Room) (createdAt : Int) : List FeedKey :=
  room.roomKey :: ((phone.roomKeyHistory roomId).filter
      (fun retired => retired.validFrom ≤ createdAt ∧ createdAt < retired.validUntil)).map
      RetiredRoomKey.roomKey

def admits (phone : Phone) (roomId : String) (room : Room) (author : Pubkey) : Bool :=
  phone.activeMember roomId author || decide (author = room.creatorPubkey)

/-- The first loop of `_applyRoster`: active members that are not on the list are removed. -/
def removeUnlisted (now : Int) (phone : Phone) (roomId : String) (listed : List Pubkey)
    (current : List (Pubkey × RoomMember)) : Phone :=
  current.foldl (fun state member =>
      if member.2.isActive && decide (member.1 ∉ listed) then
        state.setRoomMemberRemoved roomId member.1 now
      else state) phone

/-- The second loop of `_applyRoster`: members that are new or removed become active. -/
def addListed (now : Int) (phone : Phone) (roomId : String) (before : Pubkey -> Option RoomMember)
    (listed : List Pubkey) : Phone :=
  listed.foldl (fun state pubkey =>
      match before pubkey with
      | none => state.saveRoomMember roomId pubkey ⟨now, none⟩
      | some existing =>
        if existing.isActive then state
        else state.saveRoomMember roomId pubkey ⟨existing.addedAt, none⟩) phone

/-- `_applyRoster`.  Both loops work with the rows from before the first one. -/
def applyRoster (phone : Phone) (roomId : String) (room : Room) (content : RoomMembershipContent) : Phone :=
  let removed := phone.removeUnlisted now roomId content.members (phone.roomMembers roomId)
  let added := removed.addListed now roomId (fun pubkey => phone.members.lookup (roomId, pubkey)) content.members
  added.saveRoom roomId
    { room with
      membershipEpoch := content.membershipEpoch
      isMember := decide (own.pubkey ∈ content.members) }

end

section Rooms

variable (K : EventCrypto)

/-- `_applyRoomEvent`.  The contents of kinds 100 and 101 may throw, the second one after the
event has been saved. -/
def applyRoomEvent (own : Identity) (now : Int) (phone : Phone) (roomId : String) (room : Room)
    (event : Event) (encrypted : SealedEvent) : Ingested :=
  if event.kind = 100 then
    if event.id ≠ roomId then ⟨phone, false⟩
    else
      match decodeRoomCreateContent K event.content with
      | none => ⟨phone, true⟩
      | some content =>
        ⟨(phone.saveIncomingEventWithEncrypted K event encrypted).saveRoom roomId { room with
            name := content.name
            creatorPubkey := content.creatorPubkey
            createdAt := content.createdAt }, false⟩
  else if event.kind = 101 then
    if event.pubkey ≠ room.creatorPubkey then ⟨phone, false⟩
    else
      let stored := phone.saveIncomingEventWithEncrypted K event encrypted
      match decodeRoomMembershipContent K event.content with
      | none => ⟨stored, true⟩
      | some content =>
        if content.membershipEpoch ≤ room.membershipEpoch then ⟨stored, false⟩
        else ⟨applyRoster own now stored roomId room content, false⟩
  else if event.kind = 102 ∨ event.kind = 103 then
    let stored := phone.saveIncomingEventWithEncrypted K event encrypted
    if room.lastActivityAt < event.createdAt then
      ⟨stored.saveRoom roomId { room with lastActivityAt := event.createdAt }, false⟩
    else ⟨stored, false⟩
  else ⟨phone, false⟩

def openRoomEvent (phone : Phone) (roomId : String) (room : Room) (encrypted : SealedEvent) : Option Event :=
  if phone.admits roomId room encrypted.pubkey then
    (phone.roomCandidates roomId room encrypted.createdAt).findSome? (decryptEvent K encrypted)
  else none

def ingestRoomEventItem (own : Identity) (now : Int) (phone : Phone) (payload : Option RoomEventDelivery) :
    Ingested :=
  match payload with
  | none => ⟨phone, false⟩
  | some delivery =>
    match phone.rooms.lookup delivery.roomId, delivery.event with
    | some room, some encrypted =>
      match phone.openRoomEvent K delivery.roomId room encrypted with
      | none => ⟨phone, false⟩
      | some event => applyRoomEvent K own now phone delivery.roomId room event encrypted
    | _, _ => ⟨phone, false⟩

end Rooms

end Phone

/-- An item of an envelope with its payload parsed; `none` is a payload that cannot be. -/
inductive EnvelopeItem where
  | event (payload : Option SealedEvent)
  | roomKey (payload : Option RoomKeyDelivery)
  | roomEvent (payload : Option RoomEventDelivery)
  | unknown

inductive Item where
  | pulled (follow : Follow) (payload : Option SealedEvent)
  | pushed (payload : Option SealedEvent)
  | roomKey (payload : Option RoomKeyDelivery)
  | roomEvent (payload : Option RoomEventDelivery)
  deriving DecidableEq

def Item.wrapper : Item -> Option SealedEvent
  | .pulled _ payload => payload
  | .pushed payload => payload
  | .roomKey _ => none
  | .roomEvent payload => payload.bind RoomEventDelivery.event

/-- The item loop of `_syncOnePeer` reads the items of type `event`. -/
def pulledItems (follow : Follow) (items : List EnvelopeItem) : List Item :=
  items.filterMap (fun item =>
    match item with
    | .event payload => some (.pulled follow payload)
    | _ => none)

/-- The order of `ingestPushedEnvelope`: the room keys come first.  Without the own secret key
only the feed events are read. -/
def pushedItems (canIngestRooms : Bool) (items : List EnvelopeItem) : List Item :=
  (if canIngestRooms then
    items.filterMap (fun item =>
      match item with
      | .roomKey payload => some (Item.roomKey payload)
      | _ => none)
  else []) ++
  items.filterMap (fun item =>
    match item with
    | .event payload => some (.pushed payload)
    | .roomEvent payload => if canIngestRooms then some (.roomEvent payload) else none
    | _ => none)

namespace Phone

variable (K : EventCrypto)

def processItem (now : Int) (phone : Phone) : Item -> Ingested
  | .pulled follow payload => ⟨(phone.processEventItem K now follow payload).1, false⟩
  | .pushed payload => ⟨(phone.ingestPushedEvent K payload).1, false⟩
  | .roomKey payload =>
    match phone.identity with
    | none => ⟨phone, false⟩
    | some own => ⟨ingestRoomKeyItem own now phone payload, false⟩
  | .roomEvent payload =>
    match phone.identity with
    | none => ⟨phone, false⟩
    | some own => ingestRoomEventItem K own now phone payload

def processItems (now : Int) (phone : Phone) : List Item -> Phone
  | [] => phone
  | item :: rest =>
    let result := phone.processItem K now item
    if result.threw then result.phone else result.phone.processItems now rest

/-- The item loop of `_syncOnePeer`. -/
def syncEnvelope (now : Int) (phone : Phone) (follow : Follow) (items : List EnvelopeItem) : Phone :=
  phone.processItems K now (pulledItems follow items)

def ingestPushedEnvelope (now : Int) (phone : Phone) (secretKeyLoaded : Bool) (items : List EnvelopeItem) : Phone :=
  phone.processItems K now (pushedItems (secretKeyLoaded && phone.identity.isSome) items)

def itemStep (phone : Phone) (input : Int × Item) : Except Empty Phone :=
  .ok (phone.processItem K input.1 input.2).phone

/-- Whether `_applyRoomEvent` saves the event. -/
def keepsRoomEvent (roomId : String) (room : Room) (event : Event) : Bool :=
  if event.kind = 100 then
    decide (event.id = roomId) && (decodeRoomCreateContent K event.content).isSome
  else if event.kind = 101 then decide (event.pubkey = room.creatorPubkey)
  else decide (event.kind = 102 ∨ event.kind = 103)

def stores (phone : Phone) : Item -> Option (Event × EventEntry)
  | .pulled follow payload => do
      let encrypted ← payload
      let event ← phone.openPulled K follow encrypted
      if event.pubkey ≠ follow.pubkey ∧ phone.anchors follow event.ref = false then none
      else
        some (event, eventToCompanion K event (some encrypted.msgSeq)
          (decide (phone.ownPubkey = some event.pubkey)) none)
  | .pushed payload => do
      let encrypted ← payload
      let event ← phone.openPushed K encrypted
      some (event, eventToCompanion K event (some encrypted.msgSeq) (decide (phone.ownPubkey = some event.pubkey)) none)
  | .roomKey _ => none
  | .roomEvent payload => do
      let _ ← phone.identity
      let delivery ← payload
      let room ← phone.rooms.lookup delivery.roomId
      let encrypted ← delivery.event
      let event ← phone.openRoomEvent K delivery.roomId room encrypted
      if keepsRoomEvent K delivery.roomId room event then
        some (event, eventToCompanion K event (some encrypted.msgSeq) false (some encrypted))
      else none

variable {K}

theorem events_setLastDecryptFailureAt (phone : Phone) (pubkey) (stamp : Option Int) :
    (phone.setLastDecryptFailureAt pubkey stamp).events = phone.events := by
  unfold setLastDecryptFailureAt
  split <;> rfl

section

variable (own : Identity) (now : Int)

section

variable (phone : Phone)

theorem events_acceptRoomKey (delivery roomKey) :
    (acceptRoomKey own now phone delivery roomKey).events = phone.events := by
  unfold acceptRoomKey
  split
  · rfl
  · split
    · rfl
    · split <;> split <;> rfl

theorem events_ingestRoomKeyItem (payload) : (ingestRoomKeyItem own now phone payload).events = phone.events := by
  unfold ingestRoomKeyItem
  split
  · rfl
  · split
    · split
      · rfl
      · exact events_acceptRoomKey own now phone _ _
    · rfl

def withoutMembers : Phone := { phone with members := ∅ }

theorem withoutMembers_applyRoster (roomId : String) (room : Room)
    (content : RoomMembershipContent) : (applyRoster own now phone roomId room content).withoutMembers =
      phone.withoutMembers.saveRoom roomId
        { room with
          membershipEpoch := content.membershipEpoch
          isMember := decide (own.pubkey ∈ content.members) } := by
  have frame : ((phone.removeUnlisted now roomId content.members (phone.roomMembers roomId)).addListed now
      roomId (fun pubkey => phone.members.lookup (roomId, pubkey)) content.members).withoutMembers =
      phone.withoutMembers := by
    refine (foldl_view ?_ content.members _).trans (foldl_view ?_ (phone.roomMembers roomId) phone)
    · intro state pubkey
      split
      · rfl
      · split <;> rfl
    · intro state member
      split
      · unfold setRoomMemberRemoved
        split <;> rfl
      · rfl
  rw [← frame]
  rfl

theorem events_applyRoomEvent (roomId room event encrypted) :
    (applyRoomEvent K own now phone roomId room event encrypted).phone.events =
      if keepsRoomEvent K roomId room event then
        phone.events.insert event.id (eventToCompanion K event (some encrypted.msgSeq) false (some encrypted))
      else phone.events := by
  unfold applyRoomEvent keepsRoomEvent
  by_cases genesis : event.kind = 100
  · simp only [genesis, if_true]
    by_cases here : event.id = roomId
    · cases decodeRoomCreateContent K event.content with
      | none => simp [here]
      | some =>
        simp only [here, ne_eq, not_true_eq_false, if_false, decide_true, isSome_some, Bool.and_self, if_true]
        rw [← here]
        rfl
    · simp [here]
  · simp only [genesis, if_false]
    by_cases roster : event.kind = 101
    · simp only [roster, if_true]
      by_cases creator : event.pubkey = room.creatorPubkey
      · simp only [creator, ne_eq, not_true_eq_false, if_false, decide_true, if_true]
        cases decodeRoomMembershipContent K event.content with
        | none => rfl
        | some content =>
          dsimp only
          split
          · rfl
          · exact congrArg events (withoutMembers_applyRoster own now _ roomId room content)
      · simp [creator]
    · simp only [roster, if_false]
      by_cases message : event.kind = 102 ∨ event.kind = 103
      · simp only [message, if_true, decide_true]
        split <;> rfl
      · simp [message]

end

end

theorem events_processItem (now : Int) (phone : Phone) (item : Item) :
    (phone.processItem K now item).phone.events =
      match phone.stores K item with
      | none => phone.events
      | some (_, row) => phone.events.insert row.id row := by
  cases item with
  | pulled follow payload =>
    cases payload with
    | none => rfl
    | some encrypted =>
      simp only [processItem, processEventItem, stores, bind_eq_bind, bind_some]
      cases phone.openPulled K follow encrypted with
      | none => exact events_setLastDecryptFailureAt phone _ _
      | some =>
        simp only [bind_some]
        split
        · rfl
        · exact events_setLastDecryptFailureAt _ _ _
  | pushed payload =>
    cases payload with
    | none => rfl
    | some encrypted =>
      simp only [processItem, ingestPushedEvent, stores, bind_eq_bind, bind_some]
      cases phone.openPushed K encrypted with
      | none | some => rfl
  | roomKey payload =>
    simp only [processItem, stores]
    cases phone.identity with
    | none => rfl
    | some own => exact events_ingestRoomKeyItem own now phone payload
  | roomEvent payload =>
    simp only [processItem, stores, bind_eq_bind]
    cases phone.identity with
    | none => rfl
    | some =>
      cases payload with
      | none => rfl
      | some delivery =>
        simp only [ingestRoomEventItem, bind_some]
        cases phone.rooms.lookup delivery.roomId with
        | none => rfl
        | some room =>
          cases delivery.event with
          | none => rfl
          | some encrypted =>
            simp only [bind_some]
            cases phone.openRoomEvent K delivery.roomId room encrypted with
            | none => rfl
            | some =>
              simp only [bind_some, events_applyRoomEvent]
              split <;> rfl

inductive Stores (K : EventCrypto) (phone : Phone) : Item -> Event -> EventEntry -> Prop where
  | pulled {follow : Follow} {encrypted : SealedEvent} {event : Event}
      (opened : phone.openPulled K follow encrypted = some event)
      (fits : event.pubkey = follow.pubkey ∨ phone.anchors follow event.ref = true) :
      Stores K phone (.pulled follow (some encrypted)) event (eventToCompanion K event (some encrypted.msgSeq)
          (decide (phone.ownPubkey = some event.pubkey)) none)
  | pushed {encrypted : SealedEvent} {event : Event}
      (opened : phone.openPushed K encrypted = some event) :
      Stores K phone (.pushed (some encrypted)) event (eventToCompanion K event (some encrypted.msgSeq)
          (decide (phone.ownPubkey = some event.pubkey)) none)
  | room {own : Identity} {roomId : String} {room : Room} {encrypted : SealedEvent} {event : Event}
      (identity : phone.identity = some own) (found : phone.rooms.lookup roomId = some room)
      (opened : phone.openRoomEvent K roomId room encrypted = some event)
      (keeps : keepsRoomEvent K roomId room event = true) :
      Stores K phone (.roomEvent (some ⟨roomId, some encrypted⟩)) event
        (eventToCompanion K event (some encrypted.msgSeq) false (some encrypted))

variable {event : Event} {item : Item}

theorem stores_eq_some {phone row} (stored : phone.stores K item = some (event, row)) :
    Stores K phone item event row := by
  cases item with
  | pulled follow payload =>
    cases payload with
    | none => cases stored
    | some =>
      simp only [stores, bind_eq_bind, bind_some, bind_eq_some_iff] at stored
      rcases stored with ⟨_, opened, rest⟩
      split at rest
      · cases rest
      next fits =>
        cases rest
        refine .pulled opened ?_
        by_cases source : event.pubkey = follow.pubkey
        · exact .inl source
        · refine Or.inr ?_
          cases anchored : phone.anchors follow event.ref with
          | true => rfl
          | false => exact (fits ⟨source, anchored⟩).elim
  | pushed payload =>
    cases payload with
    | none => cases stored
    | some =>
      simp only [stores, bind_eq_bind, bind_some, bind_eq_some_iff] at stored
      rcases stored with ⟨_, opened, rest⟩
      cases rest
      exact .pushed opened
  | roomKey => cases stored
  | roomEvent =>
    simp only [stores, bind_eq_bind, bind_eq_some_iff] at stored
    rcases stored with ⟨_, identity, ⟨_, _⟩, rfl, room, found, _, rfl, _, opened, rest⟩
    split at rest
    next keeps =>
      cases rest
      exact .room identity found opened keeps
    · cases rest

theorem Stores.eq_some {phone row} (stored : Stores K phone item event row) :
    phone.stores K item = some (event, row) := by
  cases stored with
  | pulled opened fits =>
    rename_i follow encrypted
    have kept : ¬ (event.pubkey ≠ follow.pubkey ∧ phone.anchors follow event.ref = false) := by
      rintro ⟨foreign, unanchored⟩
      rcases fits with source | anchored
      · exact foreign source
      · rw [unanchored] at anchored
        cases anchored
    simp [stores, opened, if_neg kept]
  | pushed opened => simp [stores, opened]
  | room identity found opened keeps =>
    simp [stores, identity, found, opened, if_pos keeps]

theorem Stores.row {phone row} (stores : Stores K phone item event row) :
    ∃ msgSeq isOwn payload, row = eventToCompanion K event msgSeq isOwn payload := by
  cases stores with
  | _ => exact ⟨_, _, _, rfl⟩

theorem openPulled_of_current {phone : Phone} {follow} {encrypted : SealedEvent}
    (opened : decryptEvent K encrypted follow.feedKey = some event) :
    phone.openPulled K follow encrypted = some event := by
  rw [openPulled, Follow.candidates, List.findSome?_cons, opened]

theorem Stores.decrypted {phone row} (stores : Stores K phone item event row) :
    ∃ encrypted key, item.wrapper = some encrypted ∧ decryptEvent K encrypted key = some event := by
  cases stores with
  | pulled opened =>
    rcases exists_of_findSome?_eq_some opened with ⟨key, _, decrypted⟩
    exact ⟨_, key, rfl, decrypted⟩
  | pushed opened =>
    rw [openPushed, bind_eq_bind, bind_eq_some_iff] at opened
    rcases opened with ⟨_, _, decrypted⟩
    exact ⟨_, _, rfl, decrypted⟩
  | room _ _ opened =>
    rw [openRoomEvent] at opened
    split at opened
    · rcases exists_of_findSome?_eq_some opened with ⟨key, _, decrypted⟩
      exact ⟨_, key, rfl, decrypted⟩
    · cases opened

def Brings (K : EventCrypto) (known : Set Event) (item : Item) : Prop :=
  ∀ encrypted key event, item.wrapper = some encrypted -> decryptEvent K encrypted key = some event -> event ∈ known

inductive Writes (phone : Phone) : Phone -> Prop where
  | refl : Writes phone phone
  | stamp {next : Phone} (writes : Writes phone next) (pubkey : Pubkey) (stamp : Option Int) :
      Writes phone (next.setLastDecryptFailureAt pubkey stamp)
  | event {next : Phone} (writes : Writes phone next) (row : EventEntry) :
      Writes phone (next.upsertEvent row)
  | room {next : Phone} (writes : Writes phone next) (roomId : String) (room : Room) :
      Writes phone (next.saveRoom roomId room)
  | member {next : Phone} (writes : Writes phone next) (roomId : String) (pubkey : Pubkey)
      (member : RoomMember) : Writes phone (next.saveRoomMember roomId pubkey member)
  | key {next : Phone} (writes : Writes phone next) (roomId : String) (epoch : Int)
      (retired : RetiredRoomKey) : Writes phone (next.appendRoomKeyHistory roomId epoch retired)

theorem Writes.removeUnlisted {phone next} (writes : Writes phone next) (now roomId listed current) :
    Writes phone (next.removeUnlisted now roomId listed current) := by
  induction current generalizing next with
  | nil => exact writes
  | cons member rest ih =>
    apply ih
    dsimp only
    split
    · unfold setRoomMemberRemoved
      split
      · exact writes
      · exact writes.member roomId member.1 _
    · exact writes

theorem Writes.addListed {phone next} (writes : Writes phone next) (now roomId before listed) :
    Writes phone (next.addListed now roomId before listed) := by
  induction listed generalizing next with
  | nil => exact writes
  | cons pubkey rest ih =>
    apply ih
    dsimp only
    split
    · exact writes.member roomId pubkey _
    · split
      · exact writes
      · exact writes.member roomId pubkey _

theorem writes_acceptRoomKey (own now phone delivery roomKey) :
    Writes phone (acceptRoomKey own now phone delivery roomKey) := by
  unfold acceptRoomKey
  split
  · exact (Writes.refl.room _ _).member _ _ _
  · split
    · exact (Writes.refl.key _ _ _).room _ _
    · split
      · split
        · exact .refl
        · exact Writes.refl.key _ _ _
      · split
        · exact .refl
        · exact Writes.refl.room _ _

theorem writes_applyRoomEvent (own now phone roomId room event encrypted) :
    Writes phone (applyRoomEvent K own now phone roomId room event encrypted).phone := by
  unfold applyRoomEvent
  split
  · split
    · exact .refl
    · split
      · exact .refl
      · exact (Writes.refl.event _).room _ _
  · split
    · split
      · exact .refl
      · split
        · exact Writes.refl.event _
        · split
          · exact Writes.refl.event _
          · exact (((Writes.refl.event _).removeUnlisted now roomId _ _).addListed now roomId _ _).room _ _
    · split
      · split
        · exact (Writes.refl.event _).room _ _
        · exact Writes.refl.event _
      · exact .refl

theorem writes_processItem (now phone item) : Writes phone (phone.processItem K now item).phone := by
  cases item with
  | pulled =>
    simp only [processItem, processEventItem]
    split
    · exact .refl
    · split
      · exact Writes.refl.stamp _ _
      · split
        · exact .refl
        · exact (Writes.refl.event _).stamp _ _
  | pushed =>
    simp only [processItem, ingestPushedEvent]
    split
    · exact .refl
    · split
      · exact .refl
      · exact Writes.refl.event _
  | roomKey =>
    simp only [processItem]
    split
    · exact .refl
    · unfold ingestRoomKeyItem
      split
      · exact .refl
      · split
        · split
          · exact .refl
          · exact writes_acceptRoomKey _ now phone _ _
        · exact .refl
  | roomEvent =>
    simp only [processItem]
    split
    · exact .refl
    · unfold ingestRoomEventItem
      split
      · exact .refl
      · split
        · split
          · exact .refl
          · exact writes_applyRoomEvent _ now phone _ _ _ _
        · exact .refl

def FollowEntry.checked (entry : FollowEntry) : FeedKey × Bool := (entry.follow.feedKey, entry.active)

/-- The same accounts: everything that the checks read outside the tables of events and rooms. -/
structure SameAccounts (phone next : Phone) : Prop where
  identity : next.identity = phone.identity
  followKeys : next.followKeys = phone.followKeys
  acceptedFollowers : next.acceptedFollowers = phone.acceptedFollowers
  follows : ∀ pubkey, (next.follows.lookup pubkey).map FollowEntry.checked =
      (phone.follows.lookup pubkey).map FollowEntry.checked

theorem Writes.accounts {phone next} (writes : Writes phone next) : SameAccounts phone next := by
  induction writes with
  | refl => exact ⟨rfl, rfl, rfl, fun _ => rfl⟩
  | stamp _ _ _ ih =>
    rename_i middle
    unfold setLastDecryptFailureAt
    split
    · exact ih
    next found =>
      refine ⟨ih.identity, ih.followKeys, ih.acceptedFollowers, ?_⟩
      intro other
      rw [← ih.follows other, Table.lookup_insert_eq]
      split
      next same =>
        rw [same, found]
        rfl
      · rfl
  | event _ _ ih | room _ _ _ ih | member _ _ _ _ ih | key _ _ _ _ ih =>
    exact ⟨ih.identity, ih.followKeys, ih.acceptedFollowers, ih.follows⟩

namespace SameAccounts

variable {phone next : Phone}

theorem trans {last} (first : SameAccounts phone next) (second : SameAccounts next last) : SameAccounts phone last where
  identity := second.identity.trans first.identity
  followKeys := second.followKeys.trans first.followKeys
  acceptedFollowers := second.acceptedFollowers.trans first.acceptedFollowers
  follows := fun pubkey => (second.follows pubkey).trans (first.follows pubkey)

variable (same : SameAccounts phone next)
include same

theorem openPulled (follow encrypted) : next.openPulled K follow encrypted = phone.openPulled K follow encrypted := by
  rw [Phone.openPulled, Phone.openPulled, same.followKeys]

theorem openPushed (encrypted) : next.openPushed K encrypted = phone.openPushed K encrypted := by
  have rows := same.follows encrypted.pubkey
  rw [Phone.openPushed, Phone.openPushed]
  cases before : phone.follows.lookup encrypted.pubkey with
  | none =>
    rw [before, map_none, map_eq_none_iff] at rows
    rw [rows]
  | some entry =>
    rw [before, map_some, map_eq_some_iff] at rows
    rcases rows with ⟨later, found, checked⟩
    have keys : later.follow.feedKey = entry.follow.feedKey := congrArg Prod.fst checked
    simp [found, keys]

theorem ownPubkey : next.ownPubkey = phone.ownPubkey := by
  rw [Phone.ownPubkey, Phone.ownPubkey, same.identity]

end SameAccounts

/-! ## Authentic tables -/

structure Authentic (K : EventCrypto) (known : Set Event) (phone : Phone) : Prop where
  rows : ∀ id row, phone.events.lookup id = some row ->
    row.id = id ∧ ∃ event ∈ known, eventFromRow K row = some event ∧ event.verifies K = true

theorem Authentic.fields_eq {known : Set Event} {phone : Phone} (authentic : phone.Authentic K known)
    (faithful : Faithful K known) (member : event ∈ known) (verified : event.verifies K = true)
    {row : EventEntry} (found : phone.events.lookup event.id = some row) :
    ∃ stored, eventFromRow K row = some stored ∧ stored.toSignedFields = event.toSignedFields := by
  rcases authentic.rows event.id row found with ⟨same, stored, storedMember, read, storedVerified⟩
  refine ⟨stored, read, faithful.fields_of_id storedMember member ?_⟩
  rw [← Event.id_of_verifies storedVerified, ← Event.id_of_verifies verified,
    (columns_of_eventFromRow read).1, same]

end Phone

/-! ## The phone of the small world -/

namespace Small

def identity : Identity := ⟨"0", [], 0, 0, 0, none, 0⟩

def follow (pubkey : Pubkey) (feedKey : FeedKey) : Follow :=
  ⟨pubkey, ⟨pubkey, [], []⟩, feedKey, 0, 0, 0, 0, 0, none⟩

def phone (follows : List (Pubkey × FeedKey)) : Phone where
  identity := some identity
  events := ∅
  follows := follows.foldl (fun table entry => table.insert entry.1 ⟨follow entry.1 entry.2, true⟩) ∅
  followKeys := []
  acceptedFollowers := follows.map Prod.fst
  rooms := ∅
  members := ∅
  roomKeys := ∅

theorem authentic_phone (K known follows) : (phone follows).Authentic K known := by
  constructor
  intro _ _ stored
  cases stored

end Small

end Starling.App
