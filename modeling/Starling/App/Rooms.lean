import Starling.App.Authorship

namespace Starling.App
namespace Phone

open List Table AList

/-!
# Rooms, their messages and their rosters

Room items are admitted by what they say on the outside: the room that a delivery names, the
author that a wrapper names, the follow that has sealed a key.  The rows are made of the inside:
the signed author, the signed reference, the content.  `RoomEffect` says once what an item can do
to the tables of rooms.
-/

/-! ## What an item does to the rooms -/

structure RoomTables where
  rooms : Table String Room
  members : Table (String × Pubkey) RoomMember
  roomKeys : Table (String × Int) RetiredRoomKey

def roomTables (phone : Phone) : RoomTables := ⟨phone.rooms, phone.members, phone.roomKeys⟩

structure TakesKey (phone : Phone) (own : Identity) (delivery : RoomKeyDelivery) (roomKey : FeedKey) : Prop where
  identity : phone.identity = some own
  mutualFollow : phone.mutualFollow delivery.sender = true
  unsealed : unsealRoomKey own delivery = some roomKey

structure OpensEvent (K : EventCrypto) (phone : Phone) (own : Identity) (roomId : String) (room : Room)
    (encrypted : SealedEvent) (event : Event) : Prop where
  identity : phone.identity = some own
  found : phone.rooms.lookup roomId = some room
  opened : phone.openRoomEvent K roomId room encrypted = some event

def retire (existing : Room) (validUntil : Int) : RetiredRoomKey where
  roomKey := existing.roomKey
  validFrom := if existing.roomKeyValidFrom = 0 then existing.createdAt else existing.roomKeyValidFrom
  validUntil := validUntil

def adopt (existing : Room) (delivery : RoomKeyDelivery) (roomKey : FeedKey) : Room :=
  { existing with
    roomKey := roomKey
    roomKeyEpoch := delivery.epoch
    roomKeyValidFrom := delivery.validFrom
    roomMsgSeqCounter := 0
    isMember := true }

inductive RoomEffect (K : EventCrypto) (now : Int) (phone : Phone) : Item -> RoomTables -> Prop where
  | quiet {item : Item} : RoomEffect K now phone item phone.roomTables
  | firstKey {own : Identity} {delivery : RoomKeyDelivery} {roomKey : FeedKey}
      (takes : phone.TakesKey own delivery roomKey)
      (unknown : phone.rooms.lookup delivery.roomId = none) :
      RoomEffect K now phone (.roomKey (some delivery))
        ⟨phone.rooms.insert delivery.roomId (provisionalRoom delivery roomKey now),
          phone.members.insert (delivery.roomId, own.pubkey) ⟨now, none⟩, phone.roomKeys⟩
  | newerKey {own : Identity} {delivery : RoomKeyDelivery} {roomKey : FeedKey} {existing : Room}
      (takes : phone.TakesKey own delivery roomKey)
      (found : phone.rooms.lookup delivery.roomId = some existing)
      (newer : existing.roomKeyEpoch < delivery.epoch) :
      RoomEffect K now phone (.roomKey (some delivery))
        ⟨phone.rooms.insert delivery.roomId (adopt existing delivery roomKey), phone.members,
          phone.roomKeys.insert (delivery.roomId, existing.roomKeyEpoch) (retire existing delivery.validFrom)⟩
  | olderKey {own : Identity} {delivery : RoomKeyDelivery} {roomKey : FeedKey} {existing : Room}
      (takes : phone.TakesKey own delivery roomKey)
      (found : phone.rooms.lookup delivery.roomId = some existing)
      (older : delivery.epoch < existing.roomKeyEpoch)
      (unlisted : phone.roomKeys.lookup (delivery.roomId, delivery.epoch) = none) :
      RoomEffect K now phone (.roomKey (some delivery))
        ⟨phone.rooms, phone.members, phone.roomKeys.insert (delivery.roomId, delivery.epoch)
          ⟨roomKey, delivery.validFrom, existing.roomKeyValidFrom⟩⟩
  | rejoin {delivery : RoomKeyDelivery} {existing : Room}
      (found : phone.rooms.lookup delivery.roomId = some existing) :
      RoomEffect K now phone (.roomKey (some delivery))
        ⟨phone.rooms.insert delivery.roomId { existing with isMember := true }, phone.members, phone.roomKeys⟩
  | genesis {own : Identity} {roomId : String} {room : Room} {encrypted : SealedEvent} {event : Event}
      {content : RoomCreateContent} (opens : phone.OpensEvent K own roomId room encrypted event)
      (kind : event.kind = 100) (here : event.id = roomId)
      (decoded : decodeRoomCreateContent K event.content = some content) :
      RoomEffect K now phone (.roomEvent (some ⟨roomId, some encrypted⟩)) ⟨phone.rooms.insert roomId { room with
              name := content.name
              creatorPubkey := content.creatorPubkey
              createdAt := content.createdAt }, phone.members, phone.roomKeys⟩
  | roster {own : Identity} {roomId : String} {room : Room} {encrypted : SealedEvent} {event : Event}
      {content : RoomMembershipContent} (opens : phone.OpensEvent K own roomId room encrypted event)
      (kind : event.kind = 101) (creator : event.pubkey = room.creatorPubkey)
      (decoded : decodeRoomMembershipContent K event.content = some content)
      (newer : room.membershipEpoch < content.membershipEpoch) :
      RoomEffect K now phone (.roomEvent (some ⟨roomId, some encrypted⟩))
        (applyRoster own now (phone.saveIncomingEventWithEncrypted K event encrypted) roomId room content).roomTables
  | activity {own : Identity} {roomId : String} {room : Room} {encrypted : SealedEvent} {event : Event}
      (opens : phone.OpensEvent K own roomId room encrypted event) :
      RoomEffect K now phone (.roomEvent (some ⟨roomId, some encrypted⟩))
        ⟨phone.rooms.insert roomId { room with lastActivityAt := event.createdAt }, phone.members, phone.roomKeys⟩

variable {K : EventCrypto}

theorem roomTables_setLastDecryptFailureAt (phone : Phone) (pubkey) (stamp : Option Int) :
    (phone.setLastDecryptFailureAt pubkey stamp).roomTables = phone.roomTables := by
  unfold setLastDecryptFailureAt
  split <;> rfl

variable {own : Identity} {encrypted : SealedEvent} {room : Room} {roomId : String}

theorem roomEffect_acceptRoomKey (now) {phone delivery roomKey}
    (takes : phone.TakesKey own delivery roomKey) : RoomEffect K now phone (.roomKey (some delivery))
      (acceptRoomKey own now phone delivery roomKey).roomTables := by
  unfold acceptRoomKey
  split
  next unknown => exact .firstKey takes unknown
  next found =>
    split
    next newer => exact .newerKey takes found newer
    · split
      next older =>
        split
        · exact .quiet
        next unlisted => exact .olderKey takes found older unlisted
      · split
        · exact .quiet
        · exact .rejoin found

variable {event : Event}

theorem roomEffect_applyRoomEvent (now) {phone} (opens : phone.OpensEvent K own roomId room encrypted event) :
    RoomEffect K now phone (.roomEvent (some ⟨roomId, some encrypted⟩))
      (applyRoomEvent K own now phone roomId room event encrypted).phone.roomTables := by
  unfold applyRoomEvent
  split
  next kind =>
    split
    · exact .quiet
    next here =>
      split
      · exact .quiet
      next decoded => exact .genesis opens kind (not_not.mp here) decoded
  · split
    next kind =>
      split
      · exact .quiet
      next creator =>
        split
        · exact .quiet
        next decoded =>
          split
          · exact .quiet
          next newer => exact .roster opens kind (not_not.mp creator) decoded (not_le.mp newer)
    · split
      · split
        · exact .activity opens
        · exact .quiet
      · exact .quiet

theorem roomEffect_processItem (now : Int) (phone) (item : Item) :
    RoomEffect K now phone item (phone.processItem K now item).phone.roomTables := by
  cases item with
  | pulled =>
    simp only [processItem, processEventItem]
    split
    · exact .quiet
    · split
      · rw [roomTables_setLastDecryptFailureAt]
        exact .quiet
      · split
        · exact .quiet
        · rw [roomTables_setLastDecryptFailureAt]
          exact .quiet
  | pushed =>
    simp only [processItem, ingestPushedEvent]
    split
    · exact .quiet
    · split <;> exact .quiet
  | roomKey =>
    simp only [processItem]
    split
    · exact .quiet
    next identity =>
      unfold ingestRoomKeyItem
      split
      · exact .quiet
      · split
        next accepted =>
          split
          · exact .quiet
          next unsealed => exact roomEffect_acceptRoomKey now ⟨identity, accepted, unsealed⟩
        · exact .quiet
  | roomEvent =>
    simp only [processItem]
    split
    · exact .quiet
    next identity =>
      unfold ingestRoomEventItem
      split
      · exact .quiet
      next delivery =>
        rcases delivery with ⟨_, _⟩
        split
        next found sealed =>
          subst sealed
          split
          · exact .quiet
          next opened => exact roomEffect_applyRoomEvent now ⟨identity, found, opened⟩
        · exact .quiet

theorem TakesKey.processItem {phone delivery roomKey} (takes : phone.TakesKey own delivery roomKey)
    (now) : (phone.processItem K now (.roomKey (some delivery))).phone =
      acceptRoomKey own now phone delivery roomKey := by
  simp [Phone.processItem, takes.identity, ingestRoomKeyItem, takes.mutualFollow, takes.unsealed]

theorem OpensEvent.processItem {phone} (opens : phone.OpensEvent K own roomId room encrypted event)
    (now) : phone.processItem K now (.roomEvent (some ⟨roomId, some encrypted⟩)) =
      applyRoomEvent K own now phone roomId room event encrypted := by
  simp [Phone.processItem, opens.identity, ingestRoomEventItem, opens.found, opens.opened]

/-! ## Where a row comes from -/

theorem stored_origin {start final inputs} (reached : run (itemStep K) start inputs = .ok final) {id row}
    (found : final.events.lookup id = some row) : start.events.lookup id = some row ∨
      ∃ before input after middle event, inputs = before ++ input :: after ∧
        run (itemStep K) start before = .ok middle ∧ Stores K middle input.2 event row := by
  induction inputs generalizing start with
  | nil =>
    cases reached
    exact .inl found
  | cons input rest ih =>
    rcases ih reached with here | ⟨before, later, after, middle, event, split, passed, stores⟩
    · rw [events_processItem] at here
      cases stored : start.stores K input.2 with
      | none =>
        rw [stored] at here
        exact .inl here
      | some pair =>
        rcases pair with ⟨event, _⟩
        rw [stored] at here
        rw [lookup_insert_eq] at here
        split at here
        · cases here
          exact .inr ⟨[], input, rest, start, event, rfl, rfl, stores_eq_some stored⟩
        · exact .inl here
    · refine Or.inr ⟨input :: before, later, after, middle, event, ?_, ?_, stores⟩
      · rw [split, cons_append]
      · exact passed

theorem run_accounts {start final inputs}
    (reached : run (itemStep K) start inputs = .ok final) : SameAccounts start final := by
  have kept : ∀ phone input next, SameAccounts start phone -> itemStep K phone input = .ok next ->
      SameAccounts start next := by
    intro phone input next same stepped
    cases stepped
    exact same.trans (writes_processItem input.1 phone input.2).accounts
  exact Reaches.invariant kept ⟨inputs, reached⟩ Writes.refl.accounts

/-- Nothing of the first is missing from the second. -/
structure Retains (phone next : Phone) : Prop where
  events : ∀ id ∈ phone.events, id ∈ next.events
  rooms : ∀ roomId ∈ phone.rooms, roomId ∈ next.rooms
  members : ∀ member ∈ phone.members, member ∈ next.members
  roomKeys : ∀ version ∈ phone.roomKeys, version ∈ next.roomKeys

theorem Writes.retains {phone next} (writes : Writes phone next) : Retains phone next := by
  have inserted : ∀ {A B : Type} [DecidableEq A] {known : A -> Prop} {table : Table A B} {key : A} {value : B},
      (∀ id, known id -> id ∈ table) -> ∀ id, known id -> id ∈ table.insert key value :=
    fun old id member => AList.mem_insert _ |>.mpr (.inr (old id member))
  induction writes with
  | refl => exact ⟨fun _ => id, fun _ => id, fun _ => id, fun _ => id⟩
  | stamp _ _ _ ih =>
    unfold setLastDecryptFailureAt
    split
    · exact ih
    · exact ⟨ih.events, ih.rooms, ih.members, ih.roomKeys⟩
  | event _ _ ih => exact ⟨inserted ih.events, ih.rooms, ih.members, ih.roomKeys⟩
  | room _ _ _ ih => exact ⟨ih.events, inserted ih.rooms, ih.members, ih.roomKeys⟩
  | member _ _ _ _ ih => exact ⟨ih.events, ih.rooms, inserted ih.members, ih.roomKeys⟩
  | key _ _ _ _ ih => exact ⟨ih.events, ih.rooms, ih.members, inserted ih.roomKeys⟩

/-- Whatever peers send, ingest removes nothing and leaves the accounts alone. -/
theorem ingest_only_adds (phone : Phone) (items : List (Int × Item)) :
    Ensures (run (itemStep K) phone items) (fun final => SameAccounts phone final ∧ Retains phone final) := by
  intro final reached
  refine ⟨run_accounts reached, ?_⟩
  refine Reaches.invariant ?_ ⟨items, reached⟩ Writes.refl.retains
  intro middle input next retains stepped
  cases stepped
  have written := (writes_processItem (K := K) input.1 middle input.2).retains
  exact ⟨fun _ member => written.events _ (retains.events _ member),
    fun _ member => written.rooms _ (retains.rooms _ member),
    fun _ member => written.members _ (retains.members _ member),
    fun _ member => written.roomKeys _ (retains.roomKeys _ member)⟩

/-! ## A room of the small world -/

namespace Chat

def genesis : Event := Small.event "1" 10 100 none [4, 0]
def otherGenesis : Event := Small.event "1" 11 100 none [4, 0]
def misnamed : Event := Small.event "1" 12 100 none [4, 1]
def roster : Event := Small.event "1" 13 101 (some genesis.id) [4, 2]
def message : Event := Small.event "2" 14 102 (some genesis.id) []
def stranger : Event := Small.event "3" 15 102 (some genesis.id) []
def laterRoster : Event := Small.event "1" 16 101 (some genesis.id) [4, 3]

def events : List Event := [genesis, otherGenesis, misnamed, roster, message, stranger, laterRoster]

def contents : List (Bytes × Dynamic) :=
  [([4, 0], .map [(.text "name", .text ""), (.text "creator_pubkey", .text "1"), (.text "created_at", .int 10)]),
    ([4, 1], .map [(.text "name", .text ""), (.text "creator_pubkey", .text "2"), (.text "created_at", .int 12)]),
    ([4, 2], .map [(.text "members", .list [.text "0", .text "1"]), (.text "membership_epoch", .int 5),
      (.text "room_key_epoch", .int 0)]),
    ([4, 3], .map [(.text "members", .list [.text "1"]), (.text "membership_epoch", .int 6),
      (.text "room_key_epoch", .int 1)])]

def world : EventCrypto := Small.crypto events contents

def row : Room := ⟨"", "1", 10, 10, [8], 0, 10, 0, 1, true, 0⟩

def phone (roomId : String) : Phone :=
  ((Small.phone [("1", [7]), ("2", [6])]).saveRoom roomId row).saveRoomMember roomId "2" ⟨10, none⟩

def wrap (event : Event) : SealedEvent := encryptEvent world event [8] 0 0 []

def item (roomId : String) (event : Event) : Item := .roomEvent (some ⟨roomId, some (wrap event)⟩)

theorem faithful : Faithful world { event | event ∈ events } := by
  refine Small.faithful (by decide) ?_
  intro event member
  simp only [events, mem_cons, not_mem_nil, or_false] at member
  rcases member with rfl | rfl | rfl | rfl | rfl | rfl | rfl <;> exact ⟨rfl, rfl⟩

theorem verified {event} (listed : event ∈ events) : event.verifies world = true := by
  simp only [events, mem_cons, not_mem_nil, or_false] at listed
  rcases listed with rfl | rfl | rfl | rfl | rfl | rfl | rfl <;> exact Small.verifies_event (by decide)

theorem mem_genesis : genesis ∈ events := by simp [events]

theorem mem_misnamed : misnamed ∈ events := by simp [events]

theorem mem_roster : roster ∈ events := by simp [events]

theorem mem_message : message ∈ events := by simp [events]

theorem mem_stranger : stranger ∈ events := by simp [events]

theorem mem_laterRoster : laterRoster ∈ events := by simp [events]

end Chat

def RoomTables.HoldsKey (tables : RoomTables) (roomId : String) (key : FeedKey) : Prop :=
  (tables.rooms.lookup roomId).map Room.roomKey = some key ∨
    ∃ epoch, (tables.roomKeys.lookup (roomId, epoch)).map RetiredRoomKey.roomKey = some key

theorem mem_roomKeyHistory {phone : Phone} {retired : RetiredRoomKey} :
    retired ∈ phone.roomKeyHistory roomId ↔ ∃ epoch, phone.roomKeys.lookup (roomId, epoch) = some retired := by
  rw [roomKeyHistory, mem_inOrder, mem_map_fst]
  simp

theorem mem_roomCandidates {phone : Phone} {createdAt} {key : FeedKey} :
    key ∈ phone.roomCandidates roomId room createdAt ↔
      room.roomKey = key ∨ ∃ epoch retired, phone.roomKeys.lookup (roomId, epoch) = some retired ∧
        retired.roomKey = key ∧ retired.validFrom ≤ createdAt ∧ createdAt < retired.validUntil := by
  rw [roomCandidates, mem_cons, mem_map]
  apply or_congr eq_comm
  constructor
  · rintro ⟨retired, member, same⟩
    rw [mem_filter, decide_eq_true_eq, mem_roomKeyHistory] at member
    rcases member with ⟨⟨epoch, found⟩, window⟩
    exact ⟨epoch, retired, found, same, window⟩
  · rintro ⟨epoch, retired, found, same, window⟩
    refine ⟨retired, mem_filter.mpr ⟨mem_roomKeyHistory.mpr ⟨epoch, found⟩, ?_⟩, same⟩
    exact decide_eq_true window

theorem OpensEvent.sound {phone : Phone} (opens : phone.OpensEvent K own roomId room encrypted event) :
    phone.admits roomId room encrypted.pubkey = true ∧
      ∃ key, phone.roomTables.HoldsKey roomId key ∧ decryptEvent K encrypted key = some event := by
  have opened := opens.opened
  rw [openRoomEvent] at opened
  split at opened
  next admitted =>
    rcases exists_of_findSome?_eq_some opened with ⟨key, candidate, decrypted⟩
    refine ⟨admitted, key, ?_, decrypted⟩
    rcases mem_roomCandidates.mp candidate with current | ⟨epoch, retired, found, same, _⟩
    · exact .inl (Option.map_eq_some_iff.mpr ⟨room, opens.found, current⟩)
    · exact .inr ⟨epoch, Option.map_eq_some_iff.mpr ⟨retired, found, same⟩⟩
  · cases opened

def IsMessage (kind : Int) : Prop := kind = 102 ∨ kind = 103

/-- A message of somebody else that is stored comes in a room event for the room that it refers
to, in a wrapper that names the one who has signed it. -/
def MessagesAddressed (K : EventCrypto) (phone : Phone) (input : Int × Item) : Prop :=
  ∀ event row, Stores K phone input.2 event row -> IsMessage event.kind -> phone.ownPubkey ≠ some event.pubkey ->
    ∃ roomId encrypted, input.2 = .roomEvent (some ⟨roomId, some encrypted⟩) ∧
      encrypted.pubkey = event.pubkey ∧ event.ref = some roomId

/-- The event was stored by a room event of somebody who could speak there, under a key of the
room. -/
def SpokenBy (K : EventCrypto) (phone : Phone) (item : Item) (roomId : String) (event : Event) : Prop :=
  ∃ room, phone.rooms.lookup roomId = some room ∧ phone.admits roomId room event.pubkey = true ∧
    ∃ encrypted key, item.wrapper = some encrypted ∧ phone.roomTables.HoldsKey roomId key ∧
      decryptEvent K encrypted key = some event

/-- Messages of others come from the creator and from active members, if every one of them is
addressed as it is signed. -/
theorem messages_spoken_by_members {start final : Phone} {inputs : List (Int × Item)}
    (addressed : Along (itemStep K) (MessagesAddressed K) start inputs)
    (reached : run (itemStep K) start inputs = .ok final) {id : String} {row : EventEntry}
    (found : final.events.lookup id = some row) (message : IsMessage row.kind) {roomId : String}
    (ref : row.refId = some roomId) (foreign : final.ownPubkey ≠ some row.pubkey) :
    start.events.lookup id = some row ∨ ∃ before input after middle event, inputs = before ++ input :: after ∧
        run (itemStep K) start before = .ok middle ∧ Stores K middle input.2 event row ∧
        middle.SpokenBy K input.2 roomId event := by
  rcases stored_origin reached found with early | ⟨before, input, after, middle, event, split, passed, stores⟩
  · exact .inl early
  · refine Or.inr ⟨before, input, after, middle, event, split, passed, stores, ?_⟩
    have later : SameAccounts middle final := by
      rw [split, run_append _ passed] at reached
      exact run_accounts reached
    rcases stores.row with ⟨_, _, _, rfl⟩
    have other : middle.ownPubkey ≠ some event.pubkey := by
      rw [← later.ownPubkey]
      exact foreign
    rcases addressed before input after middle split passed event _ stores message other with
      ⟨named, encrypted, item, author, inside⟩
    have here : named = roomId := Option.some.inj (inside.symm.trans ref)
    rcases input with ⟨_, _⟩
    subst item here
    cases stores with
    | room identity lookup opened keeps =>
      rename_i own room
      rcases OpensEvent.sound ⟨identity, lookup, opened⟩ with ⟨admitted, key, holds, decrypted⟩
      rw [author] at admitted
      exact ⟨room, lookup, admitted, encrypted, key, rfl, holds, decrypted⟩

namespace Chat

theorem opens {event} (member : event ∈ events) {roomId author}
    (admitted : (phone roomId).admits roomId row author = true) :
    (phone roomId).OpensEvent world Small.identity roomId row { wrap event with pubkey := author } event := by
  refine ⟨rfl, lookup_insert _, ?_⟩
  have decrypted : decryptEvent world { wrap event with pubkey := author } [8] = some event :=
    faithful.decryptEvent_encryptEvent member (verified member) [8] 0 0 []
  have key : row.roomKey = [8] := rfl
  rw [openRoomEvent, if_pos admitted, roomCandidates, List.findSome?_cons, key, decrypted]

theorem active_other (roomId) : (phone roomId).activeMember roomId "2" = true := by
  have found : (phone roomId).members.lookup (roomId, "2") = some ⟨10, none⟩ := lookup_insert _
  rw [activeMember, found]
  rfl

theorem admits_other (roomId) : (phone roomId).admits roomId row "2" = true := by
  rw [admits, active_other, Bool.true_or]

theorem admits_creator (roomId) : (phone roomId).admits roomId row "1" = true := by
  rw [admits, Bool.or_eq_true]
  exact .inr (decide_eq_true rfl)

/-- The message of a member is stored while they are a member. -/
theorem message_spoken_by_other :
    ∃ before input after middle event row, [(0, item genesis.id message)] = before ++ input :: after ∧
      run (itemStep world) (phone genesis.id) before = .ok middle ∧ Stores world middle input.2 event row ∧
      middle.SpokenBy world input.2 genesis.id event := by
  have addressed : Along (itemStep world) (MessagesAddressed world) (phone genesis.id)
      [(0, item genesis.id message)] := by
    refine Along.cons ?_ (fun _ _ => Along.nil)
    intro event row stores _ _
    rcases stores.decrypted with ⟨_, _, wrapped, decrypted⟩
    cases wrapped
    rw [faithful.eq_of_decryptEvent mem_message decrypted]
    exact ⟨genesis.id, wrap message, rfl, rfl, rfl⟩
  have found : ((phone genesis.id).processItem world 0 (item genesis.id message)).phone.events.lookup
      message.id = some (eventToCompanion world message (some 0) false (some (wrap message))) := by
    exact lookup_insert _
  have foreign : ((phone genesis.id).processItem world 0 (item genesis.id message)).phone.ownPubkey ≠
      some message.pubkey := by
    decide
  rcases messages_spoken_by_members addressed rfl found (.inl rfl) rfl foreign with early | spoken
  · cases early
  · rcases spoken with ⟨before, input, after, middle, event, split, reached, stores, spokenBy⟩
    exact ⟨before, input, after, middle, event, _, split, reached, stores, spokenBy⟩

/-- A follow pushes the message of somebody who is not a member as a feed event, or a member
wraps it in their own name. -/
theorem stranger_speaks : stranger.id ∈ ((phone genesis.id).processItem world 0
        (.pushed (some { encryptEvent world stranger [6] 0 0 [] with pubkey := "2" }))).phone.events ∧
      stranger.id ∈ ((phone genesis.id).processItem world 0
        (.roomEvent (some ⟨genesis.id, some { wrap stranger with pubkey := "2" }⟩))).phone.events ∧
      (phone genesis.id).admits genesis.id row stranger.pubkey = false := by
  refine ⟨?_, ?_, ?_⟩
  · have opened : (phone genesis.id).openPushed world
        { encryptEvent world stranger [6] 0 0 [] with pubkey := "2" } = some stranger := by
      have sealed := faithful.decryptEvent_encryptEvent mem_stranger (verified mem_stranger) [6] 0 0 []
      exact sealed
    rw [events_processItem, (Stores.pushed opened).eq_some, mem_insert]
    exact .inl rfl
  · have here := opens mem_stranger (admits_other genesis.id)
    rw [events_processItem, (Stores.room here.identity here.found here.opened rfl).eq_some, mem_insert]
    exact .inl rfl
  · have author : stranger.pubkey = "3" := rfl
    decide

end Chat

theorem activeMember_saveRoomMember (phone : Phone) (roomId pubkey member other) (target : Pubkey) :
    (phone.saveRoomMember roomId pubkey member).activeMember other target =
      if (other, target) = (roomId, pubkey) then member.isActive else phone.activeMember other target := by
  rw [activeMember, saveRoomMember, lookup_insert_eq]
  by_cases here : (other, target) = (roomId, pubkey)
  · rw [if_pos here, if_pos here]
  · rw [if_neg here, if_neg here]
    rfl

theorem activeMember_setRoomMemberRemoved (phone : Phone) (roomId pubkey now other) (target : Pubkey) :
    (phone.setRoomMemberRemoved roomId pubkey now).activeMember other target =
      (phone.activeMember other target && !decide ((other, target) = (roomId, pubkey))) := by
  unfold setRoomMemberRemoved
  split
  next missing =>
    by_cases here : (other, target) = (roomId, pubkey)
    · rw [activeMember, here, missing, Bool.false_and]
    · rw [decide_eq_false here, Bool.not_false, Bool.and_true]
  · rw [activeMember_saveRoomMember]
    by_cases here : (other, target) = (roomId, pubkey)
    · rw [if_pos here, decide_eq_true here, Bool.not_true, Bool.and_false]
      rfl
    · rw [if_neg here, decide_eq_false here, Bool.not_false, Bool.and_true]

theorem activeMember_removeUnlisted (now : Int) (phone : Phone) (roomId listed current)
    (other : String) (target : Pubkey) :
    (phone.removeUnlisted now roomId listed current).activeMember other target =
      (phone.activeMember other target && current.all (fun member =>
        !(decide ((other, target) = (roomId, member.1)) && (member.2.isActive && decide (member.1 ∉ listed))))) := by
  refine foldl_and (fun state : Phone => state.activeMember other target) ?_ current phone
  intro state member
  split
  next removed => rw [activeMember_setRoomMemberRemoved, removed, Bool.and_true]
  next stays => rw [Bool.eq_false_iff.mpr stays, Bool.and_false, Bool.not_false, Bool.and_true]

theorem activeMember_addListed (now : Int) (phone : Phone) (roomId before listed) (other : String) (target : Pubkey) :
    (phone.addListed now roomId before listed).activeMember other target =
      (phone.activeMember other target || listed.any (fun pubkey =>
        decide ((other, target) = (roomId, pubkey)) && !(before pubkey).any RoomMember.isActive)) := by
  refine foldl_or (fun state : Phone => state.activeMember other target) ?_ listed phone
  intro state pubkey
  have added : ∀ member : RoomMember, member.isActive = true ->
      (state.saveRoomMember roomId pubkey member).activeMember other target =
        (state.activeMember other target || decide ((other, target) = (roomId, pubkey))) := by
    intro member active
    rw [activeMember_saveRoomMember]
    by_cases here : (other, target) = (roomId, pubkey)
    · rw [if_pos here, decide_eq_true here, Bool.or_true, active]
    · rw [if_neg here, decide_eq_false here, Bool.or_false]
  split
  next missing =>
    rw [missing, added _ rfl]
    simp
  next found =>
    split
    next active => simp [found, active]
    next removed =>
      rw [found, added _ rfl]
      simp [Bool.eq_false_iff.mpr removed]

theorem mem_roomMembers {phone : Phone} {pubkey} {member : RoomMember} :
    (pubkey, member) ∈ phone.roomMembers roomId ↔ phone.members.lookup (roomId, pubkey) = some member := by
  rw [roomMembers, mem_map_fst]
  simp

theorem activeMember_eq_any (phone : Phone) (roomId) (pubkey : Pubkey) :
    phone.activeMember roomId pubkey = (phone.members.lookup (roomId, pubkey)).any RoomMember.isActive := by
  rw [activeMember]
  split
  next missing =>
    rw [missing]
    rfl
  next found =>
    rw [found]
    rfl

theorem activeMember_applyRoster (own : Identity) (now : Int) (phone roomId room content) (other : String)
    (target : Pubkey) :
    (applyRoster own now phone roomId room content).activeMember other target =
      if other = roomId then decide (target ∈ content.members) else phone.activeMember other target := by
  change ((phone.removeUnlisted now roomId content.members (phone.roomMembers roomId)).addListed now roomId
    (fun pubkey => phone.members.lookup (roomId, pubkey)) content.members).activeMember other target = _
  rw [activeMember_addListed, activeMember_removeUnlisted]
  split
  next here =>
    subst here
    apply Bool.eq_iff_iff.mpr
    rw [decide_eq_true_eq, Bool.or_eq_true, Bool.and_eq_true, all_eq_true, any_eq_true]
    constructor
    · rintro (⟨active, stays⟩ | ⟨pubkey, listed, hit⟩)
      · -- an active row that the first loop has not cleared is listed
        rw [activeMember_eq_any, Option.any_eq_true] at active
        rcases active with ⟨member, found, isActive⟩
        have turn := stays (target, member) (mem_roomMembers.mpr found)
        by_contra unlisted
        simp [isActive, unlisted] at turn
      · rw [Bool.and_eq_true, decide_eq_true_eq, Prod.mk.injEq] at hit
        rw [hit.1.2]
        exact listed
    · intro listed
      cases active : phone.activeMember other target with
      | true =>
        refine Or.inl ⟨rfl, ?_⟩
        rintro ⟨pubkey, member⟩ _
        by_cases same : target = pubkey
        · subst same
          simp [listed]
        · simp [same]
      | false =>
        refine Or.inr ⟨target, listed, ?_⟩
        rw [activeMember_eq_any] at active
        simp [active]
  next elsewhere =>
    have cleared : (phone.roomMembers roomId).all (fun member =>
        !(decide ((other, target) = (roomId, member.1)) &&
          (member.2.isActive && decide (member.1 ∉ content.members)))) = true := by
      rw [all_eq_true]
      intro member _
      simp [elsewhere]
    have set : content.members.any (fun pubkey => decide ((other, target) = (roomId, pubkey)) &&
        !(phone.members.lookup (roomId, pubkey)).any RoomMember.isActive) = false := by
      rw [any_eq_false]
      intro pubkey _
      simp [elsewhere]
    rw [cleared, set, Bool.and_true, Bool.or_false]

theorem roomTables_applyRoster (own now phone roomId room content) :
    (applyRoster own now phone roomId room content).roomTables =
      ⟨phone.rooms.insert roomId { room with
            membershipEpoch := content.membershipEpoch
            isMember := decide (own.pubkey ∈ content.members) },
        (applyRoster own now phone roomId room content).members, phone.roomKeys⟩ := by
  have frame := withoutMembers_applyRoster own now phone roomId room content
  have rooms := congrArg rooms frame
  have roomKeys := congrArg roomKeys frame
  rw [RoomTables.mk.injEq]
  exact ⟨rooms, rfl, roomKeys⟩

end Phone
end Starling.App
