import Starling.App.Rooms
import Mathlib.Logic.Function.Basic

namespace Starling.App

open List Option Table AList

/-!
# A room over time: messages and rotations

The phones of a room send messages under the key that each of them holds for the current one, and
the creator rotates the key.  Everything that is sent is posted to single recipients and may be
delivered to them at any time, in any order and more than once.  Along every history there is one
key for every epoch, in all phones and on the way, and no phone ever loses a key.
-/

abbrev Posted := Pubkey × Item

namespace Phone

section Services

variable (K : EventCrypto) (secretKey : Bytes)

section

variable (phone : Phone) (roomId : String)

def otherMembers (own : Identity) (roomId : String) : List Pubkey :=
  ((phone.roomMembers roomId).filter (fun member => member.2.isActive && decide (member.1 ≠ own.pubkey))).map Prod.fst

def messageFields (own : Identity) (roomId : String) (roomBytes : Bytes) (now : Int) (text : Bytes) : SignedFields where
  version := "2026-04-28"
  pubkey := own.pubkey
  createdAt := now
  kind := 102
  ref := some roomId
  content := text
  media := []
  extensions := [("room", roomBytes)]
  distinct := nodup_singleton "room"

/-- The message that `send` signs. -/
def signMessage (own : Identity) (roomId : String) (now : Int) (text : Bytes) : Option Event := do
  let roomBytes ← crockfordBase32Decode roomId
  signEvent K secretKey (messageFields own roomId roomBytes now text)

def sealMessage (room : Room) (event : Event) (nonce : Bytes) : SealedEvent :=
  encryptEvent K event room.roomKey room.roomKeyEpoch room.roomMsgSeqCounter nonce

/-- `send`.  `none` stands for its exceptions. -/
def sendMessage (now : Int) (text nonce : Bytes) : Option (Phone × List Posted) := do
  let own ← phone.identity
  let room ← phone.rooms.lookup roomId
  if room.isMember then
    (signMessage K secretKey own roomId now text).map (fun event =>
      let encrypted := sealMessage K room event nonce
      ((phone.saveOwnEventWithEncrypted K event room.roomMsgSeqCounter encrypted).saveRoom roomId
        { room with roomMsgSeqCounter := room.roomMsgSeqCounter + 1, lastActivityAt := now },
      (phone.otherMembers own roomId).map (fun member =>
        (member, .roomEvent (some ⟨roomId, some encrypted⟩)))))
  else none

def encodeRoomMembershipContent (content : RoomMembershipContent) : Bytes :=
  K.cborEncode (.map [("members", .array (content.members.map .text)),
    ("membership_epoch", .int content.membershipEpoch), ("room_key_epoch", .int content.roomKeyEpoch)])

def rosterFields (own : Identity) (roomId : String) (now : Int) (content : RoomMembershipContent) : SignedFields where
  version := "2026-04-28"
  pubkey := own.pubkey
  createdAt := now
  kind := 101
  ref := some roomId
  content := encodeRoomMembershipContent K content
  media := []
  extensions := []
  distinct := nodup_nil

/-- The tables after the first two steps of `_rotateLocked`: the old key is retired and the
member is stamped as removed. -/
def retireAndRemove (room : Room) (now : Int) (removed : Pubkey) : Phone :=
  (phone.appendRoomKeyHistory roomId room.roomKeyEpoch (retire room now)).setRoomMemberRemoved roomId removed now

def activeMembers : List Pubkey := ((phone.roomMembers roomId).filter (fun member => member.2.isActive)).map Prod.fst

def rotatedRoom (room : Room) (now : Int) (newKey : FeedKey) : Room :=
  { room with
    roomKey := newKey
    roomKeyEpoch := room.roomKeyEpoch + 1
    roomKeyValidFrom := now
    roomMsgSeqCounter := 1
    membershipEpoch := room.membershipEpoch + 1
    lastActivityAt := now }

/-- `_rotateLocked`.  `none` stands for its exceptions and for the early return. -/
def rotateRoom (now : Int) (removed : Pubkey) (newKey : FeedKey) (nonce : Bytes) : Option (Phone × List Posted) := do
  let own ← phone.identity
  let room ← phone.rooms.lookup roomId
  if room.creatorPubkey = own.pubkey then
    let stamped := phone.retireAndRemove roomId room now removed
    let roster := stamped.activeMembers roomId
    let recipients := roster.filter (fun member => member ≠ own.pubkey)
    (signEvent K secretKey (rosterFields K own roomId now
        ⟨roster, room.membershipEpoch + 1, room.roomKeyEpoch + 1⟩)).map (fun event =>
      let encrypted := encryptEvent K event newKey (room.roomKeyEpoch + 1) 0 nonce
      ((stamped.saveOwnEventWithEncrypted K event 0 encrypted).saveRoom roomId (rotatedRoom room now newKey),
      recipients.map (fun member =>
        (member, .roomKey (some ⟨roomId, room.roomKeyEpoch + 1, now, own.pubkey, ⟨now, some newKey⟩⟩))) ++
      recipients.map (fun member => (member, .roomEvent (some ⟨roomId, some encrypted⟩)))))
  else none

end

end Services

end Phone

/-! ## The phones of a room -/

structure Gathering where
  phones : Pubkey -> Phone
  posted : List Posted

inductive RoomAct where
  | send (author : Pubkey) (now : Int) (text nonce : Bytes)
  | rotate (now : Int) (removed : Pubkey) (newKey : FeedKey) (nonce : Bytes)
  | deliver (recipient : Pubkey) (now : Int) (item : Item)

namespace Gathering

open Phone

section Machine

variable (K : EventCrypto) (secretKey : Pubkey -> Bytes) (roomId : String) (creator : Pubkey)

def put (gathering : Gathering) (pubkey : Pubkey) (result : Option (Phone × List Posted)) : Gathering :=
  match result with
  | none => gathering
  | some (phone, items) => ⟨Function.update gathering.phones pubkey phone, gathering.posted ++ items⟩

/-- Every phone reads its own clock, and only what was posted to a recipient is delivered. -/
def roomStep (gathering : Gathering) : RoomAct -> Except Empty Gathering
  | .send author now text nonce =>
    .ok (gathering.put author ((gathering.phones author).sendMessage K (secretKey author) roomId now text nonce))
  | .rotate now removed newKey nonce =>
    .ok (gathering.put creator
      ((gathering.phones creator).rotateRoom K (secretKey creator) roomId now removed newKey nonce))
  | .deliver recipient now item =>
    .ok (gathering.put recipient (if (recipient, item) ∈ gathering.posted then
        some (((gathering.phones recipient).processItem K now item).phone, [])
      else none))

end Machine

end Gathering

namespace Phone

variable {K : EventCrypto} {secretKey : Bytes}

variable {now : Int} {phone : Phone} {roomId : String} {own : Identity} {room : Room}

theorem sendMessage_eq_some {saved text nonce items}
    (sent : phone.sendMessage K secretKey roomId now text nonce = some (saved, items)) :
    ∃ own room event, phone.identity = some own ∧ phone.rooms.lookup roomId = some room ∧
      signMessage K secretKey own roomId now text = some event ∧ saved.identity = phone.identity ∧
      saved.roomTables = ⟨phone.rooms.insert roomId
        { room with roomMsgSeqCounter := room.roomMsgSeqCounter + 1, lastActivityAt := now },
        phone.members, phone.roomKeys⟩ ∧
      items = (phone.otherMembers own roomId).map (fun member =>
        (member, .roomEvent (some ⟨roomId, some (sealMessage K room event nonce)⟩))) := by
  rw [sendMessage, bind_eq_bind, bind_eq_some_iff] at sent
  rcases sent with ⟨own, identity, sent⟩
  rw [bind_eq_bind, bind_eq_some_iff] at sent
  rcases sent with ⟨room, found, sent⟩
  split at sent
  · rw [map_eq_some_iff] at sent
    rcases sent with ⟨event, signed, sent⟩
    cases sent
    exact ⟨own, room, event, identity, found, signed, rfl, rfl, rfl⟩
  · cases sent

theorem sendMessage_of {event text} (identity : phone.identity = some own)
    (found : phone.rooms.lookup roomId = some room) (isMember : room.isMember = true)
    (signed : signMessage K secretKey own roomId now text = some event) (nonce) :
    ∃ saved, phone.sendMessage K secretKey roomId now text nonce =
      some (saved, (phone.otherMembers own roomId).map (fun member =>
        (member, .roomEvent (some ⟨roomId, some (sealMessage K room event nonce)⟩)))) := by
  rw [sendMessage, identity, bind_eq_bind, bind_some, found, bind_eq_bind, bind_some, if_pos isMember, signed]
  exact ⟨_, rfl⟩

theorem withoutMembers_retireAndRemove (phone : Phone) (roomId room now)
    (removed : Pubkey) : (phone.retireAndRemove roomId room now removed).withoutMembers =
      (phone.appendRoomKeyHistory roomId room.roomKeyEpoch (retire room now)).withoutMembers := by
  rw [retireAndRemove, setRoomMemberRemoved]
  split <;> rfl

theorem rotateRoom_eq_some {saved removed newKey nonce items}
    (rotated : phone.rotateRoom K secretKey roomId now removed newKey nonce = some (saved, items)) :
    ∃ room members, phone.rooms.lookup roomId = some room ∧ saved.identity = phone.identity ∧
      saved.roomTables = ⟨phone.rooms.insert roomId (rotatedRoom room now newKey), members,
        phone.roomKeys.insert (roomId, room.roomKeyEpoch) (retire room now)⟩ ∧
      ∀ member delivery, (member, .roomKey (some delivery)) ∈ items ->
        delivery.epoch = room.roomKeyEpoch + 1 ∧ delivery.sealed.content = some newKey := by
  rw [rotateRoom, bind_eq_bind, bind_eq_some_iff] at rotated
  rcases rotated with ⟨_, identity, rotated⟩
  rw [bind_eq_bind, bind_eq_some_iff] at rotated
  rcases rotated with ⟨room, found, rotated⟩
  split at rotated
  · rw [map_eq_some_iff] at rotated
    rcases rotated with ⟨_, _, rotated⟩
    cases rotated
    refine ⟨room, (phone.retireAndRemove roomId room now removed).members, found, ?_, ?_, ?_⟩
    · have frame := withoutMembers_retireAndRemove phone roomId room now removed
      have identities := congrArg (fun state : Phone => state.identity) frame
      exact identities
    · have frame := withoutMembers_retireAndRemove phone roomId room now removed
      have rooms := congrArg (fun state : Phone => state.rooms) frame
      have roomKeys := congrArg (fun state : Phone => state.roomKeys) frame
      simp only [withoutMembers, appendRoomKeyHistory] at rooms roomKeys
      rw [← rooms, ← roomKeys]
      rfl
    · intro member delivery listed
      rw [mem_append, List.mem_map, List.mem_map] at listed
      rcases listed with ⟨_, _, same⟩ | ⟨_, _, same⟩
      · cases same
        exact ⟨rfl, rfl⟩
      · cases same
  · cases rotated

theorem mem_activeMembers {pubkey} :
    pubkey ∈ phone.activeMembers roomId ↔ phone.activeMember roomId pubkey = true := by
  rw [activeMembers, List.mem_map, activeMember_eq_any, Option.any_eq_true]
  constructor
  · rintro ⟨⟨_, member⟩, listed, rfl⟩
    rw [mem_filter, mem_roomMembers] at listed
    exact ⟨member, listed.1, listed.2⟩
  · rintro ⟨member, found, active⟩
    exact ⟨(pubkey, member), mem_filter.mpr ⟨mem_roomMembers.mpr found, active⟩, rfl⟩

theorem rotateRoom_of {removed member} (identity : phone.identity = some own)
    (found : phone.rooms.lookup roomId = some room) (creator : room.creatorPubkey = own.pubkey)
    (signs : ∀ fields, ∃ event, signEvent K secretKey fields = some event) (now newKey nonce)
    (active : phone.activeMember roomId member = true) (stays : member ≠ removed)
    (other : member ≠ own.pubkey) :
    ∃ saved items, phone.rotateRoom K secretKey roomId now removed newKey nonce = some (saved, items) ∧
      (member, .roomKey (some
        ⟨roomId, room.roomKeyEpoch + 1, now, own.pubkey, ⟨now, some newKey⟩⟩)) ∈ items := by
  have listed : member ∈ (phone.retireAndRemove roomId room now removed).activeMembers roomId := by
    have apart : (roomId, member) ≠ (roomId, removed) := fun same => stays (congrArg Prod.snd same)
    rw [mem_activeMembers, retireAndRemove, activeMember_setRoomMemberRemoved, decide_eq_false apart,
      Bool.not_false, Bool.and_true]
    exact active
  rcases signs (rosterFields K own roomId now
    ⟨(phone.retireAndRemove roomId room now removed).activeMembers roomId, room.membershipEpoch + 1,
      room.roomKeyEpoch + 1⟩) with ⟨_, signed⟩
  rw [rotateRoom, identity, bind_eq_bind, bind_some, found, bind_eq_bind, bind_some, if_pos creator]
  dsimp only
  rw [signed]
  refine ⟨_, _, rfl, mem_append_left _ (mem_map.mpr ⟨member, ?_, rfl⟩)⟩
  exact mem_filter.mpr ⟨listed, decide_eq_true other⟩

/-! ## One key for every epoch -/

/-- The keys of the room that the tables hold are the keys of their epochs, and none is newer than
the latest. -/
structure RoomTables.Agrees (ring : Int -> FeedKey) (latest : Int) (roomId : String) (tables : RoomTables) : Prop where
  row : ∀ room, tables.rooms.lookup roomId = some room ->
    room.roomKey = ring room.roomKeyEpoch ∧ room.roomKeyEpoch ≤ latest
  retired : ∀ epoch old, tables.roomKeys.lookup (roomId, epoch) = some old -> old.roomKey = ring epoch ∧
    epoch ≤ latest

def Issued (ring : Int -> FeedKey) (latest : Int) (roomId : String) (item : Item) : Prop :=
  ∀ delivery, item = .roomKey (some delivery) -> delivery.roomId = roomId ->
    delivery.sealed.content = some (ring delivery.epoch) ∧ delivery.epoch ≤ latest

theorem TakesKey.content {delivery roomKey}
    (takes : phone.TakesKey own delivery roomKey) : delivery.sealed.content = some roomKey := by
  have unsealed := takes.unsealed
  rw [unsealRoomKey, bind_eq_bind, bind_eq_some_iff] at unsealed
  rcases unsealed with ⟨_, _, unsealed⟩
  rw [bind_eq_some_iff] at unsealed
  rcases unsealed with ⟨_, _, content⟩
  exact content

theorem TakesKey.issued {ring latest delivery roomKey} (takes : phone.TakesKey own delivery roomKey)
    (issued : Issued ring latest delivery.roomId (.roomKey (some delivery))) :
    roomKey = ring delivery.epoch ∧ delivery.epoch ≤ latest := by
  rcases issued delivery rfl rfl with ⟨content, bounded⟩
  rw [takes.content, some.injEq] at content
  exact ⟨content, bounded⟩

namespace RoomTables.Agrees

variable {ring : Int -> FeedKey} {latest : Int} {roomId : String} {tables : RoomTables}
variable (agrees : tables.Agrees ring latest roomId)
include agrees

variable {target : String}

theorem insertRow {value members}
    (fits : target = roomId -> value.roomKey = ring value.roomKeyEpoch ∧ value.roomKeyEpoch ≤ latest) :
    (RoomTables.mk (tables.rooms.insert target value) members tables.roomKeys).Agrees ring latest roomId := by
  refine ⟨?_, agrees.retired⟩
  intro room found
  rw [lookup_insert_eq] at found
  split at found
  next here =>
    cases found
    exact fits here.symm
  · exact agrees.row room found

theorem insertKey {epoch value} (fits : target = roomId -> value.roomKey = ring epoch ∧ epoch ≤ latest) :
    (RoomTables.mk tables.rooms tables.members (tables.roomKeys.insert (target, epoch) value)).Agrees
      ring latest roomId := by
  refine ⟨agrees.row, ?_⟩
  intro other old found
  rw [lookup_insert_eq] at found
  split at found
  next here =>
    cases found
    rw [Prod.mk.injEq] at here
    rw [here.2]
    exact fits here.1.symm
  · exact agrees.retired other old found

theorem updateRow {old value members} (found : tables.rooms.lookup target = some old)
    (key : value.roomKey = old.roomKey) (epoch : value.roomKeyEpoch = old.roomKeyEpoch) :
    (RoomTables.mk (tables.rooms.insert target value) members tables.roomKeys).Agrees ring latest roomId := by
  apply agrees.insertRow
  rintro rfl
  rw [key, epoch]
  exact agrees.row old found

theorem retired_insert {epoch other value key}
    (fits : target = roomId -> value.roomKey = ring epoch ∧ epoch ≤ latest)
    (retired : (tables.roomKeys.lookup (roomId, other)).map RetiredRoomKey.roomKey = some key) :
    ((tables.roomKeys.insert (target, epoch) value).lookup (roomId, other)).map RetiredRoomKey.roomKey = some key := by
  rw [lookup_insert_eq]
  split
  next here =>
    rw [Prod.mk.injEq] at here
    rcases map_eq_some_iff.mp retired with ⟨old, found, rfl⟩
    rw [map_some, (agrees.retired other old found).1, (fits here.1.symm).1, here.2]
  · exact retired

theorem mono {newRing newLatest} (later : latest ≤ newLatest)
    (same : ∀ epoch, epoch ≤ latest -> newRing epoch = ring epoch) :
    tables.Agrees newRing newLatest roomId := by
  constructor
  · intro room found
    rcases agrees.row room found with ⟨key, bounded⟩
    rw [same _ bounded]
    exact ⟨key, bounded.trans later⟩
  · intro epoch old found
    rcases agrees.retired epoch old found with ⟨key, bounded⟩
    rw [same _ bounded]
    exact ⟨key, bounded.trans later⟩

end RoomTables.Agrees

namespace RoomTables.HoldsKey

variable {roomId : String} {tables : RoomTables} {key : FeedKey}
variable (holds : tables.HoldsKey roomId key)
include holds

variable {target : String}

theorem updateRow {old value members}
    (found : tables.rooms.lookup target = some old) (same : value.roomKey = old.roomKey) :
    (mk (tables.rooms.insert target value) members tables.roomKeys).HoldsKey roomId key := by
  rcases holds with current | retired
  · exact .inl ((map_lookup_insert found same roomId).trans current)
  · exact .inr retired

theorem insertKey {ring latest} (agrees : tables.Agrees ring latest roomId) {epoch value}
    (fits : target = roomId -> value.roomKey = ring epoch ∧ epoch ≤ latest) :
    (mk tables.rooms tables.members (tables.roomKeys.insert (target, epoch) value)).HoldsKey roomId key := by
  rcases holds with current | ⟨other, retired⟩
  · exact .inl current
  · exact .inr ⟨other, agrees.retired_insert fits retired⟩

theorem replaceRow {ring latest} (agrees : tables.Agrees ring latest roomId) {old value}
    (found : tables.rooms.lookup target = some old) {validUntil members} :
    (mk (tables.rooms.insert target value) members
      (tables.roomKeys.insert (target, old.roomKeyEpoch) (retire old validUntil))).HoldsKey roomId key := by
  have fits : target = roomId -> (retire old validUntil).roomKey = ring old.roomKeyEpoch ∧
      old.roomKeyEpoch ≤ latest := by
    rintro rfl
    exact agrees.row old found
  rcases holds with current | ⟨other, retired⟩
  · by_cases here : roomId = target
    · subst here
      refine Or.inr ⟨old.roomKeyEpoch, ?_⟩
      rw [lookup_insert]
      rw [found] at current
      exact current
    · refine Or.inl ?_
      rw [lookup_insert_ne here]
      exact current
  · exact .inr ⟨other, agrees.retired_insert fits retired⟩

end RoomTables.HoldsKey

section Effects

variable {ring : Int -> FeedKey} {latest now : Int} {roomId : String} {phone : Phone} {item : Item}
variable {after : RoomTables} (effect : RoomEffect K now phone item after)
variable (agrees : phone.roomTables.Agrees ring latest roomId) (issued : Issued ring latest roomId item)
include effect agrees issued

theorem RoomEffect.keepsRing : after.Agrees ring latest roomId := by
  cases effect with
  | quiet => exact agrees
  | firstKey takes unknown =>
    apply agrees.insertRow
    rintro rfl
    exact takes.issued issued
  | newerKey takes found newer =>
    rename_i own delivery roomKey existing
    have fits : delivery.roomId = roomId ->
        (retire existing delivery.validFrom).roomKey = ring existing.roomKeyEpoch ∧
          existing.roomKeyEpoch ≤ latest := by
      rintro rfl
      exact agrees.row existing found
    apply (agrees.insertKey fits).insertRow
    rintro rfl
    exact takes.issued issued
  | olderKey takes found older unlisted =>
    apply agrees.insertKey
    rintro rfl
    exact takes.issued issued
  | rejoin found => exact agrees.updateRow found (by rfl) (by rfl)
  | genesis opens | activity opens => exact agrees.updateRow opens.found (by rfl) (by rfl)
  | roster opens kind creator decoded newer =>
    rw [roomTables_applyRoster]
    exact agrees.updateRow opens.found (by rfl) (by rfl)

theorem RoomEffect.keepsKey {key} (holds : phone.roomTables.HoldsKey roomId key) : after.HoldsKey roomId key := by
  cases effect with
  | quiet => exact holds
  | firstKey takes unknown =>
    rename_i own delivery roomKey
    rcases holds with current | retired
    · refine Or.inl ?_
      have apart : roomId ≠ delivery.roomId := by
        rintro rfl
        have missing : phone.roomTables.rooms.lookup delivery.roomId = none := unknown
        rw [missing] at current
        cases current
      rw [lookup_insert_ne apart]
      exact current
    · exact .inr retired
  | newerKey takes found newer => exact holds.replaceRow agrees found
  | olderKey takes found older unlisted =>
    apply holds.insertKey agrees
    rintro rfl
    exact takes.issued issued
  | rejoin found => exact holds.updateRow found (by rfl)
  | genesis opens | activity opens => exact holds.updateRow opens.found (by rfl)
  | roster opens kind creator decoded newer =>
    rw [roomTables_applyRoster]
    exact holds.updateRow opens.found (by rfl)

end Effects

theorem RoomEffect.keepsLatest {ring latest item after}
    (effect : RoomEffect K now phone item after) (issued : Issued ring latest roomId item)
    (found : phone.rooms.lookup roomId = some room) (newest : room.roomKeyEpoch = latest) :
    (after.rooms.lookup roomId).map Room.roomKeyEpoch = some latest := by
  have here : (phone.rooms.lookup roomId).map Room.roomKeyEpoch = some latest := by
    rw [found, map_some, newest]
  cases effect with
  | quiet | olderKey => exact here
  | firstKey takes unknown =>
    rename_i own delivery roomKey
    have apart : roomId ≠ delivery.roomId := by
      rintro rfl
      rw [unknown] at found
      cases found
    rw [lookup_insert_ne apart]
    exact here
  | newerKey takes lookup newer =>
    rename_i own delivery roomKey existing
    have apart : roomId ≠ delivery.roomId := by
      rintro rfl
      rw [lookup, some.injEq] at found
      have bounded := (issued delivery rfl rfl).2
      rw [found] at newer
      omega
    rw [lookup_insert_ne apart]
    exact here
  | rejoin lookup => exact (map_lookup_insert lookup (by rfl) roomId).trans here
  | genesis opens | activity opens => exact (map_lookup_insert opens.found (by rfl) roomId).trans here
  | roster opens kind creator decoded newer =>
    rw [roomTables_applyRoster]
    exact (map_lookup_insert opens.found (by rfl) roomId).trans here

end Phone

namespace Phone

variable {K : EventCrypto}

structure KeepsRoom (roomId : String) (phone next : Phone) : Prop where
  identity : next.identity = phone.identity
  row : (∃ room, phone.rooms.lookup roomId = some room) -> ∃ room, next.rooms.lookup roomId = some room
  keys : ∀ key, phone.roomTables.HoldsKey roomId key -> next.roomTables.HoldsKey roomId key

variable {roomId : String} {phone : Phone}

theorem KeepsRoom.refl (phone) : KeepsRoom roomId phone phone := ⟨rfl, fun found => found, fun _ holds => holds⟩

theorem KeepsRoom.trans {middle next} (first : KeepsRoom roomId phone middle)
    (second : KeepsRoom roomId middle next) : KeepsRoom roomId phone next where
  identity := second.identity.trans first.identity
  row := fun found => second.row (first.row found)
  keys := fun key holds => second.keys key (first.keys key holds)

theorem RoomEffect.keepsRow {now item after}
    (effect : RoomEffect K now phone item after) (found : ∃ room, phone.rooms.lookup roomId = some room) :
    ∃ room, after.rooms.lookup roomId = some room := by
  have inserted : ∀ target value, ∃ room, (phone.rooms.insert target value).lookup roomId = some room := by
    intro target value
    rw [lookup_insert_eq]
    split
    · exact ⟨value, rfl⟩
    · exact found
  cases effect with
  | quiet | olderKey => exact found
  | roster =>
    rw [roomTables_applyRoster]
    exact inserted _ _
  | _ => exact inserted _ _

theorem TakesKey.held {ring latest own delivery roomKey} (takes : phone.TakesKey own delivery roomKey)
    (agrees : phone.roomTables.Agrees ring latest delivery.roomId)
    (issued : Issued ring latest delivery.roomId (.roomKey (some delivery))) (now) :
    (∃ room, (phone.processItem K now (.roomKey (some delivery))).phone.rooms.lookup delivery.roomId = some room) ∧
      (phone.processItem K now (.roomKey (some delivery))).phone.roomTables.HoldsKey delivery.roomId roomKey := by
  have key := (takes.issued issued).1
  have holds : ∀ (state : Phone) room, state.rooms.lookup delivery.roomId = some room -> room.roomKey = roomKey ->
      (∃ room, state.rooms.lookup delivery.roomId = some room) ∧
        state.roomTables.HoldsKey delivery.roomId roomKey :=
    fun state room found same => ⟨⟨room, found⟩, .inl (map_eq_some_iff.mpr ⟨room, found, same⟩)⟩
  rw [takes.processItem, acceptRoomKey]
  split
  · exact holds _ _ (lookup_insert _) rfl
  next existing found =>
    split
    · exact holds _ _ (lookup_insert _) rfl
    · split
      · split
        next old listed =>
          refine ⟨⟨existing, found⟩, .inr ⟨delivery.epoch, map_eq_some_iff.mpr ⟨old, listed, ?_⟩⟩⟩
          rw [key]
          exact (agrees.retired _ old listed).1
        · refine ⟨⟨existing, found⟩, .inr ⟨delivery.epoch, ?_⟩⟩
          exact map_eq_some_iff.mpr ⟨_, lookup_insert _, rfl⟩
      · -- the epoch of the row, and so its key
        have same : existing.roomKey = roomKey := by
          have epochs : existing.roomKeyEpoch = delivery.epoch := by omega
          rw [key, ← epochs]
          exact (agrees.row existing found).1
        split
        · exact holds _ _ found same
        · exact holds _ _ (lookup_insert _) same

end Phone

/-! ## The whole room -/

namespace Gathering

open Phone

section Coherence

variable (K : EventCrypto) (secretKey : Pubkey -> Bytes) (roomId : String) (creator : Pubkey)

/-- Every epoch has one key, in all phones and on the way, and the creator has the latest. -/
structure CoherentWith (ring : Int -> FeedKey) (latest : Int) (gathering : Gathering) : Prop where
  tables : ∀ pubkey, (gathering.phones pubkey).roomTables.Agrees ring latest roomId
  posted : ∀ entry ∈ gathering.posted, Issued ring latest roomId entry.2
  creator : ∃ room, (gathering.phones creator).rooms.lookup roomId = some room ∧ room.roomKeyEpoch = latest
  keyPairs : ∀ pubkey own, (gathering.phones pubkey).identity = some own -> SignsFor K (secretKey pubkey) own.pubkey

def Coherent (gathering : Gathering) : Prop :=
  ∃ ring latest, gathering.CoherentWith K secretKey roomId creator ring latest

end Coherence

variable {K : EventCrypto} {secretKey : Pubkey -> Bytes} {roomId : String} {creator : Pubkey}
variable {ring : Int -> FeedKey} {latest : Int} {gathering : Gathering}

theorem phones_put_self (gathering : Gathering) (pubkey phone) (items : List Posted) :
    (gathering.put pubkey (some (phone, items))).phones pubkey = phone := by
  simp [put, Function.update_self]

variable {pubkey : Pubkey} {items : List Posted} {phone : Phone}

theorem phones_put_ne (gathering : Gathering) {other} (apart : other ≠ pubkey) (phone) (items : List Posted) :
    (gathering.put pubkey (some (phone, items))).phones other = gathering.phones other := by
  simp [put, Function.update_of_ne apart]

theorem phones_put (property : Pubkey -> Phone -> Prop)
    (all : ∀ other, property other (gathering.phones other)) (new : property pubkey phone)
    (other : Pubkey) : property other ((gathering.put pubkey (some (phone, items))).phones other) := by
  by_cases here : other = pubkey
  · subst here
    rw [phones_put_self]
    exact new
  · rw [phones_put_ne gathering here]
    exact all other

theorem keyPairs_put (keyPairs : ∀ pubkey own, (gathering.phones pubkey).identity = some own -> SignsFor K (secretKey
      pubkey) own.pubkey) (identity : phone.identity = (gathering.phones pubkey).identity) :
    ∀ other own, ((gathering.put pubkey (some (phone, items))).phones other).identity = some own ->
      SignsFor K (secretKey other) own.pubkey := by
  refine phones_put (fun other state => ∀ own, state.identity = some own ->
    SignsFor K (secretKey other) own.pubkey) keyPairs ?_
  intro own known
  rw [identity] at known
  exact keyPairs pubkey own known

theorem CoherentWith.put (coherent : gathering.CoherentWith K secretKey roomId creator ring latest)
    (agrees : phone.roomTables.Agrees ring latest roomId)
    (issued : ∀ entry ∈ items, Issued ring latest roomId entry.2)
    (newest : ∀ room, (gathering.phones pubkey).rooms.lookup roomId = some room -> room.roomKeyEpoch =
      latest -> (phone.rooms.lookup roomId).map Room.roomKeyEpoch = some latest)
    (identity : phone.identity = (gathering.phones pubkey).identity) :
    (gathering.put pubkey (some (phone, items))).CoherentWith K secretKey roomId creator ring latest where
  tables := phones_put (fun _ state => state.roomTables.Agrees ring latest roomId) coherent.tables agrees
  posted := forall_mem_append.mpr ⟨coherent.posted, issued⟩
  creator := by
    rcases coherent.creator with ⟨room, found, epoch⟩
    by_cases here : creator = pubkey
    · subst here
      rw [phones_put_self]
      rcases map_eq_some_iff.mp (newest room found epoch) with ⟨later, lookup, same⟩
      exact ⟨later, lookup, same⟩
    · rw [phones_put_ne gathering here]
      exact ⟨room, found, epoch⟩
  keyPairs := keyPairs_put coherent.keyPairs identity

theorem keeps_put (keeps : KeepsRoom roomId (gathering.phones pubkey) phone) (other : Pubkey) :
    KeepsRoom roomId (gathering.phones other) ((gathering.put pubkey (some (phone, items))).phones other) := by
  refine phones_put (fun other => KeepsRoom roomId (gathering.phones other)) ?_ keeps other
  exact fun _ => .refl _

def renewed (ring : Int -> FeedKey) (latest : Int) (newKey : FeedKey) : Int -> FeedKey :=
  fun epoch => if epoch = latest + 1 then newKey else ring epoch

theorem renewed_of_le {newKey epoch} (old : epoch ≤ latest) : renewed ring latest newKey epoch = ring epoch := by
  rw [renewed, if_neg (by omega)]

theorem CoherentWith.rotate (coherent : gathering.CoherentWith K secretKey roomId creator ring latest)
    {now removed newKey nonce saved}
    (rotated : (gathering.phones creator).rotateRoom K (secretKey creator) roomId now removed newKey nonce
      = some (saved, items)) :
    (gathering.put creator (some (saved, items))).CoherentWith K secretKey roomId creator
        (renewed ring latest newKey) (latest + 1) ∧
      KeepsRoom roomId (gathering.phones creator) saved := by
  rcases rotateRoom_eq_some rotated with ⟨room, _, found, identity, tables, posts⟩
  rcases coherent.creator with ⟨row, lookup, epoch⟩
  rw [found, some.injEq] at lookup
  subst lookup
  have newRoom : saved.rooms.lookup roomId = some (rotatedRoom room now newKey) := by
    have rooms : saved.rooms = _ := congrArg RoomTables.rooms tables
    rw [rooms]
    exact lookup_insert _
  have same : ∀ old, old ≤ latest -> renewed ring latest newKey old = ring old :=
    fun _ bounded => renewed_of_le bounded
  have older := fun pubkey => (coherent.tables pubkey).mono (by omega : latest ≤ latest + 1) same
  refine ⟨⟨?_, ?_, ?_, keyPairs_put coherent.keyPairs identity⟩, ?_⟩
  · refine phones_put (fun _ state => state.roomTables.Agrees (renewed ring latest newKey) (latest + 1) roomId)
      older ?_
    have fits : roomId = roomId -> (retire room now).roomKey = renewed ring latest newKey room.roomKeyEpoch ∧
        room.roomKeyEpoch ≤ latest + 1 := fun _ => (older creator).row room found
    rw [tables]
    refine ((older creator).insertKey fits).insertRow (fun _ => ?_)
    have next : (rotatedRoom room now newKey).roomKeyEpoch = latest + 1 := by
      rw [← epoch]
      rfl
    rw [next, renewed, if_pos rfl]
    exact ⟨rfl, le_refl _⟩
  · intro entry listed
    rcases mem_append.mp listed with old | new
    · intro delivery same here
      rcases coherent.posted entry old delivery same here with ⟨content, bounded⟩
      rw [renewed_of_le bounded]
      exact ⟨content, by omega⟩
    · intro delivery same here
      rcases entry with ⟨member, _⟩
      subst same
      rcases posts member delivery new with ⟨next, content⟩
      rw [content, next, epoch, renewed, if_pos rfl]
      exact ⟨rfl, le_refl _⟩
  · refine ⟨rotatedRoom room now newKey, ?_, ?_⟩
    · rw [phones_put_self]
      exact newRoom
    · rw [← epoch]
      rfl
  · refine ⟨identity, fun _ => ⟨_, newRoom⟩, ?_⟩
    intro key holds
    rw [tables]
    exact holds.replaceRow (coherent.tables creator) found

theorem CoherentWith.step (coherent : gathering.CoherentWith K secretKey roomId creator ring latest)
    {act next} (stepped : gathering.roomStep K secretKey roomId creator act = .ok next) :
    next.Coherent K secretKey roomId creator ∧
      ∀ pubkey, KeepsRoom roomId (gathering.phones pubkey) (next.phones pubkey) := by
  have idle : gathering.Coherent K secretKey roomId creator ∧
      ∀ pubkey, KeepsRoom roomId (gathering.phones pubkey) (gathering.phones pubkey) :=
    ⟨⟨ring, latest, coherent⟩, fun _ => .refl _⟩
  cases act with cases stepped
  | send author now text nonce =>
    cases sent : (gathering.phones author).sendMessage K (secretKey author) roomId now text nonce with
    | none => exact idle
    | some result =>
      rcases result with ⟨saved, _⟩
      rcases sendMessage_eq_some sent with ⟨_, _, _, _, found, _, identity, tables, posts⟩
      have rooms : saved.rooms = _ := congrArg RoomTables.rooms tables
      refine ⟨⟨ring, latest, coherent.put ?_ ?_ ?_ identity⟩, keeps_put ⟨identity, ?_, ?_⟩⟩
      · rw [tables]
        exact (coherent.tables author).updateRow found (by rfl) (by rfl)
      · intro entry listed delivery never
        rw [posts, List.mem_map] at listed
        rcases listed with ⟨_, _, same⟩
        rw [← same] at never
        cases never
      · intro row lookup epoch
        rw [rooms, map_lookup_insert found (by rfl) roomId, lookup, map_some, epoch]
      · intro _
        rw [rooms]
        exact ⟨_, lookup_insert _⟩
      · intro key holds
        rw [tables]
        exact holds.updateRow found (by rfl)
  | rotate now removed newKey nonce =>
    cases rotated : (gathering.phones creator).rotateRoom K (secretKey creator) roomId now removed newKey nonce with
    | none => exact idle
    | some =>
      have renewal := coherent.rotate rotated
      exact ⟨⟨_, _, renewal.1⟩, keeps_put renewal.2⟩
  | deliver recipient now item =>
    by_cases posted : (recipient, item) ∈ gathering.posted
    · rw [if_pos posted]
      have issued := coherent.posted _ posted
      have effect := roomEffect_processItem now (gathering.phones recipient) item (K := K)
      have identity := (writes_processItem now (gathering.phones recipient) item (K := K)).accounts.identity
      refine ⟨⟨ring, latest, coherent.put ?_ ?_ ?_ identity⟩, keeps_put ⟨identity, ?_, ?_⟩⟩
      · exact effect.keepsRing (coherent.tables recipient) issued
      · exact List.forall_mem_nil _
      · intro room found epoch
        exact effect.keepsLatest issued found epoch
      · exact effect.keepsRow
      · intro key holds
        exact effect.keepsKey (coherent.tables recipient) issued holds
    · rw [if_neg posted]
      exact idle

theorem Coherent.run {start final} (coherent : start.Coherent K secretKey roomId creator)
    {acts} (reached : run (roomStep K secretKey roomId creator) start acts = .ok final) :
    final.Coherent K secretKey roomId creator ∧
      ∀ pubkey, KeepsRoom roomId (start.phones pubkey) (final.phones pubkey) := by
  have kept : ∀ (gathering : Gathering) act next, (gathering.Coherent K secretKey roomId creator ∧
        ∀ pubkey, KeepsRoom roomId (start.phones pubkey) (gathering.phones pubkey)) ->
      gathering.roomStep K secretKey roomId creator act = .ok next ->
      next.Coherent K secretKey roomId creator ∧
        ∀ pubkey, KeepsRoom roomId (start.phones pubkey) (next.phones pubkey) := by
    rintro _ _ _ ⟨⟨_, _, holds⟩, keeps⟩ stepped
    have result := holds.step stepped
    exact ⟨result.1, fun pubkey => (keeps pubkey).trans (result.2 pubkey)⟩
  exact Reaches.invariant kept ⟨acts, reached⟩ ⟨coherent, fun _ => .refl _⟩

end Gathering
end Starling.App
