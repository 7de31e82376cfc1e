import Starling.App.Rooms

namespace Starling.App
namespace Phone

open Table AList RoomTables

/-!
# The creator of a room, its roster and its key

The id of a room is the id of its genesis event, so the signer of that event is the creator.  A
phone learns of the room by a key, whose sender is taken for the creator until the genesis event
comes, and takes the creator from the content of that event.  Rosters are checked against the
creator, keys are not.
-/

variable {K : EventCrypto}

/-! ## The creator -/

def Creator (K : EventCrypto) (known : Set Event) (roomId : String) (pubkey : Pubkey) : Prop :=
  ∃ genesis ∈ known, genesis.id = roomId ∧ genesis.kind = 100 ∧ genesis.verifies K = true ∧
    genesis.pubkey = pubkey

theorem pubkey_of_id {known} (faithful : Faithful K known) {left right} (leftKnown : left ∈ known)
    (rightKnown : right ∈ known) (leftVerified : left.verifies K = true)
    (rightVerified : right.verifies K = true) (same : left.id = right.id) : left.pubkey = right.pubkey := by
  rw [Event.id_of_verifies leftVerified, Event.id_of_verifies rightVerified] at same
  exact congrArg (fun fields : SignedFields => fields.pubkey) (faithful.fields_of_id leftKnown rightKnown same)

variable {roomId : String} {roomKeys : Table (String × Int) RetiredRoomKey} {value : Room}

theorem OpensEvent.decrypted {phone : Phone} {own room encrypted}
    {event : Event} (opens : phone.OpensEvent K own roomId room encrypted event) :
    ∃ key, decryptEvent K encrypted key = some event := by
  rcases opens.sound.2 with ⟨key, _, decrypted⟩
  exact ⟨key, decrypted⟩

theorem OpensEvent.brought {known : Set Event} {phone : Phone} {own room}
    {encrypted : SealedEvent} {event : Event} (opens : phone.OpensEvent K own roomId room encrypted event)
    (brings : Brings K known (.roomEvent (some ⟨roomId, some encrypted⟩))) :
    event ∈ known ∧ event.verifies K = true := by
  rcases opens.decrypted with ⟨key, decrypted⟩
  exact ⟨brings encrypted key event rfl decrypted, verifies_of_decryptEvent decrypted⟩

def RoomTables.roster (tables : RoomTables) (roomId : String) : (Pubkey -> Bool) × Option Int :=
  (fun pubkey => (tables.members.lookup (roomId, pubkey)).any RoomMember.isActive,
    (tables.rooms.lookup roomId).map Room.membershipEpoch)

/-- First keys come from the creator, genesis events name the one who has signed them, and
roster events of the creator refer to the room for which they are delivered. -/
structure Genuine (K : EventCrypto) (known : Set Event) (phone : Phone) (input : Int × Item) : Prop where
  brings : Brings K known input.2
  firstKey : ∀ own delivery roomKey, input.2 = .roomKey (some delivery) ->
    phone.TakesKey own delivery roomKey -> phone.rooms.lookup delivery.roomId = none ->
    Creator K known delivery.roomId delivery.sender
  genesis : ∀ own roomId room encrypted event content, input.2 = .roomEvent (some ⟨roomId, some encrypted⟩) ->
    phone.OpensEvent K own roomId room encrypted event -> event.kind = 100 -> event.id = roomId ->
    decodeRoomCreateContent K event.content = some content -> content.creatorPubkey = event.pubkey
  roster : ∀ own roomId room encrypted event, input.2 = .roomEvent (some ⟨roomId, some encrypted⟩) ->
    phone.OpensEvent K own roomId room encrypted event -> event.kind = 101 ->
    event.pubkey = room.creatorPubkey -> event.ref = some roomId

def RoomTables.Founded (K : EventCrypto) (known : Set Event) (tables : RoomTables) : Prop :=
  ∀ roomId room, tables.rooms.lookup roomId = some room -> Creator K known roomId room.creatorPubkey

theorem RoomTables.Founded.insert {known : Set Event} {tables : RoomTables} (founded : tables.Founded K known)
    (named : Creator K known roomId value.creatorPubkey) {members : Table (String × Pubkey) RoomMember} :
    (mk (tables.rooms.insert roomId value) members roomKeys).Founded K known :=
  of_lookup_insert founded named

theorem RoomTables.Founded.update {known : Set Event} {tables : RoomTables}
    (founded : tables.Founded K known) {old : Room} (found : tables.rooms.lookup roomId = some old)
    (same : value.creatorPubkey = old.creatorPubkey) {members : Table (String × Pubkey) RoomMember} :
    (mk (tables.rooms.insert roomId value) members roomKeys).Founded K known := by
  apply founded.insert
  rw [same]
  exact founded roomId old found

theorem RoomEffect.founded {known : Set Event} {now : Int} {phone} {item : Item} {after : RoomTables}
    (effect : RoomEffect K now phone item after) (founded : phone.roomTables.Founded K known)
    (genuine : Genuine K known phone (now, item)) : after.Founded K known := by
  cases effect with
  | quiet | olderKey => exact founded
  | firstKey takes unknown =>
    apply founded.insert
    exact genuine.firstKey _ _ _ rfl takes unknown
  | newerKey _ found | rejoin found => exact founded.update found (by rfl)
  | genesis opens kind here decoded =>
    rename_i own roomId room encrypted event content
    have known := opens.brought genuine.brings
    apply founded.insert
    refine ⟨event, known.1, here, kind, known.2, ?_⟩
    exact (genuine.genesis own roomId room encrypted event content rfl opens kind here decoded).symm
  | roster opens =>
    rw [roomTables_applyRoster]
    exact founded.update opens.found (by rfl)
  | activity opens => exact founded.update opens.found (by rfl)

/-- A roster event of the creator for this room, whose content becomes the roster. -/
def ChangedByCreator (K : EventCrypto) (known : Set Event) (item : Item) (roomId : String)
    (after : RoomTables) : Prop :=
  ∃ encrypted key event content, item = .roomEvent (some ⟨roomId, some encrypted⟩) ∧
    decryptEvent K encrypted key = some event ∧ event.kind = 101 ∧ event.ref = some roomId ∧
    Creator K known roomId event.pubkey ∧ decodeRoomMembershipContent K event.content = some content ∧
    after.roster roomId = (fun pubkey => decide (pubkey ∈ content.members), some content.membershipEpoch)

/-- The first key of the room, which makes its row and enters us as a member. -/
def FirstContact (phone : Phone) (item : Item) (roomId : String) (after : RoomTables) : Prop :=
  ∃ own delivery roomKey, item = .roomKey (some delivery) ∧ phone.TakesKey own delivery roomKey ∧
    delivery.roomId = roomId ∧
    after.roster roomId =
      (fun pubkey => decide (pubkey = own.pubkey) || (phone.roomTables.roster roomId).1 pubkey, some 0)

theorem roster_insert {phone : Phone} {old} (found : phone.rooms.lookup roomId = some old)
    (same : value.membershipEpoch = old.membershipEpoch) (other : String) :
    (RoomTables.mk (phone.rooms.insert roomId value) phone.members roomKeys).roster other =
      phone.roomTables.roster other := by
  rw [roster, map_lookup_insert found same]
  rfl

theorem roster_applyRoster (own now phone roomId room content other) :
    (applyRoster own now phone roomId room content).roomTables.roster other =
      if other = roomId then
        (fun pubkey => decide (pubkey ∈ content.members), some content.membershipEpoch)
      else phone.roomTables.roster other := by
  apply Prod.ext
  · funext pubkey
    have active := activeMember_applyRoster own now phone roomId room content other pubkey
    rw [activeMember_eq_any, activeMember_eq_any] at active
    split
    next here =>
      rw [if_pos here] at active
      exact active
    next elsewhere =>
      rw [if_neg elsewhere] at active
      exact active
  · rw [roomTables_applyRoster]
    simp only [roster, lookup_insert_eq]
    split <;> rfl

theorem RoomEffect.roster_cases {known : Set Event} {now phone item}
    {after : RoomTables} (effect : RoomEffect K now phone item after)
    (founded : phone.roomTables.Founded K known) (genuine : Genuine K known phone (now, item))
    (changed : after.roster roomId ≠ phone.roomTables.roster roomId) :
    (∃ room, phone.rooms.lookup roomId = some room) ∧ ChangedByCreator K known item roomId after ∨
      phone.rooms.lookup roomId = none ∧ FirstContact phone item roomId after := by
  cases effect with
  | quiet | olderKey => exact (changed rfl).elim
  | firstKey takes unknown =>
    rename_i own delivery roomKey
    by_cases here : roomId = delivery.roomId
    · subst here
      refine Or.inr ⟨unknown, own, delivery, roomKey, rfl, takes, rfl, ?_⟩
      apply Prod.ext
      · funext pubkey
        simp only [RoomTables.roster, lookup_insert_eq, Prod.mk.injEq, true_and]
        by_cases self : pubkey = own.pubkey
        · rw [if_pos self, decide_eq_true self]
          rfl
        · rw [if_neg self, decide_eq_false self]
          rfl
      · simp only [RoomTables.roster, lookup_insert]
        rfl
    · refine (changed ?_).elim
      have pairs : ∀ pubkey, (roomId, pubkey) ≠ (delivery.roomId, own.pubkey) := by
        intro pubkey same
        exact here (congrArg Prod.fst same)
      simp only [RoomTables.roster, lookup_insert_ne here, lookup_insert_ne (pairs _)]
      rfl
  | newerKey _ found | rejoin found => exact (changed (roster_insert found (by rfl) roomId)).elim
  | genesis opens | activity opens => exact (changed (roster_insert opens.found (by rfl) roomId)).elim
  | roster opens kind creator decoded newer =>
    rename_i own named room encrypted event content
    rw [roster_applyRoster] at changed
    split at changed
    next here =>
      subst here
      rcases opens.decrypted with ⟨key, decrypted⟩
      refine Or.inl ⟨⟨room, opens.found⟩, encrypted, key, event, content, rfl, decrypted, kind, ?_, ?_,
        decoded, ?_⟩
      · exact genuine.roster own roomId room encrypted event rfl opens kind creator
      · rw [creator]
        exact founded roomId room opens.found
      · rw [roster_applyRoster, if_pos rfl]
    · exact (changed rfl).elim

/-- In a run of genuine items a room that has a row changes its roster only through the creator. -/
theorem roster_changed_by_creator {known : Set Event} {start middle : Phone}
    (founded : start.roomTables.Founded K known) {before after : List (Int × Item)} {input : Int × Item}
    (genuine : Along (itemStep K) (Genuine K known) start (before ++ input :: after))
    (reached : run (itemStep K) start before = .ok middle) (roomId : String)
    (changed : (middle.processItem K input.1 input.2).phone.roomTables.roster roomId ≠
      middle.roomTables.roster roomId) : (∃ room, middle.rooms.lookup roomId = some room) ∧
        ChangedByCreator K known input.2 roomId (middle.processItem K input.1 input.2).phone.roomTables ∨
      middle.rooms.lookup roomId = none ∧
        FirstContact middle input.2 roomId (middle.processItem K input.1 input.2).phone.roomTables := by
  have kept : ∀ phone input next, phone.roomTables.Founded K known -> Genuine K known phone input ->
      itemStep K phone input = .ok next -> next.roomTables.Founded K known := by
    intro phone input next holds genuine stepped
    cases stepped
    exact (roomEffect_processItem input.1 phone input.2).founded holds genuine
  have middleFounded := run_invariant kept founded genuine.left reached
  have step : Genuine K known middle input := (genuine.right reached).head
  exact (roomEffect_processItem input.1 middle input.2).roster_cases middleFounded step changed

namespace Chat

theorem roster_applied (roomId) :
    ((phone roomId).processItem world 0 (item roomId roster)).phone.roomTables.roster roomId =
      (fun pubkey => decide (pubkey ∈ ["0", "1"]), some 5) := by
  have here := opens mem_roster (admits_creator roomId)
  have applied := here.processItem 0
  change ((phone roomId).processItem world 0
    (.roomEvent (some ⟨roomId, some { wrap roster with pubkey := "1" }⟩))).phone.roomTables.roster roomId = _
  rw [applied]
  exact (roster_applyRoster Small.identity 0 _ roomId row ⟨["0", "1"], 5, 0⟩ roomId).trans (if_pos rfl)

theorem roster_before (roomId) : ((phone roomId).roomTables.roster roomId).1 "2" = true := by
  have active := active_other roomId
  rw [activeMember_eq_any] at active
  exact active

theorem roster_differs (roomId) :
    ((phone roomId).processItem world 0 (item roomId roster)).phone.roomTables.roster roomId ≠
      (phone roomId).roomTables.roster roomId := by
  rw [roster_applied]
  intro same
  have flags := congrArg (fun pair : (Pubkey -> Bool) × Option Int => pair.1 "2") same
  rw [roster_before] at flags
  revert flags
  decide

theorem only_roster {roomId : String} {encrypted own room}
    {state : Phone} {event : Event} (same : item roomId roster = .roomEvent (some ⟨roomId, some encrypted⟩))
    (opens : state.OpensEvent world own roomId room encrypted event) : event = roster := by
  rcases opens.decrypted with ⟨_, decrypted⟩
  cases same
  exact faithful.eq_of_decryptEvent mem_roster decrypted

theorem genuine_roster : Genuine world { event | event ∈ events } (phone genesis.id) (0, item genesis.id roster) := by
  constructor
  · intro encrypted key event wrapped decrypted
    cases wrapped
    rw [faithful.eq_of_decryptEvent mem_roster decrypted]
    exact mem_roster
  · exact nofun
  · intro own roomId room encrypted event content same opens kind
    have here : roomId = genesis.id := by
      cases same
      rfl
    subst here
    rw [only_roster same opens] at kind
    cases kind
  · intro own roomId room encrypted event same opens kind creator
    have here : roomId = genesis.id := by
      cases same
      rfl
    subst here
    rw [only_roster same opens]
    rfl

/-- The creator changes the roster of their room. -/
theorem creator_changes_roster :
    ChangedByCreator world { event | event ∈ events } (item genesis.id roster) genesis.id
      ((phone genesis.id).processItem world 0 (item genesis.id roster)).phone.roomTables := by
  have founded : (phone genesis.id).roomTables.Founded world { event | event ∈ events } := by
    have first : Creator world { event | event ∈ events } genesis.id row.creatorPubkey :=
      ⟨genesis, mem_genesis, rfl, rfl, verified mem_genesis, rfl⟩
    exact of_lookup_insert nofun first
  have along : Along (itemStep world) (Genuine world { event | event ∈ events }) (phone genesis.id)
      ([] ++ [(0, item genesis.id roster)]) :=
    Along.cons genuine_roster (fun _ _ => Along.nil)
  rcases roster_changed_by_creator founded along rfl genesis.id (roster_differs genesis.id) with
    ⟨_, changed⟩ | ⟨unknown, _⟩
  · exact changed
  · cases unknown

/-- The roster of one room replaces the roster of another room of the creator. -/
theorem roster_of_another_room : roster.ref = some genesis.id ∧ genesis.id ≠ otherGenesis.id ∧
      ((phone otherGenesis.id).roomTables.roster otherGenesis.id).1 "2" = true ∧
      ((phone otherGenesis.id).processItem world 0 (item otherGenesis.id roster)).phone.roomTables.roster
        otherGenesis.id = (fun pubkey => decide (pubkey ∈ ["0", "1"]), some 5) :=
  ⟨rfl, Small.event_id_ne rfl rfl (by decide), roster_before otherGenesis.id, roster_applied otherGenesis.id⟩

end Chat

/-! ## The key and the creator field -/

def keyColumns (room : Room) : FeedKey × Int × Int × Nat :=
  (room.roomKey, room.roomKeyEpoch, room.roomKeyValidFrom, room.roomMsgSeqCounter)

/-- The row names the signer of the genesis event, and the item has written the columns of the
key only if it is a delivery of the signer. -/
def Controls (genesis : Event) (phone : Phone) (item : Item) (rooms : Table String Room) : Prop :=
  (∀ room, rooms.lookup genesis.id = some room -> room.creatorPubkey = genesis.pubkey) ∧
  ((rooms.lookup genesis.id).map keyColumns ≠ (phone.rooms.lookup genesis.id).map keyColumns ->
    ∃ delivery, item = .roomKey (some delivery) ∧ delivery.roomId = genesis.id ∧ delivery.sender = genesis.pubkey)

def Controlled (K : EventCrypto) (genesis : Event) (phone : Phone) (input : Int × Item) : Prop :=
  Controls genesis phone input.2 (phone.processItem K input.1 input.2).phone.rooms

/-- A key that comes first or is newer is a delivery of the signer, and genesis events that open
name the one who has signed them. -/
structure Lawful (K : EventCrypto) (genesis : Event) (phone : Phone) (input : Int × Item) : Prop where
  adopted : ∀ own delivery roomKey, input.2 = .roomKey (some delivery) ->
    phone.TakesKey own delivery roomKey -> delivery.roomId = genesis.id ->
    (∀ room, phone.rooms.lookup genesis.id = some room -> room.roomKeyEpoch < delivery.epoch) ->
    delivery.sender = genesis.pubkey
  named : ∀ own room encrypted event content, input.2 = .roomEvent (some ⟨genesis.id, some encrypted⟩) ->
    phone.OpensEvent K own genesis.id room encrypted event -> event.kind = 100 -> event.id = genesis.id ->
    decodeRoomCreateContent K event.content = some content -> content.creatorPubkey = event.pubkey

theorem Controlled.lawful {known : Set Event} (faithful : Faithful K known) {genesis : Event}
    (member : genesis ∈ known) (verified : genesis.verifies K = true) {phone : Phone} {input : Int × Item}
    (brings : Brings K known input.2) (controlled : Controlled K genesis phone input) :
    Lawful K genesis phone input := by
  rcases input with ⟨_, _⟩
  constructor
  · rintro _ delivery roomKey rfl takes here newer
    rw [Controlled, takes.processItem] at controlled
    rcases controlled with ⟨names, writes⟩
    rw [← here] at names writes newer
    cases found : phone.rooms.lookup delivery.roomId with
    | none =>
      -- the sender becomes the provisional creator
      simp only [acceptRoomKey, found] at names
      exact names _ (lookup_insert _)
    | some existing =>
      -- the epoch grows, so the columns change
      have larger := newer existing found
      have changed : ((phone.rooms.insert delivery.roomId
          (adopt existing delivery roomKey)).lookup delivery.roomId).map keyColumns ≠
          (some existing).map keyColumns := by
        intro same
        rw [lookup_insert] at same
        simp only [Option.map_some, Option.some.injEq, keyColumns, Prod.mk.injEq, adopt] at same
        omega
      simp only [acceptRoomKey, found, larger, if_true] at writes
      rcases writes changed with ⟨_, same, _, sender⟩
      cases same
      exact sender
  · rintro _ _ _ _ _ rfl opens kind here decoded
    have known := opens.brought brings
    have author := pubkey_of_id faithful known.1 member known.2 verified here
    rw [Controlled, opens.processItem] at controlled
    have names := controlled.1
    simp only [applyRoomEvent, kind, here, decoded, if_true, ne_eq, not_true_eq_false, if_false] at names
    rw [author]
    exact names _ (lookup_insert _)

section Steps

variable {genesis : Event} {phone : Phone}
variable (named : ∀ room, phone.rooms.lookup genesis.id = some room -> room.creatorPubkey = genesis.pubkey)
include named

variable {value : Room}

theorem controls_of_update {item roomId old}
    (found : phone.rooms.lookup roomId = some old) (columns : keyColumns value = keyColumns old)
    (creator : roomId = genesis.id -> value.creatorPubkey = genesis.pubkey) :
    Controls genesis phone item (phone.rooms.insert roomId value) := by
  constructor
  · intro room lookup
    rw [lookup_insert_eq] at lookup
    split at lookup
    next here =>
      cases lookup
      exact creator here.symm
    · exact named room lookup
  · intro changed
    exact (changed (map_lookup_insert found columns genesis.id)).elim

theorem controls_of_kept {item roomId old} (found : phone.rooms.lookup roomId = some old)
    (columns : keyColumns value = keyColumns old) (creator : value.creatorPubkey = old.creatorPubkey) :
    Controls genesis phone item (phone.rooms.insert roomId value) := by
  apply controls_of_update named found columns
  rintro rfl
  rw [creator]
  exact named old found

theorem controls_of_delivery {delivery} (creator : delivery.roomId = genesis.id ->
      delivery.sender = genesis.pubkey ∧ value.creatorPubkey = genesis.pubkey) :
    Controls genesis phone (.roomKey (some delivery)) (phone.rooms.insert delivery.roomId value) := by
  rw [Controls, lookup_insert_eq]
  split
  next here =>
    have both := creator here.symm
    refine ⟨?_, fun _ => ⟨delivery, rfl, here.symm, both.1⟩⟩
    intro room lookup
    cases lookup
    exact both.2
  · exact ⟨named, fun changed => (changed rfl).elim⟩

theorem Lawful.controlled {known : Set Event} (faithful : Faithful K known) (member : genesis ∈ known)
    (verified : genesis.verifies K = true) {input : Int × Item} (brings : Brings K known input.2)
    (lawful : Lawful K genesis phone input) : Controlled K genesis phone input := by
  rcases input with ⟨now, item⟩
  have effect := roomEffect_processItem now phone item (K := K)
  change Controls genesis phone item (phone.processItem K now item).phone.roomTables.rooms
  generalize (phone.processItem K now item).phone.roomTables = after at effect
  cases effect with
  | quiet | olderKey => exact ⟨named, fun changed => (changed rfl).elim⟩
  | firstKey takes unknown =>
    apply controls_of_delivery named
    intro here
    have sender := lawful.adopted _ _ _ rfl takes here (fun room found => by
      rw [← here, unknown] at found
      cases found)
    exact ⟨sender, sender⟩
  | newerKey takes found newer =>
    apply controls_of_delivery named
    intro here
    have sender := lawful.adopted _ _ _ rfl takes here (fun room lookup => by
      rw [← here, found] at lookup
      cases lookup
      exact newer)
    rw [here] at found
    have creator := named _ found
    exact ⟨sender, creator⟩
  | rejoin found => exact controls_of_kept named found (by rfl) (by rfl)
  | genesis opens kind here decoded =>
    apply controls_of_update named opens.found (by rfl)
    intro same
    subst same
    have known := opens.brought brings
    rw [← pubkey_of_id faithful known.1 member known.2 verified here]
    exact lawful.named _ _ _ _ _ rfl opens kind here decoded
  | roster opens =>
    rw [roomTables_applyRoster]
    exact controls_of_kept named opens.found (by rfl) (by rfl)
  | activity opens => exact controls_of_kept named opens.found (by rfl) (by rfl)

end Steps

/-- The signer of the genesis event controls the row of the room all along a run, if and only if
every step is lawful. -/
theorem controlled_iff_lawful {known : Set Event} (faithful : Faithful K known) {genesis : Event}
    (member : genesis ∈ known) (verified : genesis.verifies K = true) {start : Phone}
    (named : ∀ room, start.rooms.lookup genesis.id = some room -> room.creatorPubkey = genesis.pubkey)
    {inputs : List (Int × Item)} (brings : ∀ input ∈ inputs, Brings K known input.2) :
    Along (itemStep K) (Controlled K genesis) start inputs ↔ Along (itemStep K) (Lawful K genesis) start inputs := by
  have agree : ∀ phone input,
      (∀ room, phone.rooms.lookup genesis.id = some room -> room.creatorPubkey = genesis.pubkey) ->
      Brings K known input.2 -> (Controlled K genesis phone input ↔ Lawful K genesis phone input) :=
    fun phone input holds known =>
      ⟨Controlled.lawful faithful member verified known, Lawful.controlled holds faithful member verified known⟩
  refine Along.iff_of_invariant agree ?_ named (Along.of_mem (fun _ input listed => brings input listed))
  intro phone input next _ controlled stepped
  cases stepped
  exact controlled.1

namespace Chat

def newKey (sender : Pubkey) : RoomKeyDelivery := ⟨genesis.id, 5, 20, sender, ⟨20, some [9]⟩⟩

theorem named (roomId room) (found : (phone roomId).rooms.lookup roomId = some room) : room.creatorPubkey = "1" := by
  have here : (phone roomId).rooms.lookup roomId = some row := lookup_insert _
  rw [here] at found
  cases found
  rfl

/-- The creator replaces the key. -/
theorem creator_replaces_key :
    Along (itemStep world) (Controlled world genesis) (phone genesis.id) [(0, .roomKey (some (newKey "1")))] := by
  refine (controlled_iff_lawful faithful mem_genesis (verified mem_genesis) (named genesis.id) ?_).mpr
    (Along.cons ?_ (fun _ _ => Along.nil))
  · intro input listed
    rw [List.mem_singleton.mp listed]
    intro encrypted key event never
    cases never
  · constructor
    · intro own delivery roomKey same _ _ _
      cases same
      rfl
    · intro own room encrypted event content never
      cases never

/-- Any mutual follow replaces the key, and a genesis event can name somebody else. -/
theorem other_replaces_key_and_creator :
    ¬ Controlled world genesis (phone genesis.id) (0, .roomKey (some (newKey "2"))) ∧
      ¬ Controlled world misnamed (phone misnamed.id) (0, item misnamed.id misnamed) := by
  constructor
  · intro controlled
    have brings : Brings world { event | event ∈ events } (.roomKey (some (newKey "2"))) := nofun
    have lawful := controlled.lawful faithful mem_genesis (verified mem_genesis) brings
    have takes : (phone genesis.id).TakesKey Small.identity (newKey "2") [9] := ⟨rfl, by decide, by decide⟩
    have sender : "2" = "1" := by
      apply lawful.adopted Small.identity (newKey "2") [9] rfl takes rfl
      intro room found
      cases found
      decide
    revert sender
    decide
  · intro controlled
    have brings : Brings world { event | event ∈ events } (item misnamed.id misnamed) := by
      intro encrypted key event wrapped decrypted
      cases wrapped
      rw [faithful.eq_of_decryptEvent mem_misnamed decrypted]
      exact mem_misnamed
    have lawful := controlled.lawful faithful mem_misnamed (verified mem_misnamed) brings
    have author : "2" = "1" :=
      lawful.named Small.identity row (wrap misnamed) misnamed ⟨"", "2", 12⟩ rfl
        (opens mem_misnamed (admits_creator misnamed.id)) rfl rfl rfl
    revert author
    decide

end Chat

end Phone
end Starling.App
