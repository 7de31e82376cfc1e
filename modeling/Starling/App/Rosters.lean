import Starling.App.Rooms
import Starling.Foundation.Register

namespace Starling.App
namespace Phone

open List AList

/-!
# Rosters in any order

The creator signs a whole member list with every change, under a membership epoch of its own.  A
member takes the lists as they come: an older list than the one in force is stored and otherwise
ignored, a newer one removes and adds until the active members are the listed ones.  So a room row
is a register that keeps the newest version.
-/

variable {K : EventCrypto}

/-! ## Rows of members stay -/

def KeepsAddedAt (phone next : Phone) : Prop :=
  ∀ key member, phone.members.lookup key = some member ->
    ∃ later, next.members.lookup key = some later ∧ later.addedAt = member.addedAt

theorem KeepsAddedAt.refl (phone) : KeepsAddedAt phone phone :=
  fun _ member found => ⟨member, found, rfl⟩

theorem KeepsAddedAt.trans {phone middle next} (first : KeepsAddedAt phone middle)
    (second : KeepsAddedAt middle next) : KeepsAddedAt phone next := by
  intro key member found
  rcases first key member found with ⟨between, atMiddle, same⟩
  rcases second key between atMiddle with ⟨later, atNext, alsoSame⟩
  exact ⟨later, atNext, alsoSame.trans same⟩

variable {roomId : String} {encrypted : SealedEvent} {room : Room} {creator : Pubkey}

theorem KeepsAddedAt.saveRoomMember {phone next} (keeps : KeepsAddedAt phone next) {pubkey member}
    (same : ∀ old, phone.members.lookup (roomId, pubkey) = some old -> member.addedAt = old.addedAt) :
    KeepsAddedAt phone (next.saveRoomMember roomId pubkey member) := by
  intro key old found
  rw [Phone.saveRoomMember, Table.lookup_insert_eq]
  split
  next here =>
    subst here
    exact ⟨member, rfl, same old found⟩
  · exact keeps key old found

theorem keepsAddedAt_setRoomMemberRemoved (phone roomId pubkey now) :
    KeepsAddedAt phone (phone.setRoomMemberRemoved roomId pubkey now) := by
  unfold setRoomMemberRemoved
  split
  · exact .refl phone
  next found =>
    apply (KeepsAddedAt.refl phone).saveRoomMember
    intro old lookup
    rw [found, Option.some.injEq] at lookup
    rw [← lookup]

theorem keepsAddedAt_removeUnlisted (now phone roomId listed current) :
    KeepsAddedAt phone (phone.removeUnlisted now roomId listed current) := by
  unfold removeUnlisted
  induction current generalizing phone with
  | nil => exact .refl phone
  | cons member rest ih =>
    rw [foldl_cons]
    split
    · exact (keepsAddedAt_setRoomMemberRemoved phone roomId member.1 now).trans (ih _)
    · exact ih phone

theorem KeepsAddedAt.addListed {phone next} (keeps : KeepsAddedAt phone next) (now roomId listed) :
    KeepsAddedAt phone (next.addListed now roomId (fun pubkey => phone.members.lookup (roomId, pubkey)) listed) := by
  induction listed generalizing next with
  | nil => exact keeps
  | cons pubkey rest ih =>
    apply ih
    dsimp only
    split
    next missing =>
      apply keeps.saveRoomMember
      intro old found
      rw [missing] at found
      cases found
    next found =>
      split
      · exact keeps
      · apply keeps.saveRoomMember
        intro old lookup
        rw [found, Option.some.injEq] at lookup
        rw [← lookup]

theorem keepsAddedAt_applyRoster (own now phone roomId room content) :
    KeepsAddedAt phone (applyRoster own now phone roomId room content) :=
  (keepsAddedAt_removeUnlisted now phone roomId content.members (phone.roomMembers roomId)).addListed now roomId
    content.members

/-! ## Rosters of the creator -/

structure Roster (K : EventCrypto) (roomId : String) (creator : Pubkey) where
  event : Event
  content : RoomMembershipContent
  kind : event.kind = 101
  author : event.pubkey = creator
  ref : event.ref = some roomId
  decoded : decodeRoomMembershipContent K event.content = some content

def rosterValue (own : Identity) (content : RoomMembershipContent) : (Pubkey -> Bool) × Bool :=
  (fun pubkey => decide (pubkey ∈ content.members), decide (own.pubkey ∈ content.members))

def Roster.offered {roomId : String} {creator : Pubkey} (own : Identity) (roster : Roster K roomId creator) :
    Versioned Int ((Pubkey -> Bool) × Bool) :=
  ⟨roster.content.membershipEpoch, rosterValue own roster.content⟩

def rosterHeld (phone : Phone) (roomId : String) (room : Room) : Versioned Int ((Pubkey -> Bool) × Bool) :=
  ⟨room.membershipEpoch, (fun pubkey => phone.activeMember roomId pubkey, room.isMember)⟩

structure Reads (K : EventCrypto) (phone : Phone) (roomId : String) (room : Room) (encrypted : SealedEvent)
    (event : Event) : Prop where
  author : encrypted.pubkey = room.creatorPubkey
  opens : ∃ key ∈ phone.roomCandidates roomId room encrypted.createdAt, decryptEvent K encrypted key = some event

theorem decryptEvent_unique {first second left right} (atFirst : decryptEvent K encrypted first = some left)
    (atSecond : decryptEvent K encrypted second = some right) : left = right := by
  rcases decryptEvent_eq_some.mp atFirst with ⟨_, _, leftSealed, leftRead, _⟩
  rcases decryptEvent_eq_some.mp atSecond with ⟨_, _, rightSealed, rightRead, _⟩
  rw [leftSealed] at rightSealed
  injection rightSealed with boxes
  injection boxes with _ _ contents
  rw [← contents, leftRead, Option.some.injEq] at rightRead
  exact rightRead

theorem Reads.opened {phone : Phone} {event : Event} (reads : phone.Reads K roomId room encrypted event) :
    phone.openRoomEvent K roomId room encrypted = some event := by
  have admitted : phone.admits roomId room encrypted.pubkey = true := by
    rw [admits, reads.author, decide_eq_true rfl, Bool.or_true]
  rcases reads.opens with ⟨key, listed, decrypted⟩
  rw [openRoomEvent, if_pos admitted]
  cases found : (phone.roomCandidates roomId room encrypted.createdAt).findSome? (decryptEvent K encrypted) with
  | none =>
    have failed := findSome?_eq_none_iff.mp found key listed
    rw [decrypted] at failed
    cases failed
  | some =>
    rcases exists_of_findSome?_eq_some found with ⟨_, _, alsoDecrypted⟩
    rw [decryptEvent_unique alsoDecrypted decrypted]

structure SameReading (roomId : String) (phone next : Phone) (room row : Room) : Prop where
  identity : next.identity = phone.identity
  found : next.rooms.lookup roomId = some row
  roomKeys : next.roomKeys = phone.roomKeys
  roomKey : row.roomKey = room.roomKey
  creator : row.creatorPubkey = room.creatorPubkey

theorem SameReading.reads {phone next room row} (same : SameReading roomId phone next room row) {event}
    (reads : phone.Reads K roomId room encrypted event) : next.Reads K roomId row encrypted event := by
  refine ⟨reads.author.trans same.creator.symm, ?_⟩
  rcases reads.opens with ⟨key, listed, decrypted⟩
  refine ⟨key, ?_, decrypted⟩
  rw [roomCandidates, roomKeyHistory, same.roomKeys, same.roomKey]
  exact listed

theorem Roster.step {phone : Phone} {own} (identity : phone.identity = some own)
    (found : phone.rooms.lookup roomId = some room) (named : room.creatorPubkey = creator)
    (roster : Roster K roomId creator) (reads : phone.Reads K roomId room encrypted roster.event) (now : Int) :
    ∃ next row, phone.processItem K now (.roomEvent (some ⟨roomId, some encrypted⟩)) = ⟨next, false⟩ ∧
      SameReading roomId phone next room row ∧ KeepsAddedAt phone next ∧
      next.rosterHeld roomId row = (phone.rosterHeld roomId room).offer (roster.offered own) := by
  have opens : phone.OpensEvent K own roomId room encrypted roster.event := ⟨identity, found, reads.opened⟩
  have creatorSigned : ¬ roster.event.pubkey ≠ room.creatorPubkey := by
    rw [roster.author, named]
    exact fun differs => differs rfl
  rw [opens.processItem, applyRoomEvent, if_neg (by rw [roster.kind]; decide), if_pos roster.kind,
    if_neg creatorSigned]
  simp only [decoded]
  split
  next older =>
    refine ⟨_, room, rfl, ⟨rfl, found, rfl, rfl, rfl⟩, .refl phone, ?_⟩
    rw [Versioned.offer, if_neg]
    · rfl
    · exact not_lt.mpr older
  next newer =>
    have frame := withoutMembers_applyRoster own now (phone.saveIncomingEventWithEncrypted K roster.event encrypted)
      roomId room roster.content
    have identities := congrArg Phone.identity frame
    have roomKeys := congrArg roomKeys frame
    refine ⟨_, { room with
        membershipEpoch := roster.content.membershipEpoch
        isMember := decide (own.pubkey ∈ roster.content.members) }, rfl,
      ⟨identities, ?_, roomKeys, rfl, rfl⟩, ?_, ?_⟩
    · exact lookup_insert _
    · exact keepsAddedAt_applyRoster own now (phone.saveIncomingEventWithEncrypted K roster.event encrypted)
        roomId room roster.content
    · rw [Versioned.offer, if_pos]
      · rw [rosterHeld, offered, rosterValue]
        have actives : (fun pubkey => (applyRoster own now
            (phone.saveIncomingEventWithEncrypted K roster.event encrypted) roomId room
            roster.content).activeMember roomId pubkey) =
            fun pubkey => decide (pubkey ∈ roster.content.members) := by
          funext pubkey
          rw [activeMember_applyRoster, if_pos rfl]
        rw [actives]
      · exact not_le.mp newer

/-! ## All rosters -/

theorem Reads.content_eq {phone : Phone} {left right : Roster K roomId creator}
    (atLeft : phone.Reads K roomId room encrypted left.event)
    (atRight : phone.Reads K roomId room encrypted right.event) : left.content = right.content := by
  rcases atLeft.opens with ⟨_, _, leftDecrypted⟩
  rcases atRight.opens with ⟨_, _, rightDecrypted⟩
  have decoded := left.decoded
  rw [decryptEvent_unique leftDecrypted rightDecrypted, right.decoded, Option.some.injEq] at decoded
  exact decoded.symm

def rosterItem (roomId : String) (arrival : Int × SealedEvent) : Int × Item :=
  (arrival.1, .roomEvent (some ⟨roomId, some arrival.2⟩))

theorem rosters_offered {own : Identity} {rosters : List (Roster K roomId creator)}
    {start phone final} {first room : Room} (identity : start.identity = some own)
    (named : first.creatorPubkey = creator) (same : SameReading roomId start phone first room)
    {arrivals : List (Int × SealedEvent)}
    (known : ∀ arrival ∈ arrivals, ∃ roster ∈ rosters, start.Reads K roomId first arrival.2 roster.event)
    (reached : run (itemStep K) phone (arrivals.map (rosterItem roomId)) = .ok final) :
    ∃ taken row, SameReading roomId start final first row ∧ KeepsAddedAt phone final ∧
      final.rosterHeld roomId row = (phone.rosterHeld roomId room).offerAll (taken.map (Roster.offered own)) ∧
      List.Forall₂ (fun (arrival : Int × SealedEvent) (roster : Roster K roomId creator) =>
        roster ∈ rosters ∧ start.Reads K roomId first arrival.2 roster.event) arrivals taken := by
  induction arrivals generalizing phone room with
  | nil =>
    cases reached
    exact ⟨[], room, same, .refl _, rfl, .nil⟩
  | cons arrival rest ih =>
    rcases known arrival mem_cons_self with ⟨roster, listed, reads⟩
    rcases roster.step (same.identity.trans identity) same.found (same.creator.trans named) (same.reads reads)
      arrival.1 with ⟨next, row, stepped, kept, added, held⟩
    have nextStep : itemStep K phone (rosterItem roomId arrival) = .ok next := by
      rw [itemStep, rosterItem, stepped]
    rw [map_cons, run_cons_ok _ nextStep] at reached
    have sameNext : SameReading roomId start next first row :=
      ⟨kept.identity.trans same.identity, kept.found, kept.roomKeys.trans same.roomKeys,
        kept.roomKey.trans same.roomKey, kept.creator.trans same.creator⟩
    rcases ih sameNext (fun later member => known later (mem_cons_of_mem arrival member))
      reached with ⟨taken, last, sameLast, addedLast, heldLast, paired⟩
    refine ⟨roster :: taken, last, sameLast, added.trans addedLast, ?_, .cons ⟨listed, reads⟩ paired⟩
    rw [heldLast, held]
    rfl

/-- Whatever the order of the rosters and however often they come, the newest one is in force
afterwards, and nobody's first day changes on the way. -/
theorem rosters_converge {own : Identity} {roomId : String} {start final : Phone} {room : Room}
    (identity : start.identity = some own) (found : start.rooms.lookup roomId = some room)
    {rosters : List (Roster K roomId room.creatorPubkey)}
    (distinct : ∀ left right, left ∈ rosters -> right ∈ rosters ->
      left.content.membershipEpoch = right.content.membershipEpoch -> left = right)
    (newer : ∃ roster ∈ rosters, room.membershipEpoch < roster.content.membershipEpoch)
    {arrivals : List (Int × SealedEvent)}
    (known : ∀ arrival ∈ arrivals, ∃ roster ∈ rosters, start.Reads K roomId room arrival.2 roster.event)
    (complete : ∀ roster ∈ rosters, ∃ arrival ∈ arrivals, start.Reads K roomId room arrival.2 roster.event)
    (reached : run (itemStep K) start (arrivals.map (rosterItem roomId)) = .ok final) :
    ∃ newest row, newest ∈ rosters ∧
      (∀ roster ∈ rosters, roster.content.membershipEpoch ≤ newest.content.membershipEpoch) ∧
      final.rooms.lookup roomId = some row ∧ row.membershipEpoch = newest.content.membershipEpoch ∧
      (∀ pubkey, final.activeMember roomId pubkey = true ↔ pubkey ∈ newest.content.members) ∧
      (row.isMember = true ↔ own.pubkey ∈ newest.content.members) ∧
      ∀ before after middle, arrivals = before ++ after ->
        run (itemStep K) start (before.map (rosterItem roomId)) = .ok middle -> KeepsAddedAt middle final := by
  have atStart : SameReading roomId start start room room := ⟨rfl, found, rfl, rfl, rfl⟩
  rcases rosters_offered identity rfl atStart known reached with ⟨taken, row, same, _, held, paired⟩
  have ofRosters : ∀ roster ∈ taken, roster ∈ rosters := by
    intro roster member
    rcases forall₂_iff_get.mp paired with ⟨lengths, pairs⟩
    rcases mem_iff_get.mp member with ⟨⟨index, bound⟩, rfl⟩
    exact (pairs index (lengths ▸ bound) bound).1
  -- every roster was taken, because a wrapper of it has come
  have allTaken : ∀ roster ∈ rosters, roster ∈ taken := by
    intro roster listed
    rcases complete roster listed with ⟨_, arrived, reads⟩
    rcases forall₂_iff_get.mp paired with ⟨lengths, pairs⟩
    rcases mem_iff_get.mp arrived with ⟨⟨index, bound⟩, rfl⟩
    have bound' : index < taken.length := lengths ▸ bound
    rcases pairs index bound bound' with ⟨alsoListed, alsoReads⟩
    rw [distinct roster _ listed alsoListed (congrArg RoomMembershipContent.membershipEpoch
      (reads.content_eq alsoReads))]
    exact get_mem taken ⟨index, bound'⟩
  rcases newer with ⟨later, listed, above⟩
  have offered : later.offered own ∈ taken.map (Roster.offered own) := mem_map_of_mem (allTaken later listed)
  rcases mem_map.mp ((start.rosterHeld roomId room).offerAll_mem_of_newer offered above) with
    ⟨newest, member, result⟩
  rw [← result] at held
  have epoch : row.membershipEpoch = newest.content.membershipEpoch := congrArg Versioned.version held
  have actives := congrFun (congrArg (fun register => register.value.1) held)
  have membership : row.isMember = decide (own.pubkey ∈ newest.content.members) :=
    congrArg (fun register => register.value.2) held
  refine ⟨newest, row, ofRosters newest member, ?_, same.found, epoch, ?_, ?_, ?_⟩
  · intro roster atRosters
    have offeredToo : roster.offered own ∈ taken.map (Roster.offered own) :=
      mem_map_of_mem (allTaken roster atRosters)
    have bounded := (start.rosterHeld roomId room).offered_le_offerAll offeredToo
    rw [← result] at bounded
    exact bounded
  · intro pubkey
    have active : final.activeMember roomId pubkey = decide (pubkey ∈ newest.content.members) := actives pubkey
    rw [active, decide_eq_true_eq]
  · rw [membership, decide_eq_true_eq]
  · intro before after middle split passed
    subst split
    have knownBefore := fun arrival member => known arrival (mem_append_left after member)
    have knownAfter := fun arrival member => known arrival (mem_append_right before member)
    rcases rosters_offered identity rfl atStart knownBefore passed with ⟨_, _, sameMiddle, _⟩
    rw [map_append, run_append _ passed] at reached
    rcases rosters_offered identity rfl sameMiddle knownAfter reached with ⟨_, _, _, kept, _⟩
    exact kept

namespace Chat

def listed : Roster world genesis.id "1" where
  event := roster
  content := ⟨["0", "1"], 5, 0⟩
  kind := rfl
  author := rfl
  ref := rfl
  decoded := rfl

def unlisted : Roster world genesis.id "1" where
  event := laterRoster
  content := ⟨["1"], 6, 1⟩
  kind := rfl
  author := rfl
  ref := rfl
  decoded := rfl

theorem reads {event} (member : event ∈ events) (named : event.pubkey = "1") :
    (phone genesis.id).Reads world genesis.id row (wrap event) event :=
  ⟨named, [8], mem_cons_self, faithful.decryptEvent_encryptEvent member (verified member) [8] 0 0 []⟩

def inOrder (swapped : Bool) : List (Int × SealedEvent) :=
  if swapped then [(20, wrap laterRoster), (21, wrap roster)] else [(20, wrap roster), (21, wrap laterRoster)]

/-- The members of the later roster, and its epoch, are there in the end. -/
def Settles (arrivals : List (Int × SealedEvent)) : Prop := ∃ final row,
  run (itemStep world) (phone genesis.id) (arrivals.map (rosterItem genesis.id)) = .ok final ∧
    final.rooms.lookup genesis.id = some row ∧ row.membershipEpoch = 6 ∧
    (∀ pubkey, final.activeMember genesis.id pubkey = true ↔ pubkey ∈ ["1"]) ∧
      (row.isMember = true ↔ "0" ∈ ["1"])

/-- Two rosters come, in either order, and the later one counts. -/
theorem roster_converges_twice : Settles (inOrder false) ∧ Settles (inOrder true) := by
  rw [← Bool.forall_bool (p := fun swapped => Settles (inOrder swapped))]
  intro swapped
  have found : (phone genesis.id).rooms.lookup genesis.id = some row := lookup_insert _
  have distinct : ∀ left right, left ∈ [listed, unlisted] -> right ∈ [listed, unlisted] ->
      left.content.membershipEpoch = right.content.membershipEpoch -> left = right := by
    intro left right atLeft atRight same
    rcases mem_pair.mp atLeft with rfl | rfl <;> rcases mem_pair.mp atRight with rfl | rfl <;>
      first | rfl | cases same
  have first := reads mem_roster rfl
  have second := reads mem_laterRoster rfl
  have last : unlisted ∈ [listed, unlisted] := by simp
  have known : ∀ arrival ∈ inOrder swapped, ∃ one ∈ [listed, unlisted],
      (phone genesis.id).Reads world genesis.id row arrival.2 one.event := by
    intro arrival member
    cases swapped <;> rcases mem_pair.mp member with rfl | rfl
    · exact ⟨listed, mem_cons_self, first⟩
    · exact ⟨unlisted, last, second⟩
    · exact ⟨unlisted, last, second⟩
    · exact ⟨listed, mem_cons_self, first⟩
  have complete : ∀ one ∈ [listed, unlisted], ∃ arrival ∈ inOrder swapped,
      (phone genesis.id).Reads world genesis.id row arrival.2 one.event := by
    intro one member
    rcases mem_pair.mp member with rfl | rfl <;> cases swapped
    · exact ⟨_, mem_cons_self, first⟩
    · exact ⟨_, mem_cons_of_mem _ mem_cons_self, first⟩
    · exact ⟨_, mem_cons_of_mem _ mem_cons_self, second⟩
    · exact ⟨_, mem_cons_self, second⟩
  have reached : ∃ final, run (itemStep world) (phone genesis.id)
      ((inOrder swapped).map (rosterItem genesis.id)) = .ok final := by
    cases swapped <;> exact ⟨_, rfl⟩
  rcases reached with ⟨final, reached⟩
  rcases rosters_converge rfl found distinct ⟨listed, mem_cons_self, by decide⟩ known complete reached with
    ⟨newest, row, member, top, stored, epoch, active, isMember, _⟩
  rcases mem_pair.mp member with rfl | rfl
  · exact absurd (top unlisted last) (by decide)
  · exact ⟨final, row, reached, stored, epoch, active, isMember⟩

end Chat

end Phone
end Starling.App
