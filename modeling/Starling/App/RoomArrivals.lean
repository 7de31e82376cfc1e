import Starling.App.RoomHistory

namespace Starling.App
namespace Gathering

open Phone List

/-!
# What arrives of the messages of a room

A key that a phone has taken in is never lost: it is the current one or among the retired ones.
Whether it opens a message is another matter, because a retired key is tried only for messages of a
window, and the window is measured by another clock than the message.
-/

variable {K : EventCrypto} {secretKey : Pubkey -> Bytes} {roomId : String} {creator : Pubkey}

/-! ## Messages that arrive -/

section Arrivals

variable (K : EventCrypto) (secretKey : Pubkey -> Bytes) (roomId : String) (creator : Pubkey)

def TakenIn (start : Gathering) (acts : List RoomAct) (member : Pubkey) (key : FeedKey) : Prop :=
  ∃ before now delivery after middle own, acts = before ++ .deliver member now (.roomKey (some delivery)) :: after ∧
    run (roomStep K secretKey roomId creator) start before = .ok middle ∧
    (member, .roomKey (some delivery)) ∈ middle.posted ∧ delivery.roomId = roomId ∧
    (middle.phones member).TakesKey own delivery key

/-- At some point of the run somebody has sent the message to the member, in a room event under
the key. -/
def SentTo (start : Gathering) (acts : List RoomAct) (member : Pubkey) (key : FeedKey) (message : Event)
    (item : Item) : Prop :=
  ∃ before author now text nonce after middle own room, acts = before ++ .send author now text nonce :: after ∧
    run (roomStep K secretKey roomId creator) start before = .ok middle ∧
    (middle.phones author).identity = some own ∧
    (middle.phones author).rooms.lookup roomId = some room ∧ room.isMember = true ∧ room.roomKey = key ∧
    signMessage K (secretKey author) own roomId now text = some message ∧
    member ∈ (middle.phones author).otherMembers own roomId ∧
    item = .roomEvent (some ⟨roomId, some (sealMessage K room message nonce)⟩)

end Arrivals

theorem posted_step {gathering next : Gathering} {act}
    (stepped : gathering.roomStep K secretKey roomId creator act = .ok next) {entry : Posted}
    (posted : entry ∈ gathering.posted) : entry ∈ next.posted := by
  have kept : ∀ pubkey result, entry ∈ (gathering.put pubkey result).posted := by
    intro pubkey result
    cases result with
    | none => exact posted
    | some => exact mem_append_left _ posted
  cases act with
  | _ =>
    cases stepped
    exact kept _ _

theorem SentTo.posted {start final : Gathering} {acts}
    (reached : run (roomStep K secretKey roomId creator) start acts = .ok final) {member key message}
    {item : Item} (sent : SentTo K secretKey roomId creator start acts member key message item) :
    (member, item) ∈ final.posted := by
  rcases sent with ⟨_, _, _, _, nonce, after, _, _, room, split, passed, identity, found,
    isMember, _, signed, listed, rfl⟩
  rw [split, run_append _ passed] at reached
  rcases run_of_cons reached with ⟨next, stepped, later⟩
  have here : (member, Item.roomEvent (some ⟨roomId, some (sealMessage K room message nonce)⟩)) ∈
      next.posted := by
    cases stepped
    rcases sendMessage_of identity found isMember signed nonce with ⟨_, result⟩
    rw [result]
    exact mem_append_right _ (mem_map.mpr ⟨member, listed, rfl⟩)
  have kept : ∀ (gathering : Gathering) act following,
      (member, Item.roomEvent (some ⟨roomId, some (sealMessage K room message nonce)⟩)) ∈ gathering.posted ->
      gathering.roomStep K secretKey roomId creator act = .ok following ->
      (member, Item.roomEvent (some ⟨roomId, some (sealMessage K room message nonce)⟩)) ∈ following.posted :=
    fun _ _ _ posted stepped => posted_step stepped posted
  exact Reaches.invariant kept ⟨after, later⟩ here

theorem TakenIn.held {start final} (coherent : start.Coherent K secretKey roomId creator)
    {acts} (reached : run (roomStep K secretKey roomId creator) start acts = .ok final)
    {member key} (taken : TakenIn K secretKey roomId creator start acts member key) :
    (∃ own, (final.phones member).identity = some own) ∧
      (∃ room, (final.phones member).rooms.lookup roomId = some room) ∧
      (final.phones member).roomTables.HoldsKey roomId key := by
  rcases taken with ⟨_, now, _, _, middle, own, split, passed, posted, rfl, takes⟩
  rw [split, run_append _ passed] at reached
  rcases run_of_cons reached with ⟨_, stepped, later⟩
  rcases (coherent.run passed).1 with ⟨_, _, middleCoherent⟩
  have nextCoherent := (middleCoherent.step stepped).1
  have keeps := (nextCoherent.run later).2 member
  cases stepped
  rw [if_pos posted, phones_put_self] at keeps
  have held := takes.held (middleCoherent.tables member) (middleCoherent.posted _ posted) now (K := K)
  refine ⟨⟨own, ?_⟩, keeps.row held.1, keeps.keys key held.2⟩
  rw [keeps.identity, (writes_processItem now (middle.phones member) _).accounts.identity]
  exact takes.identity

end Gathering

namespace Phone

variable {K : EventCrypto}

theorem openRoomEvent_encryptEvent {known : Set Event} (faithful : Faithful K known) {event : Event}
    (member : event ∈ known) (verified : event.verifies K = true) {phone : Phone} {roomId room key}
    {epoch : Int} {msgSeq : Nat} {nonce : Bytes} :
    phone.openRoomEvent K roomId room (encryptEvent K event key epoch msgSeq nonce) = some event ↔
      phone.admits roomId room event.pubkey = true ∧ key ∈ phone.roomCandidates roomId room event.createdAt := by
  have author : (encryptEvent K event key epoch msgSeq nonce).pubkey = event.pubkey := rfl
  have second : (encryptEvent K event key epoch msgSeq nonce).createdAt = event.createdAt := rfl
  rw [openRoomEvent, author, second]
  split
  next admitted =>
    rw [admitted]
    simp only [true_and]
    constructor
    · intro opened
      rcases List.exists_of_findSome?_eq_some opened with ⟨_, listed, decrypted⟩
      rw [← chainRoot_of_decryptEvent decrypted]
      exact listed
    · intro listed
      cases opened : (phone.roomCandidates roomId room event.createdAt).findSome?
          (decryptEvent K (encryptEvent K event key epoch msgSeq nonce)) with
      | none =>
        have failed := List.findSome?_eq_none_iff.mp opened key listed
        rw [faithful.decryptEvent_encryptEvent member verified] at failed
        cases failed
      | some =>
        rcases List.exists_of_findSome?_eq_some opened with ⟨_, _, decrypted⟩
        rw [faithful.eq_of_decryptEvent member decrypted]
  next refused =>
    simp [refused]

end Phone

namespace Gathering

open Phone

variable {K : EventCrypto} {secretKey : Pubkey -> Bytes} {roomId : String} {creator : Pubkey}

/-- A member who has taken in a key holds it, and stores a message under it if and only if the
author may speak in their view of the room and the key is their current one or a retired one whose
window has the second of the author. -/
theorem message_stored_iff {known : Set Event} (faithful : Faithful K known) {start final : Gathering}
    (coherent : start.Coherent K secretKey roomId creator) {acts : List RoomAct}
    (reached : run (roomStep K secretKey roomId creator) start acts = .ok final) {member : Pubkey}
    {key : FeedKey} (taken : TakenIn K secretKey roomId creator start acts member key) {message : Event}
    {item : Item} (sent : SentTo K secretKey roomId creator start acts member key message item)
    (occurs : message ∈ known) : (member, item) ∈ final.posted ∧
      ∃ room, (final.phones member).rooms.lookup roomId = some room ∧
        (final.phones member).roomTables.HoldsKey roomId key ∧
        ((∃ row, Stores K (final.phones member) item message row) ↔
          (final.phones member).admits roomId room message.pubkey = true ∧ (room.roomKey = key ∨ ∃ epoch retired,
              (final.phones member).roomKeys.lookup (roomId, epoch) = some retired ∧ retired.roomKey = key ∧
                retired.validFrom ≤ message.createdAt ∧ message.createdAt < retired.validUntil)) := by
  refine ⟨sent.posted reached, ?_⟩
  rcases taken.held coherent reached with ⟨⟨_, identity⟩, ⟨room, found⟩, holds⟩
  refine ⟨room, found, holds, ?_⟩
  rcases sent with ⟨_, author, _, _, _, _, _, writer, _, _, passed, writerIdentity, _, _, rfl, signed, _, rfl⟩
  rcases (coherent.run passed).1 with ⟨_, _, middleCoherent⟩
  rw [signMessage, Option.bind_eq_bind, Option.bind_eq_some_iff] at signed
  rcases signed with ⟨_, _, signed⟩
  have verified : message.verifies K = true := by
    rcases middleCoherent.keyPairs author writer writerIdentity with ⟨_, decoded, verifies⟩
    exact verifies_of_signEvent signed decoded verifies
  have kind : message.kind = 102 := by
    rw [signEvent, Option.bind_eq_bind, Option.bind_eq_some_iff] at signed
    rcases signed with ⟨_, _, whole⟩
    cases whole
    rfl
  rw [← mem_roomCandidates, ← openRoomEvent_encryptEvent faithful occurs verified]
  constructor
  · rintro ⟨_, stores⟩
    cases stores with
    | room _ lookup opened =>
      rw [found, Option.some.injEq] at lookup
      rw [lookup]
      exact opened
  · intro opened
    refine ⟨_, .room identity found opened ?_⟩
    simp [keepsRoomEvent, kind]

/-! ## A message and a rotation in one second -/

namespace Meeting

def hostIdentity : Identity := { Small.identity with pubkey := "1" }

def row : Room := ⟨"", "1", 10, 10, [8], 0, 10, 2, 1, true, 10⟩

def host : Phone :=
  { (((Small.phone []).saveRoom "0" row).saveRoomMember "0" "1" ⟨10, none⟩).saveRoomMember "0" "0"
    ⟨10, none⟩ with
    identity := some hostIdentity }

def guest : Phone := Small.phone [("1", [7])]

def firstKey : RoomKeyDelivery := ⟨"0", 0, 10, "1", ⟨10, some [8]⟩⟩
def secondKey (second : Int) : RoomKeyDelivery := ⟨"0", 1, second, "1", ⟨second, some [9]⟩⟩

def start : Gathering := ⟨fun pubkey => if pubkey = "1" then host else guest, [("0", .roomKey (some firstKey))]⟩

def roomBytes : Bytes := (crockfordBase32Decode "0").getD []

def fields : SignedFields := messageFields hostIdentity "0" roomBytes 100 []

def message : Event := ⟨fields, computeEventId (Small.crypto [] []) fields, []⟩

def world : EventCrypto :=
  { Small.crypto [message] [] with
    cborDecode := fun bytes =>
      if bytes = [3] then some (Dynamic.ofCbor (extensionsToSerializable message.extensions))
      else Small.decode [message] [] bytes }

def noKeys : Pubkey -> Bytes := fun _ => []

def item : Item := .roomEvent (some ⟨"0", some (sealMessage world row message [])⟩)

def opening : List RoomAct := [.deliver "0" 11 (.roomKey (some firstKey)), .send "1" 100 [] []]

/-- The key is rotated, and the new key arrives before the message. -/
def overtaken (second : Int) : List RoomAct :=
  opening ++ [.rotate second "2" [9] [], .deliver "0" (second + 1) (.roomKey (some (secondKey second)))]

theorem faithful : Faithful world {message} where
  event := by
    rintro _ rfl
    rfl
  idFields := by
    rintro _ rfl
    rfl
  extensions := by
    rintro _ rfl
    exact ⟨List.cons_ne_nil 3 [], rfl⟩
  media := by
    rintro _ rfl
    have brackets : "[]" ≠ "" := by decide
    exact ⟨brackets, rfl⟩
  collisionFree := by
    rintro _ ⟨_, rfl, rfl⟩ _ ⟨_, rfl, rfl⟩ _
    rfl

theorem signEvent_world (secret : Bytes) (signed : SignedFields) :
    signEvent world secret signed = some ⟨signed, computeEventId (Small.crypto [] []) signed, []⟩ := by
  have readable : crockfordBase32Decode (computeEventId world signed) = some _ := crockfordBase32Decode_encode _
  rw [signEvent, readable]
  rfl

theorem signed : signMessage world [] hostIdentity "0" 100 [] = some message := by
  rfl

theorem signsFor (pubkey : Pubkey) (readable : (crockfordBase32Decode pubkey).isSome = true) :
    SignsFor world [] pubkey := by
  rcases Option.isSome_iff_exists.mp readable with ⟨bytes, decoded⟩
  exact ⟨bytes, decoded, fun _ => rfl⟩

theorem coherent : start.Coherent world noKeys "0" "1" := by
  refine ⟨fun _ => [8], 0, ?_, ?_, ?_, ?_⟩
  · intro pubkey
    change (if pubkey = "1" then host else guest).roomTables.Agrees _ _ _
    split
    · constructor
      · intro room found
        cases (AList.lookup_insert _).symm.trans found
        exact ⟨rfl, le_refl _⟩
      · exact nofun
    · constructor <;> exact nofun
  · intro entry listed delivery same here
    rw [List.mem_singleton.mp listed] at same
    cases same
    exact ⟨rfl, le_refl _⟩
  · exact ⟨row, AList.lookup_insert _, rfl⟩
  · intro pubkey own known
    change (if pubkey = "1" then host else guest).identity = some own at known
    split at known
    · cases known
      exact signsFor "1" (by decide)
    · cases known
      exact signsFor "0" (by decide)

def once : Phone := (guest.processItem world 11 (.roomKey (some firstKey))).phone

def twice (second : Int) : Phone :=
  (once.processItem world (second + 1) (.roomKey (some (secondKey second)))).phone

def first : Gathering := start.put "0" (some (once, []))

theorem first_step : start.roomStep world noKeys "0" "1" (.deliver "0" 11 (.roomKey (some firstKey))) = .ok first := by
  rfl

theorem takenIn (later : List RoomAct) : TakenIn world noKeys "0" "1" start (opening ++ later) "0" [8] :=
  ⟨[], 11, firstKey, _, start, Small.identity, rfl, rfl, List.mem_singleton_self _, rfl, rfl, by decide, by decide⟩

theorem sentTo (later : List RoomAct) : SentTo world noKeys "0" "1" start (opening ++ later) "0" [8] message item := by
  refine ⟨[.deliver "0" 11 (.roomKey (some firstKey))], "1", 100, [], [], later, first, hostIdentity, row, rfl,
    ?_, ?_, ?_, rfl, rfl, signed, ?_, rfl⟩
  · rfl
  · rfl
  · exact AList.lookup_insert _
  · decide

theorem second_step : ∃ saved, saved.identity = some hostIdentity ∧ saved.members = host.members ∧
    saved.rooms.lookup "0" = some { row with roomMsgSeqCounter := 3, lastActivityAt := 100 } ∧
    first.roomStep world noKeys "0" "1" (.send "1" 100 [] []) = .ok (first.put "1" (some (saved, [("0", item)]))) := by
  have identity : host.identity = some hostIdentity := rfl
  have found : host.rooms.lookup "0" = some row := AList.lookup_insert _
  rcases sendMessage_of identity found rfl signed [] with ⟨saved, sent⟩
  rcases sendMessage_eq_some sent with ⟨_, _, _, _, lookup, _, kept, tables, _⟩
  rw [found, Option.some.injEq] at lookup
  subst lookup
  refine ⟨saved, kept.trans identity, congrArg RoomTables.members tables, ?_, ?_⟩
  · have rooms : saved.rooms = _ := congrArg RoomTables.rooms tables
    rw [rooms]
    exact AList.lookup_insert _
  · change Except.ok (first.put "1" (host.sendMessage world [] "0" 100 [] [])) = _
    rw [sent]
    rfl

theorem overtaken_run (second : Int) : ∃ final,
    run (roomStep world noKeys "0" "1") start (overtaken second) = .ok final ∧ final.phones "0" = twice second := by
  rcases second_step with ⟨sent, sentIdentity, sentMembers, sentRow, secondStep⟩
  have active : sent.activeMember "0" "0" = true := by
    rw [activeMember, sentMembers]
    decide
  have signs : ∀ fields, ∃ event, signEvent world [] fields = some event :=
    fun fields => ⟨_, signEvent_world [] fields⟩
  rcases rotateRoom_of sentIdentity sentRow rfl signs second [9] [] active (by decide : "0" ≠ "2") (by decide) with
    ⟨rotated, items, rotation, posted⟩
  let middle := first.put "1" (some (sent, [("0", item)]))
  let third := middle.put "1" (some (rotated, items))
  have thirdStep : middle.roomStep world noKeys "0" "1" (.rotate second "2" [9] []) = .ok third := by
    exact congrArg (fun result => Except.ok (middle.put "1" result)) rotation
  have delivered : third.roomStep world noKeys "0" "1"
      (.deliver "0" (second + 1) (.roomKey (some (secondKey second)))) =
      .ok (third.put "0" (some (twice second, []))) := by
    have here : ("0", Item.roomKey (some (secondKey second))) ∈ third.posted := List.mem_append_right _ posted
    rw [roomStep, if_pos here]
    rfl
  refine ⟨third.put "0" (some (twice second, [])), ?_, phones_put_self _ _ _ _⟩
  change run _ start [_, _, _, _] = _
  rw [run_cons_ok _ first_step, run_cons_ok _ secondStep, run_cons_ok _ thirdStep, run_cons_ok _ delivered]
  rfl

/-- The message is older than the rotation, and the retired key still opens it. -/
theorem message_stored_after_rotation :
    ∃ final, run (roomStep world noKeys "0" "1") start (overtaken 200) = .ok final ∧
      ((final.phones "0").rooms.lookup "0").map Room.roomKey = some [9] ∧
      ∃ row, Stores world (final.phones "0") item message row := by
  rcases overtaken_run 200 with ⟨final, reached, state⟩
  rcases message_stored_iff faithful coherent reached (takenIn _) (sentTo _) rfl with ⟨_, room, found, _, stored⟩
  refine ⟨final, reached, ?_⟩
  rw [state] at found stored ⊢
  cases found
  exact ⟨rfl, stored.mpr ⟨by decide, .inr ⟨0, _, rfl, rfl, by decide, by decide⟩⟩⟩

/-- The creator sends a message and rotates the key in the same second.  A member who gets the new
key first drops the message, although they still hold its key. -/
theorem message_of_the_last_second_dropped :
    ∃ final, run (roomStep world noKeys "0" "1") start (overtaken 100) = .ok final ∧
      TakenIn world noKeys "0" "1" start (overtaken 100) "0" [8] ∧
      SentTo world noKeys "0" "1" start (overtaken 100) "0" [8] message item ∧
      (∃ room, (final.phones "0").rooms.lookup "0" = some room ∧
        (final.phones "0").admits "0" room message.pubkey = true) ∧
      ¬ ∃ row, Stores world (final.phones "0") item message row := by
  rcases overtaken_run 100 with ⟨final, reached, state⟩
  have current : ∃ room, (twice 100).rooms.lookup "0" = some room ∧ (twice 100).admits "0" room "1" = true ∧
      (twice 100).roomCandidates "0" room 100 = [[9]] := ⟨_, rfl, by decide, by decide⟩
  rcases current with ⟨room, found, admitted, candidates⟩
  refine ⟨final, reached, takenIn _, sentTo _, ?_, ?_⟩
  · rw [state]
    exact ⟨room, found, admitted⟩
  · rintro ⟨_, stores⟩
    rw [state] at stores
    cases stores with
    | room _ lookup opened =>
      rw [found, Option.some.injEq] at lookup
      subst lookup
      have verified : message.verifies world = true := by
        rcases signsFor "1" (by decide) with ⟨_, decoded, verifies⟩
        exact verifies_of_signEvent (signEvent_world [] fields) decoded verifies
      have tried := ((openRoomEvent_encryptEvent faithful rfl verified).mp opened).2
      have second : message.createdAt = 100 := rfl
      rw [second, candidates] at tried
      revert tried
      decide

end Meeting

end Gathering
end Starling.App
