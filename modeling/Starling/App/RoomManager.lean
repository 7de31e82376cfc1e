import Starling.App.Handshake
import Starling.Foundation.Jobs
import Starling.Foundation.Run

namespace Starling.App

open List Option Table

/-!
# Who rings, who joins and who ends a call

An envelope names a sender, and so does the message in it.  The first name chooses the key,
and the handlers of the room manager go by the second.  They also look at the state, wait,
and then act on the state they find.
-/

/-- The handlers of the `other` types neither ring nor end a call. -/
inductive SignalingType where
  | roomInvite
  | roomAccept
  | roomLeave
  | roomClose
  | libp2pConnect
  | other
  deriving DecidableEq

structure SignalingMessage where
  type : SignalingType
  roomId : String
  senderPubkey : Pubkey
  timestamp : Int
  creator : Option Pubkey
  roster : List Pubkey
  sessionKey : Option String
  retry : Bool

/-- The payload is encrypted by `sealer` under the key of the pair `sealer` and `reader`;
`inner` is `none` if the plaintext is malformed. -/
structure SignalingEnvelope where
  senderPubkey : Pubkey
  recipientPubkey : Pubkey
  sealer : Bytes
  reader : Bytes
  inner : Option SignalingMessage

structure LocalPeer where
  pubkey : Pubkey
  key : Bytes
  isMutualFollow : Pubkey -> Bool

namespace SignalingEnvelope

/-- The key is the same from both sides, so what we sealed ourselves opens too. -/
def decrypt (envelope : SignalingEnvelope) (mine theirs : Bytes) : Option SignalingMessage :=
  if (envelope.sealer = theirs ∧ envelope.reader = mine) ∨
      (envelope.sealer = mine ∧ envelope.reader = theirs) then envelope.inner
  else none

def unwrapSignalingMessage (me : LocalPeer) (now : Int) (envelope : SignalingEnvelope) : Option SignalingMessage :=
  if envelope.recipientPubkey ≠ me.pubkey then none
  else
    (crockfordBase32Decode envelope.senderPubkey).bind (fun theirs =>
      (envelope.decrypt me.key theirs).filter (fun inner => (now - inner.timestamp).natAbs ≤ 30))

def namesSender (envelope : SignalingEnvelope) : Bool :=
  envelope.inner.all (fun inner =>
    crockfordBase32Decode inner.senderPubkey = crockfordBase32Decode envelope.senderPubkey)

def oursNamesUs (me : LocalPeer) (envelope : SignalingEnvelope) : Bool :=
  envelope.sealer != me.key || envelope.inner.all (fun inner => inner.senderPubkey = me.pubkey)

variable {me : LocalPeer} {now : Int} {envelope : SignalingEnvelope} {inner : SignalingMessage}

theorem unwrap_eq_some (opened : unwrapSignalingMessage me now envelope = some inner) :
    envelope.inner = some inner ∧ (envelope.sealer = me.key ∨
      crockfordBase32Decode envelope.senderPubkey = some envelope.sealer) := by
  simp only [unwrapSignalingMessage, decrypt, ite_none_left_eq_some, bind_eq_some_iff,
    filter_eq_some_iff, ite_none_right_eq_some] at opened
  rcases opened with ⟨_, _, decoded, ⟨pair, plain⟩, _⟩
  refine ⟨plain, ?_⟩
  rcases pair with ⟨sealed, _⟩ | ⟨sealed, _⟩
  · exact .inr (decoded.trans (congrArg some sealed.symm))
  · exact .inl sealed

theorem sender_sealed (own : crockfordBase32Decode me.pubkey = some me.key)
    (ours : envelope.oursNamesUs me = true) (names : envelope.namesSender = true)
    (opened : unwrapSignalingMessage me now envelope = some inner) :
    crockfordBase32Decode inner.senderPubkey = some envelope.sealer := by
  rcases unwrap_eq_some opened with ⟨plain, sealed | sealed⟩
  · simp only [oursNamesUs, plain, sealed, bne_self_eq_false, Bool.false_or, all_some,
      decide_eq_true_eq] at ours
    rw [ours, own, sealed]
  · simp only [namesSender, plain, all_some, decide_eq_true_eq] at names
    rw [names, sealed]

end SignalingEnvelope

structure VoiceRoom where
  id : String
  creatorPubkey : Pubkey
  invitedRoster : List Pubkey
  sessionKey : Option String

/-- No handler reads the key that sealed an invite. -/
structure PendingInvite where
  room : VoiceRoom
  sealer : Bytes

/-- What waits: an invite for the follow check and the display name, a call for its set-up, a
retried accept and the end of a call for the voice engine.  A peer stands next to the key that
sealed the peer's message. -/
inductive RoomTask where
  | ring (invite : PendingInvite)
  | setUp (room : VoiceRoom)
  | join (peer : Pubkey × Bytes)
  | ending (closer : Option (Pubkey × Bytes))

def RoomTask.claim : RoomTask -> Option (Pubkey × Bytes)
  | .join peer => some peer
  | .ending closer => closer
  | _ => none

inductive RoomEffect where
  | see (key : SignalingType × String × Pubkey × Int)
  | start (task : RoomTask)
  | retire (roomId : String)
  | presence (present : List Pubkey) (peer : Option (Pubkey × Bytes))

def RoomEffect.claim : RoomEffect -> Option (Pubkey × Bytes)
  | .start task => task.claim
  | .presence _ peer => peer
  | _ => none

/-- `deeds` lists whose joining, leaving or closing the manager acted on, and who sealed it. -/
structure RoomManager where
  room : Option VoiceRoom
  pendingInvites : Table String PendingInvite
  present : List Pubkey
  seen : List (SignalingType × String × Pubkey × Int)
  tasks : Jobs RoomTask
  deeds : List (Pubkey × Bytes)

/-- `retireInvite` is `declineInvite` or `expireInvite`, and `presence` is everything else that
changes who is present. -/
inductive RoomInput where
  | receive (now : Int) (envelope : SignalingEnvelope)
  | createRoom (room : VoiceRoom)
  | acceptInvite (roomId : String)
  | retireInvite (roomId : String)
  | leaveRoom
  | presence (present : List Pubkey)
  | resume (id : Nat) (ok : Bool)

def RoomInput.oursNamesUs (me : LocalPeer) : RoomInput -> Bool
  | .receive _ envelope => envelope.oursNamesUs me
  | _ => true

namespace RoomManager

def boot : RoomManager := ⟨none, ∅, [], [], .empty, []⟩

section

variable (manager : RoomManager)

section

variable (msg : SignalingMessage)

/-- During a call we are busy, and a second ring for a call changes nothing. -/
def onInvite (peer : Pubkey × Bytes) : List RoomEffect :=
  let creator := msg.creator.getD msg.senderPubkey
  if manager.room.isSome ∨ manager.pendingInvites.entries ≠ [] then []
  else
    [.start (.ring ⟨⟨msg.roomId, creator, creator :: msg.roster, msg.sessionKey⟩, peer.2⟩)]

def onAccept (peer : Pubkey × Bytes) : List RoomEffect :=
  match manager.room with
  | none => []
  | some room =>
    if room.id ≠ msg.roomId ∨ peer.1 ∉ room.invitedRoster ∨
        (room.sessionKey.isSome ∧ msg.sessionKey ≠ room.sessionKey) ∨
        (peer.1 ∉ manager.present ∧ manager.present.length ≥ 4) then []
    else if msg.retry ∧ peer.1 ∈ manager.present then [.start (.join peer)]
    else [.presence (manager.present.insert peer.1) peer]

def onLeave (peer : Pubkey × Bytes) : List RoomEffect :=
  if manager.room.any (fun room => room.id = msg.roomId) then
    [.presence (manager.present.erase peer.1) peer]
  else []

def onClose (peer : Pubkey × Bytes) : List RoomEffect :=
  if (manager.pendingInvites.lookup msg.roomId).any
      (fun invite => invite.room.creatorPubkey = peer.1) then [.retire msg.roomId]
  else if manager.room.any (fun room => room.id = msg.roomId ∧ room.creatorPubkey = peer.1) then
    [.start (.ending (some peer))]
  else []

def onSignal (peer : Pubkey × Bytes) : List RoomEffect :=
  match msg.type with
  | .roomInvite => manager.onInvite msg peer
  | .roomAccept => manager.onAccept msg peer
  | .roomLeave => manager.onLeave msg peer
  | .roomClose => manager.onClose msg peer
  | _ => []

/-- `_emit`: a message is handled once, as long as it is among the last 512. -/
def emit (peer : Pubkey × Bytes) : List RoomEffect :=
  if msg.type = .libp2pConnect ∨
      (msg.type, msg.roomId, msg.senderPubkey, msg.timestamp) ∈ manager.seen then []
  else .see (msg.type, msg.roomId, msg.senderPubkey, msg.timestamp) :: manager.onSignal msg peer

end

def effects (me : LocalPeer) : RoomInput -> List RoomEffect
  | .receive now envelope =>
    match envelope.unwrapSignalingMessage me now with
    | none => []
    | some msg => manager.emit msg (msg.senderPubkey, envelope.sealer)
  | .createRoom room =>
    if manager.room.isSome then [] else [.start (.setUp { room with creatorPubkey := me.pubkey })]
  | .acceptInvite roomId =>
    match manager.pendingInvites.lookup roomId with
    | none => []
    | some invite =>
      .retire roomId :: if manager.room.isSome then [] else [.start (.setUp invite.room)]
  | .retireInvite roomId => [.retire roomId]
  | .leaveRoom => if manager.room.isSome then [.start (.ending none)] else []
  | .presence present => [.presence present none]
  | .resume _ _ => []

def apply : RoomEffect -> RoomManager
  | .see key =>
    { manager with
      seen := if manager.seen.length < 512 then manager.seen ++ [key] else (manager.seen ++ [key]).tail }
  | .start task => { manager with tasks := manager.tasks.start task }
  | .retire roomId => { manager with pendingInvites := manager.pendingInvites.erase roomId }
  | .presence present peer => { manager with present, deeds := manager.deeds ++ peer.toList }

/-- The creator of the call that ends, with who sealed the `roomClose`. -/
def closedBy (closer : Option (Pubkey × Bytes)) : Option (Pubkey × Bytes) := do
  let closer <- closer
  let room <- manager.room
  some (room.creatorPubkey, closer.2)

/-- The handler goes on.  The end of a call ends whatever call there is by then. -/
def resumed (me : LocalPeer) (ok : Bool) : RoomTask -> RoomManager
  | .ring invite =>
    if me.isMutualFollow invite.room.creatorPubkey then
      { manager with pendingInvites := manager.pendingInvites.insert invite.room.id invite }
    else manager
  | .setUp room =>
    if ok then
      { manager with room := some room, present := [me.pubkey, room.creatorPubkey].dedup }
    else manager
  | .join peer => manager.apply (.presence (manager.present.insert peer.1) peer)
  | .ending closer => { manager with room := none }.apply (.presence [] (manager.closedBy closer))

end

def step (me : LocalPeer) (manager : RoomManager) (input : RoomInput) : Except Empty RoomManager :=
  match input with
  | .resume id ok =>
    match manager.tasks.get id with
    | none => .ok manager
    | some task => .ok ({ manager with tasks := manager.tasks.finish id }.resumed me ok task)
  | _ => .ok ((manager.effects me input).foldl apply manager)

variable {me : LocalPeer} {manager next : RoomManager} {input : RoomInput}

theorem step_cases (stepped : manager.step me input = .ok next) :
    next = (manager.effects me input).foldl apply manager ∨
    ∃ id ok task, input = .resume id ok ∧ manager.tasks.get id = some task ∧
      next = { manager with tasks := manager.tasks.finish id }.resumed me ok task := by
  cases input with
  | resume id ok =>
    cases found : manager.tasks.get id with simp only [step, found] at stepped
    | none =>
      cases stepped
      exact .inl rfl
    | some task =>
      cases stepped
      exact .inr ⟨id, ok, task, rfl, found, rfl⟩
  | _ =>
    cases stepped
    exact .inl rfl

/-- Envelopes name the sender that the message in them names, and an end that a `roomClose` began
finds a call of the peer that closed. -/
def attributes (manager : RoomManager) : RoomInput -> Bool
  | .receive _ envelope => envelope.namesSender
  | .resume id _ =>
    match manager.tasks.get id with
    | some (.ending (some closer)) => manager.room.all (fun room => room.creatorPubkey = closer.1)
    | _ => true
  | _ => true

def Sealed (peer : Pubkey × Bytes) : Prop := crockfordBase32Decode peer.1 = some peer.2

structure Attributed (manager : RoomManager) : Prop where
  waiting : manager.tasks.All (fun _ task => ∀ peer, task.claim = some peer -> Sealed peer)
  done : ∀ peer ∈ manager.deeds, Sealed peer

variable {effect : RoomEffect}

section

variable {msg : SignalingMessage} {peer : Pubkey × Bytes}

theorem onInvite_claim (member : effect ∈ manager.onInvite msg peer) : effect.claim = none := by
  unfold onInvite at member
  split at member
  · cases member
  · cases mem_singleton.mp member
    rfl

theorem onAccept_claim (member : effect ∈ manager.onAccept msg peer) : effect.claim = some peer := by
  unfold onAccept at member
  split at member
  · cases member
  · split at member
    · cases member
    · split at member
      · cases mem_singleton.mp member
        rfl
      · cases mem_singleton.mp member
        rfl

theorem onLeave_claim (member : effect ∈ manager.onLeave msg peer) : effect.claim = some peer := by
  unfold onLeave at member
  split at member
  · cases mem_singleton.mp member
    rfl
  · cases member

theorem onClose_claim (member : effect ∈ manager.onClose msg peer) :
    effect.claim = none ∨ effect.claim = some peer := by
  unfold onClose at member
  split at member
  · cases mem_singleton.mp member
    exact .inl rfl
  · split at member
    · cases mem_singleton.mp member
      exact .inr rfl
    · cases member

theorem emit_claim (member : effect ∈ manager.emit msg peer) : effect.claim = none ∨ effect.claim = some peer := by
  unfold emit at member
  split at member
  · cases member
  · rcases mem_cons.mp member with rfl | handled
    · exact .inl rfl
    · unfold onSignal at handled
      split at handled
      · exact .inl (onInvite_claim handled)
      · exact .inr (onAccept_claim handled)
      · exact .inr (onLeave_claim handled)
      · exact onClose_claim handled
      · cases handled

end

theorem effects_claim (own : crockfordBase32Decode me.pubkey = some me.key)
    (ours : input.oursNamesUs me = true) (allowed : manager.attributes input = true)
    (member : effect ∈ manager.effects me input) {peer}
    (claimed : effect.claim = some peer) : Sealed peer := by
  cases input with simp only [effects] at member
  | receive =>
    split at member
    · cases member
    next opened =>
      rcases emit_claim member with nobody | sender
      · cases nobody.symm.trans claimed
      · cases sender.symm.trans claimed
        exact SignalingEnvelope.sender_sealed own ours allowed opened
  | createRoom =>
    split at member
    · cases member
    · cases mem_singleton.mp member
      cases claimed
  | acceptInvite =>
    split at member
    · cases member
    · rcases mem_cons.mp member with rfl | later
      · cases claimed
      · split at later
        · cases later
        · cases mem_singleton.mp later
          cases claimed
  | retireInvite | presence =>
    cases mem_singleton.mp member
    cases claimed
  | leaveRoom =>
    split at member
    · cases mem_singleton.mp member
      cases claimed
    · cases member
  | resume => cases member

namespace Attributed

theorem apply (kept : Attributed manager) (effect)
    (fair : ∀ peer, effect.claim = some peer -> Sealed peer) : Attributed (manager.apply effect) := by
  cases effect with
  | start => exact ⟨kept.waiting.start fair, kept.done⟩
  | presence =>
    refine ⟨kept.waiting, forall_mem_append.mpr ⟨kept.done, ?_⟩⟩
    exact fun other new => fair other (mem_toList.mp new)
  | _ => exact ⟨kept.waiting, kept.done⟩

theorem resumed (kept : Attributed manager) {id task} (ok)
    (found : manager.tasks.get id = some task) (allowed : manager.attributes (.resume id ok) = true) :
    Attributed ({ manager with tasks := manager.tasks.finish id }.resumed me ok task) := by
  have fair := kept.waiting id task found
  have finished : Attributed { manager with tasks := manager.tasks.finish id } :=
    ⟨kept.waiting.finish id, kept.done⟩
  cases task with
  | join =>
    rw [RoomManager.resumed]
    exact finished.apply _ fair
  | ending closer =>
    have ended : Attributed { manager with room := none, tasks := manager.tasks.finish id } :=
      ⟨finished.waiting, finished.done⟩
    rw [RoomManager.resumed]
    apply ended.apply
    intro peer claimed
    simp only [RoomEffect.claim, closedBy, bind_eq_bind, bind_eq_some_iff] at claimed
    rcases claimed with ⟨closer, rfl, _, active, ⟨⟩⟩
    simp only [attributes, found, active, all_some, decide_eq_true_eq] at allowed
    rw [allowed]
    exact fair closer rfl
  | _ =>
    simp only [RoomManager.resumed]
    split <;> exact ⟨finished.waiting, finished.done⟩

end Attributed

/-- The sender that a message names has sealed it, if we did not, exactly where the two names agree; and if
they always do, then whoever the manager lets join, leave or end a call has sealed the message that asked for it. -/
theorem signals_attributed (me : LocalPeer) (own : crockfordBase32Decode me.pubkey = some me.key) :
    (∀ now (envelope : SignalingEnvelope) msg, envelope.sealer ≠ me.key ->
      envelope.unwrapSignalingMessage me now = some msg ->
      (crockfordBase32Decode msg.senderPubkey = some envelope.sealer ↔ envelope.namesSender = true)) ∧
    ∀ inputs final, Along (step me) (fun _ input => input.oursNamesUs me = true) boot inputs ->
      Along (step me) (fun manager input => manager.attributes input = true) boot inputs ->
      run (step me) boot inputs = .ok final ->
      ∀ peer ∈ final.deeds, crockfordBase32Decode peer.1 = some peer.2 := by
  constructor
  · intro now envelope msg others opened
    rcases SignalingEnvelope.unwrap_eq_some opened with ⟨plain, sealed⟩
    rw [SignalingEnvelope.namesSender, plain, all_some, decide_eq_true_eq, sealed.resolve_left others]
  · intro inputs final ours names reached
    refine (run_invariant ?_ ⟨Jobs.Idle.all (fun _ => rfl), by simp [boot]⟩ (ours.and names) reached :
      Attributed final).done
    rintro _ _ _ kept ⟨ours, allowed⟩ stepped
    rcases step_cases stepped with rfl | ⟨_, ok, _, rfl, found, rfl⟩
    · exact List.foldlRecOn _ _ kept (fun _ kept effect member =>
        kept.apply effect (fun _ => effects_claim own ours allowed member))
    · exact kept.resumed ok found allowed

def examplePeer : LocalPeer := ⟨"00", [0], fun pubkey => pubkey == "04"⟩

/-- A message for the call `"call"`, in an envelope with the name and under the key of a sender. -/
def signal (type : SignalingType) (name inner : Pubkey) (sealer : Bytes) : RoomInput :=
  .receive 0 ⟨name, "00", sealer, [0], some ⟨type, "call", inner, 0, none, [], none, false⟩⟩

/-- We take a call of `"04"`, and a `roomClose` in the name of `"04"` ends it. -/
def closedCall (name : Pubkey) (sealer : Bytes) : List RoomInput :=
  [signal .roomInvite "04" "04" [1], .resume 0 true, .acceptInvite "call", .resume 1 true,
    signal .roomClose name "04" sealer, .resume 2 true]

theorem signals_attributed_closedCall :
    ("04", [1]) ∈ (finalState (step examplePeer) boot (closedCall "04" [1])).deeds ∧
    ∀ peer, peer ∈ (finalState (step examplePeer) boot (closedCall "04" [1])).deeds ->
      crockfordBase32Decode peer.1 = some peer.2 := by
  have checks : crockfordBase32Decode examplePeer.pubkey = some examplePeer.key ∧
      checkAlong (step examplePeer) (fun _ input => input.oursNamesUs examplePeer) boot (closedCall "04" [1]) = true ∧
      checkAlong (step examplePeer) attributes boot (closedCall "04" [1]) = true ∧
      (run (step examplePeer) boot (closedCall "04" [1])).toBool = true := by
    decide +kernel
  refine ⟨by decide +kernel, ?_⟩
  exact (signals_attributed examplePeer checks.1).2 _ _ (Along.checked checks.2.1)
    (Along.checked checks.2.2.1) (run_finalState checks.2.2.2)

/-- The key of `"08"` closes the call of `"04"`. -/
theorem call_closed_by_another : crockfordBase32Decode "04" = some [1] ∧
    (finalState (step examplePeer) boot (closedCall "08" [2])).deeds = [("04", [2])] ∧
    (finalState (step examplePeer) boot (closedCall "08" [2])).room.isNone = true := by
  decide +kernel

/-! ## One ring at a time -/

/-- A ring is for a call of the peer whose key sealed the invite, it starts where nothing rings and there
is no call, and a call is set up where nothing rings. -/
def calm (manager : RoomManager) : RoomInput -> Bool
  | .resume id _ =>
    match manager.tasks.get id with
    | some (.ring invite) =>
      decide (crockfordBase32Decode invite.room.creatorPubkey = some invite.sealer ∧
        manager.pendingInvites.entries = []) && manager.room.isNone
    | some (.setUp _) => decide (manager.pendingInvites.entries = [])
    | _ => true
  | _ => true

/-- What rings was sealed by a mutual follow whom we see as the creator; one call rings at most, and
none does during a call. -/
structure Rings (me : LocalPeer) (manager : RoomManager) : Prop where
  shown : ∀ id invite, manager.pendingInvites.lookup id = some invite ->
    me.isMutualFollow invite.room.creatorPubkey = true ∧
      crockfordBase32Decode invite.room.creatorPubkey = some invite.sealer
  single : manager.pendingInvites.entries.length ≤ 1
  silent : manager.room.isSome = true -> manager.pendingInvites.entries = []

namespace Rings

theorem apply (kept : Rings me manager) (effect) : Rings me (manager.apply effect) := by
  cases effect with
  | retire roomId =>
    have fewer := kerase_sublist roomId manager.pendingInvites.entries
    refine ⟨?_, fewer.length_le.trans kept.single, ?_⟩
    · intro id invite found
      simp only [RoomManager.apply, lookup_erase_eq, ite_none_left_eq_some] at found
      exact kept.shown id invite found.2
    · intro active
      exact sublist_nil.mp (kept.silent active ▸ fewer)
  | _ => exact ⟨kept.shown, kept.single, kept.silent⟩

theorem resumed (kept : Rings me manager) {id task} (ok)
    (found : manager.tasks.get id = some task) (allowed : manager.calm (.resume id ok) = true) :
    Rings me ({ manager with tasks := manager.tasks.finish id }.resumed me ok task) := by
  have finished : Rings me { manager with tasks := manager.tasks.finish id } :=
    ⟨kept.shown, kept.single, kept.silent⟩
  cases task with
  | ring =>
    simp only [calm, found, Bool.and_eq_true, decide_eq_true_eq, isNone_iff_eq_none] at allowed
    rcases allowed with ⟨⟨own, empty⟩, free⟩
    rw [RoomManager.resumed]
    split
    next friend =>
      refine ⟨?_, ?_, ?_⟩
      · exact of_lookup_insert kept.shown ⟨friend, own⟩
      · simp [AList.insert, empty]
      · simp [free]
    · exact finished
  | setUp =>
    simp only [calm, found, decide_eq_true_eq] at allowed
    rw [RoomManager.resumed]
    split
    · exact ⟨kept.shown, kept.single, fun _ => allowed⟩
    · exact finished
  | join =>
    rw [RoomManager.resumed]
    exact finished.apply _
  | ending =>
    have ended : Rings me { manager with room := none, tasks := manager.tasks.finish id } :=
      ⟨kept.shown, kept.single, by simp⟩
    rw [RoomManager.resumed]
    exact ended.apply _

end Rings

/-- If that is so at every ring and every set-up, then what rings is always one call of a mutual
follow who sealed the invite, and nothing rings during a call. -/
theorem rings_one_at_a_time (me : LocalPeer) {inputs : List RoomInput} {final : RoomManager}
    (calmly : Along (step me) (fun manager input => manager.calm input = true) boot inputs)
    (reached : run (step me) boot inputs = .ok final) : Rings me final := by
  refine run_invariant ?_ ⟨by simp [boot], by simp [boot], by simp [boot]⟩ calmly reached
  intro manager input next kept allowed stepped
  rcases step_cases stepped with rfl | ⟨_, ok, _, rfl, found, rfl⟩
  · exact List.foldlRecOn _ _ kept (fun _ kept effect _ => kept.apply effect)
  · exact kept.resumed ok found allowed

theorem rings_one_at_a_time_closedCall :
    let ringing := finalState (step examplePeer) boot ((closedCall "04" [1]).take 2)
    ringing.pendingInvites.keys = ["call"] ∧ Rings examplePeer ringing := by
  have checks : checkAlong (step examplePeer) calm boot ((closedCall "04" [1]).take 2) = true ∧
      (run (step examplePeer) boot ((closedCall "04" [1]).take 2)).toBool = true := by
    decide +kernel
  refine ⟨by decide +kernel, ?_⟩
  exact rings_one_at_a_time examplePeer (Along.checked checks.1) (run_finalState checks.2)

/-- Two invites are checked side by side and both ring, and a stranger's invite rings in the name of
a friend. -/
theorem two_calls_ring : (finalState (step examplePeer) boot [signal .roomInvite "04" "04" [1],
      .receive 0 ⟨"08", "00", [2], [0], some ⟨.roomInvite, "other", "08", 0, some "04", [], none, false⟩⟩,
      .resume 0 true, .resume 1 true]).pendingInvites.entries.map
        (fun entry => (entry.2.room.creatorPubkey, entry.2.sealer)) = [("04", [2]), ("04", [1])] := by
  decide +kernel

end RoomManager

end Starling.App
