import Starling.Foundation.Table
import Starling.Foundation.Channel
import Starling.Wire.VoiceFrames

namespace Starling.Voice

/-!
# Sessions, calls and slots of the voice server

The records of `session.rs`, `call.rs` and `registry.rs`, and the third-party
operations the event loop calls.  The WebRTC stack `str0m` and the hash function
are not part of the repository.  `Crates` collects the operations the event loop
uses of them, over carrier types that stay arbitrary: a fact proved for every
`Crates` holds whatever these libraries answer.
-/

abbrev Instant := Nat

/-- A server-internal session id.  The source counts sessions with a `u64`. -/
abbrev Sid := Nat

/-- `([u8; 32], [u8; 32])`: the owner and the token hash of a call. -/
abbrev CallKey := Bytes32 × Bytes32

/-- `std::net::SocketAddr` in its text form. -/
abbrev SocketAddr := String

/-- What an `Rtc` is fed with. -/
inductive RtcInput (Contents : Type) where
  | timeout (now : Instant)
  | receive (now : Instant) (source destination : SocketAddr) (contents : Contents)

/-- What polling an `Rtc` yields. -/
inductive RtcOutput (Packet : Type) where
  | timeout (next : Instant)
  | transmit
  | rtpPacket (packet : Packet)
  | disconnected
  | otherEvent

/-- The operations of `str0m` and `blake2` that the event loop calls.  Each
fallible one returns the changed `Rtc` together with its verdict. -/
structure Crates where
  Rtc : Type
  SdpApi : Type
  SdpOffer : Type
  SdpAnswer : Type
  SdpPendingOffer : Type
  Candidate : Type
  Contents : Type
  RtpPacket : Type
  blake2b256 : Bytes -> Bytes32
  build : Instant -> Rtc
  addLocalCandidate : Rtc -> String -> Rtc
  parseDatagram : Bytes -> Option Contents
  accepts : Rtc -> RtcInput Contents -> Bool
  handleInput : Rtc -> RtcInput Contents -> Rtc × Bool
  pollOutput : Rtc -> Rtc × Option (RtcOutput RtpPacket)
  isAlive : Rtc -> Bool
  parseOffer : String -> Option SdpOffer
  acceptOffer : Rtc -> SdpOffer -> Rtc × Option String
  opusPt : Rtc -> Option Nat
  parseAnswer : String -> Option SdpAnswer
  acceptAnswer : Rtc -> SdpPendingOffer -> SdpAnswer -> Rtc × Bool
  parseCandidate : String -> Option Candidate
  addRemoteCandidate : Rtc -> Candidate -> Rtc
  sdpApi : Rtc -> SdpApi
  addMedia : SdpApi -> SdpApi × String
  apply : SdpApi -> Rtc × Option (String × SdpPendingOffer)
  streamTxByMid : Rtc -> String -> Option UInt32
  declareStreamTx : Rtc -> UInt32 -> String -> Rtc
  streamTx : Rtc -> UInt32 -> Bool
  writeRtp : Rtc -> UInt32 -> Nat -> RtpPacket -> Instant -> Rtc

/-- The roster and the idle-reap clock of one call. -/
structure Call where
  cap : Nat
  participants : List Sid
  emptySince : Option Instant

namespace Call

def new (cap : Nat) (now : Instant) : Call where
  cap := cap
  participants := []
  emptySince := some now

def isLive (call : Call) : Bool := !call.participants.isEmpty

theorem isLive_iff {call : Call} : call.isLive = true ↔ call.participants ≠ [] := by
  rw [isLive, Bool.not_eq_true', List.isEmpty_eq_false_iff]

/-- Take one session off the roster, starting the reap clock when it empties. -/
def remove (call : Call) (sid : Sid) (now : Instant) : Call where
  cap := call.cap
  participants := call.participants.filter (fun member => member ≠ sid)
  emptySince :=
    if (call.participants.filter (fun member => member ≠ sid)).isEmpty then some now
    else call.emptySince

def join (call : Call) (sid : Sid) : Call where
  cap := call.cap
  participants := call.participants ++ [sid]
  emptySince := none

end Call

structure SlotInfo where
  maxParticipants : Option Nat

/-- `slot.max_participants.unwrap_or(relay_max).min(relay_max).max(2)`. -/
def SlotInfo.cap (slot : SlotInfo) (relayMax : Nat) : Nat := max (min (slot.maxParticipants.getD relayMax) relayMax) 2

abbrev SlotRegistry := Table CallKey SlotInfo

namespace SlotRegistry

section

variable (registry : SlotRegistry) (owner : Bytes32)

section

variable (entries : List VoiceSlotEntry)

/-- Insert the pushed entries in order.  A hash of another length is skipped. -/
def insertAll :
    SlotRegistry :=
  entries.foldl (fun slots entry =>
    match Bytes32.ofBytes entry.tokenHash with
    | none => slots
    | some hash => slots.insert (owner, hash) ⟨entry.maxParticipants⟩) registry

def dropOwner : SlotRegistry := registry.retain (fun key _ => key.1 ≠ owner)

/-- The phone always pushes its complete set, so the old one goes first. -/
def replaceSet :
    SlotRegistry :=
  SlotRegistry.insertAll (SlotRegistry.dropOwner registry owner) owner entries

theorem lookup_dropOwner (key) : (dropOwner registry owner).lookup key =
      if key.1 = owner then none else registry.lookup key := by
  rw [dropOwner, Table.lookup_retain]
  by_cases same : key.1 = owner
  · simp only [same, ne_eq, not_true_eq_false, decide_false, if_true]
    cases registry.lookup key <;> rfl
  · simp only [same, ne_eq, not_false_eq_true, decide_true, if_false]
    cases registry.lookup key <;> rfl

theorem lookup_insertAll_of_ne {key} (other : key.1 ≠ owner) :
    (insertAll registry owner entries).lookup key = registry.lookup key := by
  induction entries generalizing registry with
  | nil => rfl
  | cons entry rest ih =>
    rw [insertAll, List.foldl_cons]
    cases parsed : Bytes32.ofBytes entry.tokenHash with
    | none => exact ih registry
    | some hash =>
      have step := ih (registry.insert (owner, hash) ⟨entry.maxParticipants⟩)
      rw [insertAll] at step
      rw [step, Table.lookup_insert_eq, if_neg]
      intro same
      exact other (congrArg Prod.fst same)

end

end

end SlotRegistry

inductive SessionState where
  | awaitingJoin
  | awaitingOffer
  | steady
deriving DecidableEq

/-- One downstream m-line, carrying another participant's audio.  It is declared
once the client has answered the re-offer that created it. -/
structure TxSlot where
  mid : String
  ssrc : UInt32
  declared : Bool

structure Session (C : Crates) where
  owner : Bytes32
  sfuId : String
  callKey : Option CallKey
  state : SessionState
  rtc : Option C.Rtc
  toClient : Channel ServerFrame
  nextTimeout : Option Instant
  txSlots : Table Sid TxSlot
  queuedSources : List (Sid × String)
  pendingOffer : Option C.SdpPendingOffer
  nextSsrc : UInt32
  opusPt : Option Nat

/-- One m-line added to a re-offer: the source, its public id and the mid. -/
structure AddedMedia where
  source : Sid
  sfuId : String
  mid : String

namespace Session

variable {C : Crates}

/-- `0x5354_0000`, the private base of the session-local SSRC allocator. -/
def ssrcBase : UInt32 := 0x53540000

def new (owner : Bytes32) (toClient : Channel ServerFrame) : Session C where
  owner := owner
  sfuId := ""
  callKey := none
  state := .awaitingJoin
  rtc := none
  toClient := toClient
  nextTimeout := none
  txSlots := ∅
  queuedSources := []
  pendingOffer := none
  nextSsrc := ssrcBase
  opusPt := none

def openSlot (session : Session C) (added : AddedMedia) : Session C :=
  { session with
    nextSsrc := session.nextSsrc + 1
    txSlots := session.txSlots.insert added.source ⟨added.mid, session.nextSsrc + 1, false⟩ }

/-- What the departure of `sid` does to another participant of its call. -/
def forget (session : Session C) (sid : Sid) (sfuId : String) : Session C :=
  { session with
    txSlots := session.txSlots.erase sid
    queuedSources := session.queuedSources.filter (fun source => source.1 ≠ sid)
    toClient := (session.toClient.trySend (.peerLeft sfuId)).1 }

def sources (session : Session C) : List Sid := session.txSlots.keys ++ session.queuedSources.map Prod.fst

end Session

end Starling.Voice
