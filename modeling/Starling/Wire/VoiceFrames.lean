import Starling.Wire.Bytes

namespace Starling.Voice

/-!
# Signaling frames of the voice socket

`starling-wire/src/voice.rs`.  The frames are CBOR maps on the wire; only their
decoded form matters to the event loop.  No public key travels in any of them.
-/

/-- `error.code`: the presented token preimage hashed to no registered slot. -/
def errBadToken : String := "bad_token"

/-- `error.code`: the relay is at `max_concurrent_calls`. -/
def errBusy : String := "busy"

/-- `error.code`: the frame violates the protocol. -/
def errProtocol : String := "protocol"

/-- `error.code`: a relay-side failure unrelated to the client's input. -/
def errInternal : String := "internal"

inductive ClientFrame where
  | join (token : Bytes)
  | offer (sdp : String)
  | answer (sdp : String)
  | ice (candidate : String)
  | bye

inductive ServerFrame where
  | joinAck (sfuId : String) (candidates : List String) (cap : Nat) (participants : List String)
  | offer (sdp : String)
  | answer (sdp : String)
  | ice (candidate : String)
  | peerJoined (sfuId : String) (mid : String)
  | peerLeft (sfuId : String)
  | full
  | bye
  | error (code : String) (message : String)

/-- One blinded room slot of a `POST /voice/rooms` push. -/
structure VoiceSlotEntry where
  tokenHash : Bytes
  maxParticipants : Option Nat

end Starling.Voice
