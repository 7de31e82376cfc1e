import Starling.Foundation.Sql
import Starling.Foundation.Table
import Starling.Wire.Bytes

namespace Starling.App

/-!
# Rows of the phone's database

The identity with its feed key, the people that are followed, the events with the wire
bytes kept for own ones, and the queries that serve them.  Encryption is symbolic: what is sealed under a per-message
key remembers the chain root and the sequence number that the key was derived from, and it
opens under the same ones only.
-/

/-- A public key in Crockford base32. -/
abbrev Pubkey := String

/-- A chain root.  A good one has 32 bytes, but nothing in the app checks that. -/
abbrev FeedKey := Bytes

structure Identity where
  pubkey : Pubkey
  feedKey : FeedKey
  feedKeyEpoch : Nat
  feedKeyValidFrom : Int
  msgSeqCounter : Nat
  recoveryPhrase : Option String
  createdAt : Int

/-- The row that a rotation writes: a new key, used from now on and for nothing yet. -/
abbrev Identity.renewed (identity : Identity) (newKey : FeedKey) (now : Int) : Identity :=
  { identity with feedKey := newKey, feedKeyEpoch := 0, feedKeyValidFrom := now, msgSeqCounter := 0 }

/-- A key that was current during the half-open window from `validFrom` to `validUntil`. -/
structure RetiredFeedKey where
  feedKey : FeedKey
  feedKeyEpoch : Nat
  validFrom : Int
  validUntil : Int

structure Endpoint where
  type : String
  address : String
  deriving DecidableEq

structure ConnectionCard where
  pubkey : Pubkey
  endpoints : List Endpoint
  capabilities : List String
  deriving DecidableEq

/-- A row of `follow_entries`. -/
structure Follow where
  pubkey : Pubkey
  connectionCard : ConnectionCard
  feedKey : FeedKey
  feedKeyEpoch : Int
  lastSyncedAt : Int
  lastFullSyncAt : Int
  lastReceivedRotationAt : Int
  lastReceivedCardAt : Int
  lastDecryptFailureAt : Option Int
  deriving DecidableEq

/-- What `deriveMsgKey` makes a per-message key from. -/
structure Sealing where
  feedKey : FeedKey
  msgSeq : Nat
  deriving DecidableEq

/-- The wire form of an event.  The chain root of `sealing` is not on the wire; it stands
for the key that the payload opens under. -/
structure EncryptedEvent where
  pubkey : Pubkey
  createdAt : Int
  epoch : Nat
  sealing : Sealing
  deriving DecidableEq

/-- `decryptEvent` under a chain root. -/
def EncryptedEvent.opens (encrypted : EncryptedEvent) (chainRoot : FeedKey) : Bool :=
  decide (encrypted.sealing.feedKey = chainRoot)

/-- A row of `event_entries`.  `media` lists the hashes of the media references. -/
structure EventRow where
  id : String
  pubkey : Pubkey
  createdAt : Int
  kind : Nat
  ref : Option String
  media : List String
  encryptedPayload : Option EncryptedEvent
  deriving DecidableEq

/-- `isRoomScoped`. -/
def EventRow.roomScoped (event : EventRow) : Bool := decide (100 ≤ event.kind ∧ event.kind ≤ 103)

def atLeast (since : Option Int) (createdAt : Int) : Bool :=
  match since with
  | none => true
  | some bound => decide (bound ≤ createdAt)

/-- `ORDER BY created_at DESC LIMIT`.  Rows of one second come in the order of the table,
which is arbitrary. -/
def newestFirst (limit : Option Nat) (rows : List EventRow) : List EventRow :=
  let sorted := inOrder (fun event : EventRow => -event.createdAt) rows
  match limit with
  | none => sorted
  | some count => sorted.take count

/-- Own events, and events whose reference is an own event; no chatroom kinds. -/
def servable (rows : List EventRow) (owner : Pubkey) (since : Option Int) : List EventRow :=
  let ownEventIds := (rows.filter (fun event => event.pubkey = owner)).map EventRow.id
  rows.filter (fun event =>
    (decide (event.pubkey = owner) || event.ref.any (fun target => target ∈ ownEventIds)) &&
      !event.roomScoped && atLeast since event.createdAt)

def getOwnAndIncomingRefs (rows : List EventRow) (owner : Pubkey) (since : Option Int)
    (limit : Option Nat) : List EventRow :=
  newestFirst limit (servable rows owner since)

theorem mem_of_mem_newestFirst {limit rows event} (member : event ∈ newestFirst limit rows) : event ∈ rows := by
  cases limit with
  | none => exact mem_inOrder.mp member
  | some => exact mem_inOrder.mp (List.mem_of_mem_take member)

end Starling.App
