import Starling.Foundation.Jobs
import Starling.Foundation.Run
import Starling.Http.OwnerAuth
import Starling.Storage.Database

namespace Starling

/-!
# Pairing and unpairing

Tokens are minted by the admin page and the command line, claimed by `POST /pair`,
and spent before the supervisor launches an Owner.  Owners are removed by the admin
page, or by `POST /unpair`, which only queues the key: a dispatcher takes it from the
queue, waits and then runs the removal.  The supervisor's pair lock keeps launches and
removals apart, but the token step of a claim runs before the lock is taken.

Each request is cut at the points where another task may get in between.  `minted`,
`spent` and `inserted` record what happened; no request reads them.
-/

open Storage

structure PairingClaimWire where
  ownerPubkey : Bytes
  pairingToken : Bytes
  sig : Bytes

/-- What the admin server and the supervisor are given.  `parseClaim` reads the CBOR of
a pairing claim. -/
structure RelaySite where
  K : Wire.Crypto
  parseClaim : Bytes -> Option PairingClaimWire
  adminOnion : Bytes
  pairingTtlSecs : Int
  portRange : Nat × Nat

/-- Where a `pair_post` request stands. -/
inductive PairPhase where
  | received
  | unpaired
  | found (pending : PendingPairing)
  | timely (pending : PendingPairing) (now : Int)
  /-- `TokenOutcome::Proceed`: `pair_owner` waits for the pair lock. -/
  | proceed (label : Option String)
  | relaunching (existing : PairedOwner)
  | launching (label : Option String) (port : Nat)
  | launched (label : Option String) (port : Nat) (onion : String)
  deriving DecidableEq

/-- The phases inside `pair_owner`, which hold the pair lock. -/
def PairPhase.locked : PairPhase -> Bool
  | .relaunching _ => true
  | .launching _ _ => true
  | .launched _ _ _ => true
  | _ => false

/-- Where an `unpair_owner` run stands. -/
inductive UnpairPhase where
  | grace
  | waiting
  | stopped
  deriving DecidableEq

def UnpairPhase.locked : UnpairPhase -> Bool
  | .stopped => true
  | _ => false

inductive RelayJob where
  | mint (token : Bytes) (label : Option String) (createdBy : String) (now : Int)
  | pair (owner : Bytes32) (token : Bytes) (phase : PairPhase)
  | unpair (owner : Bytes32) (phase : UnpairPhase)
  deriving DecidableEq

def RelayJob.locked : RelayJob -> Bool
  | .mint _ _ _ _ => false
  | .pair _ _ phase => phase.locked
  | .unpair _ phase => phase.locked

inductive RelayAnswer where
  | text (code : Nat) (message : String)
  /-- `200` to a claim, with the Owner's onion. -/
  | paired (onion : String)
  | minted (token : Bytes) (expiresAt : Int)
  deriving DecidableEq

structure OwnerTask where
  onion : String

structure Relay where
  db : Database
  owners : Table Bytes32 OwnerTask
  clock : Int
  pairLock : Option Nat
  unpairQueue : List Bytes32
  dispatcher : Option Nat
  jobs : Jobs RelayJob
  answers : List (Nat × RelayAnswer)
  minted : List (Bytes × Int)
  spent : List (Nat × Bytes)
  inserted : List (Nat × Bytes32)

inductive RelayFault where
  | fine
  | failed
  | noConnection
  deriving DecidableEq

namespace Relay

section

variable (relay : Relay) (id : Nat)

def refuse (answer : RelayAnswer) : Relay :=
  { relay with
    jobs := relay.jobs.skip
    answers := relay.answers ++ [(relay.jobs.next, answer)] }

def close (answer : RelayAnswer) : Relay :=
  { relay with
    jobs := relay.jobs.finish id
    answers := relay.answers ++ [(id, answer)] }

def setJob (job : RelayJob) : Relay :=
  { relay with jobs := relay.jobs.update id job }

def start (job : RelayJob) : Relay := { relay with jobs := relay.jobs.start job }

def lock : Relay := { relay with pairLock := some id }

def unlock : Relay := { relay with pairLock := none }

def withRows (db : Database) : Relay := { relay with db := db }

section

variable (owner : Bytes32)

/-- The end of `launch_owner`. -/
def serve (onion : String) : Relay :=
  { relay with owners := relay.owners.insert owner ⟨onion⟩ }

def stopOwner : Relay :=
  { relay with owners := relay.owners.erase owner }

def recordMinted (token : Bytes) (expiresAt : Int) : Relay :=
  { relay with minted := relay.minted ++ [(token, expiresAt)] }

def recordSpent (token : Bytes) : Relay :=
  { relay with spent := relay.spent ++ [(id, token)] }

def recordInserted : Relay :=
  { relay with inserted := relay.inserted ++ [(id, owner)] }

/-- `unpair_tx.send`. -/
def enqueueUnpair : Relay :=
  { relay with unpairQueue := relay.unpairQueue ++ [owner] }

def internalError : RelayAnswer := .text 500 "internal error"

def launchError : RelayAnswer := .text 504 "could not launch onion"

/-! ## mint_pairing_token -/

/-- The transaction of a mint.  An error of the prune is ignored; `prunes` is false
when there was one. -/
def mintRows (site : RelaySite) (prunes : Bool) (db : Database) (token : Bytes)
    (label : Option String) (createdBy : String) (now : Int) : Option Database :=
  let pruned := if prunes then Pairings.pruneExpired db now else db
  Pairings.insert (Pairings.consumeAllUnconsumed pruned now) token
    { createdAt := now
      expiresAt := now + site.pairingTtlSecs
      consumedAt := none
      createdBy := createdBy
      label := label }

def advanceMint (site : RelaySite) (relay : Relay) (id : Nat) (fault : RelayFault) (prunes : Bool)
    (token : Bytes) (label : Option String) (createdBy : String) (now : Int) : Relay :=
  if fault ≠ .fine then relay.close id internalError
  else
    match mintRows site prunes relay.db token label createdBy now with
    | none => relay.close id internalError
    | some db =>
      ((relay.withRows db).recordMinted token (now + site.pairingTtlSecs)).close id
        (.minted token (now + site.pairingTtlSecs))

/-! ## pair_post -/

def receivePair (site : RelaySite) (relay : Relay) (body : Bytes) : Relay :=
  match site.parseClaim body with
  | none => relay.refuse (.text 400 "malformed claim cbor")
  | some claim =>
    match Base64.decode claim.ownerPubkey with
    | none => relay.refuse (.text 400 "bad owner_pubkey base64")
    | some bytes =>
      match Bytes32.ofBytes bytes with
      | none => relay.refuse (.text 400 "owner_pubkey not 32 bytes")
      | some pubkey =>
        let digest := Wire.computePairClaim site.K pubkey site.adminOnion claim.pairingToken
        if Wire.verifyEd25519 site.K pubkey.val digest.val claim.sig then
          relay.start (.pair pubkey claim.pairingToken .received)
        else relay.refuse (.text 401 "invalid signature")

def spend (token : Bytes) (pending : PendingPairing) (now : Int) : Relay :=
  let (db, count) := Pairings.markConsumed relay.db token now
  if count = 1 then
    ((relay.withRows db).recordSpent id token).setJob id (.pair owner token (.proceed pending.label))
  else relay.close id (.text 409 "token already used")

/-- `pair_owner` with the pair lock just taken: the row is there, or a port is
chosen. -/
def pairOwner (site : RelaySite) (relay : Relay) (id : Nat) (owner : Bytes32) (token : Bytes)
    (label : Option String) : Relay :=
  match Owners.get relay.db owner with
  | some existing =>
    if owner ∈ relay.owners then relay.close id (.paired existing.relayOnionAddress)
    else (relay.lock id).setJob id (.pair owner token (.relaunching existing))
  | none =>
    match Owners.lowestFreePort site.portRange.1 site.portRange.2 (Owners.usedPorts relay.db) with
    | none => relay.close id launchError
    | some port => (relay.lock id).setJob id (.pair owner token (.launching label port))

/-- The end of `pair_owner`.  Without a connection it returns before it can stop the
task again. -/
def persist (fault : RelayFault) (owner : Bytes32) (label : Option String) (port : Nat) (onion : String) : Relay :=
  match fault with
  | .noConnection => (relay.close id launchError).unlock
  | .failed => ((relay.stopOwner owner).close id launchError).unlock
  | .fine =>
    match Owners.insert relay.db owner ⟨label, relay.clock, onion, port, none⟩ with
    | none => ((relay.stopOwner owner).close id launchError).unlock
    | some db => (((relay.withRows db).recordInserted id owner).close id (.paired onion)).unlock

def advancePair (site : RelaySite) (relay : Relay) (id : Nat) (fault : RelayFault) (address : String)
    (owner : Bytes32) (token : Bytes) : PairPhase -> Relay
  | .received =>
    if fault ≠ .fine then relay.close id internalError
    else
      match Owners.get relay.db owner with
      | some _ => relay.setJob id (.pair owner token (.proceed none))
      | none => relay.setJob id (.pair owner token .unpaired)
  | .unpaired =>
    if fault ≠ .fine then relay.close id internalError
    else
      match Pairings.get relay.db token with
      | none => relay.close id (.text 401 "unknown token")
      | some pending => relay.setJob id (.pair owner token (.found pending))
  | .found pending =>
    if pending.expiresAt < relay.clock then relay.close id (.text 410 "token expired")
    else relay.setJob id (.pair owner token (.timely pending relay.clock))
  | .timely pending now =>
    if fault ≠ .fine then relay.close id internalError
    else relay.spend id owner token pending now
  | .proceed label =>
    if relay.pairLock.isSome then relay
    else if fault ≠ .fine then relay.close id launchError
    else relay.pairOwner site id owner token label
  | .relaunching existing =>
    if fault ≠ .fine then (relay.close id launchError).unlock
    else ((relay.serve owner address).close id (.paired existing.relayOnionAddress)).unlock
  | .launching label port =>
    if fault ≠ .fine then (relay.close id launchError).unlock
    else (relay.serve owner address).setJob id (.pair owner token (.launched label port address))
  | .launched label port onion => relay.persist id fault owner label port onion

/-! ## unpair_owner -/

/-- A removal ends.  The dispatcher goes on if it waited for it, and the admin page is
answered otherwise. -/
def finishUnpair (answer : RelayAnswer) : Relay :=
  { relay with
    jobs := relay.jobs.finish id
    pairLock := none
    dispatcher := if relay.dispatcher = some id then none else relay.dispatcher
    answers :=
      if relay.dispatcher = some id then relay.answers else relay.answers ++ [(id, answer)] }

def advanceUnpair (fault : RelayFault) (owner : Bytes32) : UnpairPhase -> Relay
  | .grace => relay.setJob id (.unpair owner .waiting)
  | .waiting =>
    if relay.pairLock.isSome then relay
    else ((relay.stopOwner owner).lock id).setJob id (.unpair owner .stopped)
  | .stopped =>
    if fault ≠ .fine then relay.finishUnpair id internalError
    else (relay.withRows (Owners.delete relay.db owner)).finishUnpair id (.text 204 "")

/-- `POST /unpair` at an Owner's router. -/
def receiveUnpair (site : RelaySite) (relay : Relay) (now : Wire.I64) (owner : Bytes32)
    (headers : Http.HeaderMap) (body : Bytes) : Relay :=
  let (answer, triggered) := Http.unpairHandler site.K now true headers body owner
  if triggered then (relay.enqueueUnpair owner).refuse (.text answer.1 answer.2)
  else relay.refuse (.text answer.1 answer.2)

def dequeue (rest : List Bytes32) : Relay :=
  { relay with
    jobs := relay.jobs.start (.unpair owner .grace)
    dispatcher := some relay.jobs.next
    unpairQueue := rest }

end

def dispatch : Relay :=
  match relay.dispatcher, relay.unpairQueue with
  | none, owner :: rest => relay.dequeue owner rest
  | _, _ => relay

end

end Relay

/-! ## Interleavings -/

inductive RelayInput where
  | mint (token : Bytes) (label : Option String) (createdBy : String)
  | pair (body : Bytes)
  | unpair (now : Wire.I64) (owner : Bytes32) (headers : Http.HeaderMap) (body : Bytes)
  | adminUnpair (owner : Bytes32)
  | dispatch
  | storeEvent (owner : Bytes32) (id : String) (payload : Bytes)
  | tick (seconds : Nat)
  /-- A request in progress does its next piece of work.  `prunes` and `address` are
  the outcomes of a prune and of a launch. -/
  | advance (id : Nat) (fault : RelayFault) (prunes : Bool) (address : String)

namespace Relay

def advance (site : RelaySite) (relay : Relay) (id : Nat) (fault : RelayFault) (prunes : Bool)
    (address : String) : Relay :=
  match relay.jobs.get id with
  | none => relay
  | some (.mint token label createdBy now) =>
    relay.advanceMint site id fault prunes token label createdBy now
  | some (.pair owner token phase) => relay.advancePair site id fault address owner token phase
  | some (.unpair owner phase) => relay.advanceUnpair id fault owner phase

/-- `POST /events` stores an event of a paired Owner. -/
def storeEvent (relay : Relay) (owner : Bytes32) (id : String) (payload : Bytes) : Relay :=
  match Events.insert relay.db owner id payload with
  | none => relay
  | some (db, _) => relay.withRows db

def step (site : RelaySite) (relay : Relay) : RelayInput -> Except Empty Relay
  | .mint token label createdBy => .ok (relay.start (.mint token label createdBy relay.clock))
  | .pair body => .ok (relay.receivePair site body)
  | .unpair now owner headers body => .ok (relay.receiveUnpair site now owner headers body)
  | .adminUnpair owner => .ok (relay.start (.unpair owner .waiting))
  | .dispatch => .ok relay.dispatch
  | .storeEvent owner id payload => .ok (relay.storeEvent owner id payload)
  | .tick seconds => .ok { relay with clock := relay.clock + seconds }
  | .advance id fault prunes address => .ok (relay.advance site id fault prunes address)

/-- A relay that has just come up: no tokens, nothing in progress and an empty
record.  Owners, events and serving tasks are arbitrary. -/
structure Booted (relay : Relay) : Prop where
  noTokens : ∀ token, relay.db.pendingPairings.lookup token = none
  idle : relay.jobs.Idle
  unlocked : relay.pairLock = none
  noneQueued : relay.unpairQueue = []
  resting : relay.dispatcher = none
  noneMinted : relay.minted = []
  noneSpent : relay.spent = []
  noneInserted : relay.inserted = []

end Relay

end Starling
