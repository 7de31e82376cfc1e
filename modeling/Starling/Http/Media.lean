import Starling.Foundation.Jobs
import Starling.Http.OwnerAuth
import Starling.Storage.Database

namespace Starling.Http

/-!
# Media routes

`routes/media.rs`: reading, pushing and deleting encrypted blobs.  A push takes the
database's write lock, writes its body beside the final path, renames it into place
and records it, all in one transaction.  A delete removes the rows in one transaction
and unlinks the files one by one after the commit.  The handlers of several requests
run at the same time, so each one is cut at the points where another may get in
between.
-/

open Storage List

/-- `<hex[0:2]>/<hex[0:4]>/<hexhash>`. -/
def shardPath (hash : String) : String :=
  String.ofList (hash.toList.take 2) ++ "/" ++ String.ofList (hash.toList.take 4) ++ "/" ++ hash

def ownerShardPath (ownerPubkey : Bytes32) (hash : String) : String :=
  hexEncode ownerPubkey.val ++ "/" ++ shardPath hash

/-- `with_extension("tmp")` of a path whose last part has no dot. -/
def tmpPath (path : String) : String := path ++ ".tmp"

def isValidHash (hash : String) : Bool :=
  decide (hash.toList.length = 64) &&
    hash.toList.all (fun char => '0' ≤ char ∧ char ≤ '9' ∨ 'a' ≤ char ∧ char ≤ 'f')

theorem length_of_valid {hash} (valid : isValidHash hash = true) : hash.toList.length = 64 := by
  rw [isValidHash, Bool.and_eq_true, decide_eq_true_eq] at valid
  exact valid.1

theorem ownerShardPath_toList (ownerPubkey hash) : (ownerShardPath ownerPubkey hash).toList =
      (ownerPubkey.val.flatMap hexDigits ++
        ('/' :: hash.toList.take 2 ++ '/' :: hash.toList.take 4 ++ ['/'])) ++ hash.toList := by
  simp [ownerShardPath, shardPath, hexEncode, String.toList_ofList]

theorem ownerShardPath_injective {leftOwner rightOwner leftHash rightHash}
    (leftValid : isValidHash leftHash = true) (rightValid : isValidHash rightHash = true)
    (same : ownerShardPath leftOwner leftHash = ownerShardPath rightOwner rightHash) :
    leftOwner = rightOwner ∧ leftHash = rightHash := by
  have lists := congrArg String.toList same
  rw [ownerShardPath_toList, ownerShardPath_toList] at lists
  have lengths := (length_of_valid leftValid).trans (length_of_valid rightValid).symm
  rcases append_inj' lists lengths with ⟨heads, tails⟩
  have hexLengths : (leftOwner.val.flatMap hexDigits).length = (rightOwner.val.flatMap hexDigits).length := by
    rw [hexDigits_length, hexDigits_length, leftOwner.property, rightOwner.property]
  refine ⟨Subtype.ext (hexDigits_injective (append_inj heads hexLengths).1), ?_⟩
  exact String.toList_inj.mp tails

theorem ownerShardPath_length {ownerPubkey hash}
    (valid : isValidHash hash = true) : (ownerShardPath ownerPubkey hash).toList.length = 137 := by
  have length := length_of_valid valid
  rw [ownerShardPath_toList]
  simp only [length_append, length_cons, length_take, length_nil, hexDigits_length, ownerPubkey.property, length]
  decide

theorem tmpPath_ne {leftOwner rightOwner leftHash rightHash}
    (leftValid : isValidHash leftHash = true) (rightValid : isValidHash rightHash = true) :
    tmpPath (ownerShardPath leftOwner leftHash) ≠ ownerShardPath rightOwner rightHash := by
  intro same
  have lengths := congrArg (fun path => path.toList.length) same
  simp only [tmpPath, String.toList_append, length_append, ownerShardPath_length leftValid,
    ownerShardPath_length rightValid] at lengths
  revert lengths
  decide

/-! ## Requests in progress -/

inductive Answer where
  | text (code : Nat) (message : String)
  /-- A `DeleteReceipt`. -/
  | receipt (deleted missing : Int)
  /-- A streamed blob and its `Content-Length`. -/
  | blob (length : Nat) (content : Bytes)
  deriving DecidableEq

def Answer.code : Answer -> Nat
  | .text code _ => code
  | .receipt _ _ => 200
  | .blob _ _ => 200

/-- `internal`. -/
def internalError : Answer := .text 500 "internal error"

/-- What the routers are given: the primitives, the CBOR reader of a delete request
and the caps. -/
structure Site where
  K : Wire.Crypto
  parseDelete : Bytes -> Option (List String)
  perOwnerDefault : Int
  diskCap : Int

structure Push where
  owner : Bytes32
  hash : String
  body : Bytes
  valid : isValidHash hash = true

def Push.path (push : Push) : String := ownerShardPath push.owner push.hash

inductive PushPhase where
  | queued
  | checked
  | written
  | renamed
  deriving DecidableEq

def PushPhase.locked : PushPhase -> Bool
  | .queued => false
  | .checked => true
  | .written => true
  | .renamed => true

inductive Job where
  | push (push : Push) (phase : PushPhase)
  | delete (owner : Bytes32) (hashes : List String)
  /-- The delete has committed and these files are still to be unlinked. -/
  | unlink (paths : List String) (deleted missing : Int)

/-- The database, the media directory, the holder of the write lock, the requests in
progress and the answers given. -/
structure World where
  db : Database
  files : Table String Bytes
  writer : Option Nat
  jobs : Jobs Job
  answers : List (Nat × Answer)

inductive Fault where
  | fine
  | failed
  | torn (written : Nat)
  deriving DecidableEq

namespace World

section

variable (world : World) (id : Nat)

def refuse (answer : Answer) : World :=
  { world with
    jobs := world.jobs.skip
    answers := world.answers ++ [(world.jobs.next, answer)] }

def close (answer : Answer) : World :=
  { world with
    jobs := world.jobs.finish id
    answers := world.answers ++ [(id, answer)] }

/-- `BEGIN IMMEDIATE` of a transaction that lasts. -/
def lock : World := { world with writer := some id }

def unlock : World := { world with writer := none }

def withFiles (files : Table String Bytes) : World := { world with files := files }

def withRows (db : Database) : World := { world with db := db }

def setJob (job : Job) : World :=
  { world with jobs := world.jobs.update id job }

/-! ## get_handler -/

def getHandler (owner : Bytes32) (hash : String) : Answer :=
  if isValidHash hash = false then .text 400 "invalid hash"
  else
    match Media.get world.db owner hash with
    | none => .text 404 "not found"
    | some row =>
      match world.files.lookup row.path with
      | none => .text 404 "not found"
      | some content => .blob content.length content

/-! ## push_handler -/

def receivePush (site : Site) (world : World) (now : Wire.I64) (owner : Bytes32) (hash : String)
    (headers : HeaderMap) (body : Bytes) : World :=
  if valid : isValidHash hash = true then
    match verifyOwnerRequest site.K now headers (Wire.ascii "POST") (Wire.ascii ("/media/" ++ hash))
        body owner with
    | .error (code, message) => world.refuse (.text code message)
    | .ok () => { world with jobs := world.jobs.start (.push ⟨owner, hash, body, valid⟩ .queued) }
  else world.refuse (.text 400 "invalid hash")

/-- The row and the file both have the size of the incoming body. -/
def alreadyStored (push : Push) : Bool :=
  match Media.get world.db push.owner push.hash with
  | none => false
  | some row =>
    decide (row.size = push.body.length ∧
      (world.files.lookup push.path).map (fun content => (content.length : Int)) = some row.size)

def pushCapacity (site : Site) (db : Database) (push : Push) : Accounting.CapCheck :=
  let ownerCap := ((Owners.get db push.owner).bind PairedOwner.storageCapBytes).getD site.perOwnerDefault
  let stored := ((Media.get db push.owner push.hash).map ServedMedia.size).getD 0
  let incoming := max ((push.body.length : Int) - stored) 0
  Accounting.checkCapacity db push.owner incoming ownerCap site.diskCap

def advancePush (site : Site) (world : World) (id : Nat) (now : Int) (fault : Fault) (push : Push) : PushPhase -> World
  | .queued =>
    if fault ≠ .fine then world.close id internalError
    else if world.writer.isSome then world
    else if world.alreadyStored push then world.close id (.text 202 "")
    else
      match pushCapacity site world.db push with
      | .ok => (world.lock id).setJob id (.push push .checked)
      | .ownerExceeded => world.close id (.text 507 "owner storage cap exceeded")
      | .hostExceeded => world.close id (.text 507 "relay storage cap exceeded")
  | .checked =>
    match fault with
    | .fine =>
      (world.withFiles (world.files.insert (tmpPath push.path) push.body)).setJob id (.push push .written)
    | .failed => (world.close id internalError).unlock
    | .torn written =>
      ((world.withFiles (world.files.insert (tmpPath push.path)
        (push.body.take written))).close id internalError).unlock
  | .written =>
    if fault ≠ .fine then (world.close id internalError).unlock
    else
      match world.files.lookup (tmpPath push.path) with
      | none => (world.close id internalError).unlock
      | some content =>
        (world.withFiles ((world.files.erase (tmpPath push.path)).insert push.path
          content)).setJob id (.push push .renamed)
  | .renamed =>
    if fault ≠ .fine then (world.close id internalError).unlock
    else
      match Media.upsert world.db push.owner push.hash ⟨push.body.length, now, push.path⟩ with
      | none => (world.close id internalError).unlock
      | some db => ((world.withRows db).close id (.text 202 "")).unlock

/-! ## delete_handler -/

def receiveDelete (site : Site) (world : World) (now : Wire.I64) (owner : Bytes32)
    (headers : HeaderMap) (body : Bytes) : World :=
  match verifyOwnerRequest site.K now headers (Wire.ascii "POST") (Wire.ascii "/media/delete")
      body owner with
  | .error (code, message) => world.refuse (.text code message)
  | .ok () =>
    match site.parseDelete body with
    | none => world.refuse (.text 400 "malformed cbor body")
    | some hashes =>
      if hashes.all isValidHash then
        { world with jobs := world.jobs.start (.delete owner hashes) }
      else world.refuse (.text 400 "invalid hash")

def deleteRows (owner : Bytes32) : List String -> Database -> Database × List String
  | [], db => (db, [])
  | hash :: rest, db =>
    let (afterOne, removed) := Media.delete db owner hash
    let (afterAll, paths) := deleteRows owner rest afterOne
    (afterAll, (removed.map ServedMedia.path).toList ++ paths)

def advanceDelete (fault : Fault) (owner : Bytes32) (hashes : List String) : World :=
  if fault ≠ .fine then world.close id internalError
  else if world.writer.isSome then world
  else
    let (db, paths) := deleteRows owner hashes world.db
    (world.withRows db).setJob id (.unlink paths paths.length ((hashes.length : Int) - paths.length))

/-- Unlink the next file.  An error is logged and the file stays. -/
def advanceUnlink (fault : Fault) (deleted missing : Int) : List String -> World
  | [] => world.close id (.receipt deleted missing)
  | path :: rest =>
    (world.withFiles (if fault = .fine then world.files.erase path else world.files)).setJob id
      (.unlink rest deleted missing)

end

/-! ## Interleavings -/

end World

inductive MediaInput where
  | push (now : Wire.I64) (owner : Bytes32) (hash : String) (headers : HeaderMap) (body : Bytes)
  | delete (now : Wire.I64) (owner : Bytes32) (headers : HeaderMap) (body : Bytes)
  | advance (id : Nat) (now : Int) (fault : Fault)

namespace World

def advance (site : Site) (world : World) (id : Nat) (now : Int) (fault : Fault) : World :=
  match world.jobs.get id with
  | none => world
  | some (.push push phase) => world.advancePush site id now fault push phase
  | some (.delete owner hashes) => world.advanceDelete id fault owner hashes
  | some (.unlink paths deleted missing) => world.advanceUnlink id fault deleted missing paths

def step (site : Site) (world : World) : MediaInput -> Except Empty World
  | .push now owner hash headers body => .ok (world.receivePush site now owner hash headers body)
  | .delete now owner headers body => .ok (world.receiveDelete site now owner headers body)
  | .advance id now fault => .ok (world.advance site id now fault)

end World

end Starling.Http
