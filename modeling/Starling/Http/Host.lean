import Starling.Http.Router

namespace Starling.Http

/-!
# The relay's storage as one state

`Host` is the store together with the media directory.  Its invariant is that every media
row is filed under the path of its Owner and hash, which is how the push handler writes
it.  The media handlers appear here as whole transactions; they are proved equal to the
step by step handlers of `World` on a relay at rest.
-/

open Storage World Media List

/-! ## Media transactions -/

def World.rest (db : Database) (files : Table String Bytes) : World where
  db := db
  files := files
  writer := none
  jobs := Jobs.empty
  answers := []

def placed (files : Table String Bytes) (push : Push) : Table String Bytes :=
  ((files.insert (tmpPath push.path) push.body).erase (tmpPath push.path)).insert push.path push.body

structure Outcome where
  db : Database
  files : Table String Bytes
  answer : Answer

/-- The transaction of a push.  The faults are those of its four pieces of work. -/
def pushTransaction (site : Site) (db : Database) (files : Table String Bytes) (later : Int)
    (faults : Nat -> Fault) (push : Push) : Outcome :=
  if faults 0 ≠ .fine then ⟨db, files, internalError⟩
  else if (World.rest db files).alreadyStored push then ⟨db, files, .text 202 ""⟩
  else
    match World.pushCapacity site db push with
    | .ownerExceeded => ⟨db, files, .text 507 "owner storage cap exceeded"⟩
    | .hostExceeded => ⟨db, files, .text 507 "relay storage cap exceeded"⟩
    | .ok =>
      match faults 1 with
      | .failed => ⟨db, files, internalError⟩
      | .torn written =>
        ⟨db, files.insert (tmpPath push.path) (push.body.take written), internalError⟩
      | .fine =>
        if faults 2 ≠ .fine then ⟨db, files.insert (tmpPath push.path) push.body, internalError⟩
        else if faults 3 ≠ .fine then ⟨db, placed files push, internalError⟩
        else
          match Media.upsert db push.owner push.hash ⟨push.body.length, later, push.path⟩ with
          | none => ⟨db, placed files push, internalError⟩
          | some after => ⟨after, placed files push, .text 202 ""⟩

def unlinkAll (faults : Nat -> Fault) : Nat -> List String -> Table String Bytes -> Table String Bytes
  | _, [], files => files
  | count, path :: rest, files =>
    unlinkAll faults (count + 1) rest (if faults count = .fine then files.erase path else files)

def deleteTransaction (db : Database) (files : Table String Bytes) (faults : Nat -> Fault)
    (owner : Bytes32) (hashes : List String) : Outcome :=
  if faults 0 ≠ .fine then ⟨db, files, internalError⟩
  else
    let (after, paths) := World.deleteRows owner hashes db
    ⟨after, unlinkAll faults 1 paths files, .receipt paths.length ((hashes.length : Int) - paths.length)⟩

/-! ## The transactions are those of the step by step handlers -/

def World.work (site : Site) (later : Int) (faults : Nat -> Fault) (id : Nat) : Nat -> Nat -> World -> World
  | _, 0, world => world
  | count, steps + 1, world =>
    World.work site later faults id (count + 1) steps (world.advance site id later (faults count))

def World.Ended (world : World) (id : Nat) (outcome : Outcome) : Prop :=
  world.db = outcome.db ∧ world.files = outcome.files ∧ world.jobs.get id = none ∧
    world.writer = none ∧ (id, outcome.answer) ∈ world.answers

variable {id : Nat} {world : World} {db : Database}

theorem World.work_of_ended {outcome} (ended : world.Ended id outcome) (site later faults count steps) :
    work site later faults id count steps world = world := by
  induction steps generalizing count with
  | zero => rfl
  | succ steps ih =>
    rw [work, advance, ended.2.2.1]
    exact ih (count + 1)

theorem World.ended_of_close (answer) (free : world.writer = none) :
    (world.close id answer).Ended id ⟨world.db, world.files, answer⟩ := by
  refine ⟨rfl, rfl, ?_, free, ?_⟩
  · rw [close, Jobs.get_finish, if_pos rfl]
  · exact mem_append_right _ (mem_singleton_self _)

theorem World.ended_of_unlock (answer) :
    (world.close id answer).unlock.Ended id ⟨world.db, world.files, answer⟩ := by
  refine ⟨rfl, rfl, ?_, rfl, ?_⟩
  · rw [unlock, close, Jobs.get_finish, if_pos rfl]
  · exact mem_append_right _ (mem_singleton_self _)

theorem World.get_setJob {old} (found : world.jobs.get id = some old) (job) :
    (world.setJob id job).jobs.get id = some job := by
  rw [setJob, Jobs.get_update found, if_pos rfl]

section Push

variable {world : World} {id : Nat} {push : Push} (site : Site) (later : Int) (faults : Nat -> Fault)

theorem World.advance_push {phase} (found : world.jobs.get id = some (.push push phase)) (fault) :
    world.advance site id later fault = world.advancePush site id later fault push phase := by
  rw [advance, found]

def commitPush (db : Database) (files : Table String Bytes) (later : Int) (fault : Fault) (push : Push) : Outcome :=
  if fault ≠ .fine then ⟨db, files, internalError⟩
  else
    match Media.upsert db push.owner push.hash ⟨push.body.length, later, push.path⟩ with
    | none => ⟨db, files, internalError⟩
    | some after => ⟨after, files, .text 202 ""⟩

theorem World.work_renamed (found : world.jobs.get id = some (.push push .renamed)) :
    (work site later faults id 3 1 world).Ended id (commitPush world.db world.files later (faults 3) push) := by
  rw [work, advance_push site later found, advancePush, commitPush]
  split
  · exact ended_of_unlock internalError
  · cases stored : upsert world.db push.owner push.hash ⟨push.body.length, later, push.path⟩ with
    | none => exact ended_of_unlock internalError
    | some => exact ended_of_unlock (.text 202 "")

theorem World.work_written (found : world.jobs.get id = some (.push push .written))
    (written : world.files.lookup (tmpPath push.path) = some push.body) :
    (work site later faults id 2 2 world).Ended id
      (if faults 2 ≠ .fine then ⟨world.db, world.files, internalError⟩
      else commitPush world.db ((world.files.erase (tmpPath push.path)).insert push.path push.body) later
        (faults 3) push) := by
  rw [work, advance_push site later found, advancePush]
  by_cases fine : faults 2 ≠ .fine
  · rw [if_pos fine, if_pos fine, work_of_ended (ended_of_unlock internalError)]
    exact ended_of_unlock internalError
  · rw [if_neg fine, if_neg fine, written]
    apply work_renamed
    exact get_setJob found _

theorem World.work_checked (found : world.jobs.get id = some (.push push .checked)) :
    (work site later faults id 1 3 world).Ended id (match faults 1 with
      | .failed => ⟨world.db, world.files, internalError⟩
      | .torn written =>
        ⟨world.db, world.files.insert (tmpPath push.path) (push.body.take written), internalError⟩
      | .fine =>
        if faults 2 ≠ .fine then
          ⟨world.db, world.files.insert (tmpPath push.path) push.body, internalError⟩
        else commitPush world.db (placed world.files push) later (faults 3) push) := by
  rw [work, advance_push site later found]
  cases faults 1 with
  | fine =>
    apply work_written
    · exact get_setJob found _
    · exact AList.lookup_insert _
  | _ =>
    rw [advancePush, work_of_ended (ended_of_unlock internalError)]
    exact ended_of_unlock internalError

theorem World.push_ends (found : world.jobs.get id = some (.push push .queued)) (free : world.writer = none) :
    (work site later faults id 0 4 world).Ended id (pushTransaction site world.db world.files later faults push) := by
  have stored : (rest world.db world.files).alreadyStored push = world.alreadyStored push := rfl
  rw [work, advance_push site later found, advancePush, pushTransaction, stored]
  by_cases fault : faults 0 ≠ .fine
  · rw [if_pos fault, if_pos fault, work_of_ended (ended_of_close internalError free)]
    exact ended_of_close internalError free
  · rw [if_neg fault, if_neg fault, free, Option.isSome_none, if_neg Bool.false_ne_true]
    by_cases present : world.alreadyStored push = true
    · rw [if_pos present, if_pos present, work_of_ended (ended_of_close _ free)]
      exact ended_of_close (.text 202 "") free
    · rw [if_neg present, if_neg present]
      cases pushCapacity site world.db push with
      | ok =>
        apply work_checked
        exact get_setJob found _
      | _ =>
        rw [work_of_ended (ended_of_close _ free)]
        exact ended_of_close _ free

end Push

def blobPush : Push := ⟨phoneKey, blobHash, [1, 2, 3], by decide +kernel⟩

def pushQueued : World := { emptyStore with jobs := emptyStore.jobs.start (.push blobPush .queued) }

theorem World.push_ends_alone : (work openSite 0 (fun _ => .fine) 0 0 4 pushQueued).Ended 0
    (pushTransaction openSite emptyStore.db ∅ 0 (fun _ => .fine) blobPush) := by
  have found : pushQueued.jobs.get 0 = some (.push blobPush .queued) := rfl
  exact World.push_ends openSite 0 (fun _ => .fine) found rfl

theorem World.work_unlink (site later faults) {paths deleted missing}
    (found : world.jobs.get id = some (.unlink paths deleted missing)) (free : world.writer = none)
    (count) : (work site later faults id count (paths.length + 1) world).Ended id
      ⟨world.db, unlinkAll faults count paths world.files, .receipt deleted missing⟩ := by
  induction paths generalizing world count with rw [work, advance, found]
  | nil => exact ended_of_close (.receipt deleted missing) free
  | cons path rest ih =>
    apply ih
    · exact get_setJob found _
    · exact free

theorem World.delete_ends (site later faults) {owner hashes}
    (found : world.jobs.get id = some (.delete owner hashes)) (free : world.writer = none) :
    (work site later faults id 0 ((deleteRows owner hashes world.db).2.length + 2) world).Ended id
      (deleteTransaction world.db world.files faults owner hashes) := by
  rw [work, advance, found, deleteTransaction]
  simp only [advanceDelete]
  by_cases fault : faults 0 ≠ .fine
  · rw [if_pos fault, if_pos fault, work_of_ended (ended_of_close internalError free)]
    exact ended_of_close internalError free
  · rw [if_neg fault, if_neg fault, free]
    apply work_unlink
    · exact get_setJob found _
    · exact free

def deleteQueued : World :=
  let pushed := World.work openSite 0 (fun _ => .fine) 0 0 4 pushQueued
  { pushed with jobs := pushed.jobs.start (.delete phoneKey [blobHash]) }

theorem World.delete_ends_alone : deleteQueued.files.lookup (ownerShardPath phoneKey blobHash) = some [1, 2, 3] ∧
    (work openSite 0 (fun _ => .fine) 1 0 3 deleteQueued).Ended 1
      (deleteTransaction deleteQueued.db deleteQueued.files (fun _ => .fine) phoneKey [blobHash]) ∧
    (work openSite 0 (fun _ => .fine) 1 0 3 deleteQueued).files.keys = [] := by
  have found : deleteQueued.jobs.get 1 = some (.delete phoneKey [blobHash]) := by
    rw [deleteQueued, Jobs.get_start, if_pos (by decide +kernel)]
  have paths : (deleteRows phoneKey [blobHash] deleteQueued.db).2 = [ownerShardPath phoneKey blobHash] := by
    decide +kernel
  have ended := World.delete_ends openSite 0 (fun _ => .fine) found (by decide +kernel)
  rw [paths] at ended
  exact ⟨by decide +kernel, ended, by decide +kernel⟩

/-! ## What a media transaction leaves behind -/

/-- Only the rows of `served_media` differ, as far as the routes read. -/
structure MediaOnly (before after : Database) : Prop where
  owners : after.pairedOwners = before.pairedOwners
  events : after.servedEvents = before.servedEvents

theorem MediaOnly.refl (db) : MediaOnly db db := ⟨rfl, rfl⟩

theorem MediaOnly.trans {first second third} (left : MediaOnly first second)
    (right : MediaOnly second third) : MediaOnly first third :=
  ⟨right.owners.trans left.owners, right.events.trans left.events⟩

theorem upsert_frame {after owner hash media} (stored : upsert db owner hash media = some after) :
    MediaOnly db after ∧ owner ∈ db.pairedOwners := by
  unfold upsert at stored
  split at stored
  next owned =>
    cases stored
    exact ⟨⟨rfl, rfl⟩, owned⟩
  · cases stored

theorem mediaDelete_frame (db owner hash) : MediaOnly db (delete db owner hash).1 := by
  unfold delete
  split
  · exact ⟨rfl, rfl⟩
  · exact MediaOnly.refl db

theorem deleteRows_frame (owner hashes db) : MediaOnly db (deleteRows owner hashes db).1 := by
  induction hashes generalizing db with
  | nil => exact MediaOnly.refl db
  | cons hash rest ih =>
    exact (mediaDelete_frame db owner hash).trans (ih (delete db owner hash).1)

/-- A push changes at most its own two files.  It stores nothing, or finds its blob already
stored, or replaces it within the caps. -/
inductive PushEffect (site : Site) (db : Database) (files : Table String Bytes) (later : Int)
    (push : Push) : Outcome -> Prop
  | failed (left : Table String Bytes) (answer : Answer) (refused : answer.code ≠ 202)
      (elsewhere : ∀ path, path ≠ push.path -> path ≠ tmpPath push.path -> left.lookup path = files.lookup path) :
      PushEffect site db files later push ⟨db, left, answer⟩
  | present (stored : (World.rest db files).alreadyStored push = true) :
      PushEffect site db files later push ⟨db, files, .text 202 ""⟩
  | replaced (after : Database) (fresh : (World.rest db files).alreadyStored push = false)
      (capacity : World.pushCapacity site db push = .ok)
      (stored : Media.upsert db push.owner push.hash ⟨push.body.length, later, push.path⟩ = some after) :
      PushEffect site db files later push ⟨after, placed files push, .text 202 ""⟩

theorem lookup_placed (files push path) : (placed files push).lookup path =
      if path = push.path then some push.body
      else if path = tmpPath push.path then none else files.lookup path := by
  rw [placed, Table.lookup_insert_eq]
  split
  · rfl
  · rw [Table.lookup_erase_eq]
    split
    · rfl
    next apart => rw [AList.lookup_insert_ne apart]

theorem pushEffect (site db files later faults push) :
    PushEffect site db files later push (pushTransaction site db files later faults push) := by
  have broken : ∀ left : Table String Bytes, (∀ path, path ≠ push.path -> path ≠ tmpPath push.path ->
        left.lookup path = files.lookup path) ->
      PushEffect site db files later push ⟨db, left, internalError⟩ :=
    fun left => PushEffect.failed left internalError (by decide)
  have partly : ∀ content, ∀ path, path ≠ push.path -> path ≠ tmpPath push.path ->
      (files.insert (tmpPath push.path) content).lookup path = files.lookup path := by
    intro content path _ apart
    rw [AList.lookup_insert_ne apart]
  have fully : ∀ path, path ≠ push.path -> path ≠ tmpPath push.path ->
      (placed files push).lookup path = files.lookup path := by
    intro path notFinal notTmp
    rw [lookup_placed, if_neg notFinal, if_neg notTmp]
  rw [pushTransaction]
  split
  · exact broken files (fun _ _ _ => rfl)
  · split
    next stored => exact PushEffect.present stored
    next fresh =>
      cases capacity : pushCapacity site db push with
      | ownerExceeded | hostExceeded => exact PushEffect.failed files _ (by decide) (fun _ _ _ => rfl)
      | ok =>
        cases faults 1 with
        | failed => exact broken files (fun _ _ _ => rfl)
        | torn => exact broken _ (partly _)
        | fine =>
          simp only
          split
          · exact broken _ (partly _)
          · split
            · exact broken _ fully
            · cases stored : upsert db push.owner push.hash
                ⟨push.body.length, later, push.path⟩ with
              | none => exact broken _ fully
              | some after => exact PushEffect.replaced after (Bool.eq_false_of_not_eq_true fresh) capacity stored

theorem lookup_unlinkAll (faults count paths files path) :
    (path ∉ paths -> (unlinkAll faults count paths files).lookup path = files.lookup path) ∧
      ((∀ index, faults index = .fine) -> path ∈ paths ->
        (unlinkAll faults count paths files).lookup path = none) := by
  induction paths generalizing count files with
  | nil => exact ⟨fun _ => rfl, fun _ member => by cases member⟩
  | cons first rest ih =>
    rw [unlinkAll]
    constructor
    · intro absent
      rw [mem_cons, not_or] at absent
      rw [(ih _ _).1 absent.2]
      split
      · rw [AList.lookup_erase_ne absent.1]
      · rfl
    · intro fine member
      by_cases again : path ∈ rest
      · exact (ih _ _).2 fine again
      · rw [(ih _ _).1 again, if_pos (fine count), Table.lookup_erase_eq, if_pos]
        exact (mem_cons.mp member).resolve_right again

structure Host where
  store : Store
  files : Table String Bytes
  filed : Filed store.db

namespace Host

def withStore (host : Host) (store : Store) (media : store.db.servedMedia = host.store.db.servedMedia) : Host where
  store := store
  files := host.files
  filed := by
    intro key row found
    rw [media] at found
    exact host.filed key row found

def withMedia (host : Host) (outcome : Outcome)
    (owners : outcome.db.pairedOwners = host.store.db.pairedOwners) (filed : Filed outcome.db) :
    Host where
  store := host.store.withMedia outcome.db.servedMedia (fun key member =>
    owners ▸ outcome.db.mediaOwned key member)
  files := outcome.files
  filed := filed

end Host

theorem pushTransaction_frame (site : Site) (files later) (faults : Nat -> Fault)
    (push : Push) (filed : Filed db) : MediaOnly db (pushTransaction site db files later faults push).db ∧
      Filed (pushTransaction site db files later faults push).db := by
  have effect := pushEffect site db files later faults push
  generalize pushTransaction site db files later faults push = outcome at effect ⊢
  cases effect with
  | failed | present => exact ⟨MediaOnly.refl db, filed⟩
  | replaced _ _ _ stored => exact ⟨(upsert_frame stored).1, filed_upsert filed rfl stored⟩

theorem deleteTransaction_frame (files faults owner hashes) (filed : Filed db) :
    MediaOnly db (deleteTransaction db files faults owner hashes).db ∧
      Filed (deleteTransaction db files faults owner hashes).db := by
  rw [deleteTransaction]
  split
  · exact ⟨MediaOnly.refl db, filed⟩
  · exact ⟨deleteRows_frame owner hashes db, filed_deleteRows filed owner hashes⟩

inductive OwnerRequest where
  | pushEvents (request : Signed) (fault : Bool)
  | deleteEvents (request : Signed) (fault : Bool)
  | pushMedia (hash : String) (request : Signed) (faults : Nat -> Fault)
  | deleteMedia (request : Signed) (faults : Nat -> Fault)
  | voiceRooms (request : Signed) (fault : Bool)

def OwnerRequest.signed : OwnerRequest -> Signed
  | .pushEvents request _ => request
  | .deleteEvents request _ => request
  | .pushMedia _ request _ => request
  | .deleteMedia request _ => request
  | .voiceRooms request _ => request

def ownerBodyLimitBytes : Nat := 4 * 1024 * 1024

/-- The answer to a body over `DefaultBodyLimit`. -/
def bodyTooLarge : Answer := .text 413 "Failed to buffer the request body: length limit exceeded"

namespace Host

section

variable (site : RouterSite) (store : Store)

/-- `push_handler` of `routes/media.rs`. -/
def pushMedia (host : Host) (owner : Bytes32) (hash : String) (request : Signed)
    (faults : Nat -> Fault) : Host × Reply :=
  if valid : isValidHash hash = true then
    match request.refusal site.toSite owner ("/media/" ++ hash) with
    | some answer => (host, .plain answer)
    | none =>
      let push : Push := ⟨owner, hash, request.body, valid⟩
      let frame := pushTransaction_frame site.toSite host.files request.later faults push host.filed
      let outcome := pushTransaction site.toSite host.store.db host.files request.later faults push
      (host.withMedia outcome frame.1.owners frame.2, .plain outcome.answer)
  else (host, .plain (.text 400 "invalid hash"))

/-- `delete_handler` of `routes/media.rs`. -/
def deleteMedia (host : Host) (owner : Bytes32) (request : Signed) (faults : Nat -> Fault) : Host × Reply :=
  match request.refusal site.toSite owner "/media/delete" with
  | some answer => (host, .plain answer)
  | none =>
    match site.parseDelete request.body with
    | none => (host, .plain (.text 400 "malformed cbor body"))
    | some hashes =>
      if hashes.all isValidHash then
        let frame := deleteTransaction_frame host.files faults owner hashes host.filed
        let outcome := deleteTransaction host.store.db host.files faults owner hashes
        (host.withMedia outcome frame.1.owners frame.2, .plain outcome.answer)
      else (host, .plain (.text 400 "invalid hash"))

theorem pushEvents_only (owner request fault) : EventsOnly store (pushEvents site store owner request fault).1 := by
  rcases pushEvents_cases site store owner request fault with ⟨same, _⟩ | ⟨_, _, _, _, _, stored, _⟩
  · rw [same]
    exact EventsOnly.refl store
  · exact eventsOnly_storeItems stored

theorem deleteEvents_only (owner request fault) : EventsOnly store (deleteEvents site store owner request fault).1 := by
  rcases deleteEvents_cases site store owner request fault with ⟨same, _⟩ | ⟨ids, _, deleted, _⟩
  · rw [same]
    exact EventsOnly.refl store
  · rw [deleted]
    exact eventsOnly_deleteBatch owner ids store

theorem voiceRooms_only (owner request fault) : SlotsOnly store (voiceRooms site store owner request fault).1 := by
  rcases voiceRooms_cases site store owner request fault with ⟨same, _⟩ | ⟨_, replaced, _⟩
  · rw [same]
    exact ⟨rfl, rfl⟩
  · exact (replaceSet_spec replaced).1

def handle (host : Host) (owner : Bytes32) (request : OwnerRequest) : Host × Reply :=
  if request.signed.body.length > ownerBodyLimitBytes then (host, .plain bodyTooLarge)
  else
    match request with
    | .pushEvents signed fault =>
      let result := Http.pushEvents site host.store owner signed fault
      (host.withStore result.1 (pushEvents_only site host.store owner signed fault).media, result.2)
    | .deleteEvents signed fault =>
      let result := Http.deleteEvents site host.store owner signed fault
      (host.withStore result.1 (deleteEvents_only site host.store owner signed fault).media, result.2)
    | .pushMedia hash signed faults => host.pushMedia site owner hash signed faults
    | .deleteMedia signed faults => host.deleteMedia site owner signed faults
    | .voiceRooms signed fault =>
      let result := Http.voiceRooms site host.store owner signed fault
      (host.withStore result.1 (congrArg Database.servedMedia (voiceRooms_only site host.store owner signed fault).db),
        result.2.1)

end

/-- `GET /media/<hash>`. -/
def getMedia (host : Host) (owner : Bytes32) (hash : String) : Answer :=
  (World.rest host.store.db host.files).getHandler owner hash

/-- `media_dir/<hex(pubkey)>` holds the path. -/
def inOwnerDir (owner : Bytes32) (path : String) : Bool := (hexEncode owner.val ++ "/").toList.isPrefixOf path.toList

/-- `unpair_owner`: the row goes with all that refers to it, and then the Owner's directory.
Files that the removal fails on are left. -/
def unpairOwner (host : Host) (owner : Bytes32) (left : List String) : Host where
  store := host.store.deleteOwner owner
  files := host.files.retain (fun path _ => !inOwnerDir owner path || decide (path ∈ left))
  filed := by
    intro key row found
    have kept : (host.store.deleteOwner owner).db.servedMedia.lookup key =
        if key.1 = owner then none else host.store.db.servedMedia.lookup key :=
      Table.lookup_retain_fst host.store.db.servedMedia owner key
    rw [kept] at found
    split at found
    · cases found
    · exact host.filed key row found

/-- `owners::insert` of a pairing. -/
def pairOwner (host : Host) (owner : Bytes32) (row : PairedOwner) : Host :=
  match inserted : host.store.insertOwner owner row with
  | none => host
  | some store =>
    host.withStore store (Owners.insert_eq_some (Store.insertOwner_cases inserted).1).2.2.2.2

end Host

/-- Only the rows of `served_media` differ. -/
structure BlobsOnly (before after : Store) : Prop where
  owners : after.db.pairedOwners = before.db.pairedOwners
  events : after.eventRows = before.eventRows
  slots : after.voiceSlots = before.voiceSlots

theorem BlobsOnly.refl (store) : BlobsOnly store store := ⟨rfl, rfl, rfl⟩

theorem pushMedia_only (site : RouterSite) (host : Host) (owner hash) (request : Signed) (faults : Nat -> Fault) :
    BlobsOnly host.store (host.pushMedia site owner hash request faults).1.store := by
  rw [Host.pushMedia]
  split
  · cases request.refusal site.toSite owner ("/media/" ++ hash) with
    | some => exact BlobsOnly.refl host.store
    | none => exact ⟨rfl, rfl, rfl⟩
  · exact BlobsOnly.refl host.store

theorem deleteMedia_only (site : RouterSite) (host : Host) (owner) (request : Signed)
    (faults : Nat -> Fault) : BlobsOnly host.store (host.deleteMedia site owner request faults).1.store := by
  rw [Host.deleteMedia]
  cases request.refusal site.toSite owner "/media/delete" with
  | some => exact BlobsOnly.refl host.store
  | none =>
    cases site.parseDelete request.body with
    | none => exact BlobsOnly.refl host.store
    | some =>
      simp only
      split
      · exact ⟨rfl, rfl, rfl⟩
      · exact BlobsOnly.refl host.store

structure Exchange where
  request : OwnerRequest
  reply : Reply

namespace Host

def serve (site : RouterSite) (owner : Bytes32) : Host -> List OwnerRequest -> Host × List Exchange
  | host, [] => (host, [])
  | host, request :: rest =>
    let answered := host.handle site owner request
    let served := serve site owner answered.1 rest
    (served.1, ⟨request, answered.2⟩ :: served.2)

theorem serve_from {site owner} {motive : Host -> List Exchange -> Prop}
    (step : ∀ (host : Host) log request, motive host log ->
      motive (host.handle site owner request).1 (log ++ [⟨request, (host.handle site owner request).2⟩]))
    (requests host log) (holds : motive host log) :
    motive (host.serve site owner requests).1 (log ++ (host.serve site owner requests).2) := by
  induction requests generalizing host log with
  | nil =>
    rw [serve, append_nil]
    exact holds
  | cons request rest ih =>
    have later := ih (host.handle site owner request).1
      (log ++ [⟨request, (host.handle site owner request).2⟩]) (step host log request holds)
    rw [append_assoc] at later
    exact later

theorem serve_invariant {site owner} {motive : Host -> List Exchange -> Prop}
    (step : ∀ (host : Host) log request, motive host log ->
      motive (host.handle site owner request).1 (log ++ [⟨request, (host.handle site owner request).2⟩]))
    (requests) {start} (holds : motive start []) :
    motive (start.serve site owner requests).1 (start.serve site owner requests).2 :=
  serve_from step requests start [] holds

end Host

/-! ## A small relay -/

/-- `{items: [{id: "n", payload: h'01', type: "poll"}]}` in CBOR. -/
def pollBatch : Bytes :=
  [161, 101, 105, 116, 101, 109, 115, 129, 163, 98, 105, 100, 97, 110, 103, 112, 97, 121, 108, 111, 97,
    100, 65, 1, 100, 116, 121, 112, 101, 100, 112, 111, 108, 108]

/-- `{ids: ["n"]}` in CBOR. -/
def pollDelete : Bytes := [161, 99, 105, 100, 115, 129, 97, 110]

/-- Readers of these two bodies, small caps, and no voice hosting. -/
def smallRouter : RouterSite where
  toSite := { World.openSite with perOwnerDefault := 4, diskCap := 5 }
  parseBatch := fun body => if body = pollBatch then some [⟨"n", [1], "poll"⟩] else none
  parseEventDelete := fun body => if body = pollDelete then some ["n"] else none
  parseHeader := fun _ => none
  parseSlots := fun _ => none
  voiceMax := none

def fromPhone (body : Bytes) : Signed where
  now := 0
  headers := capturedHeaders
  body := body
  later := 7

def emptyHost : Host where
  store := Store.empty
  files := ∅
  filed := by
    intro key row found
    cases found

def pairedHost : Host := emptyHost.pairOwner phoneKey ⟨none, 0, "phone.onion", 17000, none⟩

end Starling.Http
