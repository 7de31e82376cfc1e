import Starling.App.Records
import Starling.Foundation.Mutex
import Starling.Foundation.Run

namespace Starling.App

/-!
# The author's device

Everything that reads the identity row and writes it back: the publish services, which run
under the publish lock, `GET /events`, which does not, and `KeyRotationService.rotate`.
Each takes a copy of the row and replaces the whole row by the changed copy.  Posts and
deletions start from the copy in `identityControllerProvider`, taken when the process started.

A call is cut at its await points.  A step runs up to the next await, including the effect
of the database call that is awaited: the database works its calls off in order.
`sealed`, `retired` and `keys` record what happened; no call reads them.
-/

inductive Publication where
  | createPost
  | deletePost
  | createComment
  | deleteComment
  | like
  | unlike
  | publishProfile (avatar : Bool)
  deriving DecidableEq

namespace Publication

def kind : Publication -> Nat
  | .createPost => 1
  | .publishProfile _ => 2
  | .createComment => 4
  | .like => 5
  | .deletePost => 6
  | .deleteComment => 6
  | .unlike => 6

/-- `identityLookup` of the post service is the provider; the others read the row. -/
def fromProvider : Publication -> Bool
  | .createPost => true
  | .deletePost => true
  | _ => false

def withMedia : Publication -> Bool
  | .createPost => true
  | .publishProfile avatar => avatar
  | _ => false

end Publication

inductive PublishPhase where
  | waiting
  | holding (identity : Identity)
  | compressed (identity : Identity) (hash : String)
  | mediaStored (identity : Identity) (hash : String)
  | saved (identity : Identity)
  | bumped

inductive RotatePhase where
  | waiting
  | read (identity : Identity)
  | retired (identity : Identity) (now : Int)
  /-- The new key is stored and not yet in the cache. -/
  | renewed (newKey : FeedKey) (now : Int)
  | queued

inductive AuthorTask where
  | publish (what : Publication) (phase : PublishPhase)
  /-- `GET /events` after its identity lookup. -/
  | serve (since : Option Int) (identity : Identity)
  /-- The loop of `buildEventsEnvelope`. -/
  | encode (identity : Identity) (left : List EventRow) (nextSeq : Nat)
  | rotate (removedPubkey : Pubkey) (phase : RotatePhase)

structure Author where
  row : Option Identity
  /-- The value of `identityControllerProvider`. -/
  provider : Option Identity
  /-- The own entry of the feed key cache: key and epoch. -/
  cache : Option (FeedKey × Nat)
  history : List RetiredFeedKey
  events : Table String EventRow
  /-- The media files by hash, with the key they are encrypted under. -/
  blobs : Table String Sealing
  lock : Mutex
  tasks : Jobs AuthorTask
  /-- Every encryption of an event: its id, and what its key was derived from. -/
  sealed : List (String × Sealing)
  retired : List FeedKey
  keys : List FeedKey

/-- The next step of some call.  `abandon` ends a publish call before it encrypts: the media
could not be stored, or there was nothing to like or unlike.  `receive` stores an event that
is sent to us, without a payload. -/
inductive AuthorInput where
  | publish (what : Publication)
  | acquire (id : Nat)
  | storeCompressed (id : Nat) (hash : String)
  | storeOriginal (id : Nat) (hash : String)
  | abandon (id : Nat)
  | saveEvent (id : Nat) (eventId : String) (createdAt : Int) (ref : Option String)
  | bump (id : Nat)
  | release (id : Nat)
  | get (since : Option Int)
  | list (id : Nat)
  | turn (id : Nat)
  | answer (id : Nat)
  | rotate (removedPubkey : Pubkey)
  | retire (id : Nat) (now : Int) (secretKey : Bool)
  | renew (id : Nat) (newKey : FeedKey)
  | distribute (id : Nat)
  | sweep (id : Nat)
  | receive (event : EventRow)
  | crash
  deriving DecidableEq

namespace Author

section

variable (author : Author)

section

variable (id : Nat)

def setTask (task : AuthorTask) : Author :=
  { author with tasks := author.tasks.update id task }

/-- `_publishLock.synchronized`: a call that waits for its turn. -/
def queue (task : AuthorTask) : Author :=
  { author with tasks := author.tasks.start task, lock := author.lock.enter author.tasks.next }

def leave (id : Nat) : Author :=
  { author with tasks := author.tasks.finish id, lock := author.lock.leave }

def saveIdentity (identity : Identity) : Author :=
  { author with row := some identity }

def lookupIdentity (what : Publication) : Option Identity :=
  if what.fromProvider then author.provider else author.row

def acquire : Author :=
  match author.tasks.get id with
  | some (.publish what .waiting) =>
    if author.lock.holder = some id then
      match author.lookupIdentity what with
      | none => author.leave id
      | some identity => author.setTask id (.publish what (.holding identity))
    else author
  | some (.rotate removedPubkey .waiting) =>
    if author.lock.holder = some id then
      match author.row with
      | none => author.leave id
      | some identity => author.setTask id (.rotate removedPubkey (.read identity))
    else author
  | _ => author

/-- `processAndStoreOwnPhoto` encrypts two files under the message key.  A file that is
there already is replaced. -/
def storeCompressed (hash : String) : Author :=
  match author.tasks.get id with
  | some (.publish what (.holding identity)) =>
    if what.withMedia then
      { author with
        blobs := author.blobs.insert hash ⟨identity.feedKey, identity.msgSeqCounter⟩ }.setTask
        id (.publish what (.compressed identity hash))
    else author
  | _ => author

def storeOriginal (hash : String) : Author :=
  match author.tasks.get id with
  | some (.publish what (.compressed identity compressedHash)) =>
    { author with
      blobs := author.blobs.insert hash ⟨identity.feedKey, identity.msgSeqCounter⟩ }.setTask
      id (.publish what (.mediaStored identity compressedHash))
  | _ => author

def abandon : Author :=
  match author.tasks.get id with
  | some (.publish _ (.holding _)) => author.leave id
  | some (.publish _ (.compressed _ _)) => author.leave id
  | some (.publish _ (.mediaStored _ _)) => author.leave id
  | _ => author

/-- `signAndEncryptForAudience` and `saveOwnEventWithEncrypted`.  The key comes from the
cache and the sequence number from the call's identity. -/
def publishEvent (what : Publication) (identity : Identity)
    (media : List String) (eventId : String) (createdAt : Int) (ref : Option String) : Author :=
  match author.cache with
  | none => author.leave id
  | some (key, epoch) =>
    let sealing : Sealing := ⟨key, identity.msgSeqCounter⟩
    let payload : EncryptedEvent := ⟨identity.pubkey, createdAt, epoch, sealing⟩
    { author with
      events := author.events.insert eventId
        ⟨eventId, identity.pubkey, createdAt, what.kind, ref, media, some payload⟩
      sealed := author.sealed ++ [(eventId, sealing)] }.setTask
      id (.publish what (.saved identity))

def saveEvent (eventId : String) (createdAt : Int) (ref : Option String) :
    Author :=
  match author.tasks.get id with
  | some (.publish what (.holding identity)) =>
    if what.withMedia then author
    else author.publishEvent id what identity [] eventId createdAt ref
  | some (.publish what (.mediaStored identity hash)) =>
    author.publishEvent id what identity [hash] eventId createdAt ref
  | _ => author

/-- `saveIdentity(identity.copyWith(msgSeqCounter: msgSeq + 1))`. -/
def bump : Author :=
  match author.tasks.get id with
  | some (.publish what (.saved identity)) =>
    (author.saveIdentity { identity with msgSeqCounter := identity.msgSeqCounter + 1 }).setTask
      id (.publish what .bumped)
  | _ => author

def release : Author :=
  match author.tasks.get id with
  | some (.publish _ .bumped) => author.leave id
  | _ => author

/-! ## GET /events -/

def eventsPageLimit : Nat := 500

/-- The identity lookup; without an identity the answer is 503. -/
def get (since : Option Int) : Author :=
  match author.row with
  | none => { author with tasks := author.tasks.skip }
  | some identity => { author with tasks := author.tasks.start (.serve since identity) }

def list : Author :=
  match author.tasks.get id with
  | some (.serve since identity) =>
    let events := getOwnAndIncomingRefs (author.events.entries.map Sigma.snd) identity.pubkey since
      (some eventsPageLimit)
    author.setTask id (.encode identity (events.filter (fun event => !event.roomScoped)) identity.msgSeqCounter)
  | _ => author

end

def ships (identity : Identity) (event : EventRow) : Bool :=
  decide (event.pubkey = identity.pubkey) && ((author.events.lookup event.id).bind EventRow.encryptedPayload).isSome

section

variable (id : Nat)

def turn : Author :=
  match author.tasks.get id with
  | some (.encode identity (event :: left) nextSeq) =>
    if author.ships identity event then author.setTask id (.encode identity left nextSeq)
    else
      { author with sealed := author.sealed ++ [(event.id, Sealing.mk identity.feedKey nextSeq)] }.setTask
        id (.encode identity left (nextSeq + 1))
  | _ => author

/-- The end of `buildEventsEnvelope`: the counter is saved if it has moved. -/
def answer : Author :=
  match author.tasks.get id with
  | some (.encode identity [] nextSeq) =>
    let served := { author with tasks := author.tasks.finish id }
    if nextSeq = identity.msgSeqCounter then served
    else served.saveIdentity { identity with msgSeqCounter := nextSeq }
  | _ => author

/-! ## KeyRotationService -/

/-- The entry that `appendFeedKeyHistory` gets. -/
def retiredEntry (identity : Identity) (now : Int) : RetiredFeedKey where
  feedKey := identity.feedKey
  feedKeyEpoch := identity.feedKeyEpoch
  validFrom :=
    if identity.feedKeyValidFrom = 0 then identity.createdAt else identity.feedKeyValidFrom
  validUntil := now

/-- The old key goes into the history, unless the secret key is missing. -/
def retire (now : Int) (secretKey : Bool) : Author :=
  match author.tasks.get id with
  | some (.rotate removedPubkey (.read identity)) =>
    if secretKey then
      { author with history := author.history ++ [retiredEntry identity now] }.setTask
        id (.rotate removedPubkey (.retired identity now))
    else author.leave id
  | _ => author

/-- The new key is stored, and the old one is remembered as retired. -/
abbrev saveRenewed (identity : Identity) (newKey : FeedKey) (now : Int) : Author :=
  { author with
    retired := author.retired ++ [identity.feedKey]
    keys := author.keys ++ [newKey] }.saveIdentity (identity.renewed newKey now)

def renew (newKey : FeedKey) : Author :=
  match author.tasks.get id with
  | some (.rotate removedPubkey (.retired identity now)) =>
    (author.saveRenewed identity newKey now).setTask id (.rotate removedPubkey (.renewed newKey now))
  | _ => author

/-- The new key goes into the cache, and is sealed for the followers. -/
def distribute : Author :=
  match author.tasks.get id with
  | some (.rotate removedPubkey (.renewed newKey _)) =>
    { author with cache := some (newKey, 0) }.setTask id (.rotate removedPubkey .queued)
  | _ => author

def sweep : Author :=
  match author.tasks.get id with
  | some (.rotate _ .queued) => author.leave id
  | _ => author

end

def receive (event : EventRow) : Author :=
  { author with events := author.events.insert event.id { event with encryptedPayload := none } }

/-- The process ends and starts again: the cache and the provider are filled from the row. -/
def crash : Author :=
  { author with
    provider := author.row
    cache := author.row.map (fun identity => (identity.feedKey, identity.feedKeyEpoch))
    lock := []
    tasks := author.tasks.clear }

def step : AuthorInput -> Except Empty Author
  | .publish what => .ok (author.queue (.publish what .waiting))
  | .acquire id => .ok (author.acquire id)
  | .storeCompressed id hash => .ok (author.storeCompressed id hash)
  | .storeOriginal id hash => .ok (author.storeOriginal id hash)
  | .abandon id => .ok (author.abandon id)
  | .saveEvent id eventId createdAt ref => .ok (author.saveEvent id eventId createdAt ref)
  | .bump id => .ok (author.bump id)
  | .release id => .ok (author.release id)
  | .get since => .ok (author.get since)
  | .list id => .ok (author.list id)
  | .turn id => .ok (author.turn id)
  | .answer id => .ok (author.answer id)
  | .rotate removedPubkey => .ok (author.queue (.rotate removedPubkey .waiting))
  | .retire id now secretKey => .ok (author.retire id now secretKey)
  | .renew id newKey => .ok (author.renew id newKey)
  | .distribute id => .ok (author.distribute id)
  | .sweep id => .ok (author.sweep id)
  | .receive event => .ok (author.receive event)
  | .crash => .ok author.crash

end

/-- A device with a new identity that has published nothing yet.  Its store may hold events
of others, and own events from before the wire bytes were kept. -/
def boot (identity : Identity) (events : Table String EventRow) : Author where
  row := some identity
  provider := some identity
  cache := some (identity.feedKey, identity.feedKeyEpoch)
  history := []
  events := events
  blobs := ∅
  lock := []
  tasks := Jobs.empty
  sealed := []
  retired := []
  keys := [identity.feedKey]

end Author

namespace AuthorTask

def inside : AuthorTask -> Bool
  | .publish _ .waiting => false
  | .publish _ _ => true
  | .serve _ _ => false
  | .encode _ _ _ => false
  | .rotate _ .waiting => false
  | .rotate _ _ => true

/-- The copy of the row that the call is going to write back.  `GET /events` writes only if
it has encrypted something. -/
def copy : AuthorTask -> Option Identity
  | .publish _ (.holding identity) => some identity
  | .publish _ (.compressed identity _) => some identity
  | .publish _ (.mediaStored identity _) => some identity
  | .publish _ (.saved identity) => some identity
  | .encode identity _ nextSeq => if nextSeq = identity.msgSeqCounter then none else some identity
  | .rotate _ (.read identity) => some identity
  | .rotate _ (.retired identity _) => some identity
  | _ => none

/-- The first sequence number that the call has not used, if it has used one that the row
does not know of. -/
def owes : AuthorTask -> Option Nat
  | .publish _ (.saved identity) => some (identity.msgSeqCounter + 1)
  | .encode identity _ nextSeq => if nextSeq = identity.msgSeqCounter then none else some nextSeq
  | _ => none

def identity : AuthorTask -> Option Identity
  | .publish _ (.holding identity) => some identity
  | .publish _ (.compressed identity _) => some identity
  | .publish _ (.mediaStored identity _) => some identity
  | .publish _ (.saved identity) => some identity
  | .serve _ identity => some identity
  | .encode identity _ _ => some identity
  | .rotate _ (.read identity) => some identity
  | .rotate _ (.retired identity _) => some identity
  | _ => none

theorem inside_or_owes {task : AuthorTask} {identity : Identity} (copied : task.copy = some identity) :
    task.inside = true ∨ task.owes ≠ none := by
  cases task with
  | publish _ phase | rotate _ phase =>
    cases phase with
    | waiting => cases copied
    | _ => exact .inl rfl
  | serve => cases copied
  | encode _ _ nextSeq =>
    right
    rw [copy] at copied
    rw [owes]
    split at copied
    · cases copied
    next moved =>
      rw [if_neg moved]
      exact Option.some_ne_none nextSeq

theorem copy_of_owes {task : AuthorTask} (owing : task.owes ≠ none) : task.copy ≠ none := by
  intro nothing
  apply owing
  cases task with
  | publish _ phase =>
    cases phase with
    | saved => cases nothing
    | _ => rfl
  | serve | rotate => rfl
  | encode =>
    rw [copy] at nothing
    rw [owes]
    split at nothing
    next still => rw [if_pos still]
    · cases nothing

end AuthorTask

/-! ## What a step can do -/

section

variable (author : Author)

/-- The steps that change something, with what they find and what they leave.  In `quit` the
holder of the lock leaves it without writing the row. -/
inductive AuthorMove : AuthorInput -> Author -> Prop where
  | stay (input) : AuthorMove input author
  | publish (what) : AuthorMove (.publish what) (author.queue (.publish what .waiting))
  | rotate (removedPubkey) :
      AuthorMove (.rotate removedPubkey) (author.queue (.rotate removedPubkey .waiting))
  | take (id what identity) (found : author.tasks.get id = some (.publish what .waiting))
      (held : author.lock.holder = some id) (looked : author.lookupIdentity what = some identity) :
      AuthorMove (.acquire id) (author.setTask id (.publish what (.holding identity)))
  | read (id removedPubkey identity)
      (found : author.tasks.get id = some (.rotate removedPubkey .waiting))
      (held : author.lock.holder = some id) (row : author.row = some identity) :
      AuthorMove (.acquire id) (author.setTask id (.rotate removedPubkey (.read identity)))
  | quit (input id task) (found : author.tasks.get id = some task) (held : author.lock.holder = some id)
      (settled : task.owes = none)
      (spread : ∀ removedPubkey newKey now, task ≠ .rotate removedPubkey (.renewed newKey now)) :
      AuthorMove input (author.leave id)
  | compressed (id hash what identity)
      (found : author.tasks.get id = some (.publish what (.holding identity))) :
      AuthorMove (.storeCompressed id hash) ({ author with
          blobs := author.blobs.insert hash ⟨identity.feedKey, identity.msgSeqCounter⟩ }.setTask
          id (.publish what (.compressed identity hash)))
  | original (id hash compressedHash what identity)
      (found : author.tasks.get id = some (.publish what (.compressed identity compressedHash))) :
      AuthorMove (.storeOriginal id hash) ({ author with
          blobs := author.blobs.insert hash ⟨identity.feedKey, identity.msgSeqCounter⟩ }.setTask
          id (.publish what (.mediaStored identity compressedHash)))
  | saveEvent (id eventId createdAt ref what phase identity media key epoch)
      (found : author.tasks.get id = some (.publish what phase))
      (ready : (phase = .holding identity ∧ media = []) ∨
        ∃ hash, phase = .mediaStored identity hash ∧ media = [hash])
      (cached : author.cache = some (key, epoch)) : AuthorMove (.saveEvent id eventId createdAt ref) ({ author with
          events := author.events.insert eventId ⟨eventId, identity.pubkey, createdAt, what.kind, ref, media,
              some ⟨identity.pubkey, createdAt, epoch, ⟨key, identity.msgSeqCounter⟩⟩⟩
          sealed := author.sealed ++ [(eventId, Sealing.mk key identity.msgSeqCounter)] }.setTask
          id (.publish what (.saved identity)))
  | bump (id what identity) (found : author.tasks.get id = some (.publish what (.saved identity))) :
      AuthorMove (.bump id) ((author.saveIdentity { identity with msgSeqCounter := identity.msgSeqCounter + 1 }).setTask
          id (.publish what .bumped))
  | get (since identity) (row : author.row = some identity) : AuthorMove (.get since)
        { author with tasks := author.tasks.start (.serve since identity) }
  | refuse (since) (row : author.row = none) :
      AuthorMove (.get since) { author with tasks := author.tasks.skip }
  | list (id since identity left) (found : author.tasks.get id = some (.serve since identity)) :
      AuthorMove (.list id) (author.setTask id (.encode identity left identity.msgSeqCounter))
  | ship (id identity event left nextSeq)
      (found : author.tasks.get id = some (.encode identity (event :: left) nextSeq)) :
      AuthorMove (.turn id) (author.setTask id (.encode identity left nextSeq))
  | reseal (id identity event left nextSeq)
      (found : author.tasks.get id = some (.encode identity (event :: left) nextSeq))
      (missing : author.ships identity event = false) : AuthorMove (.turn id)
        ({ author with sealed := author.sealed ++ [(event.id, Sealing.mk identity.feedKey nextSeq)] }.setTask
          id (.encode identity left (nextSeq + 1)))
  | answer (id identity)
      (found : author.tasks.get id = some (.encode identity [] identity.msgSeqCounter)) :
      AuthorMove (.answer id) { author with tasks := author.tasks.finish id }
  | answerSaving (id identity nextSeq) (found : author.tasks.get id = some (.encode identity [] nextSeq))
      (moved : nextSeq ≠ identity.msgSeqCounter) : AuthorMove (.answer id)
        ({ author with tasks := author.tasks.finish id }.saveIdentity
          { identity with msgSeqCounter := nextSeq })
  | retire (id now removedPubkey identity)
      (found : author.tasks.get id = some (.rotate removedPubkey (.read identity))) :
      AuthorMove (.retire id now true)
        ({ author with history := author.history ++ [Author.retiredEntry identity now] }.setTask
          id (.rotate removedPubkey (.retired identity now)))
  | renew (id newKey removedPubkey identity now)
      (found : author.tasks.get id = some (.rotate removedPubkey (.retired identity now))) :
      AuthorMove (.renew id newKey)
        ((author.saveRenewed identity newKey now).setTask id (.rotate removedPubkey (.renewed newKey now)))
  | distribute (id removedPubkey newKey now)
      (found : author.tasks.get id = some (.rotate removedPubkey (.renewed newKey now))) :
      AuthorMove (.distribute id) ({ author with cache := some (newKey, 0) }.setTask id (.rotate removedPubkey .queued))
  | receive (event) : AuthorMove (.receive event)
        { author with
          events := author.events.insert event.id { event with encryptedPayload := none } }
  | crash : AuthorMove .crash author.crash

end

namespace Author

section Moves

variable {author : Author} {id : Nat}

theorem move_acquire : AuthorMove author (.acquire id) (author.acquire id) := by
  unfold acquire
  split
  next what found =>
    split
    next held =>
      split
      · exact .quit _ id _ found held rfl nofun
      next identity looked => exact .take id what identity found held looked
    · exact .stay _
  next removedPubkey found =>
    split
    next held =>
      split
      · exact .quit _ id _ found held rfl nofun
      next identity row => exact .read id removedPubkey identity found held row
    · exact .stay _
  · exact .stay _

theorem move_storeCompressed (hash) :
    AuthorMove author (.storeCompressed id hash) (author.storeCompressed id hash) := by
  unfold storeCompressed
  split
  next what identity found =>
    split
    · exact .compressed id hash what identity found
    · exact .stay _
  · exact .stay _

theorem move_storeOriginal (hash) : AuthorMove author (.storeOriginal id hash) (author.storeOriginal id hash) := by
  unfold storeOriginal
  split
  next what identity compressedHash found => exact .original id hash compressedHash what identity found
  · exact .stay _

section Holder

variable (guarded : Guarded AuthorTask.inside author.lock author.tasks)

include guarded

theorem move_abandon : AuthorMove author (.abandon id) (author.abandon id) := by
  unfold abandon
  split
  next found => exact .quit _ id _ found (guarded id _ found rfl) rfl nofun
  next found => exact .quit _ id _ found (guarded id _ found rfl) rfl nofun
  next found => exact .quit _ id _ found (guarded id _ found rfl) rfl nofun
  · exact .stay _

theorem move_publishEvent {eventId createdAt ref what phase identity media}
    (found : author.tasks.get id = some (.publish what phase))
    (ready : (phase = .holding identity ∧ media = []) ∨
      ∃ hash, phase = .mediaStored identity hash ∧ media = [hash]) :
    AuthorMove author (.saveEvent id eventId createdAt ref)
      (author.publishEvent id what identity media eventId createdAt ref) := by
  unfold publishEvent
  split
  · rcases ready with ⟨rfl, _⟩ | ⟨_, rfl, _⟩
    · exact .quit _ id _ found (guarded id _ found rfl) rfl nofun
    · exact .quit _ id _ found (guarded id _ found rfl) rfl nofun
  next key epoch cached =>
    exact .saveEvent id eventId createdAt ref what phase identity media key epoch found ready cached

theorem move_saveEvent (eventId createdAt ref) :
    AuthorMove author (.saveEvent id eventId createdAt ref) (author.saveEvent id eventId createdAt ref) := by
  unfold saveEvent
  split
  next found =>
    split
    · exact .stay _
    · exact move_publishEvent guarded found (.inl ⟨rfl, rfl⟩)
  next hash found => exact move_publishEvent guarded found (.inr ⟨hash, rfl, rfl⟩)
  · exact .stay _

theorem move_release : AuthorMove author (.release id) (author.release id) := by
  unfold release
  split
  next found => exact .quit _ id _ found (guarded id _ found rfl) rfl nofun
  · exact .stay _

theorem move_retire (now secretKey) :
    AuthorMove author (.retire id now secretKey) (author.retire id now secretKey) := by
  unfold retire
  split
  next removedPubkey identity found =>
    cases secretKey with
    | true => exact .retire id now removedPubkey identity found
    | false => exact .quit _ id _ found (guarded id _ found rfl) rfl nofun
  · exact .stay _

theorem move_sweep : AuthorMove author (.sweep id) (author.sweep id) := by
  unfold sweep
  split
  next found => exact .quit _ id _ found (guarded id _ found rfl) rfl nofun
  · exact .stay _

end Holder

theorem move_bump : AuthorMove author (.bump id) (author.bump id) := by
  unfold bump
  split
  next what identity found => exact .bump id what identity found
  · exact .stay _

theorem move_get (since) : AuthorMove author (.get since) (author.get since) := by
  unfold get
  split
  next row => exact .refuse since row
  next identity row => exact .get since identity row

theorem move_list : AuthorMove author (.list id) (author.list id) := by
  unfold list
  split
  next since identity found => exact .list id since identity _ found
  · exact .stay _

theorem move_turn : AuthorMove author (.turn id) (author.turn id) := by
  unfold turn
  split
  next identity event left nextSeq found =>
    split
    · exact .ship id identity event left nextSeq found
    next missing => exact .reseal id identity event left nextSeq found (Bool.not_eq_true _ ▸ missing)
  · exact .stay _

theorem move_answer : AuthorMove author (.answer id) (author.answer id) := by
  unfold answer
  split
  next identity nextSeq found =>
    split
    next same =>
      subst same
      exact .answer id identity found
    next moved => exact .answerSaving id identity nextSeq found moved
  · exact .stay _

theorem move_renew (newKey) : AuthorMove author (.renew id newKey) (author.renew id newKey) := by
  unfold renew
  split
  next removedPubkey identity now found => exact .renew id newKey removedPubkey identity now found
  · exact .stay _

theorem move_distribute : AuthorMove author (.distribute id) (author.distribute id) := by
  unfold distribute
  split
  next removedPubkey newKey now found => exact .distribute id removedPubkey newKey now found
  · exact .stay _

end Moves

theorem step_move {author next input} (guarded : Guarded AuthorTask.inside author.lock author.tasks)
    (stepped : author.step input = .ok next) : AuthorMove author input next := by
  cases input with cases stepped
  | publish what => exact .publish what
  | acquire => exact move_acquire
  | storeCompressed _ hash => exact move_storeCompressed hash
  | storeOriginal _ hash => exact move_storeOriginal hash
  | abandon => exact move_abandon guarded
  | saveEvent _ eventId createdAt ref => exact move_saveEvent guarded eventId createdAt ref
  | bump => exact move_bump
  | release => exact move_release guarded
  | get since => exact move_get since
  | list => exact move_list
  | turn => exact move_turn
  | answer => exact move_answer
  | rotate removedPubkey => exact .rotate removedPubkey
  | retire _ now secretKey => exact move_retire guarded now secretKey
  | renew _ newKey => exact move_renew newKey
  | distribute => exact move_distribute
  | sweep => exact move_sweep guarded
  | receive event => exact .receive event
  | crash => exact .crash

theorem guarded_move {author next input} (guarded : Guarded AuthorTask.inside author.lock author.tasks)
    (moved : AuthorMove author input next) : Guarded AuthorTask.inside next.lock next.tasks := by
  cases moved with
  | publish | rotate => exact guarded.enter rfl
  | take _ _ _ found held | read _ _ _ found held => exact guarded.update found (fun _ => held)
  | quit _ _ _ _ held => exact guarded.leave held
  | compressed id _ _ _ found | original id _ _ _ _ found | bump id _ _ found
  | retire id _ _ _ found | renew id _ _ _ _ found | distribute id _ _ _ found =>
    exact guarded.update found (fun _ => guarded id _ found rfl)
  | saveEvent id _ _ _ _ _ _ _ _ _ found ready =>
    rcases ready with ⟨rfl, _⟩ | ⟨_, rfl, _⟩
    · exact guarded.update found (fun _ => guarded id _ found rfl)
    · exact guarded.update found (fun _ => guarded id _ found rfl)
  | get => exact guarded.start rfl
  | list _ _ _ _ found => exact guarded.update found nofun
  | ship _ _ _ _ _ found => exact guarded.update found nofun
  | reseal _ _ _ _ _ found => exact guarded.update found nofun
  | answer id => exact guarded.finish id
  | answerSaving id => exact guarded.finish id
  | crash => exact Guarded.clear AuthorTask.inside author.tasks
  | _ => exact guarded

/-- The publish lock works for the whole author: publishing calls and rotations take turns. -/
theorem author_calls_exclusive (identity : Identity) (events : Table String EventRow) (inputs) :
    Ensures (run step (boot identity events) inputs) (fun author => ∀ first second one other,
      author.tasks.get first = some one -> author.tasks.get second = some other ->
        one.inside = true -> other.inside = true -> first = second) := by
  intro author reached first second one other foundOne foundOther insideOne insideOther
  have guarded : Guarded AuthorTask.inside author.lock author.tasks := by
    refine Reaches.invariant (fun _ _ _ guarded stepped => guarded_move guarded (step_move guarded stepped))
      ⟨inputs, reached⟩ ?_
    exact Guarded.empty AuthorTask.inside
  have held := guarded first one foundOne insideOne
  rw [guarded second other foundOther insideOther] at held
  exact (Option.some.inj held).symm

/-! ## Whose device it is -/

structure OwnedBy (author : Author) (pubkey : Pubkey) : Prop where
  row : ∀ identity, author.row = some identity -> identity.pubkey = pubkey
  provider : ∀ identity, author.provider = some identity -> identity.pubkey = pubkey
  tasks : author.tasks.All (fun _ task => ∀ identity, task.identity = some identity -> identity.pubkey = pubkey)

namespace OwnedBy

variable {author next : Author} {pubkey : Pubkey} {input : AuthorInput} {id : Nat} {old task : AuthorTask}

theorem advance (owned : author.OwnedBy pubkey) (found : author.tasks.get id = some old)
    (same : task.identity = old.identity ∨ task.identity = none) :
    (author.tasks.update id task).All (fun _ task => ∀ identity, task.identity = some identity ->
      identity.pubkey = pubkey) :=
  owned.tasks.update_view found same

theorem lookupIdentity (owned : author.OwnedBy pubkey) {what identity}
    (looked : author.lookupIdentity what = some identity) : identity.pubkey = pubkey := by
  unfold Author.lookupIdentity at looked
  split at looked
  · exact owned.provider identity looked
  · exact owned.row identity looked

theorem move (owned : author.OwnedBy pubkey) (moved : AuthorMove author input next) : next.OwnedBy pubkey := by
  cases moved with
  | stay => exact owned
  | publish | rotate => exact { owned with tasks := Jobs.All.start owned.tasks nofun }
  | take _ _ _ found _ looked =>
    refine { owned with tasks := owned.tasks.update found ?_ }
    rintro _ ⟨⟩
    exact owned.lookupIdentity looked
  | read _ _ identity found _ row =>
    refine { owned with tasks := owned.tasks.update found ?_ }
    rintro _ ⟨⟩
    exact owned.row identity row
  | quit _ id | answer id => exact { owned with tasks := owned.tasks.finish id }
  | compressed _ _ _ _ found | original _ _ _ _ _ found | list _ _ _ _ found
  | ship _ _ _ _ _ found | reseal _ _ _ _ _ found | retire _ _ _ _ found =>
    exact { owned with tasks := owned.advance found (.inl rfl) }
  | saveEvent _ _ _ _ _ _ _ _ _ _ found ready =>
    rcases ready with ⟨rfl, _⟩ | ⟨_, rfl, _⟩
    · exact { owned with tasks := owned.advance found (.inl rfl) }
    · exact { owned with tasks := owned.advance found (.inl rfl) }
  | bump id _ identity found =>
    refine { owned with row := ?_, tasks := owned.advance found (.inr rfl) }
    rintro _ ⟨⟩
    exact owned.tasks id _ found identity rfl
  | get _ identity row =>
    refine { owned with tasks := Jobs.All.start owned.tasks ?_ }
    rintro _ ⟨⟩
    exact owned.row identity row
  | refuse => exact { owned with }
  | answerSaving id identity _ found =>
    refine { owned with row := ?_, tasks := owned.tasks.finish id }
    rintro _ ⟨⟩
    exact owned.tasks id _ found identity rfl
  | renew id _ _ identity _ found =>
    refine { owned with row := ?_, tasks := owned.advance found (.inr rfl) }
    rintro _ ⟨⟩
    exact owned.tasks id _ found identity rfl
  | distribute _ _ _ _ found =>
    exact { owned with tasks := owned.advance found (.inr rfl) }
  | receive => exact { owned with }
  | crash => exact ⟨owned.row, owned.row, author.tasks.idle_clear.all⟩

theorem boot (identity events) : (boot identity events).OwnedBy identity.pubkey where
  row := by rintro _ ⟨⟩; rfl
  provider := by rintro _ ⟨⟩; rfl
  tasks := Jobs.Idle.all (fun _ => rfl)

end OwnedBy

end Author

end Starling.App
