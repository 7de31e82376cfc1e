import Starling.App.FollowKeys
import Starling.Foundation.Jobs
import Starling.Foundation.Run

namespace Starling.App

/-!
# The rows of people that are followed

A sync pass takes a copy of a follow row and keeps it across several network calls.  A new
key or card is saved by writing the whole copy back, with an upsert, and only the cursor and
the stamp of the full pass are written by column.  So a pass that overlaps with another one
for the same peer takes back what the other has written, and a pass that overlaps with
`unfollow` brings the row back.
-/

structure SyncDiff where
  newFeedKey : Option (SealedDelivery FeedKey)
  newConnectionCard : Option (SealedDelivery ConnectionCard)
  maxCreatedAt : Option Int

def Follow.fullSyncDue (follow : Follow) (now : Int) : Bool :=
  decide (follow.lastFullSyncAt = 0 ∨ 86400 ≤ now - follow.lastFullSyncAt)

namespace SyncDiff

def keyFor (diff : SyncDiff) (follow : Follow) (able : Bool) : Option (FeedKey × Int) :=
  if able then
    diff.newFeedKey.bind (fun delivery =>
      (follow.keyFrom delivery).map (fun newKey => (newKey, delivery.createdAt)))
  else none

def cardFor (diff : SyncDiff) (follow : Follow) (able : Bool) : Option (ConnectionCard × Int) :=
  if able then
    diff.newConnectionCard.bind (fun delivery =>
      (follow.cardFrom delivery).map (fun card => (card, delivery.createdAt)))
  else none

/-- Where `_advanceCursor` moves the cursor of a follow, if it moves it. -/
def cursorFor (diff : SyncDiff) (follow : Follow) (now : Int) : Option Int :=
  (diff.maxCreatedAt.map (fun maxAt => min maxAt (now + 300))).filter (fun clamped => follow.lastSyncedAt < clamped)

variable {diff : SyncDiff} {follow : Follow}

theorem keyFor_fresh {able newKey createdAt} (applied : diff.keyFor follow able = some (newKey, createdAt)) :
    follow.lastReceivedRotationAt ≤ createdAt := by
  unfold keyFor at applied
  split at applied
  · rcases Option.bind_eq_some_iff.mp applied with ⟨_, _, opened⟩
    rcases Option.map_eq_some_iff.mp opened with ⟨_, kept, same⟩
    cases same
    unfold Follow.keyFrom at kept
    split at kept
    · cases kept
    next late => exact Int.not_lt.mp late
  · cases applied

theorem cardFor_fresh {able card createdAt} (applied : diff.cardFor follow able = some (card, createdAt)) :
    follow.lastReceivedCardAt ≤ createdAt := by
  unfold cardFor at applied
  split at applied
  · rcases Option.bind_eq_some_iff.mp applied with ⟨_, _, opened⟩
    rcases Option.map_eq_some_iff.mp opened with ⟨_, kept, same⟩
    cases same
    unfold Follow.cardFrom at kept
    split at kept
    · cases kept
    next late => exact Int.not_lt.mp late
  · cases applied

end SyncDiff

inductive SyncPhase where
  | started
  | fetched (diff : SyncDiff) (ranFull : Bool)
  | archived (diff : SyncDiff) (ranFull : Bool) (newKey : FeedKey) (createdAt : Int)
  | keyed (current : Follow) (diff : SyncDiff) (ranFull : Bool)
  | carded (diff : SyncDiff) (ranFull : Bool)
  | advanced (ranFull : Bool)

inductive FollowTask where
  | pass (follow : Follow) (phase : SyncPhase)
  /-- `ingestFollowAccept` before it has opened the key. -/
  | reading (pubkey : Pubkey)
  | opened (pubkey : Pubkey) (card : ConnectionCard) (feedKey : FeedKey) (epoch : Int)
  /-- `unfollow` after it has removed the row. -/
  | leaving (pubkey : Pubkey)

def FollowTask.pubkey : FollowTask -> Pubkey
  | .pass follow _ => follow.pubkey
  | .reading pubkey => pubkey
  | .opened pubkey _ _ _ => pubkey
  | .leaving pubkey => pubkey

inductive FollowEvent where
  | ingesting (pubkey : Pubkey)
  | created (pubkey : Pubkey) (feedKey : FeedKey)
  | applied (pubkey : Pubkey) (createdAt : Int) (feedKey : FeedKey)
  /-- `unfollow` has returned. -/
  | unfollowed (pubkey : Pubkey)

structure FollowStore where
  clock : Int
  follows : Table Pubkey Follow
  history : List FollowKeyRow
  tasks : Jobs FollowTask
  /-- What happened; no call reads it. -/
  log : List FollowEvent

/-- The next step of some call.  `fail` ends a call at a point where it can throw or has
nothing more to do, and `note` writes `last_decrypt_failure_at`. -/
inductive FollowInput where
  | syncNow
  | syncOnePeerByPubkey (pubkey : Pubkey)
  | fetch (id : Nat) (diff : SyncDiff) (hasOlder : Bool)
  | applyKey (id : Nat) (able : Bool)
  | saveKey (id : Nat)
  | applyCard (id : Nat) (able : Bool)
  | advance (id : Nat)
  | stampFull (id : Nat)
  | fail (id : Nat)
  | note (pubkey : Pubkey) (failure : Option Int)
  | ingest (pubkey : Pubkey)
  | openKey (id : Nat) (card : ConnectionCard) (feedKey : FeedKey) (epoch : Int)
  | saveFollow (id : Nat)
  | unfollow (pubkey : Pubkey)
  | returned (id : Nat)
  | setClock (now : Int)

namespace FollowStore

variable {store next : FollowStore} {input : FollowInput} {id : Nat} {old task : FollowTask}
  {pubkey : Pubkey}

section

variable (store : FollowStore)

section

variable (id : Nat)

def setTask (task : FollowTask) : FollowStore :=
  { store with tasks := store.tasks.update id task }

def finish (store : FollowStore) (id : Nat) : FollowStore :=
  { store with tasks := store.tasks.finish id }

def record (event : FollowEvent) : FollowStore :=
  { store with log := store.log ++ [event] }

/-- `upsertFollow`: the whole row. -/
def upsert (follow : Follow) : FollowStore :=
  { store with follows := store.follows.insert follow.pubkey follow }

/-- An `UPDATE` of some columns; nothing happens if there is no row. -/
def updateRow (follows : Table Pubkey Follow) (pubkey : Pubkey) (change : Follow -> Follow) : Table Pubkey Follow :=
  match follows.lookup pubkey with
  | none => follows
  | some row => follows.insert pubkey (change row)

theorem lookup_updateRow (follows pubkey target change) : (updateRow follows pubkey change).lookup target =
      if target = pubkey then (follows.lookup target).map change else follows.lookup target := by
  rw [updateRow]
  cases found : follows.lookup pubkey with
  | none =>
    dsimp only
    split
    next same =>
      rw [same, found]
      rfl
    · rfl
  | some =>
    rw [Table.lookup_insert_eq]
    split
    next same =>
      rw [same, found]
      rfl
    · rfl

def start (store : FollowStore) (task : FollowTask) : FollowStore :=
  { store with tasks := store.tasks.start task }

def startAll (store : FollowStore) : List Follow -> FollowStore
  | [] => store
  | follow :: rest => (store.start (.pass follow .started)).startAll rest

/-- `getFollows`, and a pass for each of them. -/
def syncNow : FollowStore := store.startAll (store.follows.entries.map Sigma.snd)

def syncOnePeerByPubkey (pubkey : Pubkey) : FollowStore :=
  match store.follows.lookup pubkey with
  | none => store
  | some follow => store.start (.pass follow .started)

def fetch (diff : SyncDiff) (hasOlder : Bool) : FollowStore :=
  match store.tasks.get id with
  | some (.pass follow .started) =>
    store.setTask id (.pass follow (.fetched diff (follow.fullSyncDue store.clock || hasOlder)))
  | _ => store

/-- `_applyRotatedFeedKey` up to the save; what it throws is caught. -/
def applyKey (able : Bool) : FollowStore :=
  match store.tasks.get id with
  | some (.pass follow (.fetched diff ranFull)) =>
    match diff.keyFor follow able with
    | none => store.setTask id (.pass follow (.keyed follow diff ranFull))
    | some (newKey, createdAt) =>
      { store with history := store.history ++ follow.archive createdAt }.setTask
        id (.pass follow (.archived diff ranFull newKey createdAt))
  | _ => store

def saveKey : FollowStore :=
  match store.tasks.get id with
  | some (.pass follow (.archived diff ranFull newKey createdAt)) =>
    ((store.upsert (follow.withKey newKey createdAt)).record (.applied follow.pubkey createdAt newKey)).setTask
      id (.pass follow (.keyed (follow.withKey newKey createdAt) diff ranFull))
  | _ => store

/-- `_applyConnectionCard`. -/
def applyCard (able : Bool) : FollowStore :=
  match store.tasks.get id with
  | some (.pass follow (.keyed current diff ranFull)) =>
    match diff.cardFor current able with
    | none => store.setTask id (.pass follow (.carded diff ranFull))
    | some (card, createdAt) =>
      (store.upsert (current.withCard card createdAt)).setTask id (.pass follow (.carded diff ranFull))
  | _ => store

/-- `_advanceCursor`, which compares with the row as it was when the pass began. -/
def advance : FollowStore :=
  match store.tasks.get id with
  | some (.pass follow (.carded diff ranFull)) =>
    match diff.cursorFor follow store.clock with
    | none => store.setTask id (.pass follow (.advanced ranFull))
    | some clamped =>
      { store with
        follows := updateRow store.follows follow.pubkey (fun row => { row with lastSyncedAt := clamped }) }.setTask
        id (.pass follow (.advanced ranFull))
  | _ => store

def stampFull : FollowStore :=
  match store.tasks.get id with
  | some (.pass follow (.advanced true)) =>
    { store with
      follows := updateRow store.follows follow.pubkey
        (fun row => { row with lastFullSyncAt := store.clock }) }.finish id
  | some (.pass _ (.advanced false)) => store.finish id
  | _ => store

def fail : FollowStore :=
  match store.tasks.get id with
  | some (.pass _ .started) => store.finish id
  | some (.pass _ (.carded _ _)) => store.finish id
  | some (.reading _) => store.finish id
  | some (.leaving _) => store.finish id
  | _ => store

def note (pubkey : Pubkey) (failure : Option Int) : FollowStore :=
  { store with
    follows := updateRow store.follows pubkey (fun row => { row with lastDecryptFailureAt := failure }) }

/-! ## Accepts and unfollow -/

/-- The row that `ingestFollowAccept` saves. -/
def newFollow (pubkey : Pubkey) (card : ConnectionCard) (feedKey : FeedKey) (epoch : Int) : Follow :=
  ⟨pubkey, card, feedKey, epoch, 0, 0, 0, 0, none⟩

def ingest (pubkey : Pubkey) : FollowStore := (store.start (.reading pubkey)).record (.ingesting pubkey)

def openKey (card : ConnectionCard) (feedKey : FeedKey) (epoch : Int) :
    FollowStore :=
  match store.tasks.get id with
  | some (.reading pubkey) => store.setTask id (.opened pubkey card feedKey epoch)
  | _ => store

def saveFollow : FollowStore :=
  match store.tasks.get id with
  | some (.opened pubkey card feedKey epoch) =>
    ((store.upsert (newFollow pubkey card feedKey epoch)).record (.created pubkey feedKey)).finish id
  | _ => store

def unfollow (pubkey : Pubkey) : FollowStore :=
  { store with follows := store.follows.erase pubkey }.start (.leaving pubkey)

def returned : FollowStore :=
  match store.tasks.get id with
  | some (.leaving pubkey) => (store.finish id).record (.unfollowed pubkey)
  | _ => store

end

def step : FollowInput -> Except Empty FollowStore
  | .syncNow => .ok store.syncNow
  | .syncOnePeerByPubkey pubkey => .ok (store.syncOnePeerByPubkey pubkey)
  | .fetch id diff hasOlder => .ok (store.fetch id diff hasOlder)
  | .applyKey id able => .ok (store.applyKey id able)
  | .saveKey id => .ok (store.saveKey id)
  | .applyCard id able => .ok (store.applyCard id able)
  | .advance id => .ok (store.advance id)
  | .stampFull id => .ok (store.stampFull id)
  | .fail id => .ok (store.fail id)
  | .note pubkey failure => .ok (store.note pubkey failure)
  | .ingest pubkey => .ok (store.ingest pubkey)
  | .openKey id card feedKey epoch => .ok (store.openKey id card feedKey epoch)
  | .saveFollow id => .ok (store.saveFollow id)
  | .unfollow pubkey => .ok (store.unfollow pubkey)
  | .returned id => .ok (store.returned id)
  | .setClock now => .ok { store with clock := now }

end

def boot (now : Nat) : FollowStore where
  clock := now
  follows := ∅
  history := []
  tasks := Jobs.empty
  log := []

end FollowStore

/-! ## What a step can do -/

section

variable (store : FollowStore)

inductive FollowMove : FollowInput -> FollowStore -> Prop where
  | stay (input) : FollowMove input store
  | drop (input id) : FollowMove input (store.finish id)
  | syncNow : FollowMove .syncNow (store.startAll (store.follows.entries.map Sigma.snd))
  | syncOne (pubkey follow) (row : store.follows.lookup pubkey = some follow) :
      FollowMove (.syncOnePeerByPubkey pubkey) (store.start (.pass follow .started))
  | fetch (id diff hasOlder follow ranFull) (found : store.tasks.get id = some (.pass follow .started)) :
      FollowMove (.fetch id diff hasOlder) (store.setTask id (.pass follow (.fetched diff ranFull)))
  | skipKey (id able follow diff ranFull)
      (found : store.tasks.get id = some (.pass follow (.fetched diff ranFull))) :
      FollowMove (.applyKey id able) (store.setTask id (.pass follow (.keyed follow diff ranFull)))
  | archive (id able follow diff ranFull newKey createdAt)
      (found : store.tasks.get id = some (.pass follow (.fetched diff ranFull)))
      (fresh : follow.lastReceivedRotationAt ≤ createdAt) : FollowMove (.applyKey id able)
        ({ store with history := store.history ++ follow.archive createdAt }.setTask
          id (.pass follow (.archived diff ranFull newKey createdAt)))
  | saveKey (id follow diff ranFull newKey createdAt)
      (found : store.tasks.get id = some (.pass follow (.archived diff ranFull newKey createdAt))) :
      FollowMove (.saveKey id) (((store.upsert (follow.withKey newKey createdAt)).record
          (.applied follow.pubkey createdAt newKey)).setTask
          id (.pass follow (.keyed (follow.withKey newKey createdAt) diff ranFull)))
  | skipCard (id able follow current diff ranFull)
      (found : store.tasks.get id = some (.pass follow (.keyed current diff ranFull))) :
      FollowMove (.applyCard id able) (store.setTask id (.pass follow (.carded diff ranFull)))
  | saveCard (id able follow current diff ranFull card createdAt)
      (found : store.tasks.get id = some (.pass follow (.keyed current diff ranFull)))
      (fresh : current.lastReceivedCardAt ≤ createdAt) : FollowMove (.applyCard id able)
        ((store.upsert (current.withCard card createdAt)).setTask id (.pass follow (.carded diff ranFull)))
  | skipCursor (id follow diff ranFull)
      (found : store.tasks.get id = some (.pass follow (.carded diff ranFull))) :
      FollowMove (.advance id) (store.setTask id (.pass follow (.advanced ranFull)))
  | advance (id follow diff ranFull clamped)
      (found : store.tasks.get id = some (.pass follow (.carded diff ranFull)))
      (above : follow.lastSyncedAt < clamped) : FollowMove (.advance id) ({ store with
          follows := FollowStore.updateRow store.follows follow.pubkey
            (fun row => { row with lastSyncedAt := clamped }) }.setTask
          id (.pass follow (.advanced ranFull)))
  | stampFull (id follow) (found : store.tasks.get id = some (.pass follow (.advanced true))) :
      FollowMove (.stampFull id) ({ store with
          follows := FollowStore.updateRow store.follows follow.pubkey
            (fun row => { row with lastFullSyncAt := store.clock }) }.finish id)
  | note (pubkey failure) : FollowMove (.note pubkey failure)
        { store with
          follows := FollowStore.updateRow store.follows pubkey
            (fun row => { row with lastDecryptFailureAt := failure }) }
  | ingest (pubkey) :
      FollowMove (.ingest pubkey) ((store.start (.reading pubkey)).record (.ingesting pubkey))
  | openKey (id pubkey card feedKey epoch) (found : store.tasks.get id = some (.reading pubkey)) :
      FollowMove (.openKey id card feedKey epoch) (store.setTask id (.opened pubkey card feedKey epoch))
  | saveFollow (id pubkey card feedKey epoch)
      (found : store.tasks.get id = some (.opened pubkey card feedKey epoch)) :
      FollowMove (.saveFollow id) (((store.upsert (FollowStore.newFollow pubkey card feedKey epoch)).record
          (.created pubkey feedKey)).finish id)
  | unfollow (pubkey) : FollowMove (.unfollow pubkey)
        ({ store with follows := store.follows.erase pubkey }.start (.leaving pubkey))
  | returned (id pubkey) (found : store.tasks.get id = some (.leaving pubkey)) :
      FollowMove (.returned id) ((store.finish id).record (.unfollowed pubkey))
  | setClock (now) : FollowMove (.setClock now) { store with clock := now }

end

namespace FollowStore

section Moves

variable {store next : FollowStore} {id : Nat}

theorem move_syncOne (pubkey) : FollowMove store (.syncOnePeerByPubkey pubkey) (store.syncOnePeerByPubkey pubkey) := by
  unfold syncOnePeerByPubkey
  split
  · exact .stay _
  next follow row => exact .syncOne pubkey follow row

theorem move_fetch (diff hasOlder) : FollowMove store (.fetch id diff hasOlder) (store.fetch id diff hasOlder) := by
  unfold fetch
  split
  next follow found => exact .fetch id diff hasOlder follow _ found
  · exact .stay _

theorem move_applyKey (able) : FollowMove store (.applyKey id able) (store.applyKey id able) := by
  unfold applyKey
  split
  next follow diff ranFull found =>
    split
    · exact .skipKey id able follow diff ranFull found
    next newKey createdAt applied =>
      exact .archive id able follow diff ranFull newKey createdAt found (SyncDiff.keyFor_fresh applied)
  · exact .stay _

theorem move_saveKey : FollowMove store (.saveKey id) (store.saveKey id) := by
  unfold saveKey
  split
  next follow diff ranFull newKey createdAt found =>
    exact .saveKey id follow diff ranFull newKey createdAt found
  · exact .stay _

theorem move_applyCard (able) : FollowMove store (.applyCard id able) (store.applyCard id able) := by
  unfold applyCard
  split
  next follow current diff ranFull found =>
    split
    · exact .skipCard id able follow current diff ranFull found
    next card createdAt applied =>
      exact .saveCard id able follow current diff ranFull card createdAt found (SyncDiff.cardFor_fresh applied)
  · exact .stay _

theorem move_advance : FollowMove store (.advance id) (store.advance id) := by
  unfold advance
  split
  next follow diff ranFull found =>
    split
    · exact .skipCursor id follow diff ranFull found
    next clamped moves =>
      have above := of_decide_eq_true (Option.filter_eq_some_iff.mp moves).2
      exact .advance id follow diff ranFull clamped found above
  · exact .stay _

theorem move_stampFull : FollowMove store (.stampFull id) (store.stampFull id) := by
  unfold stampFull
  split
  next follow found => exact .stampFull id follow found
  · exact .drop _ id
  · exact .stay _

theorem move_fail : FollowMove store (.fail id) (store.fail id) := by
  unfold fail
  split
  · exact .drop _ id
  · exact .drop _ id
  · exact .drop _ id
  · exact .drop _ id
  · exact .stay _

theorem move_openKey (card feedKey epoch) :
    FollowMove store (.openKey id card feedKey epoch) (store.openKey id card feedKey epoch) := by
  unfold openKey
  split
  next pubkey found => exact .openKey id pubkey card feedKey epoch found
  · exact .stay _

theorem move_saveFollow : FollowMove store (.saveFollow id) (store.saveFollow id) := by
  unfold saveFollow
  split
  next pubkey card feedKey epoch found => exact .saveFollow id pubkey card feedKey epoch found
  · exact .stay _

theorem move_returned : FollowMove store (.returned id) (store.returned id) := by
  unfold returned
  split
  next pubkey found => exact .returned id pubkey found
  · exact .stay _

theorem step_move {input} (stepped : store.step input = .ok next) : FollowMove store input next := by
  cases input with cases stepped
  | syncNow => exact .syncNow
  | syncOnePeerByPubkey pubkey => exact move_syncOne pubkey
  | fetch _ diff hasOlder => exact move_fetch diff hasOlder
  | applyKey _ able => exact move_applyKey able
  | saveKey => exact move_saveKey
  | applyCard _ able => exact move_applyCard able
  | advance => exact move_advance
  | stampFull => exact move_stampFull
  | fail => exact move_fail
  | note pubkey failure => exact .note pubkey failure
  | ingest pubkey => exact .ingest pubkey
  | openKey _ card feedKey epoch => exact move_openKey card feedKey epoch
  | saveFollow => exact move_saveFollow
  | unfollow pubkey => exact .unfollow pubkey
  | returned => exact move_returned
  | setClock now => exact .setClock now

end Moves

end FollowStore

end Starling.App
