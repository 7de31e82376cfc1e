import Mathlib.Algebra.Ring.Nat
import Mathlib.Data.Finset.Image
import Mathlib.Data.Finset.SDiff
import Starling.App.SyncPass

namespace Starling.App

open List

/-!
# The relay reconcile

`RelayPushCoordinator` compares the own events with what the paired relay lists.  It pushes
what the relay lacks and withdraws what is dead: the targets of own tombstones, and the
posts below the prune horizon.  A relay that is full is relieved of the oldest posts once.

The relay is known only by its answers, and what is sent may change it in any way.  A pass
leaves a list of errands, one for each list of ids or hashes that it works off; the requests
that an errand is cut into are the link's affair.  Dart sets are finite sets.
-/

/-! ## What is alive and what is dead -/

structure RelayPushItem where
  id : String
  encryptedEvent : EncryptedEvent

/-- `_DeadState`. -/
structure DeadState where
  deadIds : Finset String
  liveHashes : Finset String
  deadOnlyHashes : Finset String

def EventRow.isPost (event : EventRow) : Bool := decide (event.kind = 1)

def EventRow.isTombstone (event : EventRow) : Bool := decide (event.kind = 6)

section

variable (events : List EventRow) (pruneBefore : Int)

def mediaHashes : Finset String := ((events.flatMap EventRow.media).filter (fun hash => hash ≠ "")).toFinset

def tombstoneIds : Finset String := ((events.filter EventRow.isTombstone).map EventRow.id).toFinset

def tombstonedRefs : Finset String :=
  (((events.filter EventRow.isTombstone).filterMap EventRow.ref).filter (fun ref => ref ≠ "")).toFinset

def prunedIds : Finset String :=
  ((events.filter (fun event => event.isPost && decide (event.createdAt < pruneBefore))).map EventRow.id).toFinset

def deadIds : Finset String := (tombstonedRefs events ∪ prunedIds events pruneBefore) \ tombstoneIds events

/-- `_deadState`. -/
def deadState : DeadState :=
  let dead := deadIds events pruneBefore
  let liveHashes := mediaHashes (events.filter (fun event => event.id ∉ dead))
  let deadHashes := mediaHashes (events.filter (fun event => event.id ∈ dead))
  ⟨dead, liveHashes, deadHashes \ liveHashes⟩

/-- `_missingItems`: no chatroom kinds, nothing dead, nothing that the relay has, and nothing
without a stored payload. -/
def missingItems (present dead : Finset String) : List RelayPushItem :=
  events.filterMap (fun event =>
    if event.roomScoped then none
    else if event.id ∈ dead then none
    else if event.id ∈ present then none
    else event.encryptedPayload.map (fun payload => ⟨event.id, payload⟩))

/-! ## Making room -/

def pruneCandidates (dead missingIds : Finset String) : List EventRow :=
  inOrder EventRow.createdAt (events.filter (fun event =>
    event.isPost && decide (event.id ∉ dead) && decide (event.id ∉ missingIds)))

end

def newestPruned (size : EncryptedEvent -> Nat) (needed : Nat) :
    Nat -> Option EventRow -> List EventRow -> Option EventRow
  | _, newest, [] => newest
  | accumulated, newest, event :: rest =>
    if needed * 2 ≤ accumulated then newest
    else
      match event.encryptedPayload with
      | none => newestPruned size needed accumulated newest rest
      | some payload => newestPruned size needed (accumulated + size payload) (some event) rest

/-- The horizon that makes room for what is missing: everything up to the newest pruned post
ages off. -/
def pruneHorizon (size : EncryptedEvent -> Nat) (missing : List RelayPushItem)
    (candidates : List EventRow) : Option Int :=
  let needed := (missing.map (fun item => size item.encryptedEvent)).sum
  (newestPruned size needed 0 none candidates).map (fun newest => newest.createdAt + 1)

/-! ## The relay -/

structure PushFailure where
  text : String
  statusCode : Option Nat

inductive Errand where
  | pushEvents (items : List RelayPushItem)
  | deleteEvents (ids : Finset String)
  | pushMedia (hashes : Finset String)
  | deleteMedia (hashes : Finset String)

/-- A relay with the way to it.  `eventIds` and `mediaHashes` are the two pagers, which give
nothing if a page cannot be fetched.  `pushEvents` tells how many items were rejected, and
`pushMedia` how many blobs could not be uploaded. -/
structure RelayLink (ρ : Type) where
  eventIds : ρ -> Option (Finset String)
  mediaHashes : ρ -> Option (Finset String)
  pushEvents : ρ -> List RelayPushItem -> ρ × Except PushFailure Nat
  deleteEvents : ρ -> Finset String -> ρ × Except PushFailure Unit
  pushMedia : ρ -> Finset String -> ρ × Nat
  deleteMedia : ρ -> Finset String -> ρ × Except PushFailure Unit

/-- The state of a pass.  `pruneBefore` is the stored horizon. -/
structure Session (ρ : Type) where
  relay : ρ
  errands : List Errand
  pruneBefore : Int

namespace Session

variable {ρ : Type} (link : RelayLink ρ)

/-- `_pushEventsChunked`; without items it is not called. -/
def pushEvents (session : Session ρ) (items : List RelayPushItem) : Session ρ × Except PushFailure Nat :=
  if items = [] then (session, .ok 0)
  else
    let answer := link.pushEvents session.relay items
    ({ session with relay := answer.1, errands := session.errands ++ [.pushEvents items] }, answer.2)

/-- `_deleteEventsChunked`, which sends nothing if there is nothing to delete. -/
def deleteEvents (session : Session ρ) (ids : Finset String) : Session ρ × Except PushFailure Unit :=
  if ids = ∅ then (session, .ok ())
  else
    let answer := link.deleteEvents session.relay ids
    ({ session with relay := answer.1, errands := session.errands ++ [.deleteEvents ids] }, answer.2)

def onDisk (mediaBytes : String -> Option Bytes) (hashes : Finset String) : Finset String :=
  hashes.filter (fun hash => hash ≠ "" ∧ (mediaBytes hash).isSome = true)

/-- `_pushMediaHashes`, which leaves out what is not on disk. -/
def pushMedia (mediaBytes : String -> Option Bytes) (session : Session ρ) (hashes : Finset String) :
    Session ρ × Nat :=
  let stored := onDisk mediaBytes hashes
  if stored = ∅ then (session, 0)
  else
    let answer := link.pushMedia session.relay stored
    ({ session with relay := answer.1, errands := session.errands ++ [.pushMedia stored] }, answer.2)

def deleteMedia (session : Session ρ) (hashes : Finset String) : Session ρ × Except PushFailure Unit :=
  if hashes = ∅ then (session, .ok ())
  else
    let answer := link.deleteMedia session.relay hashes
    ({ session with relay := answer.1, errands := session.errands ++ [.deleteMedia hashes] }, answer.2)

variable (size : EncryptedEvent -> Nat)

/-- `_pruneForSpace`: the horizon is stored before anything is deleted.  What is left on the
relay comes back, or nothing if no post can go. -/
def pruneForSpace (session : Session ρ) (events : List EventRow) (missing : List RelayPushItem)
    (present dead : Finset String) : Session ρ × Except PushFailure (Option (Finset String)) :=
  let candidates := pruneCandidates events dead (missing.map RelayPushItem.id).toFinset
  match pruneHorizon size missing candidates with
  | none => (session, .ok none)
  | some horizon =>
    let pruned := ((candidates.filter (fun event => event.createdAt < horizon)).map EventRow.id).toFinset
    let prunedPresent := present ∩ pruned
    let deleted := deleteEvents link { session with pruneBefore := horizon } prunedPresent
    (deleted.1, deleted.2.map (fun _ => some (present \ prunedPresent)))

structure Pushed where
  present : Finset String
  rejected : Nat

/-- The pushes of a pass.  A full relay answers 507; then room is made, and the push is tried
once more. -/
def pushMissing (session : Session ρ) (events : List EventRow) (present : Finset String) :
    Session ρ × Except PushFailure Pushed :=
  let dead := deadIds events session.pruneBefore
  let missing := missingItems events present dead
  let first := pushEvents link session missing
  match first.2 with
  | .ok rejected => (first.1, .ok ⟨present, rejected⟩)
  | .error failure =>
    if failure.statusCode = some 507 then
      let freed := pruneForSpace link size first.1 events missing present dead
      match freed.2 with
      | .error refused => (freed.1, .error refused)
      | .ok none => (freed.1, .error failure)
      | .ok (some left) =>
        let second := pushEvents link freed.1 (missingItems events left (deadIds events freed.1.pruneBefore))
        (second.1, second.2.map (fun rejected => ⟨left, rejected⟩))
    else (first.1, .error failure)

/-- What `_syncToRelay` returns. -/
structure Verdict where
  converged : Option Bool
  error : Option String

def failures (answer : Except PushFailure Unit) : Nat :=
  match answer with
  | .ok _ => 0
  | .error _ => 1

def verdict (rejected pushFailures deleteFailures : Nat) : Verdict :=
  if rejected = 0 ∧ pushFailures = 0 ∧ deleteFailures = 0 then ⟨some true, none⟩
  else ⟨some false, some ("sync incomplete: " ++ toString rejected ++ " rejected, " ++
    toString pushFailures ++ " media failures, " ++ toString deleteFailures ++ " delete failures")⟩

def withdraw (mediaBytes : String -> Option Bytes) (session : Session ρ) (events : List EventRow)
    (pushed : Pushed) : Session ρ × Verdict :=
  let dead := deadState events session.pruneBefore
  let deleted := deleteEvents link session (pushed.present ∩ dead.deadIds)
  match link.mediaHashes deleted.1.relay with
  | none => (deleted.1, ⟨none, some "relay unreachable (media manifest fetch failed)"⟩)
  | some relayHashes =>
    let uploaded := pushMedia link mediaBytes deleted.1 (dead.liveHashes \ relayHashes)
    let removed := deleteMedia link uploaded.1 (dead.deadOnlyHashes ∩ relayHashes)
    (removed.1, verdict pushed.rejected uploaded.2 (failures deleted.2 + failures removed.2))

/-- `_syncToRelay`. -/
def syncToRelay (mediaBytes : String -> Option Bytes) (session : Session ρ) (events : List EventRow) :
    Session ρ × Except PushFailure Verdict :=
  match link.eventIds session.relay with
  | none => (session, .ok ⟨none, some "relay unreachable (manifest fetch failed)"⟩)
  | some present =>
    let pushed := pushMissing link size session events present
    match pushed.2 with
    | .error failure => (pushed.1, .error failure)
    | .ok result =>
      let withdrawn := withdraw link mediaBytes pushed.1 events result
      (withdrawn.1, .ok withdrawn.2)

end Session

/-! ## When a pass runs -/

structure Coordinator where
  running : Bool
  lastPassConverged : Bool
  lastLocalSig : Option Int
  lastFullPassAt : Int

/-- The row of the relay.  `lastPushAt` and `lastError` are for the settings screen. -/
structure PairedRelay where
  relayId : String
  backfillComplete : Bool
  relayPruneBefore : Int
  lastPushAt : Option Int
  lastError : Option String

def reconcileCooldown : Int := 600

def Coordinator.shortCircuits (coordinator : Coordinator) (force : Bool) (localSig now : Int) : Bool :=
  !force && coordinator.lastPassConverged && decide (coordinator.lastLocalSig = some localSig) &&
    decide (now - coordinator.lastFullPassAt < reconcileCooldown)

/-- What a call of `_reconcileAndMark` leaves behind. -/
structure Reconciled (ρ : Type) where
  coordinator : Coordinator
  paired : PairedRelay
  session : Session ρ

section Reconciling

variable {ρ : Type} (link : RelayLink ρ) (size : EncryptedEvent -> Nat)
  (mediaBytes : String -> Option Bytes) (hash : Int -> List String -> Int)

/-- `_localStateSignature`. -/
def localStateSignature (events : List EventRow) (pruneBefore : Int) : Int := hash pruneBefore (events.map EventRow.id)

def fullPass (coordinator : Coordinator) (paired : PairedRelay) (relay : ρ) (events : List EventRow)
    (localSig now : Int) : Reconciled ρ :=
  let synced := Session.syncToRelay link size mediaBytes ⟨relay, [], paired.relayPruneBefore⟩ events
  let row := { paired with relayPruneBefore := synced.1.pruneBefore }
  match synced.2 with
  | .error failure =>
    ⟨{ coordinator with lastPassConverged := false }, { row with lastError := some failure.text }, synced.1⟩
  | .ok verdict =>
    match verdict.converged with
    | none =>
      ⟨{ coordinator with lastPassConverged := false },
        { row with lastError := verdict.error <|> row.lastError }, synced.1⟩
    | some true =>
      ⟨{ coordinator with
          lastPassConverged := true, lastLocalSig := some localSig, lastFullPassAt := now },
        { row with lastPushAt := some now, lastError := none, backfillComplete := true }, synced.1⟩
    | some false =>
      ⟨{ coordinator with
          lastPassConverged := false, lastLocalSig := some localSig, lastFullPassAt := now },
        { row with lastError := verdict.error <|> row.lastError, backfillComplete := false }, synced.1⟩

/-- `_reconcileAndMark`, for a relay that is paired.  `backfill` forces a pass. -/
def reconcileAndMark (coordinator : Coordinator) (paired : PairedRelay) (relay : ρ) (events : List EventRow)
    (force : Bool) (now : Int) : Reconciled ρ :=
  let localSig := localStateSignature hash events paired.relayPruneBefore
  if coordinator.running || coordinator.shortCircuits force localSig now then
    ⟨coordinator, paired, ⟨relay, [], paired.relayPruneBefore⟩⟩
  else fullPass link size mediaBytes coordinator paired relay events localSig now

end Reconciling

variable {events : List EventRow}

theorem mem_missingItems {present dead item} :
    item ∈ missingItems events present dead ↔ ∃ event ∈ events, event.roomScoped = false ∧
      event.id ∉ dead ∧ event.id ∉ present ∧ event.id = item.id ∧
      event.encryptedPayload = some item.encryptedEvent := by
  unfold missingItems
  rw [mem_filterMap]
  constructor
  · rintro ⟨event, member, kept⟩
    split at kept
    · cases kept
    next noRoom =>
      split at kept
      · cases kept
      next alive =>
        split at kept
        · cases kept
        next absent =>
          rcases Option.map_eq_some_iff.mp kept with ⟨_, stored, rfl⟩
          exact ⟨event, member, Bool.eq_false_of_not_eq_true noRoom, alive, absent, rfl, stored⟩
  · rintro ⟨event, member, noRoom, alive, absent, same, stored⟩
    refine ⟨event, member, ?_⟩
    rw [noRoom, if_neg Bool.false_ne_true, if_neg alive, if_neg absent, stored, Option.map_some, same]

theorem mem_mediaHashes {hash} :
    hash ∈ mediaHashes events ↔ hash ≠ "" ∧ ∃ event ∈ events, hash ∈ event.media := by
  unfold mediaHashes
  simp only [mem_toFinset, mem_filter, mem_flatMap, decide_eq_true_eq]
  exact and_comm

section Hashes

variable {events : List EventRow} {pruneBefore : Int} {hash : String}

theorem mem_liveHashes : hash ∈ (deadState events pruneBefore).liveHashes ↔
    hash ≠ "" ∧ ∃ event ∈ events, event.id ∉ deadIds events pruneBefore ∧ hash ∈ event.media := by
  unfold deadState
  simp [mem_mediaHashes, and_assoc]

theorem mem_deadOnlyHashes : hash ∈ (deadState events pruneBefore).deadOnlyHashes ↔
    (hash ≠ "" ∧ ∃ event ∈ events, event.id ∈ deadIds events pruneBefore ∧ hash ∈ event.media) ∧
      hash ∉ (deadState events pruneBefore).liveHashes := by
  unfold deadState
  simp [Finset.mem_sdiff, mem_mediaHashes, and_assoc]

theorem mem_onDisk {mediaBytes hashes} :
    hash ∈ Session.onDisk mediaBytes hashes ↔ hash ∈ hashes ∧ hash ≠ "" ∧ mediaBytes hash ≠ none := by
  rw [Session.onDisk, Finset.mem_filter, Option.isSome_iff_ne_none]

end Hashes

theorem mem_deadIds {pruneBefore id} : id ∈ deadIds events pruneBefore ↔
      ((id ≠ "" ∧ ∃ event ∈ events, event.isTombstone = true ∧ event.ref = some id) ∨
        ∃ event ∈ events, event.isPost = true ∧ event.createdAt < pruneBefore ∧ event.id = id) ∧
      ¬ ∃ event ∈ events, event.isTombstone = true ∧ event.id = id := by
  unfold deadIds tombstonedRefs prunedIds tombstoneIds
  simp only [Finset.mem_sdiff, Finset.mem_union, mem_toFinset, mem_filter, mem_filterMap,
    mem_map, Bool.and_eq_true, decide_eq_true_eq, and_assoc]
  constructor
  · rintro ⟨named | pruned, alive⟩
    · exact ⟨.inl ⟨named.2, named.1⟩, alive⟩
    · exact ⟨.inr pruned, alive⟩
  · rintro ⟨⟨present, named⟩ | pruned, alive⟩
    · exact ⟨.inl ⟨named, present⟩, alive⟩
    · exact ⟨.inr pruned, alive⟩

inductive Traffic where
  | pushEvent (id : String)
  | deleteEvent (id : String)
  | pushMedia (hash : String)
  | deleteMedia (hash : String)
  deriving DecidableEq

def Errand.traffic : Errand -> Finset Traffic
  | .pushEvents items => (items.map (fun item => Traffic.pushEvent item.id)).toFinset
  | .deleteEvents ids => ids.image Traffic.deleteEvent
  | .pushMedia hashes => hashes.image Traffic.pushMedia
  | .deleteMedia hashes => hashes.image Traffic.deleteMedia

def traffic : List Errand -> Finset Traffic
  | [] => ∅
  | errand :: rest => errand.traffic ∪ traffic rest

theorem traffic_append (left right) : traffic (left ++ right) = traffic left ∪ traffic right := by
  induction left with
  | nil => exact (Finset.empty_union _).symm
  | cons errand rest ih => rw [cons_append, traffic, traffic, ih, Finset.union_assoc]

theorem traffic_single (errand) : traffic [errand] = errand.traffic := Finset.union_empty _

namespace Session

variable {ρ : Type} {link : RelayLink ρ}

theorem traffic_unless {α : Type} {nothing : Prop} [Decidable nothing] (session : Session ρ) (relay)
    (errand : Errand) (idle answer : α) (silent : nothing -> errand.traffic = ∅) :
    traffic (if nothing then (session, idle)
      else ({ session with relay := relay, errands := session.errands ++ [errand] }, answer)).1.errands =
      traffic session.errands ∪ errand.traffic := by
  split
  next none_needed => rw [silent none_needed, Finset.union_empty]
  · rw [traffic_append, traffic_single]

theorem traffic_pushEvents (session : Session ρ) (items : List RelayPushItem) :
    traffic (pushEvents link session items).1.errands =
      traffic session.errands ∪ (items.map (fun item => Traffic.pushEvent item.id)).toFinset := by
  apply traffic_unless session _ (.pushEvents items)
  intro none_needed
  rw [none_needed]
  rfl

theorem traffic_deleteEvents (session : Session ρ) (ids : Finset String) :
    traffic (deleteEvents link session ids).1.errands = traffic session.errands ∪ ids.image Traffic.deleteEvent := by
  apply traffic_unless session _ (.deleteEvents ids)
  intro none_needed
  rw [none_needed]
  rfl

theorem traffic_pushMedia (mediaBytes : String -> Option Bytes) (session) (hashes : Finset String) :
    traffic (pushMedia link mediaBytes session hashes).1.errands =
      traffic session.errands ∪ (onDisk mediaBytes hashes).image Traffic.pushMedia := by
  apply traffic_unless session _ (.pushMedia (onDisk mediaBytes hashes))
  intro none_needed
  rw [none_needed]
  rfl

theorem traffic_deleteMedia (session : Session ρ) (hashes : Finset String) :
    traffic (deleteMedia link session hashes).1.errands =
      traffic session.errands ∪ hashes.image Traffic.deleteMedia := by
  apply traffic_unless session _ (.deleteMedia hashes)
  intro none_needed
  rw [none_needed]
  rfl

end Session

/-! ## A relay that does as it is told -/

def RelayLink.willing (present hashes : Finset String) : RelayLink Unit where
  eventIds := fun _ => some present
  mediaHashes := fun _ => some hashes
  pushEvents := fun _ _ => ((), .ok 0)
  deleteEvents := fun _ _ => ((), .ok ())
  pushMedia := fun _ _ => ((), 0)
  deleteMedia := fun _ _ => ((), .ok ())

namespace Session

theorem pushEvents_willing (present hashes session items) :
    (pushEvents (.willing present hashes) session items).2 = .ok 0 ∧
      (pushEvents (.willing present hashes) session items).1.pruneBefore = session.pruneBefore := by
  unfold pushEvents
  split <;> exact ⟨rfl, rfl⟩

theorem pushMissing_willing (size present hashes session events) :
    pushMissing (.willing present hashes) size session events present = ((pushEvents (.willing present hashes) session
        (missingItems events present (deadIds events session.pruneBefore))).1, .ok ⟨present, 0⟩) := by
  unfold pushMissing
  simp [pushEvents_willing]

theorem traffic_willing (size mediaBytes present hashes pruneBefore events) :
    traffic (syncToRelay (.willing present hashes) size mediaBytes ⟨(), [], pruneBefore⟩ events).1.errands =
      (((missingItems events present (deadIds events pruneBefore)).map
            (fun item => Traffic.pushEvent item.id)).toFinset ∪
          (present ∩ deadIds events pruneBefore).image Traffic.deleteEvent ∪
          (onDisk mediaBytes ((deadState events pruneBefore).liveHashes \ hashes)).image Traffic.pushMedia) ∪
        ((deadState events pruneBefore).deadOnlyHashes ∩ hashes).image Traffic.deleteMedia := by
  have reached : (RelayLink.willing present hashes).eventIds () = some present := rfl
  unfold syncToRelay
  simp only [reached, pushMissing_willing, withdraw]
  have media : ∀ state, (RelayLink.willing present hashes).mediaHashes state = some hashes := fun _ => rfl
  simp only [media, pushEvents_willing]
  rw [traffic_deleteMedia, traffic_pushMedia, traffic_deleteEvents, traffic_pushEvents]
  rfl

end Session

end Starling.App
