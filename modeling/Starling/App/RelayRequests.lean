import Mathlib.Data.Finset.Basic
import Starling.App.Reconcile
import Starling.Foundation.Batches

namespace Starling.App

open List Option Session

/-!
# The requests of a reconcile

The coordinator cuts its lists into requests: a push holds at most a hundred events and a mebibyte,
a delete at most five hundred names, and every blob goes alone.  The first failed request ends the
pushes and the deletes; a failed blob is counted and the next one is tried.

With a relay that takes every request, a pass leaves exactly the live events and their media of what
the phone knows, and a second pass has nothing to do.
-/

/-- A relay with its single requests.  `postEvents` tells how many items were rejected. -/
structure RelayWire (ρ : Type) where
  eventIds : ρ -> Option (Finset String)
  mediaHashes : ρ -> Option (Finset String)
  postEvents : ρ -> List RelayPushItem -> ρ × Except PushFailure Nat
  deleteEvents : ρ -> List String -> ρ × Except PushFailure Unit
  postMedia : ρ -> String -> Bytes -> ρ × Except PushFailure Unit
  deleteMedia : ρ -> List String -> ρ × Except PushFailure Unit

def pushBatchMaxItems : Nat := 100

def pushBatchMaxBytes : Nat := 2 ^ 20

def deleteBatchMaxItems : Nat := 500

/-- The items and the bytes of a push so far.  An item that is too large goes alone. -/
def fillPush (payloadSize : EncryptedEvent -> Nat) (level : Nat × Nat) (item : RelayPushItem) : Option (Nat × Nat) :=
  let itemBytes := payloadSize item.encryptedEvent
  if level.1 < pushBatchMaxItems ∧ ¬ (0 < level.1 ∧ pushBatchMaxBytes < level.2 + itemBytes) then
    some (level.1 + 1, level.2 + itemBytes)
  else none

def fillDelete (level : Nat) (_name : String) : Option Nat :=
  if level < deleteBatchMaxItems then some (level + 1) else none

namespace RelayWire

variable {ρ : Type}

/-- `_pushEventsChunked`, with the batches cut: the rejected items of all receipts. -/
def pushBatches (wire : RelayWire ρ) : ρ -> Nat -> List (List RelayPushItem) -> ρ × Except PushFailure Nat
  | relay, rejected, [] => (relay, .ok rejected)
  | relay, rejected, items :: rest =>
    let answer := wire.postEvents relay items
    match answer.2 with
    | .error failure => (answer.1, .error failure)
    | .ok more => wire.pushBatches answer.1 (rejected + more) rest

/-- `_deleteEventsChunked` and `_deleteMediaChunked`, with the chunks cut. -/
def deleteChunks (send : ρ -> List String -> ρ × Except PushFailure Unit) :
    ρ -> List (List String) -> ρ × Except PushFailure Unit
  | relay, [] => (relay, .ok ())
  | relay, names :: rest =>
    let answer := send relay names
    match answer.2 with
    | .error failure => (answer.1, .error failure)
    | .ok _ => deleteChunks send answer.1 rest

/-- The loop of `_pushMediaHashes`. -/
def pushBlobs (wire : RelayWire ρ) (mediaBytes : String -> Option Bytes) : ρ -> Nat -> List String -> ρ × Nat
  | relay, failures, [] => (relay, failures)
  | relay, failures, hash :: rest =>
    match mediaBytes hash with
    | none => wire.pushBlobs mediaBytes relay failures rest
    | some blob =>
      let answer := wire.postMedia relay hash blob
      match answer.2 with
      | .error _ => wire.pushBlobs mediaBytes answer.1 (failures + 1) rest
      | .ok _ => wire.pushBlobs mediaBytes answer.1 failures rest

/-- The way to the relay.  `listed` is the order in which a set is gone through. -/
def link (wire : RelayWire ρ) (payloadSize : EncryptedEvent -> Nat) (mediaBytes : String -> Option Bytes)
    (listed : Finset String -> List String) : RelayLink ρ where
  eventIds := wire.eventIds
  mediaHashes := wire.mediaHashes
  pushEvents := fun relay items => wire.pushBatches relay 0 (batches (fillPush payloadSize) (0, 0) items)
  deleteEvents := fun relay ids => deleteChunks wire.deleteEvents relay (batches fillDelete 0 (listed ids))
  pushMedia := fun relay hashes => wire.pushBlobs mediaBytes relay 0 (listed hashes)
  deleteMedia := fun relay hashes => deleteChunks wire.deleteMedia relay (batches fillDelete 0 (listed hashes))

end RelayWire

theorem fillPush_opens (payloadSize item) : (fillPush payloadSize (0, 0) item).isSome = true := by
  rfl

theorem fillDelete_opens (name) : (fillDelete 0 name).isSome = true := rfl

/-! ## The requests of a list -/

def FitsPush (payloadSize : EncryptedEvent -> Nat) (items : List RelayPushItem) : Prop :=
  items.length ≤ pushBatchMaxItems ∧
    ((items.map (fun item => payloadSize item.encryptedEvent)).sum ≤ pushBatchMaxBytes ∨ items.length ≤ 1)

theorem foldlM_fillPush {payloadSize level} (items : List RelayPushItem) :
    items.foldlM (fillPush payloadSize) (0, 0) = some level ↔ FitsPush payloadSize items ∧
      level = (items.length, (items.map (fun item => payloadSize item.encryptedEvent)).sum) := by
  induction items using reverseRecOn generalizing level with
  | nil => simp [FitsPush, eq_comm]
  | append_singleton items item ih =>
    rw [foldlM_append, bind_eq_bind, Option.bind_eq_some_iff]
    constructor
    · rintro ⟨_, filled, rest⟩
      obtain ⟨fits, rfl⟩ := ih.mp filled
      simp [fillPush] at rest
      grind [FitsPush]
    · rintro ⟨fits, rfl⟩
      refine ⟨_, ih.mpr ⟨by grind [FitsPush], rfl⟩, ?_⟩
      simp [fillPush]
      grind [FitsPush]

theorem foldlM_fillDelete {level} (names : List String) :
    names.foldlM fillDelete 0 = some level ↔ names.length ≤ deleteBatchMaxItems ∧ level = names.length := by
  induction names using reverseRecOn generalizing level with
  | nil => simp [eq_comm]
  | append_singleton names name ih =>
    rw [foldlM_append, bind_eq_bind, Option.bind_eq_some_iff]
    constructor
    · rintro ⟨_, filled, rest⟩
      obtain ⟨fits, rfl⟩ := ih.mp filled
      simp [fillDelete] at rest
      grind
    · rintro ⟨fits, rfl⟩
      refine ⟨_, ih.mpr ⟨by grind, rfl⟩, ?_⟩
      simp [fillDelete]
      grind

section

variable {ρ A B E : Type} (send : ρ -> A -> ρ × Except E B)

/-- The requests for a list that are sent, up to the first that fails; what they leave, and if all went well. -/
inductive Sends : ρ -> List A -> List A -> ρ × Bool -> Prop where
  | done (relay) : Sends relay [] [] (relay, true)
  | stop {relay items rest failure} (failed : (send relay items).2 = .error failure) :
      Sends relay (items :: rest) [items] ((send relay items).1, false)
  | next {relay items rest sent answer value} (passed : (send relay items).2 = .ok value)
      (later : Sends (send relay items).1 rest sent answer) : Sends relay (items :: rest) (items :: sent) answer

/-- Some of the first requests are sent, and all of them if every request succeeds. -/
def SendsFront (relay : ρ) (cut : List A) (answer : ρ × Bool) : Prop :=
  ∃ sent, Sends send relay cut sent answer ∧ sent <+: cut ∧ (answer.2 = true -> sent = cut) ∧
    ((∀ relay, ∀ items ∈ cut, (send relay items).2.toBool = true) -> answer.2 = true)

variable {send}

theorem Sends.front {relay cut sent answer} (sends : Sends send relay cut sent answer) :
    SendsFront send relay cut answer := by
  refine ⟨sent, sends, ?_⟩
  induction sends with
  | done => exact ⟨ nil_prefix, fun _ => rfl, fun _ => rfl⟩
  | @stop relay items _ _ failed =>
    refine ⟨by simp, by simp, ?_⟩
    intro succeed
    have passed := succeed relay items mem_cons_self
    rw [failed] at passed
    cases passed
  | next _ _ ih =>
    obtain ⟨front, complete, succeeds⟩ := ih
    refine ⟨by simpa using front, fun ok => by rw [complete ok], ?_⟩
    exact fun succeed => succeeds (fun relay other member => succeed relay other (mem_cons_of_mem _ member))

end

theorem RelayWire.pushBatches_sends {ρ : Type} (wire : RelayWire ρ) (relay rejected cut) :
    ∃ sent, Sends wire.postEvents relay cut sent ((wire.pushBatches relay rejected cut).map id Except.toBool) := by
  induction cut generalizing relay rejected with
  | nil => exact ⟨[], .done relay⟩
  | cons items rest ih =>
    simp only [RelayWire.pushBatches]
    split
    next failed => exact ⟨[items], .stop failed⟩
    next more passed =>
      rcases ih _ (rejected + more) with ⟨sent, later⟩
      exact ⟨items :: sent, .next passed later⟩

theorem RelayWire.deleteChunks_sends {ρ : Type} (send : ρ -> List String -> ρ × Except PushFailure Unit)
    (relay cut) :
    ∃ sent, Sends send relay cut sent ((deleteChunks send relay cut).map id Except.toBool) := by
  induction cut generalizing relay with
  | nil => exact ⟨[], .done relay⟩
  | cons names rest ih =>
    simp only [RelayWire.deleteChunks]
    split
    next failed => exact ⟨[names], .stop failed⟩
    next passed =>
      rcases ih _ with ⟨sent, later⟩
      exact ⟨names :: sent, .next passed later⟩

/-- The pagers list what the relay holds, and every request does what it says. -/
structure RelayWire.Obeys {ρ : Type} (wire : RelayWire ρ) (ids hashes : ρ -> Finset String) : Prop where
  eventIds : ∀ relay, wire.eventIds relay = some (ids relay)
  mediaHashes : ∀ relay, wire.mediaHashes relay = some (hashes relay)
  postEvents : ∀ relay items, (wire.postEvents relay items).2 = .ok 0 ∧
    ids (wire.postEvents relay items).1 = ids relay ∪ (items.map RelayPushItem.id).toFinset ∧
    hashes (wire.postEvents relay items).1 = hashes relay
  deleteEvents : ∀ relay names, (wire.deleteEvents relay names).2 = .ok () ∧
    ids (wire.deleteEvents relay names).1 = ids relay \ names.toFinset ∧
    hashes (wire.deleteEvents relay names).1 = hashes relay
  postMedia : ∀ relay hash blob, (wire.postMedia relay hash blob).2 = .ok () ∧
    ids (wire.postMedia relay hash blob).1 = ids relay ∧
    hashes (wire.postMedia relay hash blob).1 = insert hash (hashes relay)
  deleteMedia : ∀ relay names, (wire.deleteMedia relay names).2 = .ok () ∧
    ids (wire.deleteMedia relay names).1 = ids relay ∧
    hashes (wire.deleteMedia relay names).1 = hashes relay \ names.toFinset

namespace RelayWire.Obeys

variable {ρ : Type} {wire : RelayWire ρ} {ids hashes : ρ -> Finset String} (obeys : wire.Obeys ids hashes)
include obeys

theorem pushBatches (relay cut) : (wire.pushBatches relay 0 cut).2 = .ok 0 ∧
      ids (wire.pushBatches relay 0 cut).1 = ids relay ∪ (cut.flatten.map RelayPushItem.id).toFinset ∧
      hashes (wire.pushBatches relay 0 cut).1 = hashes relay := by
  induction cut generalizing relay with
  | nil => exact ⟨rfl, (Finset.union_empty _).symm, rfl⟩
  | cons items rest ih =>
    rcases obeys.postEvents relay items with ⟨answered, stored, kept⟩
    rcases ih (wire.postEvents relay items).1 with ⟨later, storedLater, keptLater⟩
    simp only [RelayWire.pushBatches, answered, Nat.add_zero]
    refine ⟨later, ?_, keptLater.trans kept⟩
    rw [storedLater, stored, flatten_cons, map_append, toFinset_append, Finset.union_assoc]

theorem pushBlobs (mediaBytes relay names) : (wire.pushBlobs mediaBytes relay 0 names).2 = 0 ∧
      ids (wire.pushBlobs mediaBytes relay 0 names).1 = ids relay ∧
      hashes (wire.pushBlobs mediaBytes relay 0 names).1 =
        hashes relay ∪ (names.filter (fun hash => (mediaBytes hash).isSome)).toFinset := by
  induction names generalizing relay with
  | nil => exact ⟨rfl, rfl, (Finset.union_empty _).symm⟩
  | cons hash rest ih =>
    cases found : mediaBytes hash with
    | none =>
      simp only [RelayWire.pushBlobs, found, filter_cons, isSome_none, Bool.false_eq_true, if_false]
      exact ih relay
    | some blob =>
      rcases obeys.postMedia relay hash blob with ⟨answered, kept, stored⟩
      rcases ih (wire.postMedia relay hash blob).1 with ⟨later, keptLater, storedLater⟩
      simp only [RelayWire.pushBlobs, found, answered, filter_cons, isSome_some, if_true]
      refine ⟨later, keptLater.trans kept, ?_⟩
      rw [storedLater, stored, toFinset_cons, Finset.insert_union, Finset.union_insert]

end RelayWire.Obeys

theorem RelayWire.deleteChunks_obeys {ρ : Type} {send : ρ -> List String -> ρ × Except PushFailure Unit}
    {holds other : ρ -> Finset String} (obeys : ∀ relay names, (send relay names).2 = .ok () ∧
      holds (send relay names).1 = holds relay \ names.toFinset ∧ other (send relay names).1 = other relay)
    (relay : ρ) (cut : List (List String)) : (deleteChunks send relay cut).2 = .ok () ∧
      holds (deleteChunks send relay cut).1 = holds relay \ cut.flatten.toFinset ∧
      other (deleteChunks send relay cut).1 = other relay := by
  induction cut generalizing relay with
  | nil => exact ⟨rfl, Finset.sdiff_empty.symm, rfl⟩
  | cons names rest ih =>
    rcases obeys relay names with ⟨answered, removed, kept⟩
    rcases ih (send relay names).1 with ⟨later, removedLater, keptLater⟩
    simp only [deleteChunks, answered]
    refine ⟨later, ?_, keptLater.trans kept⟩
    rw [removedLater, removed, flatten_cons, toFinset_append]
    exact sdiff_sdiff_left

structure RelayLink.Obeys {ρ : Type} (link : RelayLink ρ) (mediaBytes : String -> Option Bytes)
    (ids hashes : ρ -> Finset String) : Prop where
  eventIds : ∀ relay, link.eventIds relay = some (ids relay)
  mediaHashes : ∀ relay, link.mediaHashes relay = some (hashes relay)
  pushEvents : ∀ relay items, (link.pushEvents relay items).2 = .ok 0 ∧
    ids (link.pushEvents relay items).1 = ids relay ∪ (items.map RelayPushItem.id).toFinset ∧
    hashes (link.pushEvents relay items).1 = hashes relay
  deleteEvents : ∀ relay names, (link.deleteEvents relay names).2 = .ok () ∧
    ids (link.deleteEvents relay names).1 = ids relay \ names ∧
    hashes (link.deleteEvents relay names).1 = hashes relay
  pushMedia : ∀ relay names, (link.pushMedia relay names).2 = 0 ∧ ids (link.pushMedia relay names).1 = ids relay ∧
    hashes (link.pushMedia relay names).1 = hashes relay ∪ names.filter (fun hash => (mediaBytes hash).isSome = true)
  deleteMedia : ∀ relay names, (link.deleteMedia relay names).2 = .ok () ∧
    ids (link.deleteMedia relay names).1 = ids relay ∧
    hashes (link.deleteMedia relay names).1 = hashes relay \ names

theorem RelayWire.Obeys.link {ρ : Type} {wire : RelayWire ρ} {ids hashes : ρ -> Finset String}
    (obeys : wire.Obeys ids hashes) (payloadSize) (mediaBytes : String -> Option Bytes)
    {listed : Finset String -> List String} (lists : ∀ names, (listed names).toFinset = names) :
    (wire.link payloadSize mediaBytes listed).Obeys mediaBytes ids hashes where
  eventIds := obeys.eventIds
  mediaHashes := obeys.mediaHashes
  pushEvents := by
    intro relay items
    have pushed := obeys.pushBatches relay (batches (fillPush payloadSize) (0, 0) items)
    rw [(cut_batches (fillPush_opens payloadSize) items).whole] at pushed
    exact pushed
  deleteEvents := by
    intro relay names
    have deleted := deleteChunks_obeys obeys.deleteEvents relay (batches fillDelete 0 (listed names))
    rw [(cut_batches fillDelete_opens _).whole, lists] at deleted
    exact deleted
  pushMedia := by
    intro relay names
    have pushed := obeys.pushBlobs mediaBytes relay (listed names)
    have stored : ((listed names).filter (fun hash => (mediaBytes hash).isSome)).toFinset =
        names.filter (fun hash => (mediaBytes hash).isSome = true) := by
      rw [toFinset_filter, lists]
    rw [stored] at pushed
    exact pushed
  deleteMedia := by
    intro relay names
    have turned : ∀ relay names, (wire.deleteMedia relay names).2 = .ok () ∧
        hashes (wire.deleteMedia relay names).1 = hashes relay \ names.toFinset ∧
        ids (wire.deleteMedia relay names).1 = ids relay := by
      intro relay names
      rcases obeys.deleteMedia relay names with ⟨answered, kept, removed⟩
      exact ⟨answered, removed, kept⟩
    rcases deleteChunks_obeys turned relay (batches fillDelete 0 (listed names)) with ⟨answered, removed, kept⟩
    rw [(cut_batches fillDelete_opens _).whole, lists] at removed
    exact ⟨answered, kept, removed⟩

namespace Session

structure Leaves {ρ : Type} (ids hashes : ρ -> Finset String) (session next : Session ρ)
    (newIds newHashes : Finset String) : Prop where
  ids : ids next.relay = newIds
  hashes : hashes next.relay = newHashes
  pruneBefore : next.pruneBefore = session.pruneBefore

section Passes

variable {ρ : Type} {link : RelayLink ρ} {mediaBytes : String -> Option Bytes} {ids hashes : ρ -> Finset String}
variable (obeys : link.Obeys mediaBytes ids hashes)
include obeys

section

variable (session : Session ρ) (names : Finset String)

theorem pushEvents_leaves (items) : (pushEvents link session items).2 = .ok 0 ∧
      Leaves ids hashes session (pushEvents link session items).1
        (ids session.relay ∪ (items.map RelayPushItem.id).toFinset) (hashes session.relay) := by
  rw [pushEvents]
  split
  next nothing =>
    subst nothing
    exact ⟨rfl, (Finset.union_empty _).symm, rfl, rfl⟩
  · rcases obeys.pushEvents session.relay items with ⟨answered, stored, kept⟩
    exact ⟨answered, stored, kept, rfl⟩

theorem deleteEvents_leaves : (deleteEvents link session names).2 = .ok () ∧
      Leaves ids hashes session (deleteEvents link session names).1 (ids session.relay \ names)
        (hashes session.relay) := by
  rw [deleteEvents]
  split
  next nothing =>
    subst nothing
    exact ⟨rfl, Finset.sdiff_empty.symm, rfl, rfl⟩
  · rcases obeys.deleteEvents session.relay names with ⟨answered, removed, kept⟩
    exact ⟨answered, removed, kept, rfl⟩

theorem pushMedia_leaves : (pushMedia link mediaBytes session names).2 = 0 ∧
      Leaves ids hashes session (pushMedia link mediaBytes session names).1 (ids session.relay)
        (hashes session.relay ∪ onDisk mediaBytes names) := by
  rw [pushMedia]
  split
  next nothing =>
    rw [nothing]
    exact ⟨rfl, rfl, (Finset.union_empty _).symm, rfl⟩
  · rcases obeys.pushMedia session.relay (onDisk mediaBytes names) with ⟨answered, kept, stored⟩
    refine ⟨answered, kept, ?_, rfl⟩
    have again : (onDisk mediaBytes names).filter (fun hash => (mediaBytes hash).isSome = true) =
        onDisk mediaBytes names := by
      rw [onDisk, Finset.filter_filter]
      apply Finset.filter_congr
      intro hash _
      exact ⟨fun both => both.1, fun stored => ⟨stored, stored.2⟩⟩
    rw [again] at stored
    exact stored

theorem deleteMedia_leaves : (deleteMedia link session names).2 = .ok () ∧
      Leaves ids hashes session (deleteMedia link session names).1 (ids session.relay)
        (hashes session.relay \ names) := by
  rw [deleteMedia]
  split
  next nothing =>
    subst nothing
    exact ⟨rfl, rfl, Finset.sdiff_empty.symm, rfl⟩
  · rcases obeys.deleteMedia session.relay names with ⟨answered, kept, removed⟩
    exact ⟨answered, kept, removed, rfl⟩

end

theorem syncToRelay_leaves (size session events) :
    (syncToRelay link size mediaBytes session events).2 = .ok ⟨some true, none⟩ ∧
      Leaves ids hashes session (syncToRelay link size mediaBytes session events).1
        ((ids session.relay ∪ ((missingItems events (ids session.relay)
              (deadIds events session.pruneBefore)).map RelayPushItem.id).toFinset) \
          (ids session.relay ∩ deadIds events session.pruneBefore))
        ((hashes session.relay ∪ onDisk mediaBytes
              ((deadState events session.pruneBefore).liveHashes \ hashes session.relay)) \
          ((deadState events session.pruneBefore).deadOnlyHashes ∩ hashes session.relay)) := by
  have pushed := pushEvents_leaves obeys session
    (missingItems events (ids session.relay) (deadIds events session.pruneBefore))
  have missing : pushMissing link size session events (ids session.relay) =
      ((pushEvents link session (missingItems events (ids session.relay)
        (deadIds events session.pruneBefore))).1, .ok ⟨ids session.relay, 0⟩) := by
    simp [pushMissing, pushed.1]
  generalize first : (pushEvents link session (missingItems events (ids session.relay)
    (deadIds events session.pruneBefore))).1 = afterPush at pushed missing
  have deleted := deleteEvents_leaves obeys afterPush
    (ids session.relay ∩ (deadState events afterPush.pruneBefore).deadIds)
  generalize second : deleteEvents link afterPush
    (ids session.relay ∩ (deadState events afterPush.pruneBefore).deadIds) = answer at deleted
  have uploaded := pushMedia_leaves obeys answer.1
    ((deadState events afterPush.pruneBefore).liveHashes \ hashes answer.1.relay)
  generalize third : pushMedia link mediaBytes answer.1
    ((deadState events afterPush.pruneBefore).liveHashes \ hashes answer.1.relay) = upload at uploaded
  have removed := deleteMedia_leaves obeys upload.1
    ((deadState events afterPush.pruneBefore).deadOnlyHashes ∩ hashes answer.1.relay)
  have passed : syncToRelay link size mediaBytes session events = ((deleteMedia link upload.1
        ((deadState events afterPush.pruneBefore).deadOnlyHashes ∩ hashes answer.1.relay)).1,
        .ok ⟨some true, none⟩) := by
    simp only [syncToRelay, obeys.eventIds, missing, withdraw, second, obeys.mediaHashes, third, removed.1,
      deleted.1, uploaded.1]
    rfl
  rw [passed]
  refine ⟨rfl, ?_, ?_, ?_⟩
  · rw [removed.2.ids, uploaded.2.ids, deleted.2.ids, pushed.2.ids, pushed.2.pruneBefore]
    rfl
  · rw [removed.2.hashes, uploaded.2.hashes, deleted.2.hashes, pushed.2.hashes, pushed.2.pruneBefore]
  · exact removed.2.pruneBefore.trans
      (uploaded.2.pruneBefore.trans (deleted.2.pruneBefore.trans pushed.2.pruneBefore))

theorem syncToRelay_idle (size session events)
    (nothingMissing : missingItems events (ids session.relay) (deadIds events session.pruneBefore) = [])
    (nothingDead : ids session.relay ∩ deadIds events session.pruneBefore = ∅)
    (noBlobs : onDisk mediaBytes ((deadState events session.pruneBefore).liveHashes \ hashes session.relay) = ∅)
    (noDeadBlobs : (deadState events session.pruneBefore).deadOnlyHashes ∩ hashes session.relay = ∅) :
    (syncToRelay link size mediaBytes session events).1 = session := by
  have pushed : pushMissing link size session events (ids session.relay) =
      (session, .ok ⟨ids session.relay, 0⟩) := by
    simp [pushMissing, nothingMissing, pushEvents]
  have deleted : deleteEvents link session (ids session.relay ∩ (deadState events session.pruneBefore).deadIds) =
      (session, .ok ()) := by
    exact if_pos nothingDead
  have uploaded : pushMedia link mediaBytes session
      ((deadState events session.pruneBefore).liveHashes \ hashes session.relay) = (session, 0) := by
    exact if_pos noBlobs
  have removed : deleteMedia link session
      ((deadState events session.pruneBefore).deadOnlyHashes ∩ hashes session.relay) = (session, .ok ()) := by
    rw [deleteMedia, if_pos noDeadBlobs]
  simp [syncToRelay, obeys.eventIds, pushed, withdraw, deleted, obeys.mediaHashes, uploaded, removed]

end Passes

end Session

def servedIds (events : List EventRow) (pruneBefore : Int) : Finset String :=
  ((events.filter (fun event => !event.roomScoped && decide (event.id ∉ deadIds events pruneBefore) &&
    event.encryptedPayload.isSome)).map EventRow.id).toFinset

variable {events : List EventRow} {pruneBefore : Int}

theorem mem_servedIds {id} : id ∈ servedIds events pruneBefore ↔ ∃ event ∈ events, event.roomScoped = false ∧
      event.id ∉ deadIds events pruneBefore ∧ event.encryptedPayload ≠ none ∧ event.id = id := by
  unfold servedIds
  simp [List.mem_toFinset, List.mem_map, isSome_iff_ne_none, and_assoc]

theorem missingItems_ids (events present pruneBefore) :
    ((missingItems events present (deadIds events pruneBefore)).map RelayPushItem.id).toFinset =
      servedIds events pruneBefore \ present := by
  ext id
  rw [List.mem_toFinset, List.mem_map, Finset.mem_sdiff, mem_servedIds]
  constructor
  · rintro ⟨_, missing, rfl⟩
    rcases mem_missingItems.mp missing with ⟨event, member, feed, alive, absent, same, stored⟩
    refine ⟨⟨event, member, feed, alive, ?_, same⟩, same ▸ absent⟩
    rw [stored]
    exact some_ne_none _
  · rintro ⟨⟨event, member, feed, alive, stored, rfl⟩, absent⟩
    rcases ne_none_iff_exists'.mp stored with ⟨payload, found⟩
    exact ⟨⟨event.id, payload⟩, mem_missingItems.mpr ⟨event, member, feed, alive, absent, rfl, found⟩, rfl⟩

theorem missingItems_eq_nil {present} (served : servedIds events pruneBefore ⊆ present) :
    missingItems events present (deadIds events pruneBefore) = [] := by
  have none_left := missingItems_ids events present pruneBefore
  rw [Finset.sdiff_eq_empty_iff_subset.mpr served, toFinset_eq_empty_iff, map_eq_nil_iff] at none_left
  exact none_left

theorem served_alive {id} (served : id ∈ servedIds events pruneBefore) : id ∉ deadIds events pruneBefore := by
  rcases mem_servedIds.mp served with ⟨_, _, _, alive, _, rfl⟩
  exact alive

theorem live_not_deadOnly {hash} (live : hash ∈ (deadState events pruneBefore).liveHashes) :
    hash ∉ (deadState events pruneBefore).deadOnlyHashes :=
  fun dead => (mem_deadOnlyHashes.mp dead).2 live

theorem names_after {new dead : Finset String} (present) (alive : ∀ name ∈ new, name ∉ dead) :
    (present ∪ (new \ present)) \ (present ∩ dead) = (present \ dead) ∪ new := by
  ext name
  simp only [Finset.mem_sdiff, Finset.mem_union, Finset.mem_inter]
  grind

/-- With a relay that takes every request, a pass brings exactly what is live and withdraws exactly what
is dead.  It says so, nothing unknown and no photo of a live event goes, and the next pass sends
nothing. -/
theorem reconcile_converges {ρ : Type} {wire : RelayWire ρ} {ids hashes : ρ -> Finset String}
    (obeys : wire.Obeys ids hashes) {listed : Finset String -> List String}
    (lists : ∀ names, (listed names).toFinset = names) (size payloadSize : EncryptedEvent -> Nat)
    (mediaBytes : String -> Option Bytes) (relay : ρ) (events : List EventRow) (pruneBefore : Int) :
    ∃ session,
      Session.syncToRelay (wire.link payloadSize mediaBytes listed) size mediaBytes
        ⟨relay, [], pruneBefore⟩ events =
        (session, .ok ⟨some true, none⟩) ∧
      ids session.relay = (ids relay \ deadIds events pruneBefore) ∪ servedIds events pruneBefore ∧
      hashes session.relay = (hashes relay \ (deadState events pruneBefore).deadOnlyHashes) ∪
        Session.onDisk mediaBytes (deadState events pruneBefore).liveHashes ∧
      (∀ id, id ∈ deadIds events pruneBefore ↔
        ((id ≠ "" ∧ ∃ event ∈ events, event.isTombstone = true ∧ event.ref = some id) ∨
          ∃ event ∈ events, event.isPost = true ∧ event.createdAt < pruneBefore ∧ event.id = id) ∧
        ¬ ∃ event ∈ events, event.isTombstone = true ∧ event.id = id) ∧
      (∀ id, (∀ event ∈ events, event.id ≠ id) ->
        (∀ event ∈ events, event.isTombstone = true -> event.ref ≠ some id) ->
        (id ∈ ids session.relay ↔ id ∈ ids relay)) ∧
      (∀ event hash, event ∈ events -> event.id ∉ deadIds events pruneBefore -> hash ∈ event.media ->
        hash ≠ "" -> hash ∈ hashes relay -> hash ∈ hashes session.relay) ∧
      (Session.syncToRelay (wire.link payloadSize mediaBytes listed) size mediaBytes
        ⟨session.relay, [], session.pruneBefore⟩ events).1.errands = [] := by
  have linked := obeys.link payloadSize mediaBytes lists
  rcases syncToRelay_leaves linked size ⟨relay, [], pruneBefore⟩ events with ⟨answered, left⟩
  generalize passed : syncToRelay (wire.link payloadSize mediaBytes listed) size mediaBytes
    ⟨relay, [], pruneBefore⟩ events = pass at answered left
  rcases pass with ⟨session, _⟩
  have idsAfter := left.ids
  rw [missingItems_ids, names_after _ (fun _ => served_alive)] at idsAfter
  have missing : ∀ live, onDisk mediaBytes (live \ hashes relay) = onDisk mediaBytes live \ hashes relay := by
    intro live
    ext hash
    grind [mem_onDisk]
  have hashesAfter := left.hashes
  rw [missing, Finset.inter_comm, names_after _ (fun _ live => live_not_deadOnly (mem_onDisk.mp live).1)] at hashesAfter
  refine ⟨session, Prod.ext rfl answered, idsAfter, hashesAfter, fun id => mem_deadIds, ?_, ?_, ?_⟩
  · intro id unknown unnamed
    -- Only what a tombstone names is dead without a row of its own.
    have alive : id ∉ deadIds events pruneBefore := by
      intro dead
      rcases (mem_deadIds.mp dead).1 with ⟨_, event, member, tombstone, named⟩ | ⟨event, member, _, _, same⟩
      · exact unnamed event member tombstone named
      · exact unknown event member same
    have unserved : id ∉ servedIds events pruneBefore := by
      intro served
      rcases mem_servedIds.mp served with ⟨event, member, _, _, _, same⟩
      exact unknown event member same
    rw [idsAfter, Finset.mem_union, Finset.mem_sdiff]
    exact ⟨fun after => (after.resolve_right unserved).1, fun before => Or.inl ⟨before, alive⟩⟩
  · intro event hash member alive named present before
    rw [hashesAfter, Finset.mem_union, Finset.mem_sdiff]
    exact .inl ⟨before, live_not_deadOnly (mem_liveHashes.mpr ⟨present, event, member, alive, named⟩)⟩
  · rw [left.pruneBefore]
    refine congrArg errands (syncToRelay_idle linked size ⟨session.relay, [], pruneBefore⟩ events ?_ ?_ ?_ ?_)
    · apply missingItems_eq_nil
      rw [idsAfter]
      exact Finset.subset_union_right
    · rw [idsAfter]
      apply Finset.eq_empty_of_forall_notMem
      intro id both
      rw [Finset.mem_inter, Finset.mem_union, Finset.mem_sdiff] at both
      rcases both.1 with kept | served
      · exact kept.2 both.2
      · exact served_alive served both.2
    · rw [hashesAfter]
      apply Finset.eq_empty_of_forall_notMem
      intro hash waiting
      rw [mem_onDisk, Finset.mem_sdiff, Finset.mem_union, mem_onDisk] at waiting
      exact waiting.1.2 (.inr ⟨waiting.1.1, waiting.2⟩)
    · rw [hashesAfter]
      apply Finset.eq_empty_of_forall_notMem
      intro hash both
      rw [Finset.mem_inter, Finset.mem_union, Finset.mem_sdiff, mem_onDisk] at both
      rcases both.2 with kept | live
      · exact kept.2 both.1
      · exact live_not_deadOnly live.1 both.1

def RelayWire.sets : RelayWire (Finset String × Finset String) where
  eventIds := fun relay => some relay.1
  mediaHashes := fun relay => some relay.2
  postEvents := fun relay items => ((relay.1 ∪ (items.map RelayPushItem.id).toFinset, relay.2), .ok 0)
  deleteEvents := fun relay names => ((relay.1 \ names.toFinset, relay.2), .ok ())
  postMedia := fun relay hash _ => ((relay.1, insert hash relay.2), .ok ())
  deleteMedia := fun relay names => ((relay.1, relay.2 \ names.toFinset), .ok ())

theorem RelayWire.sets_obeys : sets.Obeys Prod.fst Prod.snd where
  eventIds := fun _ => rfl
  mediaHashes := fun _ => rfl
  postEvents := fun _ _ => ⟨rfl, rfl, rfl⟩
  deleteEvents := fun _ _ => ⟨rfl, rfl, rfl⟩
  postMedia := fun _ _ _ => ⟨rfl, rfl, rfl⟩
  deleteMedia := fun _ _ => ⟨rfl, rfl, rfl⟩

/-- An old post of the phone is withdrawn, and a foreign id stays. -/
theorem reconcile_withdraws_old_post : ∃ session,
      Session.syncToRelay (RelayWire.sets.link (fun _ => 1) (fun _ => none) Finset.toList) (fun _ => 1)
        (fun _ => none) ⟨({"old", "unknown"}, ∅), [], 5⟩ [⟨"old", "own", 3, 1, none, [], none⟩] =
        (session, .ok ⟨some true, none⟩) ∧ session.relay.1 = {"unknown"} := by
  rcases reconcile_converges RelayWire.sets_obeys Finset.toList_toFinset (fun _ => 1) (fun _ => 1) (fun _ => none)
    ({"old", "unknown"}, ∅) [⟨"old", "own", 3, 1, none, [], none⟩] 5 with ⟨session, passed, left, _⟩
  refine ⟨session, passed, left.trans ?_⟩
  decide +kernel

end Starling.App
