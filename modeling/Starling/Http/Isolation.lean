import Starling.Http.Blobs
import Starling.Http.Folders
import Starling.Http.Caps

namespace Starling.Http

/-!
# Owners do not interfere through storage

Every statement is keyed by the Owner's key, and so is every path.  Two states that agree
on what is stored for one Owner are therefore the same for all the reads of that Owner.
They are also the same for its writes, up to the one check that looks at all Owners: the
disk cap.
-/

open Storage List Table Media Accounting Store World Host

/-! ## What is stored for an Owner -/

structure SameRows (owner : Bytes32) (left right : Store) : Prop where
  paired : left.db.pairedOwners.lookup owner = right.db.pairedOwners.lookup owner
  events : ∀ id, left.eventRows.lookup (owner, id) = right.eventRows.lookup (owner, id)
  media : ∀ hash, left.db.servedMedia.lookup (owner, hash) = right.db.servedMedia.lookup (owner, hash)
  slots : ∀ tokenHash, left.voiceSlots.lookup (owner, tokenHash) = right.voiceSlots.lookup (owner, tokenHash)

structure SameFor (owner : Bytes32) (left right : Host) : Prop where
  rows : SameRows owner left.store right.store
  files : ∀ hash, isValidHash hash = true ->
    left.files.lookup (ownerShardPath owner hash) = right.files.lookup (ownerShardPath owner hash)

theorem SameRows.refl (owner store) : SameRows owner store store := ⟨rfl, fun _ => rfl, fun _ => rfl, fun _ => rfl⟩

theorem SameFor.refl (owner host) : SameFor owner host host := ⟨SameRows.refl owner host.store, fun _ _ => rfl⟩

variable {owner : Bytes32} {left right : Host}

theorem SameFor.trans {first second third} (left : SameFor owner first second)
    (right : SameFor owner second third) : SameFor owner first third where
  rows :=
    ⟨left.rows.paired.trans right.rows.paired, fun id => (left.rows.events id).trans (right.rows.events id),
      fun hash => (left.rows.media hash).trans (right.rows.media hash),
      fun tokenHash => (left.rows.slots tokenHash).trans (right.rows.slots tokenHash)⟩
  files := fun hash valid => (left.files hash valid).trans (right.files hash valid)

/-! ## Requests of another Owner -/

theorem media_of_blobs
    (blobs : ∀ hash, isValidHash hash = true -> left.blobAt owner hash = right.blobAt owner hash) (hash) :
    left.store.db.servedMedia.lookup (owner, hash) = right.store.db.servedMedia.lookup (owner, hash) := by
  by_cases valid : isValidHash hash = true
  · exact congrArg Prod.fst (blobs hash valid)
  · have absent : ∀ host : Host, host.store.db.servedMedia.lookup (owner, hash) = none := by
      intro host
      cases found : host.store.db.servedMedia.lookup (owner, hash) with
      | none => rfl
      | some row => exact absurd (host.filed (owner, hash) row found).1 valid
    rw [absent left, absent right]

theorem sameFor_of_blobs (paired : left.store.db.pairedOwners.lookup owner = right.store.db.pairedOwners.lookup owner)
    (events : ∀ id, left.store.eventRows.lookup (owner, id) = right.store.eventRows.lookup (owner, id))
    (slots : ∀ tokenHash, left.store.voiceSlots.lookup (owner, tokenHash) =
      right.store.voiceSlots.lookup (owner, tokenHash))
    (blobs : ∀ hash, isValidHash hash = true -> left.blobAt owner hash = right.blobAt owner hash) :
    SameFor owner left right :=
  ⟨⟨paired, events, media_of_blobs blobs, slots⟩, fun hash valid => congrArg Prod.snd (blobs hash valid)⟩

theorem EventsOnly.sameFor {before after} (only : EventsOnly before.store after.store)
    (events : ∀ id, before.store.eventRows.lookup (owner, id) = after.store.eventRows.lookup (owner, id))
    (blobs : ∀ hash, isValidHash hash = true -> before.blobAt owner hash = after.blobAt owner hash) :
    SameFor owner before after :=
  sameFor_of_blobs (congrArg (fun rows => AList.lookup owner rows) only.owners.symm) events
    (fun tokenHash => congrArg (fun rows => AList.lookup (owner, tokenHash) rows) only.slots.symm) blobs

theorem BlobsOnly.sameFor {before after} (only : BlobsOnly before.store after.store)
    (blobs : ∀ hash, isValidHash hash = true -> before.blobAt owner hash = after.blobAt owner hash) :
    SameFor owner before after :=
  sameFor_of_blobs (congrArg (fun rows => AList.lookup owner rows) only.owners.symm)
    (fun id => congrArg (fun rows => AList.lookup (owner, id) rows) only.events.symm)
    (fun tokenHash => congrArg (fun rows => AList.lookup (owner, tokenHash) rows) only.slots.symm) blobs

section Foreign

variable {owner other : Bytes32} (apart : other ≠ owner)
include apart

theorem eventRows_foreign (site store request fault id) :
    (pushEvents site store owner request fault).1.eventRows.lookup (other, id) = store.eventRows.lookup (other, id) ∧
      (deleteEvents site store owner request fault).1.eventRows.lookup (other, id) =
        store.eventRows.lookup (other, id) := by
  constructor
  · rcases pushEvents_cases site store owner request fault with ⟨same, _⟩ | ⟨_, _, _, _, _, stored, _⟩
    · rw [same]
    · rw [lookup_storeItems stored, if_neg apart, Option.or_none]
  · rcases deleteEvents_cases site store owner request fault with ⟨same, _⟩ | ⟨_, _, deleted, _⟩
    · rw [same]
    · rw [deleted, lookup_deleteBatch, if_neg (fun named => apart named.1)]

theorem voiceSlots_foreign (site store request fault tokenHash) :
    (voiceRooms site store owner request fault).1.voiceSlots.lookup (other, tokenHash) =
      store.voiceSlots.lookup (other, tokenHash) := by
  rcases voiceRooms_cases site store owner request fault with ⟨same, _⟩ | ⟨_, replaced, _⟩
  · rw [same]
  · rw [(replaceSet_spec replaced).2, if_neg apart]

theorem sameFor_handle (site host request) : SameFor other host (host.handle site owner request).1 := by
  have blobs : ∀ hash, isValidHash hash = true ->
      host.blobAt other hash = (host.handle site owner request).1.blobAt other hash :=
    fun hash valid => (blobAt_handle valid site host owner request (fun same => absurd same apart)).symm
  unfold handle at blobs ⊢
  split at blobs
  next long =>
    rw [if_pos long]
    exact SameFor.refl other host
  next short =>
    rw [if_neg short]
    cases request with
    | pushEvents signed fault =>
      have only := pushEvents_only site host.store owner signed fault
      exact EventsOnly.sameFor only (fun id => (eventRows_foreign apart site host.store signed fault id).1.symm) blobs
    | deleteEvents signed fault =>
      have only := deleteEvents_only site host.store owner signed fault
      exact EventsOnly.sameFor only (fun id => (eventRows_foreign apart site host.store signed fault id).2.symm) blobs
    | pushMedia hash signed faults =>
      exact BlobsOnly.sameFor (pushMedia_only site host owner hash signed faults) blobs
    | deleteMedia signed faults =>
      exact BlobsOnly.sameFor (deleteMedia_only site host owner signed faults) blobs
    | voiceRooms signed fault =>
      have only := voiceRooms_only site host.store owner signed fault
      refine sameFor_of_blobs ?_ ?_ ?_ blobs
      · exact congrArg (fun db => AList.lookup other db.pairedOwners) only.db.symm
      · exact fun id => congrArg (fun rows => AList.lookup (other, id) rows) only.events.symm
      · exact fun tokenHash => (voiceSlots_foreign apart site host.store signed fault tokenHash).symm

theorem not_inOwnerDir (hash) : inOwnerDir owner (ownerShardPath other hash) = false := by
  apply Bool.eq_false_iff.mpr
  intro inside
  exact apart (owner_of_below (below_ownerShardPath other hash) inside)

theorem sameFor_unpairOwner (host left) : SameFor other host (host.unpairOwner owner left) := by
  refine ⟨⟨?_, ?_, ?_, ?_⟩, ?_⟩
  · have erased : (host.unpairOwner owner left).store.db.pairedOwners =
        host.store.db.pairedOwners.erase owner := rfl
    rw [erased, AList.lookup_erase_ne apart]
  · intro id
    exact ((lookup_retain_fst host.store.eventRows owner (other, id)).trans (if_neg apart)).symm
  · intro hash
    exact ((lookup_retain_fst host.store.db.servedMedia owner (other, hash)).trans (if_neg apart)).symm
  · intro tokenHash
    exact ((lookup_retain_fst host.store.voiceSlots owner (other, tokenHash)).trans (if_neg apart)).symm
  · intro hash _
    have kept : (host.unpairOwner owner left).files =
        host.files.retain (fun path _ => !inOwnerDir owner path || decide (path ∈ left)) := rfl
    rw [kept, lookup_retain, not_inOwnerDir apart hash]
    cases host.files.lookup (ownerShardPath other hash) with
    | none | some => rfl

end Foreign

section Reads

variable {owner : Bytes32} {left right : Store} (same : SameRows owner left right)
include same

theorem SameRows.eventsOf_perm : (left.eventsOf owner).Perm (right.eventsOf owner) := by
  apply List.Perm.map
  exact filter_perm_of_lookup (lookup_of_fst same.events)

theorem SameRows.manifestHandler (limit since untilAt untilId) :
    manifestHandler limit left owner since untilAt untilId =
      manifestHandler limit right owner since untilAt untilId := by
  have perm := (same.eventsOf_perm.map (fun event => (⟨event.id, event.row.createdAt⟩ : ManifestRow))).filter
      (fun row => (manifestWhere since untilAt untilId row).holds)
  have distinct := (manifestRows_distinct left owner).sublist ((filter_sublist (p := fun row =>
    (manifestWhere since untilAt untilId row).holds)).map ManifestRow.newestFirst)
  have page : left.manifestPage owner since untilAt untilId (limit + 1) =
      right.manifestPage owner since untilAt untilId (limit + 1) :=
    congrArg (List.take (limit + 1)) (inOrder_eq_of_perm perm distinct)
  rw [Http.manifestHandler, Http.manifestHandler, page]

theorem SameRows.getEvents (maxRows byteBudget since sinceId) :
    getEvents maxRows byteBudget left owner since sinceId = getEvents maxRows byteBudget right owner since sinceId := by
  have perm := same.eventsOf_perm.filter (fun event => (payloadsWhere since sinceId event).holds)
  have distinct : (((left.eventsOf owner).filter
      (fun event => (payloadsWhere since sinceId event).holds)).map StoredEvent.stamp).Nodup :=
    ((eventCatalog owner).distinct left).sublist (filter_sublist.map _)
  have page : left.payloadsPage owner since sinceId maxRows byteBudget =
      right.payloadsPage owner since sinceId maxRows byteBudget := by
    rw [payloadsPage, payloadsPage, payloadsRows, payloadsRows, inOrder_eq_of_perm perm distinct]
  rw [Http.getEvents, Http.getEvents, page]

theorem SameRows.mediaManifestHandler (K now headers after) :
    mediaManifestHandler K now headers left owner after = mediaManifestHandler K now headers right owner after := by
  have perm : (left.hashesOf owner).Perm (right.hashesOf owner) := by
    apply List.Perm.map
    exact filter_perm_of_lookup (lookup_of_fst same.media)
  have page : ∀ limit, left.hashesPage owner after limit = right.hashesPage owner after limit := by
    intro limit
    rw [hashesPage, hashesPage, inOrder_eq_of_perm (perm.filter _)]
    rw [map_id]
    exact (left.hashesOf_nodup owner).sublist filter_sublist
  rw [Http.mediaManifestHandler, Http.mediaManifestHandler, mediaManifestPage, mediaManifestPage, page]

theorem SameRows.mediaBytes : totalBytes left.db owner = totalBytes right.db owner := by
  apply sumSizes_eq_of_lookup
  exact lookup_of_fst same.media

theorem SameRows.ownerUsage : ownerUsage left.db owner = ownerUsage right.db owner := by
  have events : Events.totalBytes left.db owner = Events.totalBytes right.db owner := by
    apply sumSizes_eq_of_lookup
    apply lookup_of_fst
    intro id
    rw [left.eventsAgree, right.eventsAgree, same.events id]
  rw [Accounting.ownerUsage, Accounting.ownerUsage, events, same.mediaBytes]

theorem SameRows.ownerCap (site) : Http.ownerCap site left.db owner = Http.ownerCap site right.db owner := by
  rw [Http.ownerCap, Http.ownerCap, Owners.get, Owners.get, same.paired]

theorem SameRows.status (site) : status site left owner = status site right owner := by
  have events : left.countEvents owner = right.countEvents owner := by
    have lengths := same.eventsOf_perm.length_eq
    rw [eventsOf, eventsOf, length_map, length_map] at lengths
    exact lengths
  have slots : left.countSlots owner = right.countSlots owner := by
    apply List.Perm.length_eq
    exact filter_perm_of_lookup (lookup_of_fst same.slots)
  rw [Http.status, Http.status, events, slots, same.ownerUsage, same.ownerCap, same.mediaBytes]

end Reads

theorem SameFor.blobAt (same : SameFor owner left right) {hash} (valid : isValidHash hash = true) :
    left.blobAt owner hash = right.blobAt owner hash :=
  Prod.ext (same.rows.media hash) (same.files hash valid)

/-! ## The Owner's own requests in two such states -/

def diskFull : Reply := .plain (.text 507 "relay storage cap exceeded")

theorem mem_congr {K V : Type} [DecidableEq K] {left right : Table K V} {key : K}
    (same : left.lookup key = right.lookup key) : key ∈ left ↔ key ∈ right := by
  rw [mem_iff_lookup, mem_iff_lookup, same]

theorem checkCapacity_agree {left right} (usage : ownerUsage left owner = ownerUsage right owner)
    (incoming cap diskCap) : checkCapacity left owner incoming cap diskCap =
        checkCapacity right owner incoming cap diskCap ∨
      checkCapacity left owner incoming cap diskCap = .hostExceeded ∨
      checkCapacity right owner incoming cap diskCap = .hostExceeded := by
  unfold checkCapacity
  rw [usage]
  split
  · exact .inl rfl
  · split
    · exact .inr (.inl rfl)
    · split
      · exact .inr (.inr rfl)
      · exact .inl rfl

section Events

variable {owner : Bytes32} {left right : Store} (same : SameRows owner left right)
include same

variable {nextLeft : Store}

theorem SameRows.of_eventsOnly {nextRight} (onLeft : EventsOnly left nextLeft) (onRight : EventsOnly right nextRight)
    (events : ∀ id, nextLeft.eventRows.lookup (owner, id) = nextRight.eventRows.lookup (owner, id)) :
    SameRows owner nextLeft nextRight := by
  refine ⟨?_, events, ?_, ?_⟩
  · rw [onLeft.owners, onRight.owners]
    exact same.paired
  · rw [onLeft.media, onRight.media]
    exact same.media
  · rw [onLeft.slots, onRight.slots]
    exact same.slots

theorem SameRows.insertEvent (id : String) (event) : Option.Rel (fun left right => SameRows owner left.1 right.1)
      (left.insertEvent owner id event) (right.insertEvent owner id event) := by
  have taken := mem_congr (same.events id)
  have paired := mem_congr same.paired
  unfold Store.insertEvent
  by_cases known : (owner, id) ∈ left.eventRows
  · rw [if_pos known, if_pos (taken.mp known)]
    exact .some same
  · rw [if_neg known, if_neg (mt taken.mpr known)]
    by_cases owned : owner ∈ left.db.pairedOwners
    · rw [dif_pos owned, dif_pos (paired.mp owned)]
      refine .some (same.of_eventsOnly ⟨rfl, rfl, rfl⟩ ⟨rfl, rfl, rfl⟩ ?_)
      intro other
      simp only [addEvent, lookup_insert_eq, same.events other]
    · rw [dif_neg owned, dif_neg (mt paired.mpr owned)]
      exact .none

theorem SameRows.storeItems (site now items accepted rejected) :
    Option.Rel (fun left right => left.2 = right.2 ∧ SameRows owner left.1 right.1)
      (storeItems site now owner items left accepted rejected)
      (storeItems site now owner items right accepted rejected) := by
  induction items generalizing left right accepted rejected with
  | nil => exact .some ⟨rfl, same⟩
  | cons item rest ih =>
    rw [Http.storeItems, Http.storeItems]
    cases itemEvent site now item with
    | none => exact ih same accepted _
    | some event =>
      have inserted := same.insertEvent item.id event
      simp only
      generalize left.insertEvent owner item.id event = onLeft,
        right.insertEvent owner item.id event = onRight at inserted ⊢
      cases inserted with
      | none => exact .none
      | some sameNext => exact ih sameNext _ rejected

theorem SameRows.pushEvents (site : RouterSite) (request fault) :
    ((Http.pushEvents site left owner request fault).2 = (Http.pushEvents site right owner request fault).2 ∧
      SameRows owner (Http.pushEvents site left owner request fault).1
        (Http.pushEvents site right owner request fault).1) ∨
    (Http.pushEvents site left owner request fault).2 = diskFull ∨
    (Http.pushEvents site right owner request fault).2 = diskFull := by
  unfold Http.pushEvents
  cases request.refusal site.toSite owner "/events" with
  | some => exact .inl ⟨rfl, same⟩
  | none =>
    cases site.parseBatch request.body with
    | none => exact .inl ⟨rfl, same⟩
    | some items =>
      cases fault with
      | true => exact .inl ⟨rfl, same⟩
      | false =>
        have capacity := checkCapacity_agree same.ownerUsage (batchBytes items)
          (Http.ownerCap site.toSite right.db owner) site.diskCap
        simp only [Bool.false_eq_true, if_false, pushBatch, same.ownerCap site.toSite]
        rcases capacity with agree | full | full
        · rw [agree]
          cases checkCapacity right.db owner (batchBytes items)
              (Http.ownerCap site.toSite right.db owner) site.diskCap with
          | ownerExceeded | hostExceeded => exact .inl ⟨rfl, same⟩
          | ok =>
            have stored := same.storeItems site request.later items 0 0
            generalize Http.storeItems site request.later owner items left 0 0 = onLeft,
              Http.storeItems site request.later owner items right 0 0 = onRight at stored ⊢
            refine Or.inl ?_
            cases stored with
            | none => exact ⟨rfl, same⟩
            | some next =>
              exact ⟨congrArg (fun counts : Int × Int => Reply.pushReceipt counts.1 counts.2) next.1, next.2⟩
        · rw [full]
          exact .inr (.inl rfl)
        · rw [full]
          exact .inr (.inr rfl)

theorem SameRows.deleteBatch (ids : List String) :
    (deleteBatch owner ids left).2 = (deleteBatch owner ids right).2 ∧
      SameRows owner (deleteBatch owner ids left).1 (deleteBatch owner ids right).1 := by
  constructor
  · induction ids generalizing left right with
    | nil => rfl
    | cons id rest ih =>
      have sameNext : SameRows owner (left.deleteEvent owner id) (right.deleteEvent owner id) := by
        refine same.of_eventsOnly ⟨rfl, rfl, rfl⟩ ⟨rfl, rfl, rfl⟩ ?_
        intro other
        have onLeft : (left.deleteEvent owner id).eventRows = left.eventRows.erase (owner, id) := rfl
        have onRight : (right.deleteEvent owner id).eventRows = right.eventRows.erase (owner, id) := rfl
        rw [onLeft, onRight, lookup_erase_eq, lookup_erase_eq, same.events other]
      have later := ih sameNext
      simp [deleteBatch, mem_congr (same.events id), later]
  · apply same.of_eventsOnly (eventsOnly_deleteBatch owner ids left) (eventsOnly_deleteBatch owner ids right)
    intro id
    rw [lookup_deleteBatch, lookup_deleteBatch, same.events id]

theorem SameRows.deleteEvents (site : RouterSite) (request fault) :
    (deleteEvents site left owner request fault).2 = (deleteEvents site right owner request fault).2 ∧
      SameRows owner (deleteEvents site left owner request fault).1
        (deleteEvents site right owner request fault).1 := by
  unfold Http.deleteEvents
  cases request.refusal site.toSite owner "/events/delete" with
  | some => exact ⟨rfl, same⟩
  | none =>
    cases site.parseEventDelete request.body with
    | none => exact ⟨rfl, same⟩
    | some ids =>
      cases fault with
      | true => exact ⟨rfl, same⟩
      | false =>
        have deleted := same.deleteBatch ids
        exact ⟨congrArg (fun count : Int => Reply.plain (.receipt count ((ids.length : Int) - count)))
          deleted.1, deleted.2⟩

theorem SameRows.of_slotsOnly {nextRight} (onLeft : SlotsOnly left nextLeft) (onRight : SlotsOnly right nextRight)
    (slots : ∀ tokenHash, nextLeft.voiceSlots.lookup (owner, tokenHash) = nextRight.voiceSlots.lookup
      (owner, tokenHash)) : SameRows owner nextLeft nextRight := by
  refine ⟨?_, ?_, ?_, slots⟩
  · rw [onLeft.db, onRight.db]
    exact same.paired
  · rw [onLeft.events, onRight.events]
    exact same.events
  · rw [onLeft.db, onRight.db]
    exact same.media

theorem SameRows.insertSlot (tokenHash slot) : Option.Rel (SameRows owner)
      (left.insertSlot owner tokenHash slot) (right.insertSlot owner tokenHash slot) := by
  have taken := mem_congr (same.slots tokenHash)
  have paired := mem_congr same.paired
  unfold Store.insertSlot
  by_cases known : (owner, tokenHash) ∈ left.voiceSlots
  · rw [if_pos known, if_pos (taken.mp known)]
    exact .none
  · rw [if_neg known, if_neg (mt taken.mpr known)]
    by_cases owned : owner ∈ left.db.pairedOwners
    · rw [dif_pos owned, dif_pos (paired.mp owned)]
      refine .some (same.of_slotsOnly ⟨rfl, rfl⟩ ⟨rfl, rfl⟩ ?_)
      intro other
      simp only [lookup_insert_eq, same.slots other]
    · rw [dif_neg owned, dif_neg (mt paired.mpr owned)]
      exact .none

theorem SameRows.insertSlots (now) (slots : List Voice.VoiceSlotEntry) : Option.Rel (SameRows owner)
      (insertSlots owner now slots left) (insertSlots owner now slots right) := by
  induction slots generalizing left right with
  | nil => exact .some same
  | cons entry rest ih =>
    have inserted := same.insertSlot entry.tokenHash ⟨entry.maxParticipants, now⟩
    rw [Store.insertSlots, Store.insertSlots]
    generalize left.insertSlot owner entry.tokenHash _ = onLeft,
      right.insertSlot owner entry.tokenHash _ = onRight at inserted ⊢
    cases inserted with
    | none => exact .none
    | some sameNext => exact ih sameNext

theorem SameRows.replaceSet (slots now) : Option.Rel (SameRows owner) (left.replaceSet owner slots now)
      (right.replaceSet owner slots now) := by
  have cleared : SameRows owner (left.clearSlots owner) (right.clearSlots owner) := by
    refine same.of_slotsOnly ⟨rfl, rfl⟩ ⟨rfl, rfl⟩ ?_
    intro tokenHash
    rw [clearSlots, clearSlots, lookup_retain_fst, lookup_retain_fst, if_pos rfl, if_pos rfl]
  exact cleared.insertSlots now slots

theorem SameRows.voiceRooms (site request fault) :
    (voiceRooms site left owner request fault).2 = (voiceRooms site right owner request fault).2 ∧
      SameRows owner (voiceRooms site left owner request fault).1 (voiceRooms site right owner request fault).1 := by
  unfold Http.voiceRooms
  cases request.refusal site.toSite owner "/voice/rooms" with
  | some => exact ⟨rfl, same⟩
  | none =>
    cases site.voiceMax with
    | none => exact ⟨rfl, same⟩
    | some voiceMax =>
      cases site.parseSlots request.body with
      | none => exact ⟨rfl, same⟩
      | some slots =>
        simp only
        split
        · exact ⟨rfl, same⟩
        · cases slots.findSome? (slotProblem voiceMax) with
          | some => exact ⟨rfl, same⟩
          | none =>
            cases fault with
            | true => exact ⟨rfl, same⟩
            | false =>
              have replaced := same.replaceSet slots request.later
              simp only [Bool.false_eq_true, if_false]
              generalize left.replaceSet owner slots request.later = onLeft,
                right.replaceSet owner slots request.later = onRight at replaced ⊢
              cases replaced with
              | none => exact ⟨rfl, same⟩
              | some sameNext => exact ⟨rfl, sameNext⟩

end Events

section Media

variable {owner : Bytes32} {left right : Host} (same : SameFor owner left right)
include same

theorem SameFor.alreadyStored (push) (mine : push.owner = owner) :
    (rest left.store.db left.files).alreadyStored push = (rest right.store.db right.files).alreadyStored push := by
  apply Bool.eq_iff_iff.mpr
  rw [alreadyStored_iff, alreadyStored_iff, mine, same.blobAt push.valid]

theorem SameFor.pushCapacity (site push) (mine : push.owner = owner) :
    pushCapacity site left.store.db push = pushCapacity site right.store.db push ∨
      pushCapacity site left.store.db push = .hostExceeded ∨
      pushCapacity site right.store.db push = .hostExceeded := by
  subst mine
  have stored : get left.store.db push.owner push.hash = get right.store.db push.owner push.hash :=
    same.rows.media push.hash
  have paired : Owners.get left.store.db push.owner = Owners.get right.store.db push.owner := same.rows.paired
  unfold World.pushCapacity
  rw [stored, paired]
  exact checkCapacity_agree same.rows.ownerUsage _ _ _

structure SameOutcome (owner : Bytes32) (left right : Outcome) : Prop where
  answer : left.answer = right.answer
  media : ∀ hash, Media.get left.db owner hash = Media.get right.db owner hash
  files : ∀ hash, isValidHash hash = true ->
    left.files.lookup (ownerShardPath owner hash) = right.files.lookup (ownerShardPath owner hash)

theorem SameFor.outcome {leftFiles rightFiles} (answer) (files : ∀ hash, isValidHash hash = true ->
      leftFiles.lookup (ownerShardPath owner hash) = rightFiles.lookup (ownerShardPath owner hash)) :
    SameOutcome owner ⟨left.store.db, leftFiles, answer⟩ ⟨right.store.db, rightFiles, answer⟩ :=
  ⟨rfl, same.rows.media, files⟩

theorem SameFor.upsert (push : Push) (mine : push.owner = owner) (media : ServedMedia) :
    Option.Rel (fun left right => ∀ hash, get left owner hash = get right owner hash)
      (upsert left.store.db push.owner push.hash media) (upsert right.store.db push.owner push.hash media) := by
  subst mine
  have paired := mem_congr same.rows.paired
  unfold Media.upsert
  by_cases owned : push.owner ∈ left.store.db.pairedOwners
  · rw [dif_pos owned, dif_pos (paired.mp owned)]
    refine .some (fun hash => ?_)
    rw [Media.get, Media.get, lookup_insert_eq, lookup_insert_eq, same.rows.media hash]
  · rw [dif_neg owned, dif_neg (mt paired.mpr owned)]
    exact .none

theorem SameFor.pushTransaction (site : Site) (later faults) (push : Push) (mine : push.owner = owner) :
    SameOutcome owner (pushTransaction site left.store.db left.files later faults push)
        (pushTransaction site right.store.db right.files later faults push) ∨
      Reply.plain (pushTransaction site left.store.db left.files later faults push).answer = diskFull ∨
      Reply.plain (pushTransaction site right.store.db right.files later faults push).answer =
        diskFull := by
  have unchanged := fun answer => same.outcome answer same.files
  have partly : ∀ content hash, isValidHash hash = true ->
      (left.files.insert (tmpPath push.path) content).lookup (ownerShardPath owner hash) =
        (right.files.insert (tmpPath push.path) content).lookup (ownerShardPath owner hash) := by
    intro content hash valid
    rw [lookup_insert_eq, lookup_insert_eq, same.files hash valid]
  have fully : ∀ hash, isValidHash hash = true -> (placed left.files push).lookup (ownerShardPath owner hash) =
        (placed right.files push).lookup (ownerShardPath owner hash) := by
    intro hash valid
    rw [lookup_placed, lookup_placed, same.files hash valid]
  unfold Http.pushTransaction
  rw [same.alreadyStored push mine]
  split
  · exact .inl (unchanged internalError)
  · split
    · exact .inl (unchanged (.text 202 ""))
    · rcases same.pushCapacity site push mine with agree | full | full
      · rw [agree]
        cases World.pushCapacity site right.store.db push with
        | ownerExceeded | hostExceeded => exact .inl (unchanged _)
        | ok =>
          refine Or.inl ?_
          cases faults 1 with
          | failed => exact unchanged internalError
          | torn => exact same.outcome internalError (partly _)
          | fine =>
            simp only
            split
            · exact same.outcome internalError (partly _)
            · split
              · exact same.outcome internalError fully
              · have stored := same.upsert push mine ⟨push.body.length, later, push.path⟩
                generalize Media.upsert left.store.db push.owner push.hash _ = onLeft,
                  Media.upsert right.store.db push.owner push.hash _ = onRight at stored ⊢
                cases stored with
                | none => exact same.outcome internalError fully
                | some media => exact ⟨rfl, media, fully⟩
      · rw [full]
        exact .inr (.inl rfl)
      · rw [full]
        exact .inr (.inr rfl)

end Media

theorem deleteRows_paths (hashes) {left right} (media : ∀ hash, get left owner hash = get right owner hash) :
    (deleteRows owner hashes left).2 = (deleteRows owner hashes right).2 := by
  induction hashes generalizing left right with
  | nil => rfl
  | cons hash rest ih =>
    have unfolded : ∀ db, (deleteRows owner (hash :: rest) db).2 =
        ((get db owner hash).map ServedMedia.path).toList ++
          (deleteRows owner rest (delete db owner hash).1).2 := by
      intro db
      have removed : (delete db owner hash).2 = get db owner hash := by
        unfold delete
        cases get db owner hash with
        | none | some => rfl
      rw [← removed]
      rfl
    rw [unfolded, unfolded, media hash]
    congr 1
    apply ih
    intro other
    rw [Media.get, Media.get, lookup_mediaDelete, lookup_mediaDelete]
    split
    · rfl
    · exact media other

theorem unlinkAll_congr {faults path} (count paths) {left right} (same : left.lookup path = right.lookup path) :
    (unlinkAll faults count paths left).lookup path = (unlinkAll faults count paths right).lookup path := by
  induction paths generalizing count left right with
  | nil => exact same
  | cons first rest ih =>
    apply ih
    split
    · rw [lookup_erase_eq, lookup_erase_eq, same]
    · exact same

theorem SameFor.deleteTransaction (same : SameFor owner left right) (faults hashes) :
    SameOutcome owner (deleteTransaction left.store.db left.files faults owner hashes)
      (deleteTransaction right.store.db right.files faults owner hashes) := by
  have paths := deleteRows_paths hashes same.rows.media
  unfold Http.deleteTransaction
  split
  · exact same.outcome internalError same.files
  · refine ⟨?_, ?_, ?_⟩
    · exact congrArg (fun paths : List String =>
        Answer.receipt paths.length ((hashes.length : Int) - paths.length)) paths
    · intro hash
      simp only [Media.get, lookup_deleteRows]
      split
      · rfl
      · exact same.rows.media hash
    · intro hash valid
      simp only [paths]
      exact unlinkAll_congr 1 _ (same.files hash valid)

def OwnerRequest.isPush : OwnerRequest -> Bool
  | .pushEvents _ _ => true
  | .pushMedia _ _ _ => true
  | _ => false

theorem SameFor.handle (same : SameFor owner left right) (site request) :
    ((left.handle site owner request).2 = (right.handle site owner request).2 ∧
      SameFor owner (left.handle site owner request).1 (right.handle site owner request).1) ∨
    request.isPush = true ∧
      ((left.handle site owner request).2 = diskFull ∨ (right.handle site owner request).2 = diskFull) := by
  unfold Host.handle
  split
  · exact .inl ⟨rfl, same⟩
  · cases request with
    | pushEvents signed fault =>
      rcases same.rows.pushEvents site signed fault with ⟨reply, rows⟩ | full
      · exact .inl ⟨reply, rows, same.files⟩
      · exact .inr ⟨rfl, full⟩
    | deleteEvents signed fault =>
      have agree := same.rows.deleteEvents site signed fault
      exact .inl ⟨agree.1, agree.2, same.files⟩
    | pushMedia hash signed faults =>
      simp only [pushMedia]
      by_cases valid : isValidHash hash = true
      · rw [dif_pos valid, dif_pos valid]
        cases signed.refusal site.toSite owner ("/media/" ++ hash) with
        | some => exact .inl ⟨rfl, same⟩
        | none =>
          rcases same.pushTransaction site.toSite signed.later faults
            ⟨owner, hash, signed.body, valid⟩ rfl with outcomes | full
          · exact .inl ⟨congrArg Reply.plain outcomes.answer,
              ⟨same.rows.paired, same.rows.events, outcomes.media, same.rows.slots⟩, outcomes.files⟩
          · exact .inr ⟨rfl, full⟩
      · rw [dif_neg valid, dif_neg valid]
        exact .inl ⟨rfl, same⟩
    | deleteMedia signed faults =>
      refine Or.inl ?_
      simp only [deleteMedia]
      cases signed.refusal site.toSite owner "/media/delete" with
      | some => exact ⟨rfl, same⟩
      | none =>
        cases site.parseDelete signed.body with
        | none => exact ⟨rfl, same⟩
        | some hashes =>
          simp only
          split
          · have outcomes := same.deleteTransaction faults hashes
            exact ⟨congrArg Reply.plain outcomes.answer,
              ⟨same.rows.paired, same.rows.events, outcomes.media, same.rows.slots⟩, outcomes.files⟩
          · exact ⟨rfl, same⟩
    | voiceRooms signed fault =>
      have agree := same.rows.voiceRooms site signed fault
      exact .inl ⟨congrArg Prod.fst agree.1, agree.2, same.files⟩

/-- Every read of the Owner is answered alike in both states. -/
structure SameAnswers (site : RouterSite) (owner : Bytes32) (left right : Host) : Prop where
  manifest : ∀ limit since untilAt untilId, manifestHandler limit left.store owner since untilAt untilId =
      manifestHandler limit right.store owner since untilAt untilId
  events : ∀ maxRows byteBudget since sinceId, getEvents maxRows byteBudget left.store owner since sinceId =
      getEvents maxRows byteBudget right.store owner since sinceId
  media : ∀ hash, left.getMedia owner hash = right.getMedia owner hash
  mediaManifest : ∀ now headers after, mediaManifestHandler site.K now headers left.store owner after =
      mediaManifestHandler site.K now headers right.store owner after
  status : status site left.store owner = status site right.store owner

theorem SameFor.answers (same : SameFor owner left right) (site) : SameAnswers site owner left right where
  manifest := same.rows.manifestHandler
  events := same.rows.getEvents
  media := fun _ => getMedia_congr same.blobAt
  mediaManifest := same.rows.mediaManifestHandler site.K
  status := same.rows.status site

def Foreign (owner : Bytes32) : HostInput -> Prop
  | .request other _ => other ≠ owner
  | .unpair other _ => other ≠ owner
  | _ => False

theorem sameFor_step {site host next input} (foreign : Foreign owner input)
    (stepped : host.step site input = .ok next) : SameFor owner host next := by
  cases input with
  | request _ request =>
    cases stepped
    exact sameFor_handle (Ne.symm foreign) site host request
  | unpair _ left =>
    cases stepped
    exact sameFor_unpairOwner (Ne.symm foreign) host left
  | pair | disturb => exact False.elim foreign

theorem sameFor_run {site inputs host final} (foreign : ∀ input ∈ inputs, Foreign owner input)
    (reached : run (Host.step site) host inputs = .ok final) : SameFor owner host final := by
  refine run_invariant ?_ (SameFor.refl owner host) (Along.of_mem (fun _ => foreign)) reached
  intro state input next same other stepped
  exact same.trans (sameFor_step other stepped)

theorem SameFor.serve (same : SameFor owner left right) (site requests) :
    ((left.serve site owner requests).2 = (right.serve site owner requests).2 ∧
      SameFor owner (left.serve site owner requests).1 (right.serve site owner requests).1) ∨
    ∃ exchange, (exchange ∈ (left.serve site owner requests).2 ∨
      exchange ∈ (right.serve site owner requests).2) ∧
      exchange.request.isPush = true ∧ exchange.reply = diskFull := by
  induction requests generalizing left right with
  | nil => exact .inl ⟨rfl, same⟩
  | cons request rest ih =>
    rw [serve, serve]
    rcases same.handle site request with ⟨reply, sameNext⟩ | ⟨push, atLeft | atRight⟩
    · rcases ih sameNext with ⟨logs, finals⟩ | ⟨exchange, member, refused⟩
      · exact .inl ⟨by rw [reply, logs], finals⟩
      · refine Or.inr ⟨exchange, ?_, refused⟩
        exact member.imp (mem_cons_of_mem _) (mem_cons_of_mem _)
    · exact .inr ⟨_, .inl mem_cons_self, push, atLeft⟩
    · exact .inr ⟨_, .inr mem_cons_self, push, atRight⟩

/-- Whatever other Owners request, and whether or not they are unpaired, every read of an
Owner is answered as before.  So are its later requests and the reads after them, unless
in one of the two states a push of the Owner was refused for the disk cap. -/
theorem owners_isolated (site : RouterSite) (owner : Bytes32) {host after : Host} {inputs : List HostInput}
    (foreign : ∀ input ∈ inputs, Foreign owner input)
    (reached : run (Host.step site) host inputs = .ok after) : SameAnswers site owner host after ∧
    ∀ requests, ((host.serve site owner requests).2 = (after.serve site owner requests).2 ∧
        SameAnswers site owner (host.serve site owner requests).1 (after.serve site owner requests).1) ∨
      ∃ exchange, (exchange ∈ (host.serve site owner requests).2 ∨
        exchange ∈ (after.serve site owner requests).2) ∧
        exchange.request.isPush = true ∧ exchange.reply = diskFull := by
  have same := sameFor_run foreign reached
  refine ⟨same.answers site, ?_⟩
  intro requests
  rcases same.serve site requests with ⟨logs, finals⟩ | refused
  · exact .inl ⟨logs, finals.answers site⟩
  · exact .inr refused

def fromSample (body : Bytes) : Signed :=
  { fromPhone body with headers := ("x-starling-pubkey", Base64.encode sampleOwner.val) :: capturedHeaders }

/-- The second Owner has an event and a blob. -/
def sharedHost : Host :=
  finalState (Host.step smallRouter) (pairedHost.pairOwner sampleOwner ⟨none, 0, "second.onion", 17001, none⟩)
    [.request sampleOwner (.pushEvents (fromSample pollBatch) false),
      .request sampleOwner (.pushMedia World.blobHash (fromSample [7]) (fun _ => .fine))]

def phoneComesAndGoes : List HostInput :=
  [.request phoneKey (.pushEvents (fromPhone pollBatch) false),
    .request phoneKey (.pushMedia World.blobHash (fromPhone [1, 2]) (fun _ => .fine)), .unpair phoneKey []]

theorem owners_isolated_shared :
    let visited := finalState (Host.step smallRouter) sharedHost (phoneComesAndGoes.take 2)
    (visited.store.countEvents phoneKey = 1 ∧ visited.getMedia phoneKey World.blobHash = .blob 2 [1, 2]) ∧
    (sharedHost.store.countEvents sampleOwner = 1 ∧ sharedHost.getMedia sampleOwner World.blobHash = .blob 1 [7]) ∧
    SameAnswers smallRouter sampleOwner sharedHost
      (finalState (Host.step smallRouter) sharedHost phoneComesAndGoes) := by
  have returns : (run (step smallRouter) sharedHost phoneComesAndGoes).toBool = true := by
    decide +kernel
  have foreign : ∀ input ∈ phoneComesAndGoes, Foreign sampleOwner input := by
    have apart : phoneKey ≠ sampleOwner := by decide
    intro input member
    simp only [phoneComesAndGoes, mem_cons, not_mem_nil, or_false] at member
    rcases member with rfl | rfl | rfl <;> exact apart
  exact ⟨by decide +kernel, by decide +kernel,
    (owners_isolated smallRouter sampleOwner foreign (run_finalState returns)).1⟩

end Starling.Http
