import Starling.Http.Host

namespace Starling.Http

/-!
# Storage caps over whole runs

The events route charges a batch with all its payload bytes, the media route charges a
blob with what it adds to the recorded size.  Both check the charge against the Owner's
cap and the disk cap inside their transaction, so no run of requests of any number of
Owners ends above a cap.
-/

open Storage Table AList Accounting Owners Host

/-- A request of some Owner, an unpairing, a pairing, or anything at all that happens in the
media directory between two transactions. -/
inductive HostInput where
  | request (owner : Bytes32) (request : OwnerRequest)
  | unpair (owner : Bytes32) (left : List String)
  | pair (owner : Bytes32) (row : PairedOwner)
  | disturb (files : Table String Bytes)

namespace Host

def step (site : RouterSite) (host : Host) : HostInput -> Except Empty Host
  | .request owner request => .ok (host.handle site owner request).1
  | .unpair owner left => .ok (host.unpairOwner owner left)
  | .pair owner row => .ok (host.pairOwner owner row)
  | .disturb files => .ok ⟨host.store, files, host.filed⟩

def Bare (host : Host) : Prop :=
  (∀ key, host.store.eventRows.lookup key = none) ∧ ∀ key, host.store.db.servedMedia.lookup key = none

end Host

/-- The bytes of the selected rows of both tables.  The usage of an Owner and of the host are
two of these sums. -/
def bytesOf (db : Database) (mine : Bytes32 -> Bool) : Int :=
  sumSizes db.servedEvents (fun key => mine key.1) ServedEvent.size +
    sumSizes db.servedMedia (fun key => mine key.1) ServedMedia.size

theorem ownerUsage_eq (db owner) : ownerUsage db owner = bytesOf db (fun pubkey => pubkey = owner) := rfl

theorem hostUsage_eq (db) : hostUsage db = bytesOf db (fun _ => true) := rfl

theorem event_size_nonneg (store : Store) (key) (event : ServedEvent)
    (found : store.db.servedEvents.lookup key = some event) : 0 ≤ event.size := by
  rw [store.eventsAgree key, Option.map_eq_some_iff] at found
  rcases found with ⟨row, atKey, rfl⟩
  rw [store.sized key row atKey]
  exact Int.natCast_nonneg _

variable {owner : Bytes32} {store : Store} {after db before : Database} {site : Site} {host : Host}

theorem mem_insertEvent {after id event new} (stored : store.insertEvent owner id event = some (after, new))
    (key) : key ∈ after.eventRows ↔ key = (owner, id) ∨ key ∈ store.eventRows := by
  rcases Store.insertEvent_cases stored with ⟨known, rfl⟩ | ⟨_, _, rfl⟩
  · exact ⟨.inr, fun either => either.elim (· ▸ known) (·)⟩
  · exact mem_insert _

/-- The bytes that a batch adds: of each id that is not `known`, the first well-formed item. -/
def freshBytes (site : RouterSite) (now : Int) : List PushItem -> (String -> Bool) -> Int
  | [], _ => 0
  | item :: rest, known =>
    if (itemEvent site now item).isNone || known item.id then freshBytes site now rest known
    else item.payload.length + freshBytes site now rest (fun id => id = item.id || known id)

theorem freshBytes_le (site now items known) : freshBytes site now items known ≤ batchBytes items := by
  induction items generalizing known with
  | nil => simp [freshBytes, batchBytes]
  | cons item rest ih =>
    have more : batchBytes (item :: rest) = item.payload.length + batchBytes rest := by
      simp [batchBytes]
    rw [freshBytes]
    split
    · exact le_trans (ih _) (by omega)
    · have := ih (fun id => id = item.id || known id)
      omega

def holds (owner : Bytes32) (store : Store) (id : String) : Bool := (owner, id) ∈ store.eventRows

theorem bytesOf_storeItems {site now items after accepted rejected accepts rejects}
    (stored : storeItems site now owner items store accepted rejected = some (after, accepts, rejects)) (mine) :
    bytesOf after.db mine =
      bytesOf store.db mine + (if mine owner then freshBytes site now items (holds owner store) else 0) := by
  refine storeItems_induction (motive := fun items store _ _ => bytesOf after.db mine =
    bytesOf store.db mine + (if mine owner then freshBytes site now items (holds owner store) else 0)) ?_ ?_ ?_ stored
  · simp [freshBytes]
  · intro item rest store accepted rejected malformed ih
    simpa [freshBytes, malformed] using ih
  · intro item rest store middle new event accepted rejected built inserted ih
    have held : holds owner middle = fun id => id = item.id || holds owner store id := by
      funext id
      simp [holds, mem_insertEvent inserted]
    rcases Store.insertEvent_cases inserted with ⟨known, rfl⟩ | ⟨fresh, owned, rfl⟩
    · simpa [freshBytes, holds, known] using ih
    · have absent : (owner, item.id) ∉ store.db.servedEvents :=
        fun member => fresh ((store.mem_eventRows_iff _).mpr member)
      have size : event.row.toServedEvent.size = item.payload.length :=
        congrArg (fun payload : Bytes => (payload.length : Int)) (itemEvent_payload built)
      have more : freshBytes site now (item :: rest) (holds owner store) = item.payload.length +
          freshBytes site now rest (fun id => id = item.id || holds owner store id) := by
        simp [freshBytes, built, holds, fresh]
      have rows : (store.addEvent owner item.id event owned).db.servedEvents =
          store.db.servedEvents.insert (owner, item.id) event.row.toServedEvent := rfl
      have media : (store.addEvent owner item.id event owned).db.servedMedia = store.db.servedMedia := rfl
      rw [ih, held, bytesOf, bytesOf, rows, media, sumSizes_replace, charge_of_absent absent, size]
      split <;> omega

def MediaSized (db : Database) : Prop := ∀ key row, db.servedMedia.lookup key = some row -> 0 ≤ row.size

theorem bytesOf_le_of_lookup {before : Store} (sized : MediaSized before.db)
    (events : ∀ key, after.servedEvents.lookup key = none ∨ after.servedEvents.lookup key =
      before.db.servedEvents.lookup key)
    (media : ∀ key, after.servedMedia.lookup key = none ∨ after.servedMedia.lookup key =
      before.db.servedMedia.lookup key)
    (mine : Bytes32 -> Bool) : bytesOf after mine ≤ bytesOf before.db mine := by
  have fewerEvents : sumSizes after.servedEvents (fun key => mine key.1) ServedEvent.size ≤
      sumSizes before.db.servedEvents (fun key => mine key.1) ServedEvent.size :=
    sumSizes_le_of_lookup events (event_size_nonneg before)
  have fewerMedia : sumSizes after.servedMedia (fun key => mine key.1) ServedMedia.size ≤
      sumSizes before.db.servedMedia (fun key => mine key.1) ServedMedia.size :=
    sumSizes_le_of_lookup media sized
  rw [bytesOf, bytesOf]
  omega

structure WithinCaps (site : Site) (db : Database) : Prop where
  sized : MediaSized db
  owners : ∀ owner, 0 < ownerCap site db owner -> Accounting.ownerUsage db owner ≤ ownerCap site db owner
  host : 0 < site.diskCap -> Accounting.hostUsage db ≤ site.diskCap

theorem checkCapacity_ok {incoming cap diskCap} (fits : checkCapacity db owner incoming cap diskCap = .ok) :
    (0 < cap -> ownerUsage db owner + incoming ≤ cap) ∧ (0 < diskCap -> hostUsage db + incoming ≤ diskCap) := by
  unfold checkCapacity at fits
  split at fits
  · cases fits
  next ownerFits =>
    split at fits
    · cases fits
    next hostFits =>
      constructor
      · intro positive
        by_contra above
        exact ownerFits ⟨positive, by omega⟩
      · intro positive
        by_contra above
        exact hostFits ⟨positive, by omega⟩

theorem ownerCap_congr (owners : after.pairedOwners = before.pairedOwners) (owner) :
    ownerCap site after owner = ownerCap site before owner := by
  rw [ownerCap, ownerCap, Owners.get, Owners.get, owners]

theorem WithinCaps.charged {incoming} (within : WithinCaps site before) (sized : MediaSized after)
    (owners : after.pairedOwners = before.pairedOwners)
    (fits : checkCapacity before owner incoming (ownerCap site before owner) site.diskCap = .ok)
    (grown : ∀ mine, bytesOf after mine ≤ bytesOf before mine + (if mine owner then incoming else 0)) :
    WithinCaps site after := by
  have checked := checkCapacity_ok fits
  refine ⟨sized, ?_, ?_⟩
  · intro other positive
    rw [ownerCap_congr owners] at positive ⊢
    have bound := grown (fun pubkey => pubkey = other)
    rw [← ownerUsage_eq, ← ownerUsage_eq] at bound
    by_cases same : owner = other
    · subst same
      simp only [decide_true, if_true] at bound
      omega
    · have kept := within.owners other positive
      simp only [same, decide_false, Bool.false_eq_true, if_false] at bound
      omega
  · intro positive
    have bound := grown (fun _ => true)
    rw [← hostUsage_eq, ← hostUsage_eq, if_pos rfl] at bound
    have fitsHost := checked.2 positive
    omega

theorem WithinCaps.lowered (within : WithinCaps site before) (sized : MediaSized after)
    (owners : after.pairedOwners = before.pairedOwners)
    (fallen : ∀ mine, bytesOf after mine ≤ bytesOf before mine) : WithinCaps site after := by
  refine ⟨sized, ?_, ?_⟩
  · intro owner positive
    rw [ownerCap_congr owners] at positive ⊢
    exact le_trans (fallen (fun pubkey => pubkey = owner)) (within.owners owner positive)
  · intro positive
    exact le_trans (fallen (fun _ => true)) (within.host positive)

theorem MediaSized.of_eq (sized : MediaSized before) (same : after.servedMedia = before.servedMedia) :
    MediaSized after := by
  intro key row found
  rw [same] at found
  exact sized key row found

theorem WithinCaps.pushEvents {site} (within : WithinCaps site.toSite store.db) (owner request fault) :
    WithinCaps site.toSite (pushEvents site store owner request fault).1.db := by
  rcases pushEvents_cases site store owner request fault with
    ⟨same, _⟩ | ⟨items, _, _, _, fits, stored, _⟩
  · rw [same]
    exact within
  · have only := eventsOnly_storeItems stored
    refine within.charged (within.sized.of_eq only.media) only.owners fits (fun mine => ?_)
    have fresh := freshBytes_le site request.later items (holds owner store)
    rw [bytesOf_storeItems stored]
    split <;> omega

theorem WithinCaps.deleteEvents {site} (within : WithinCaps site.toSite store.db) (owner : Bytes32) (request)
    (fault : Bool) : WithinCaps site.toSite (deleteEvents site store owner request fault).1.db := by
  rcases deleteEvents_cases site store owner request fault with ⟨same, _⟩ | ⟨ids, _, deleted, _⟩
  · rw [same]
    exact within
  · rw [deleted]
    have only := eventsOnly_deleteBatch owner ids store
    apply within.lowered (within.sized.of_eq only.media) only.owners
    apply bytesOf_le_of_lookup within.sized
    · intro key
      rw [Store.eventsAgree, lookup_deleteBatch, store.eventsAgree]
      split
      · exact .inl rfl
      · exact .inr rfl
    · intro key
      rw [only.media]
      exact .inr rfl

theorem WithinCaps.pushTransaction (within : WithinCaps site db) (files later faults push) :
    WithinCaps site (Http.pushTransaction site db files later faults push).db := by
  have effect := pushEffect site db files later faults push
  generalize Http.pushTransaction site db files later faults push = outcome at effect ⊢
  cases effect with
  | failed | present => exact within
  | replaced after _ capacity stored =>
    have sized : MediaSized after := by
      rw [MediaSized, Media.upsert_eq_some stored]
      exact of_lookup_insert within.sized (Int.natCast_nonneg _)
    apply within.charged sized (upsert_frame stored).1.owners capacity
    intro mine
    rw [bytesOf, bytesOf, (upsert_frame stored).1.events, Media.upsert_eq_some stored, sumSizes_replace, charge,
      Media.get]
    simp only
    split <;> omega

section

variable (within : WithinCaps site store.db)
include within

theorem WithinCaps.deleteRows (owner : Bytes32) (hashes : List String) :
    WithinCaps site (World.deleteRows owner hashes store.db).1 := by
  have frame := deleteRows_frame owner hashes store.db
  have media : ∀ key, (World.deleteRows owner hashes store.db).1.servedMedia.lookup key = none ∨
      (World.deleteRows owner hashes store.db).1.servedMedia.lookup key = store.db.servedMedia.lookup key := by
    intro key
    rw [World.lookup_deleteRows]
    split
    · exact .inl rfl
    · exact .inr rfl
  have sized : MediaSized (World.deleteRows owner hashes store.db).1 := by
    intro key row found
    rcases media key with gone | same
    · rw [gone] at found
      cases found
    · rw [same] at found
      exact within.sized key row found
  apply within.lowered sized frame.owners
  apply bytesOf_le_of_lookup within.sized _ media
  intro key
  rw [frame.events]
  exact .inr rfl

theorem WithinCaps.deleteOwner (owner : Bytes32) : WithinCaps site (store.deleteOwner owner).db := by
  have events : ∀ key, (store.deleteOwner owner).db.servedEvents.lookup key =
      if key.1 = owner then none else store.db.servedEvents.lookup key :=
    lookup_retain_fst store.db.servedEvents owner
  have media : ∀ key, (store.deleteOwner owner).db.servedMedia.lookup key =
      if key.1 = owner then none else store.db.servedMedia.lookup key :=
    lookup_retain_fst store.db.servedMedia owner
  have sized : MediaSized (store.deleteOwner owner).db :=
    fun key row found => within.sized key row (lookup_retain_eq_some.mp found).1
  have fallen : ∀ mine, bytesOf (store.deleteOwner owner).db mine ≤ bytesOf store.db mine := by
    apply bytesOf_le_of_lookup within.sized
    · intro key
      rw [events]
      split
      · exact .inl rfl
      · exact .inr rfl
    · intro key
      rw [media]
      split
      · exact .inl rfl
      · exact .inr rfl
  refine ⟨sized, ?_, fun positive => le_trans (fallen (fun _ => true)) (within.host positive)⟩
  intro other positive
  by_cases same : other = owner
  · have nothing : ownerUsage (store.deleteOwner owner).db other = 0 := by
      rw [ownerUsage_eq, bytesOf, sumSizes_eq_zero, sumSizes_eq_zero, add_zero]
      · intro key mine
        rw [media, if_pos ((of_decide_eq_true mine).trans same)]
      · intro key mine
        rw [events, if_pos ((of_decide_eq_true mine).trans same)]
    omega
  · have cap : ownerCap site (store.deleteOwner owner).db other = ownerCap site store.db other := by
      have row : get (store.deleteOwner owner).db other = get store.db other := lookup_erase_ne same
      rw [ownerCap, ownerCap, row]
    rw [cap] at positive ⊢
    exact le_trans (fallen (fun pubkey => pubkey = other)) (within.owners other positive)

theorem WithinCaps.insertOwner {after row}
    (inserted : store.insertOwner owner row = some after) : WithinCaps site after.db := by
  rcases insert_eq_some (Store.insertOwner_cases inserted).1 with
    ⟨fresh, owners, _, events, media⟩
  have same : ∀ mine, bytesOf after.db mine = bytesOf store.db mine := by
    intro mine
    rw [bytesOf, bytesOf, events, media]
  have unpaired : owner ∉ store.db.pairedOwners := lookup_eq_none.mp fresh
  refine ⟨within.sized.of_eq media, ?_, ?_⟩
  · intro other positive
    rw [ownerUsage_eq, same]
    by_cases new : other = owner
    · have nothing : bytesOf store.db (fun pubkey => pubkey = other) = 0 := by
        rw [bytesOf, sumSizes_eq_zero, sumSizes_eq_zero, add_zero]
        · intro key mine
          apply lookup_eq_none.mpr
          intro member
          exact unpaired (new ▸ of_decide_eq_true mine ▸ store.db.mediaOwned key member)
        · intro key mine
          apply lookup_eq_none.mpr
          intro member
          exact unpaired (new ▸ of_decide_eq_true mine ▸ store.db.eventsOwned key member)
      omega
    · have cap : ownerCap site after.db other = ownerCap site store.db other := by
        have kept : get after.db other = get store.db other := by
          rw [Owners.get, Owners.get, owners]
          exact lookup_insert_ne new
        rw [ownerCap, ownerCap, kept]
      rw [cap] at positive ⊢
      exact within.owners other positive
  · intro positive
    rw [hostUsage_eq, same]
    exact within.host positive

end

theorem WithinCaps.withMedia {outcome} (within : WithinCaps site outcome.db)
    (only : MediaOnly host.store.db outcome.db) (filed : Filed outcome.db) :
    WithinCaps site (host.withMedia outcome only.owners filed).store.db := by
  have same : ∀ mine, bytesOf (host.withMedia outcome only.owners filed).store.db mine = bytesOf outcome.db mine := by
    intro mine
    rw [bytesOf, bytesOf, only.events]
    rfl
  have owners := only.owners.symm
  exact within.lowered within.sized owners (fun mine => le_of_eq (same mine))

theorem WithinCaps.pushMedia {site} (within : WithinCaps site.toSite host.store.db)
    (owner : Bytes32) (hash request) (faults : Nat -> Fault) :
    WithinCaps site.toSite (host.pushMedia site owner hash request faults).1.store.db := by
  rw [Host.pushMedia]
  split
  next valid =>
    cases request.refusal site.toSite owner ("/media/" ++ hash) with
    | some => exact within
    | none =>
      let push : Push := ⟨owner, hash, request.body, valid⟩
      have frame := pushTransaction_frame site.toSite host.files request.later faults push host.filed
      exact (within.pushTransaction host.files request.later faults push).withMedia frame.1 frame.2
  · exact within

theorem WithinCaps.deleteMedia {site} (within : WithinCaps site.toSite host.store.db)
    (owner : Bytes32) (request) (faults : Nat -> Fault) :
    WithinCaps site.toSite (host.deleteMedia site owner request faults).1.store.db := by
  rw [Host.deleteMedia]
  cases request.refusal site.toSite owner "/media/delete" with
  | some => exact within
  | none =>
    cases site.parseDelete request.body with
    | none => exact within
    | some hashes =>
      simp only
      split
      · have deleted : WithinCaps site.toSite
            (deleteTransaction host.store.db host.files faults owner hashes).db := by
          rw [deleteTransaction]
          split
          · exact within
          · exact within.deleteRows owner hashes
        have frame := deleteTransaction_frame host.files faults owner hashes host.filed
        exact deleted.withMedia frame.1 frame.2
      · exact within

theorem WithinCaps.step {site next input} (within : WithinCaps site.toSite host.store.db)
    (stepped : host.step site input = .ok next) : WithinCaps site.toSite next.store.db := by
  cases input with cases stepped
  | request owner request =>
    unfold handle
    split
    · exact within
    · cases request with
      | pushEvents signed fault => exact within.pushEvents owner signed fault
      | deleteEvents signed fault => exact within.deleteEvents owner signed fault
      | pushMedia hash signed faults => exact within.pushMedia owner hash signed faults
      | deleteMedia signed faults => exact within.deleteMedia owner signed faults
      | voiceRooms signed fault =>
        have only := voiceRooms_only site host.store owner signed fault
        have same : (host.withStore (voiceRooms site host.store owner signed fault).1
            (congrArg Database.servedMedia only.db)).store.db = host.store.db := only.db
        rw [same]
        exact within
  | unpair owner => exact within.deleteOwner owner
  | pair =>
    unfold pairOwner
    split
    · exact within
    next inserted => exact within.insertOwner inserted
  | disturb => exact within

theorem Host.Bare.withinCaps (bare : host.Bare) (site) : WithinCaps site host.store.db := by
  have nothing : ∀ mine, bytesOf host.store.db mine = 0 := by
    intro mine
    rw [bytesOf, sumSizes_eq_zero, sumSizes_eq_zero, add_zero]
    · intro key _
      exact bare.2 key
    · intro key _
      rw [host.store.eventsAgree, bare.1 key]
      rfl
  refine ⟨?_, ?_, ?_⟩
  · intro key row found
    rw [bare.2 key] at found
    cases found
  · intro owner positive
    rw [ownerUsage_eq, nothing]
    exact le_of_lt positive
  · intro positive
    rw [hostUsage_eq, nothing]
    exact le_of_lt positive

theorem WithinCaps.of_reaches {site start final} (bare : start.Bare)
    (reached : Reaches (Host.step site) start final) : WithinCaps site.toSite final.store.db :=
  reached.invariant (fun _ _ _ holds stepped => step holds stepped) (bare.withinCaps site.toSite)

/-- In every state that a run reaches from an empty store, no Owner with a positive cap uses
more than its cap, and a positive disk cap bounds what the host uses. -/
theorem caps_hold (site : RouterSite) {start final : Host} (bare : start.Bare)
    (reached : Reaches (Host.step site) start final) :
    (∀ owner, 0 < ownerCap site.toSite final.store.db owner ->
      Accounting.ownerUsage final.store.db owner ≤ ownerCap site.toSite final.store.db owner) ∧
    (0 < site.diskCap -> Accounting.hostUsage final.store.db ≤ site.diskCap) := by
  have within := WithinCaps.of_reaches bare reached
  exact ⟨within.owners, within.host⟩

def fillingRun : List HostInput :=
  [.pair phoneKey ⟨none, 0, "phone.onion", 17000, none⟩,
    .request phoneKey (.pushEvents (fromPhone pollBatch) false),
    .request phoneKey (.pushMedia World.blobHash (fromPhone [1, 2, 3]) (fun _ => .fine)),
    .request phoneKey (.pushMedia World.blobHash (fromPhone [1, 2, 3, 4]) (fun _ => .fine))]

abbrev filledHost : Host := finalState (Host.step smallRouter) emptyHost fillingRun

theorem caps_hold_when_filled :
    Accounting.ownerUsage filledHost.store.db phoneKey = 4 ∧
    Accounting.ownerUsage filledHost.store.db phoneKey ≤
      ownerCap smallRouter.toSite filledHost.store.db phoneKey := by
  have bare : emptyHost.Bare := ⟨fun _ => rfl, fun _ => rfl⟩
  have returns : (run (step smallRouter) emptyHost fillingRun).toBool = true := by decide +kernel
  have caps := caps_hold smallRouter bare (Reaches.finalState returns)
  exact ⟨by decide +kernel, caps.1 phoneKey (by decide +kernel)⟩

/-! ## Replays -/

theorem storeItems_again {site now items after accepted rejected accepts rejects}
    (stored : storeItems site now owner items store accepted rejected = some (after, accepts, rejects)) (later) :
    storeItems site later owner items after accepted rejected = some (after, accepts, rejects) := by
  have built : ∀ item, (itemEvent site later item).isSome = (itemEvent site now item).isSome := by
    intro item
    rw [itemEvent, itemEvent]
    split
    · rfl
    · split <;> simp
  refine (storeItems_induction (motive := fun items store accepted rejected =>
    (∀ key ∈ store.eventRows, key ∈ after.eventRows) ∧
    storeItems site later owner items after accepted rejected = some (after, accepts, rejects)) ?_ ?_ ?_ stored).2
  · exact ⟨fun _ => id, rfl⟩
  · intro item rest store accepted rejected malformed ih
    have still : itemEvent site later item = none := by simpa [malformed] using built item
    exact ⟨ih.1, by rw [storeItems, still]; exact ih.2⟩
  · intro item rest store middle new event accepted rejected parsed inserted ih
    have still : (itemEvent site later item).isSome = true := by rw [built, parsed]; rfl
    rcases Option.isSome_iff_exists.mp still with ⟨_, parsedAgain⟩
    have known := ih.1 _ ((mem_insertEvent inserted _).mpr (.inl rfl))
    refine ⟨fun key member => ih.1 key ((mem_insertEvent inserted key).mpr (.inr member)), ?_⟩
    simp [storeItems, parsedAgain, Store.insertEvent, if_pos known, ih.2]

/-- A push that was accepted is accepted again, with the same receipt and the same rows, if and only if the
caps leave room for the bytes that it adds and then once more for the whole batch. -/
theorem replay_accepted {site store after owner request again fault accepted rejected}
    (pushed : pushEvents site store owner request fault = (after, .pushReceipt accepted rejected))
    (same : again.body = request.body) (signed : again.refusal site.toSite owner "/events" = none) :
    pushEvents site after owner again false = (after, .pushReceipt accepted rejected) ↔
      ∀ items ∈ site.parseBatch request.body, Accounting.checkCapacity store.db owner
        (freshBytes site request.later items (holds owner store) + batchBytes items)
        (ownerCap site.toSite store.db owner) site.diskCap = .ok := by
  have outcome := pushEvents_cases site store owner request fault
  rw [pushed] at outcome
  rcases outcome with ⟨_, refused⟩ | ⟨items, _, _, parsed, _, stored, ⟨⟩⟩
  · exact absurd rfl refused
  · have ownerUsed : ownerUsage after.db owner = ownerUsage store.db owner +
        freshBytes site request.later items (holds owner store) := by
      simp [ownerUsage_eq, bytesOf_storeItems stored]
    have hostUsed : hostUsage after.db = hostUsage store.db +
        freshBytes site request.later items (holds owner store) := by
      simp [hostUsage_eq, bytesOf_storeItems stored]
    have room : checkCapacity after.db owner (batchBytes items) (ownerCap site.toSite after.db owner)
        site.diskCap = checkCapacity store.db owner
          (freshBytes site request.later items (holds owner store) + batchBytes items)
          (ownerCap site.toSite store.db owner) site.diskCap := by
      rw [checkCapacity, checkCapacity, ownerUsed, hostUsed,
        ownerCap_congr (eventsOnly_storeItems stored).owners, add_assoc, add_assoc]
    simp only [pushEvents, signed, same, parsed, Bool.false_eq_true, if_false, pushBatch, room,
      storeItems_again stored, Option.mem_some_iff, forall_eq']
    cases checkCapacity store.db owner _ _ _ <;> simp

theorem replay_accepted_poll : (pushEvents smallRouter
    (pushEvents smallRouter pairedHost.store phoneKey (fromPhone pollBatch) false).1
    phoneKey (fromPhone pollBatch) false).2 = .pushReceipt 1 0 := by
  have pushed : pushEvents smallRouter pairedHost.store phoneKey (fromPhone pollBatch) false =
    ((pushEvents smallRouter pairedHost.store phoneKey (fromPhone pollBatch) false).1, .pushReceipt 1 0) := rfl
  rw [(replay_accepted pushed rfl (by decide)).mpr (by decide +kernel)]

/-- The batch fills the cap, and its replay does not fit. -/
theorem replay_exceeds_cap :
    let site := { smallRouter with perOwnerDefault := 1 }
    let first := pushEvents site pairedHost.store phoneKey (fromPhone pollBatch) false
    first.2 = .pushReceipt 1 0 ∧ (pushEvents site first.1 phoneKey (fromPhone pollBatch) false).2 =
      .plain (.text 507 "owner storage cap exceeded") := by
  decide +kernel

end Starling.Http
