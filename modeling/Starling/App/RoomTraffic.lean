import Starling.App.Reconcile

namespace Starling.App

open Finset Session EventRow

/-!
# What a reconcile tells about chatrooms

The chatroom events are not pushed, and as they are neither tombstones nor posts they kill
nothing.  But their ids are in the signature that decides whether a pass runs at all, and
their photos are counted among the live or the dead ones.  A pass is compared with the one
over the events of the feed alone, for every relay.
-/

def feedRows (events : List EventRow) : List EventRow := events.filter (fun event => !event.roomScoped)

variable {event : EventRow} {events : List EventRow} {mediaBytes : String -> Option Bytes}
variable {pruneBefore : Int}

theorem mem_feedRows : event ∈ feedRows events ↔ event ∈ events ∧ event.roomScoped = false := by
  rw [feedRows, List.mem_filter, Bool.not_eq_true']

theorem filter_feedRows {keep} (only : ∀ event, keep event = true -> event.roomScoped = false)
    (events) : (feedRows events).filter keep = events.filter keep := by
  rw [feedRows, List.filter_filter]
  congr 1
  funext event
  cases keeps : keep event with
  | false => rfl
  | true =>
    rw [only event keeps]
    rfl

theorem EventRow.isTombstone_feed (tombstone : event.isTombstone = true) : event.roomScoped = false := by
  have kind : event.kind = 6 := of_decide_eq_true tombstone
  rw [roomScoped, kind]
  rfl

theorem EventRow.isPost_feed (post : event.isPost = true) : event.roomScoped = false := by
  have kind : event.kind = 1 := of_decide_eq_true post
  rw [roomScoped, kind]
  rfl

theorem deadIds_feedRows (events pruneBefore) : deadIds (feedRows events) pruneBefore = deadIds events pruneBefore := by
  have tombstones : (feedRows events).filter isTombstone = events.filter isTombstone :=
    filter_feedRows (fun _ => isTombstone_feed) events
  have pruned : prunedIds (feedRows events) pruneBefore = prunedIds events pruneBefore := by
    unfold prunedIds
    rw [filter_feedRows]
    intro event old
    exact isPost_feed (Bool.and_eq_true _ _ ▸ old).1
  unfold deadIds tombstonedRefs tombstoneIds
  rw [tombstones, pruned]

theorem missingItems_feedRows (events present dead) :
    missingItems (feedRows events) present dead = missingItems events present dead := by
  unfold missingItems feedRows
  rw [List.filterMap_filter]
  congr 1
  funext event
  cases event.roomScoped <;> rfl

theorem pruneCandidates_feedRows (events dead missingIds) :
    pruneCandidates (feedRows events) dead missingIds = pruneCandidates events dead missingIds := by
  unfold pruneCandidates
  rw [filter_feedRows]
  intro event candidate
  simp only [Bool.and_eq_true] at candidate
  exact isPost_feed candidate.1.1

theorem Session.pushMissing_feedRows {ρ : Type} (link : RelayLink ρ) (size session events)
    (present : Finset String) : pushMissing link size session (feedRows events) present =
      pushMissing link size session events present := by
  unfold pushMissing pruneForSpace
  simp [deadIds_feedRows, missingItems_feedRows, pruneCandidates_feedRows]

section Hashes

variable {events : List EventRow} {pruneBefore : Int} {hash : String}

theorem mem_liveHashes_feedRows : hash ∈ (deadState (feedRows events) pruneBefore).liveHashes ↔
    hash ≠ "" ∧ ∃ event ∈ events, event.roomScoped = false ∧
      event.id ∉ deadIds events pruneBefore ∧ hash ∈ event.media := by
  simp [mem_liveHashes, deadIds_feedRows, mem_feedRows, and_assoc]

theorem mem_deadOnlyHashes_feedRows : hash ∈ (deadState (feedRows events) pruneBefore).deadOnlyHashes ↔
    (hash ≠ "" ∧ ∃ event ∈ events, event.roomScoped = false ∧
      event.id ∈ deadIds events pruneBefore ∧ hash ∈ event.media) ∧
      hash ∉ (deadState (feedRows events) pruneBefore).liveHashes := by
  rw [mem_deadOnlyHashes]
  simp [deadIds_feedRows, mem_feedRows, and_assoc]

theorem onDisk_sdiff (mediaBytes hashes others) :
    onDisk mediaBytes (hashes \ others) = onDisk mediaBytes hashes \ others := by
  ext hash
  simp only [mem_onDisk, mem_sdiff]
  tauto

end Hashes

/-- The photos of own chatroom events are those of the feed.  One of a live event is one of a
live event of the feed; or it is not on disk, and the feed does not know it.  One of a dead
event is known to the feed, or a live event has it too. -/
structure MediaCovered (mediaBytes : String -> Option Bytes) (events : List EventRow) (pruneBefore : Int) : Prop where
  live : ∀ room hash, room ∈ events -> room.roomScoped = true -> room.id ∉ deadIds events pruneBefore ->
    hash ∈ room.media -> hash ≠ "" ->
    (∃ event ∈ events, event.roomScoped = false ∧ event.id ∉ deadIds events pruneBefore ∧
      hash ∈ event.media) ∨
    (mediaBytes hash = none ∧ ∀ event ∈ events, event.roomScoped = false -> hash ∉ event.media)
  dead : ∀ room hash, room ∈ events -> room.roomScoped = true -> room.id ∈ deadIds events pruneBefore ->
    hash ∈ room.media -> hash ≠ "" ->
    ∃ event ∈ events, hash ∈ event.media ∧
      (event.roomScoped = false ∨ event.id ∉ deadIds events pruneBefore)

section Covered

variable {mediaBytes : String -> Option Bytes} {events : List EventRow} {pruneBefore : Int}

theorem MediaCovered.onDisk (covered : MediaCovered mediaBytes events pruneBefore) :
    onDisk mediaBytes (deadState events pruneBefore).liveHashes =
      onDisk mediaBytes (deadState (feedRows events) pruneBefore).liveHashes := by
  ext hash
  rw [mem_onDisk, mem_onDisk, mem_liveHashes, mem_liveHashes_feedRows]
  constructor
  · rintro ⟨⟨named, event, member, alive, shown⟩, _, stored⟩
    cases inRoom : event.roomScoped with
    | false => exact ⟨⟨named, event, member, inRoom, alive, shown⟩, named, stored⟩
    | true =>
      rcases covered.live event hash member inRoom alive shown named with feed | ⟨gone, _⟩
      · exact ⟨⟨named, feed⟩, named, stored⟩
      · exact absurd gone stored
  · rintro ⟨⟨named, event, member, _, alive, shown⟩, rest⟩
    exact ⟨⟨named, event, member, alive, shown⟩, rest⟩

theorem MediaCovered.deadOnly (covered : MediaCovered mediaBytes events pruneBefore) :
    (deadState events pruneBefore).deadOnlyHashes = (deadState (feedRows events) pruneBefore).deadOnlyHashes := by
  ext hash
  rw [mem_deadOnlyHashes, mem_deadOnlyHashes_feedRows, mem_liveHashes, mem_liveHashes_feedRows]
  constructor
  · rintro ⟨⟨named, event, member, gone, shown⟩, noLive⟩
    refine ⟨⟨named, ?_⟩, ?_⟩
    · -- A dead chatroom event has the photo of an event of the feed, which is dead too.
      have inFeed : ∃ other ∈ events, other.roomScoped = false ∧ hash ∈ other.media := by
        cases inRoom : event.roomScoped with
        | false => exact ⟨event, member, inRoom, shown⟩
        | true =>
          rcases covered.dead event hash member inRoom gone shown named with ⟨other, stored, has, feed | alive⟩
          · exact ⟨other, stored, feed, has⟩
          · exact absurd ⟨named, other, stored, alive, has⟩ noLive
      rcases inFeed with ⟨other, stored, feed, has⟩
      refine ⟨other, stored, feed, ?_, has⟩
      by_contra alive
      exact noLive ⟨named, other, stored, alive, has⟩
    · rintro ⟨_, other, stored, _, alive, has⟩
      exact noLive ⟨named, other, stored, alive, has⟩
  · rintro ⟨⟨named, event, member, feed, gone, shown⟩, noLive⟩
    refine ⟨⟨named, event, member, gone, shown⟩, ?_⟩
    rintro ⟨_, other, stored, alive, has⟩
    cases inRoom : other.roomScoped with
    | false => exact noLive ⟨named, other, stored, inRoom, alive, has⟩
    | true =>
      rcases covered.live other hash stored inRoom alive has named with known | ⟨_, unknown⟩
      · exact noLive ⟨named, known⟩
      · exact unknown event member feed shown

theorem mediaCovered_of_same (live : onDisk mediaBytes (deadState events pruneBefore).liveHashes =
      onDisk mediaBytes (deadState (feedRows events) pruneBefore).liveHashes)
    (dead : (deadState events pruneBefore).deadOnlyHashes = (deadState (feedRows events) pruneBefore).deadOnlyHashes) :
    MediaCovered mediaBytes events pruneBefore where
  live := by
    intro room hash member inRoom alive shown named
    have isLive := mem_liveHashes.mpr ⟨named, room, member, alive, shown⟩
    by_cases feedLive : hash ∈ (deadState (feedRows events) pruneBefore).liveHashes
    · exact .inl (mem_liveHashes_feedRows.mp feedLive).2
    · refine Or.inr ⟨?_, ?_⟩
      · by_contra stored
        have pushed := mem_onDisk.mpr ⟨isLive, named, stored⟩
        rw [live] at pushed
        exact feedLive (mem_onDisk.mp pushed).1
      · intro event stored feed has
        have gone : event.id ∈ deadIds events pruneBefore := by
          by_contra eventAlive
          exact feedLive (mem_liveHashes_feedRows.mpr ⟨named, event, stored, feed, eventAlive, has⟩)
        have deleted := mem_deadOnlyHashes_feedRows.mpr ⟨⟨named, event, stored, feed, gone, has⟩, feedLive⟩
        rw [← dead] at deleted
        exact (mem_deadOnlyHashes.mp deleted).2 isLive
  dead := by
    intro room hash member inRoom gone shown named
    by_cases isLive : hash ∈ (deadState events pruneBefore).liveHashes
    · rcases mem_liveHashes.mp isLive with ⟨_, event, stored, alive, has⟩
      exact ⟨event, stored, has, .inr alive⟩
    · have deleted := mem_deadOnlyHashes.mpr ⟨⟨named, room, member, gone, shown⟩, isLive⟩
      rw [dead] at deleted
      rcases (mem_deadOnlyHashes_feedRows.mp deleted).1 with ⟨_, event, stored, feed, _, has⟩
      exact ⟨event, stored, has, .inl feed⟩

end Covered

def CanPruneTo (size : EncryptedEvent -> Nat) (events : List EventRow) (pruneBefore horizon : Int) : Prop :=
  horizon = pruneBefore ∨ ∃ present, missingItems events present (deadIds events pruneBefore) ≠ [] ∧
    pruneHorizon size (missingItems events present (deadIds events pruneBefore))
      (pruneCandidates events (deadIds events pruneBefore)
        ((missingItems events present (deadIds events pruneBefore)).map RelayPushItem.id).toFinset) = some horizon

def Traffic.ofMedia : Traffic -> Bool
  | .pushEvent _ => false
  | .deleteEvent _ => false
  | .pushMedia _ => true
  | .deleteMedia _ => true

def mediaTraffic (mediaBytes : String -> Option Bytes) (dead : DeadState) : Option (Finset String) -> Finset Traffic
  | none => ∅
  | some relayHashes =>
    (Session.onDisk mediaBytes dead.liveHashes \ relayHashes).image Traffic.pushMedia ∪
      (dead.deadOnlyHashes ∩ relayHashes).image Traffic.deleteMedia

namespace Session

variable {ρ : Type} {link : RelayLink ρ} {size : EncryptedEvent -> Nat}
  {mediaBytes : String -> Option Bytes} {events : List EventRow}

def EventsOnly (session : Session ρ) : Prop := ∀ sent ∈ traffic session.errands, sent.ofMedia = false

variable {session : Session ρ} {present : Finset String} {pushed : Pushed}

theorem EventsOnly.pushEvents (before : session.EventsOnly) (items) : (pushEvents link session items).1.EventsOnly := by
  intro sent member
  rw [traffic_pushEvents, mem_union] at member
  rcases member with earlier | now
  · exact before sent earlier
  · rcases List.mem_map.mp (List.mem_toFinset.mp now) with ⟨_, _, rfl⟩
    rfl

theorem EventsOnly.deleteEvents (before : session.EventsOnly) (ids) : (deleteEvents link session ids).1.EventsOnly := by
  intro sent member
  rw [traffic_deleteEvents, mem_union] at member
  rcases member with earlier | now
  · exact before sent earlier
  · rcases mem_image.mp now with ⟨_, _, rfl⟩
    rfl

theorem pushEvents_pruneBefore (session items) :
    (pushEvents link session items).1.pruneBefore = session.pruneBefore := by
  unfold pushEvents
  split <;> rfl

theorem deleteEvents_pruneBefore (session ids) :
    (deleteEvents link session ids).1.pruneBefore = session.pruneBefore := by
  unfold deleteEvents
  split <;> rfl

theorem pushMissing_cases (start : session.EventsOnly)
    (done : (pushMissing link size session events present).2 = .ok pushed) :
    (pushMissing link size session events present).1.EventsOnly ∧
      CanPruneTo size events session.pruneBefore (pushMissing link size session events present).1.pruneBefore := by
  unfold pushMissing at done ⊢
  dsimp only at done ⊢
  split at done
  · exact ⟨start.pushEvents _, .inl (pushEvents_pruneBefore _ _)⟩
  next refused =>
    split at done
    next full =>
      rw [if_pos full]
      split at done
      · cases done
      · cases done
      next freed =>
        unfold pruneForSpace at freed ⊢
        dsimp only at freed ⊢
        split at freed
        · cases freed
        next found =>
          refine ⟨?_, .inr ⟨present, ?_, ?_⟩⟩
          · apply EventsOnly.pushEvents
            apply EventsOnly.deleteEvents
            exact start.pushEvents _
          · intro none
            rw [none] at refused
            cases refused
          · rw [pushEvents_pruneBefore, deleteEvents_pruneBefore]
            exact found
    · cases done

theorem traffic_withdraw (session pushed) :
    traffic (withdraw link mediaBytes session events pushed).1.errands = traffic (deleteEvents link session
          (pushed.present ∩ deadIds events session.pruneBefore)).1.errands ∪
        mediaTraffic mediaBytes (deadState events session.pruneBefore) (link.mediaHashes (deleteEvents link session
            (pushed.present ∩ deadIds events session.pruneBefore)).1.relay) := by
  have dead : (deadState events session.pruneBefore).deadIds = deadIds events session.pruneBefore := rfl
  unfold withdraw
  dsimp only
  rw [dead]
  cases listed : link.mediaHashes (deleteEvents link session
      (pushed.present ∩ deadIds events session.pruneBefore)).1.relay with
  | none => exact (union_empty _).symm
  | some =>
    rw [traffic_deleteMedia, traffic_pushMedia, onDisk_sdiff, union_assoc]
    rfl

theorem syncToRelay_of_pushed {start} (listed : link.eventIds start.relay = some present)
    (done : pushMissing link size start events present = (session, .ok pushed)) :
    (syncToRelay link size mediaBytes start events).1 = (withdraw link mediaBytes session events pushed).1 := by
  unfold syncToRelay
  rw [listed]
  dsimp only
  rw [done]

end Session

theorem ofMedia_of_mem_mediaTraffic {dead hashes sent}
    (member : sent ∈ mediaTraffic mediaBytes dead hashes) : sent.ofMedia = true := by
  cases hashes with
  | none => cases member
  | some =>
    rcases mem_union.mp member with pushed | deleted
    · rcases mem_image.mp pushed with ⟨_, _, rfl⟩
      rfl
    · rcases mem_image.mp deleted with ⟨_, _, rfl⟩
      rfl

theorem Session.EventsOnly.union_inj {ρ : Type} {session : Session ρ} (only : session.EventsOnly)
    {left right : Finset Traffic} (leftMedia : ∀ sent ∈ left, sent.ofMedia = true)
    (rightMedia : ∀ sent ∈ right, sent.ofMedia = true) :
    traffic session.errands ∪ left = traffic session.errands ∪ right ↔ left = right := by
  have half : ∀ one other : Finset Traffic, (∀ sent ∈ one, sent.ofMedia = true) ->
      traffic session.errands ∪ one = traffic session.errands ∪ other -> one ⊆ other := by
    intro one other media same sent member
    have inBoth : sent ∈ traffic session.errands ∪ other := same ▸ mem_union_right _ member
    rcases mem_union.mp inBoth with about | inOther
    · have contradiction := only sent about
      rw [media sent member] at contradiction
      cases contradiction
    · exact inOther
  constructor
  · intro same
    exact antisymm (half left right leftMedia same) (half right left rightMedia same.symm)
  · exact congrArg _

theorem mediaTraffic_eq_iff {left right relayHashes} :
    mediaTraffic mediaBytes left (some relayHashes) = mediaTraffic mediaBytes right (some relayHashes) ↔
      onDisk mediaBytes left.liveHashes \ relayHashes = onDisk mediaBytes right.liveHashes \ relayHashes ∧
        left.deadOnlyHashes ∩ relayHashes = right.deadOnlyHashes ∩ relayHashes := by
  have pushes : ∀ (dead : DeadState) hash,
      Traffic.pushMedia hash ∈ mediaTraffic mediaBytes dead (some relayHashes) ↔
      hash ∈ onDisk mediaBytes dead.liveHashes \ relayHashes := by
    intro dead hash
    simp [mediaTraffic, Traffic.pushMedia.injEq]
  have deletes : ∀ (dead : DeadState) hash,
      Traffic.deleteMedia hash ∈ mediaTraffic mediaBytes dead (some relayHashes) ↔
      hash ∈ dead.deadOnlyHashes ∩ relayHashes := by
    intro dead hash
    simp [mediaTraffic, Traffic.deleteMedia.injEq]
  constructor
  · intro same
    refine ⟨?_, ?_⟩
    · ext hash
      rw [← pushes left, ← pushes right, same]
    · ext hash
      rw [← deletes left, ← deletes right, same]
  · rintro ⟨live, dead⟩
    unfold mediaTraffic
    dsimp only
    rw [live, dead]

namespace Session

variable {ρ : Type} {link : RelayLink ρ} {size : EncryptedEvent -> Nat}
  {mediaBytes : String -> Option Bytes} {events : List EventRow}

theorem traffic_feedRows_iff {start session : Session ρ} {present} {pushed : Pushed} (only : start.EventsOnly)
    (listed : link.eventIds start.relay = some present)
    (done : pushMissing link size start events present = (session, .ok pushed)) :
    traffic (syncToRelay link size mediaBytes start events).1.errands =
        traffic (syncToRelay link size mediaBytes start (feedRows events)).1.errands ↔
      mediaTraffic mediaBytes (deadState events session.pruneBefore) (link.mediaHashes (deleteEvents link session
            (pushed.present ∩ deadIds events session.pruneBefore)).1.relay) =
        mediaTraffic mediaBytes (deadState (feedRows events) session.pruneBefore)
          (link.mediaHashes (deleteEvents link session
            (pushed.present ∩ deadIds events session.pruneBefore)).1.relay) := by
  have doneFeed := (pushMissing_feedRows link size start events present).trans done
  have stillOnly : session.EventsOnly := by
    have outcome := pushMissing_cases only (congrArg Prod.snd done)
    rw [done] at outcome
    exact outcome.1
  rw [syncToRelay_of_pushed listed done, syncToRelay_of_pushed listed doneFeed, traffic_withdraw, traffic_withdraw,
    deadIds_feedRows]
  apply (stillOnly.deleteEvents _).union_inj
  · exact fun _ => ofMedia_of_mem_mediaTraffic
  · exact fun _ => ofMedia_of_mem_mediaTraffic

end Session

def RelayLink.fullOnce (present hashes : Finset String) : RelayLink Bool where
  eventIds := fun _ => some present
  mediaHashes := fun _ => some hashes
  pushEvents := fun refused _ =>
    if refused then (true, .ok 0) else (true, .error ⟨"RelayPushException: full", some 507⟩)
  deleteEvents := fun refused _ => (refused, .ok ())
  pushMedia := fun refused _ => (refused, 0)
  deleteMedia := fun refused _ => (refused, .ok ())

namespace Session

theorem eventsOnly_start {ρ : Type} (relay : ρ) (pruneBefore : Int) : (mk relay [] pruneBefore).EventsOnly := nofun

theorem deleteEvents_fullOnce (present hashes session ids) :
    (deleteEvents (.fullOnce present hashes) session ids).2 = .ok () ∧
      (deleteEvents (.fullOnce present hashes) session ids).1.relay = session.relay := by
  unfold deleteEvents
  split <;> exact ⟨rfl, rfl⟩

theorem pushEvents_fullOnce {present hashes session} (refused : session.relay = true) (items) :
    (pushEvents (.fullOnce present hashes) session items).2 = .ok 0 := by
  unfold pushEvents RelayLink.fullOnce
  rw [refused]
  split <;> rfl

theorem pushMissing_fullOnce {size events pruneBefore horizon present} (hashes)
    (some_missing : missingItems events present (deadIds events pruneBefore) ≠ [])
    (found : pruneHorizon size (missingItems events present (deadIds events pruneBefore))
      (pruneCandidates events (deadIds events pruneBefore)
        ((missingItems events present (deadIds events pruneBefore)).map RelayPushItem.id).toFinset) = some horizon) :
    ∃ session pushed, pushMissing (.fullOnce present hashes) size ⟨false, [], pruneBefore⟩ events present =
      (session, .ok pushed) ∧ session.pruneBefore = horizon := by
  have first : pushEvents (.fullOnce present hashes) ⟨false, [], pruneBefore⟩
      (missingItems events present (deadIds events pruneBefore)) =
        (⟨true, [.pushEvents (missingItems events present (deadIds events pruneBefore))], pruneBefore⟩,
          .error ⟨"RelayPushException: full", some 507⟩) := if_neg some_missing
  unfold pushMissing
  simp only [first, if_true, pruneForSpace, found, (deleteEvents_fullOnce _ _ _ _).1, Except.map]
  rw [pushEvents_fullOnce (deleteEvents_fullOnce _ _ _ _).2]
  refine ⟨_, _, rfl, ?_⟩
  rw [pushEvents_pruneBefore, deleteEvents_pruneBefore]

end Session

theorem exists_relay {size horizon} (can : CanPruneTo size events pruneBefore horizon) (hashes) :
    ∃ (ρ : Type) (link : RelayLink ρ) (relay : ρ) (present : Finset String) (session : Session ρ)
      (pushed : Session.Pushed), link.eventIds relay = some present ∧
        pushMissing link size ⟨relay, [], pruneBefore⟩ events present = (session, .ok pushed) ∧
        session.pruneBefore = horizon ∧ ∀ state, link.mediaHashes state = some hashes := by
  rcases can with rfl | ⟨present, some_missing, found⟩
  · exact ⟨Unit, .willing ∅ hashes, (), ∅, _, _, rfl, pushMissing_willing size ∅ hashes _ events,
      (pushEvents_willing ∅ hashes _ _).2, fun _ => rfl⟩
  · rcases pushMissing_fullOnce hashes some_missing found with ⟨session, pushed, done, reached⟩
    exact ⟨Bool, .fullOnce present hashes, false, present, session, pushed, rfl, done, reached, fun _ => rfl⟩

theorem same_traffic_iff (size : EncryptedEvent -> Nat) (mediaBytes events) (pruneBefore : Int) :
    (∀ (ρ : Type) (link : RelayLink ρ) (relay : ρ),
      traffic (syncToRelay link size mediaBytes ⟨relay, [], pruneBefore⟩ events).1.errands =
        traffic (syncToRelay link size mediaBytes ⟨relay, [], pruneBefore⟩ (feedRows events)).1.errands) ↔
      ∀ horizon, CanPruneTo size events pruneBefore horizon -> MediaCovered mediaBytes events horizon := by
  constructor
  · intro same horizon can
    have perHashes : ∀ hashes, mediaTraffic mediaBytes (deadState events horizon) (some hashes) =
        mediaTraffic mediaBytes (deadState (feedRows events) horizon) (some hashes) := by
      intro hashes
      rcases exists_relay can hashes with ⟨ρ, link, relay, _, _, _, listed, done, rfl, has⟩
      have media := (traffic_feedRows_iff (eventsOnly_start relay pruneBefore) listed done).mp (same ρ link relay)
      rw [has] at media
      exact media
    apply mediaCovered_of_same
    · have pushes := (mediaTraffic_eq_iff.mp (perHashes ∅)).1
      exact pushes
    · have deletes := (mediaTraffic_eq_iff.mp (perHashes ((deadState events horizon).deadOnlyHashes ∪
        (deadState (feedRows events) horizon).deadOnlyHashes))).2
      rw [inter_eq_left.mpr subset_union_left, inter_eq_left.mpr subset_union_right] at deletes
      exact deletes
  · intro covered ρ link relay
    by_cases stuck : ∀ present, link.eventIds relay = some present ->
        ∃ failure, (pushMissing link size ⟨relay, [], pruneBefore⟩ events present).2 = .error failure
    · unfold syncToRelay
      cases listed : link.eventIds relay with
      | none => rfl
      | some present =>
        rcases stuck present listed with ⟨_, failed⟩
        dsimp only
        rw [pushMissing_feedRows, failed]
    · simp only [not_forall] at stuck
      rcases stuck with ⟨present, listed, ends⟩
      cases outcome : (pushMissing link size ⟨relay, [], pruneBefore⟩ events present).2 with
      | error failure => exact absurd ⟨failure, outcome⟩ ends
      | ok =>
        have only := eventsOnly_start relay pruneBefore
        have reached := (pushMissing_cases only outcome).2
        rw [traffic_feedRows_iff only listed (Prod.ext rfl outcome)]
        have horizon := covered _ reached
        unfold mediaTraffic
        rw [horizon.onDisk, horizon.deadOnly]

/-- The pass has nothing to say to any relay: nothing is dead, no event of the feed has a stored
payload, and no photo is on disk. -/
structure Idle (mediaBytes : String -> Option Bytes) (events : List EventRow) (pruneBefore : Int) : Prop where
  nothingDead : deadIds events pruneBefore = ∅
  noPayload : ∀ event ∈ events, event.roomScoped = false -> event.encryptedPayload = none
  noPhoto : ∀ event hash, event ∈ events -> hash ∈ event.media -> hash ≠ "" -> mediaBytes hash = none

theorem Idle.missingItems_eq_nil (idle : Idle mediaBytes events pruneBefore) (present dead) :
    missingItems events present dead = [] := by
  apply List.eq_nil_iff_forall_not_mem.mpr
  intro item member
  rcases mem_missingItems.mp member with ⟨event, stored, noRoom, _, _, _, payload⟩
  rw [idle.noPayload event stored noRoom] at payload
  cases payload

theorem Idle.mediaTraffic_eq_empty (idle : Idle mediaBytes events pruneBefore) (hashes) :
    mediaTraffic mediaBytes (deadState events pruneBefore) hashes = ∅ := by
  have nothingOnDisk : onDisk mediaBytes (deadState events pruneBefore).liveHashes = ∅ := by
    rw [eq_empty_iff_forall_notMem]
    intro hash member
    rcases mem_onDisk.mp member with ⟨live, named, stored⟩
    rcases mem_liveHashes.mp live with ⟨_, event, inEvents, _, shown⟩
    exact stored (idle.noPhoto event hash inEvents shown named)
  have nothingDead : (deadState events pruneBefore).deadOnlyHashes = ∅ := by
    rw [eq_empty_iff_forall_notMem]
    intro hash member
    rcases (mem_deadOnlyHashes.mp member).1 with ⟨_, _, _, gone, _⟩
    rw [idle.nothingDead] at gone
    cases gone
  cases hashes with
  | none => rfl
  | some =>
    unfold mediaTraffic
    dsimp only
    rw [nothingOnDisk, nothingDead, empty_sdiff, empty_inter, image_empty, image_empty, union_empty]

theorem idle_of_silent {size}
    (silent : ∀ present,
      traffic (syncToRelay (.willing present ∅) size mediaBytes ⟨(), [], pruneBefore⟩ events).1.errands = ∅) :
    Idle mediaBytes events pruneBefore := by
  simp only [traffic_willing, union_eq_empty, sdiff_empty, image_eq_empty] at silent
  have nothingDead : deadIds events pruneBefore = ∅ := by
    have deletes := (silent (deadIds events pruneBefore)).1.1.2
    rw [inter_self] at deletes
    exact deletes
  refine ⟨nothingDead, ?_, ?_⟩
  · intro event member noRoom
    by_contra stored
    rcases Option.ne_none_iff_exists'.mp stored with ⟨payload, same⟩
    have missing : (⟨event.id, payload⟩ : RelayPushItem) ∈ missingItems events ∅
        (deadIds events pruneBefore) := by
      apply mem_missingItems.mpr
      rw [nothingDead]
      exact ⟨event, member, noRoom, notMem_empty _, notMem_empty _, rfl, same⟩
    have pushes := (silent ∅).1.1.1
    rw [List.toFinset_eq_empty_iff, List.map_eq_nil_iff] at pushes
    rw [pushes] at missing
    cases missing
  · intro event hash member shown named
    by_contra stored
    have live : hash ∈ (deadState events pruneBefore).liveHashes := by
      apply mem_liveHashes.mpr
      rw [nothingDead]
      exact ⟨named, event, member, notMem_empty _, shown⟩
    have pushed := mem_onDisk.mpr ⟨live, named, stored⟩
    rw [(silent ∅).1.2] at pushed
    cases pushed

theorem Idle.silent (idle : Idle mediaBytes events pruneBefore) (size) {ρ : Type} (link) (relay : ρ) :
    traffic (syncToRelay link size mediaBytes ⟨relay, [], pruneBefore⟩ events).1.errands = ∅ := by
  cases listed : link.eventIds relay with
  | none =>
    unfold syncToRelay
    rw [listed]
    rfl
  | some present =>
    have done : pushMissing link size ⟨relay, [], pruneBefore⟩ events present =
        (⟨relay, [], pruneBefore⟩, .ok ⟨present, 0⟩) := by
      unfold pushMissing
      dsimp only
      rw [idle.missingItems_eq_nil]
      rfl
    rw [syncToRelay_of_pushed listed done, traffic_withdraw, idle.mediaTraffic_eq_empty, idle.nothingDead, inter_empty]
    rfl

theorem no_traffic_iff (size mediaBytes events) (pruneBefore : Int) :
    (∀ (ρ : Type) (link : RelayLink ρ) (relay : ρ),
      traffic (syncToRelay link size mediaBytes ⟨relay, [], pruneBefore⟩ events).1.errands = ∅) ↔
      Idle mediaBytes events pruneBefore := by
  constructor
  · intro silent
    exact idle_of_silent (fun present => silent Unit (.willing present ∅) ())
  · intro idle ρ link relay
    exact idle.silent size link relay

end Starling.App
