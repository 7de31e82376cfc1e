import Starling.App.ManifestPages
import Starling.App.RoomTraffic

namespace Starling.App

open List Peer

/-!
# What the feed surface tells about chatrooms

Followers and the relay see the phone through `GET /status`, `GET /manifest`, `GET /events`
and what a reconcile sends.  Two phones that differ in their chatroom events only should
look alike.  Each of the four drops the chatroom kinds at another place, and the count of
`GET /status` is the only one that never depends on them.  For the others the condition is
found by comparing a phone with the one that has no chatroom events.
-/

namespace Peer

def feedOnly (peer : Peer) : Peer where
  pubkey := peer.pubkey
  rows := feedRows peer.rows
  distinct := peer.distinct.sublist (filter_sublist.map EventRow.id)

theorem getEventsIn_eq (rows pubkey window) :
    getEventsIn rows pubkey window none = (getEvents rows pubkey none none).filter window.admits := by
  have ordered : getEvents rows pubkey none none =
      inOrder EventRow.place (rows.filter (fun event => event.pubkey = pubkey)) := by
    unfold getEvents
    simp only [atLeast, Bool.and_true]
    rfl
  rw [ordered, ← inOrder_filter]
  unfold getEventsIn
  simp [Bool.and_comm]

theorem getEventsIn_feedRows (rows pubkey window) :
    getEventsIn (feedRows rows) pubkey window none = feedRows (getEventsIn rows pubkey window none) := by
  unfold getEventsIn feedRows
  rw [← inOrder_filter]
  simp [Bool.and_comm]

theorem manifestResponse_feedOnly_iff (peer : Peer) (window) (pageLimit : Nat) :
    peer.manifestResponse window pageLimit = peer.feedOnly.manifestResponse window pageLimit ↔
      (∀ event, event ∈ (getEventsIn peer.rows peer.pubkey window none).take (pageLimit + 1) ->
        event.roomScoped = false) ∨
      (∀ event, event ∈ (getEventsIn peer.rows peer.pubkey window none).drop (pageLimit + 1) ->
        event.roomScoped = true) := by
  have samePage : peer.manifestResponse window pageLimit = peer.feedOnly.manifestResponse window pageLimit ↔
      (peer.manifestResponse window pageLimit).page = (peer.feedOnly.manifestResponse window pageLimit).page := by
    constructor
    · exact congrArg Manifest.page
    · intro same
      injection same with events hasOlder
      rw [Manifest.mk.injEq]
      exact ⟨rfl, events, hasOlder⟩
  have page : (peer.manifestResponse window pageLimit).page =
      feedView.cut pageLimit (getEventsIn peer.rows peer.pubkey window none) := by
    rw [manifestResponse_page]
    rfl
  have feedPage : (peer.feedOnly.manifestResponse window pageLimit).page = Page.fetched pageLimit
      ((feedView.shown (getEventsIn peer.rows peer.pubkey window none)).take (pageLimit + 1)) := by
    rw [manifestResponse_page]
    have fetched : getEventsIn peer.feedOnly.rows peer.feedOnly.pubkey window (some (pageLimit + 1)) =
        (feedRows (getEventsIn peer.rows peer.pubkey window none)).take (pageLimit + 1) := by
      rw [← getEventsIn_feedRows]
      rfl
    have shown : ((feedRows (getEventsIn peer.rows peer.pubkey window none)).take (pageLimit + 1)).filter
        (fun event => !event.roomScoped) =
          (feedRows (getEventsIn peer.rows peer.pubkey window none)).take (pageLimit + 1) := by
      apply filter_eq_self.mpr
      intro event member
      rw [(mem_feedRows.mp (mem_of_mem_take member)).2]
      rfl
    rw [fetched, shown, map_take]
    rfl
  rw [samePage, page, feedPage, Catalog.View.cut_eq_iff, Catalog.View.shown_eq_nil]
  simp [feedView]

/-- No own event of the feed stands behind a chatroom event and more rows than fit on a page. -/
def NothingBehindRooms (peer : Peer) (pageLimit : Nat) : Prop :=
  ∀ before event rest, getEvents peer.rows peer.pubkey none none = before ++ event :: rest ->
    event.roomScoped = false -> pageLimit < before.length ->
    ∀ newer ∈ before, newer.roomScoped = false

variable {event : EventRow} {peer : Peer}

theorem before_of_window {window front back before rest}
    (part : getEventsIn peer.rows peer.pubkey window none = front ++ event :: back)
    (whole : getEvents peer.rows peer.pubkey none none = before ++ event :: rest) :
    front ⊆ before ∧ front.length ≤ before.length := by
  have strict := ownRows.remaining_strict peer none
  rw [← getEvents_eq_remaining] at strict
  have strictPart : (front ++ event :: back).Pairwise (fun first second => ownRows.key first < ownRows.key second) := by
    rw [← part, getEventsIn_eq]
    exact strict.sublist filter_sublist
  have inside : front ⊆ before := by
    intro row member
    have stored : row ∈ getEvents peer.rows peer.pubkey none none := by
      have inPart : row ∈ getEventsIn peer.rows peer.pubkey window none := part ▸ mem_append_left _ member
      rw [getEventsIn_eq] at inPart
      exact mem_of_mem_filter inPart
    have below := (pairwise_append.mp strictPart).2.2 row member event mem_cons_self
    rw [whole] at stored strict
    rcases mem_append.mp stored with early | late
    · exact early
    · rcases mem_cons.mp late with same | behind
      · exact (lt_irrefl _ (same ▸ below)).elim
      · have above := (pairwise_cons.mp (pairwise_append.mp strict).2.1).1 row behind
        exact (lt_asymm below above).elim
  have nodup : front.Nodup := ownRows.nodup_of_strict (pairwise_append.mp strictPart).1
  exact ⟨inside, (nodup.subperm inside).length_le⟩

theorem window_between {pageLimit before rest room}
    (whole : getEvents peer.rows peer.pubkey none none = before ++ event :: rest)
    (long : pageLimit < before.length) (newer : room ∈ before) :
    ∃ cursor, room ∈ (ownRows.remaining peer cursor).take (pageLimit + 1) ∧
      event ∈ (ownRows.remaining peer cursor).drop (pageLimit + 1) := by
  rw [getEvents_eq_remaining] at whole
  rcases append_of_mem newer with ⟨front, back, rfl⟩
  -- The page begins so that the chatroom event is the last row that it fetches.
  obtain ⟨cursor, near, starts, fits, reaches⟩ : ∃ cursor near,
      ownRows.remaining peer cursor = (near ++ room :: back) ++ event :: rest ∧
        near.length ≤ pageLimit ∧ pageLimit ≤ near.length + back.length := by
    by_cases close : front.length ≤ pageLimit
    · refine ⟨none, front, whole, close, ?_⟩
      rw [length_append, length_cons] at long
      omega
    · have some_front : front.length - pageLimit - 1 < front.length := by omega
      have split := take_append_drop (front.length - pageLimit - 1) front
      rw [drop_eq_getElem_cons some_front] at split
      rw [← split, append_assoc, append_assoc] at whole
      refine ⟨some _, front.drop (front.length - pageLimit - 1 + 1),
        (ownRows.remaining_after whole).trans ?_, ?_, ?_⟩
      · simp
      · rw [length_drop]
        omega
      · rw [length_drop]
        omega
  refine ⟨cursor, ?_, ?_⟩
  · obtain ⟨more, enough⟩ : ∃ more, pageLimit + 1 - near.length = more + 1 :=
      ⟨pageLimit - near.length, by omega⟩
    rw [starts, append_assoc, take_append, enough]
    exact mem_append_right _ mem_cons_self
  · have covered : pageLimit + 1 ≤ (near ++ room :: back).length := by
      rw [length_append, length_cons]
      omega
    rw [starts, drop_append_of_le_length covered]
    exact mem_append_right _ mem_cons_self

theorem manifest_feedOnly_iff (peer : Peer) (pageLimit : Nat) :
    (∀ window, peer.manifestResponse window pageLimit = peer.feedOnly.manifestResponse window pageLimit) ↔
      peer.NothingBehindRooms pageLimit := by
  constructor
  · intro same before event rest whole shown long newer member
    by_contra hidden
    rcases window_between whole long member with ⟨cursor, fetched, left⟩
    rw [← getEventsIn_after] at fetched left
    rcases (peer.manifestResponse_feedOnly_iff (windowAfter cursor) pageLimit).mp (same _) with noRoom | onlyRooms
    · exact hidden (noRoom newer fetched)
    · rw [onlyRooms event left] at shown
      cases shown
  · intro nothing window
    rw [manifestResponse_feedOnly_iff]
    by_contra neither
    simp only [not_or, not_forall, Bool.not_eq_false, Bool.not_eq_true] at neither
    rcases neither with ⟨⟨room, fetched, inRoom⟩, event, left, shown⟩
    rcases append_of_mem left with ⟨_, _, split⟩
    have part := take_append_drop (pageLimit + 1) (getEventsIn peer.rows peer.pubkey window none)
    rw [split, ← append_assoc] at part
    have stored : event ∈ getEvents peer.rows peer.pubkey none none := by
      have inWindow := mem_of_mem_drop left
      rw [getEventsIn_eq] at inWindow
      exact mem_of_mem_filter inWindow
    rcases append_of_mem stored with ⟨before, rest, whole⟩
    have ahead := before_of_window part.symm whole
    have full : ((getEventsIn peer.rows peer.pubkey window none).take (pageLimit + 1)).length = pageLimit + 1 := by
      have some_left := length_pos_of_mem left
      rw [length_drop] at some_left
      rw [length_take]
      omega
    rw [length_append] at ahead
    have noRoom := nothing before event rest whole shown (by omega) room (ahead.1 (mem_append_left _ fetched))
    rw [noRoom] at inRoom
    cases inRoom

def OfFeed (peer : Peer) (event : EventRow) : Prop :=
  event.pubkey = peer.pubkey ∨ ∃ target ∈ peer.rows, target.pubkey = peer.pubkey ∧
    target.roomScoped = false ∧ event.ref = some target.id

def ofFeed (peer : Peer) (event : EventRow) : Bool :=
  decide (event.pubkey = peer.pubkey) || event.ref.any (fun target =>
    decide (target ∈ ((feedRows peer.rows).filter (fun own => own.pubkey = peer.pubkey)).map EventRow.id))

theorem ofFeed_eq_true : peer.ofFeed event = true ↔ peer.OfFeed event := by
  unfold ofFeed OfFeed
  simp only [Bool.or_eq_true, decide_eq_true_eq, Option.any_eq_true, mem_map, mem_filter, mem_feedRows]
  constructor
  · rintro (ours | ⟨_, named, target, ⟨⟨stored, noRoom⟩, own⟩, rfl⟩)
    · exact .inl ours
    · exact .inr ⟨target, stored, own, noRoom, named⟩
  · rintro (ours | ⟨target, stored, own, noRoom, named⟩)
    · exact .inl ours
    · exact .inr ⟨target.id, named, target, ⟨⟨stored, noRoom⟩, own⟩, rfl⟩

theorem servable_feedOnly (peer : Peer) (since : Option Int) :
    servable peer.feedOnly.rows peer.feedOnly.pubkey since =
      (servable peer.rows peer.pubkey since).filter peer.ofFeed := by
  have wider : ∀ event, peer.ofFeed event = true -> (decide (event.pubkey = peer.pubkey) ||
      event.ref.any (fun target => decide (target ∈
        (peer.rows.filter (fun own => own.pubkey = peer.pubkey)).map EventRow.id))) = true := by
    intro event found
    simp only [Bool.or_eq_true, decide_eq_true_eq, Option.any_eq_true, mem_map, mem_filter]
    rcases ofFeed_eq_true.mp found with ours | ⟨target, stored, own, _, named⟩
    · exact .inl ours
    · exact .inr ⟨target.id, named, target, ⟨stored, own⟩, rfl⟩
  have ofFeedOnly : servable peer.feedOnly.rows peer.feedOnly.pubkey since = (feedRows peer.rows).filter
      (fun event => peer.ofFeed event && !event.roomScoped && atLeast since event.createdAt) := rfl
  rw [ofFeedOnly, feedRows, servable, filter_filter, filter_filter]
  congr 1
  funext event
  cases found : peer.ofFeed event with
  | false => rfl
  | true =>
    rw [wider event found]
    cases event.roomScoped <;> cases atLeast since event.createdAt <;> rfl

/-- Whoever refers to an own chatroom event with an event of the feed is behind everything that
fits into an answer. -/
def NoAnswersToRooms (peer : Peer) : Prop :=
  ∀ event room, event ∈ peer.rows -> event.roomScoped = false -> event.pubkey ≠ peer.pubkey ->
    room ∈ peer.rows -> room.pubkey = peer.pubkey -> room.roomScoped = true -> event.ref = some room.id ->
    Author.eventsPageLimit ≤ peer.ahead event

theorem events_feedOnly_iff (peer : Peer) :
    (∀ since, peer.envelope since = peer.feedOnly.envelope since) ↔ peer.NoAnswersToRooms := by
  have same_iff : ∀ since, peer.envelope since = peer.feedOnly.envelope since ↔
      ∀ event ∈ peer.envelope since, peer.OfFeed event := by
    intro since
    rw [envelope_eq, envelope_eq, servable_feedOnly, inOrder_filter, eq_comm, take_filter_eq_iff]
    simp [ofFeed_eq_true]
  simp only [same_iff]
  constructor
  · intro allFeed event room member noRoom other stored own inRoom named
    by_contra early
    have served : event ∈ servable peer.rows peer.pubkey none :=
      mem_servable.mpr ⟨member, .inr ⟨room, stored, own, named⟩, noRoom, rfl⟩
    rcases allFeed none event ((mem_envelope served).mpr (Nat.not_le.mp early)) with
      ours | ⟨target, targetStored, _, targetFeed, targetNamed⟩
    · exact other ours
    · have sameId : target.id = room.id := Option.some.inj (targetNamed.symm.trans named)
      rw [eq_of_id targetStored stored sameId, inRoom] at targetFeed
      cases targetFeed
  · intro nobody since event fetched
    have served : event ∈ servable peer.rows peer.pubkey since := by
      rw [envelope_eq] at fetched
      exact mem_inOrder.mp (mem_of_mem_take fetched)
    rcases mem_servable.mp served with ⟨member, ours | ⟨target, stored, own, named⟩, noRoom, _⟩
    · exact .inl ours
    · by_cases other : event.pubkey = peer.pubkey
      · exact .inl other
      · cases inRoom : target.roomScoped with
        | false => exact .inr ⟨target, stored, own, inRoom, named⟩
        | true =>
          have late := nobody event target member noRoom other stored own inRoom named
          exact absurd ((mem_envelope served).mp fetched) (Nat.not_lt.mpr late)

end Peer

inductive Answer (B : Type) where
  | ok (body : B)
  | refused (status : Nat) (text : String)
  deriving DecidableEq

/-- What is not in the handlers themselves: the sealed deliveries, the hash of the Dart runtime,
and the length of the stored wire form. -/
structure Outside (D A : Type) where
  applyDeliveryAcks : D -> Identity -> Pubkey -> Option Int -> Option Int -> Option Bytes -> D
  attachPendingDeliveries : D -> Pubkey -> A
  hash : Int -> List String -> Int
  wireLength : EncryptedEvent -> Nat

/-- The part of the phone that the feed surface reads.  `deliveries` has the follows, the inbound
requests and the pending deliveries.  Chatrooms, their members and keys are not read. -/
structure FeedPhone (D : Type) where
  identity : Option Identity
  rows : List EventRow
  distinct : (rows.map EventRow.id).Nodup
  deliveries : D
  mediaCache : List (String × Nat)
  mediaBytes : String -> Option Bytes
  pairedRelay : Option PairedRelay
  secretKey : Option Bytes
  coordinator : Coordinator

structure StatusBody where
  pubkey : Pubkey
  version : String
  eventCount : Nat
  mediaStorageUsed : Nat

/-- A request of `GET /manifest` whose numbers have been read; it is refused before if one of
them is not a number. -/
structure ManifestRequest where
  window : Window
  requesterPubkey : Option Pubkey
  ackRotationAt : Option Int
  cardSeenAt : Option Int
  ackSig : Option Bytes

def starlingProtocolVersion : String := "2026-04-28"

namespace FeedPhone

variable {D A : Type} (outside : Outside D A)

section

variable (phone : FeedPhone D)

def peer (identity : Identity) : Peer := ⟨identity.pubkey, phone.rows, phone.distinct⟩

/-- `statusHandler`. -/
def status : Answer StatusBody :=
  match phone.identity with
  | none => .refused 503 "not ready"
  | some identity =>
    let ownEvents := getEvents phone.rows identity.pubkey none none
    let mediaUsed := (phone.mediaCache.map Prod.snd).sum
    .ok ⟨identity.pubkey, starlingProtocolVersion,
      (ownEvents.filter (fun event => !event.roomScoped)).length, mediaUsed⟩

/-- `manifestHandler`: the page, and what is attached for the requester after the acks. -/
def manifest (request : ManifestRequest) : Answer (Manifest × Option A) :=
  match phone.identity with
  | none => .refused 503 "not ready"
  | some identity =>
    let attached := request.requesterPubkey.map (fun requester =>
      outside.attachPendingDeliveries
        (outside.applyDeliveryAcks phone.deliveries identity requester request.ackRotationAt
          request.cardSeenAt request.ackSig) requester)
    .ok ((phone.peer identity).manifestResponse request.window Peer.manifestPageLimit, attached)

/-- `eventsHandler`: the events whose wire forms are in the envelope. -/
def events (since : Option Int) : Answer (List EventRow) :=
  match phone.identity with
  | none => .refused 503 "not ready"
  | some identity => .ok ((phone.peer identity).envelope since)

/-- What `reconcile` does with a relay; without one, or without a key, nothing. -/
def reconcile {ρ : Type} (link : RelayLink ρ) (relay : ρ) (now : Int) (phone : FeedPhone D) : List Errand :=
  match phone.pairedRelay, phone.identity, phone.secretKey with
  | some paired, some identity, some _ =>
    (reconcileAndMark link outside.wireLength phone.mediaBytes outside.hash phone.coordinator paired relay
      (getEvents phone.rows identity.pubkey none none) false now).session.errands
  | _, _, _ => []

/-- The four surfaces of two phones are the same.  A reconcile is compared by what it pushes and
deletes, for every relay. -/
structure SameSurface (now : Int) (left right : FeedPhone D) : Prop where
  status : left.status = right.status
  manifest : ∀ request, left.manifest outside request = right.manifest outside request
  events : ∀ since, left.events since = right.events since
  reconcile : ∀ (ρ : Type) (link : RelayLink ρ) (relay : ρ),
    traffic (left.reconcile outside link relay now) = traffic (right.reconcile outside link relay now)

def feedOnly : FeedPhone D :=
  { phone with
    rows := feedRows phone.rows
    distinct := phone.distinct.sublist (filter_sublist.map EventRow.id) }

def AgreeButRooms (left right : FeedPhone D) : Prop := left.feedOnly = right.feedOnly

def skips (now : Int) (phone : FeedPhone D) (paired : PairedRelay) (events : List EventRow) : Bool :=
  phone.coordinator.running || phone.coordinator.shortCircuits false
    (localStateSignature outside.hash events paired.relayPruneBefore) now

/-- The reconcile does not tell.  The photos of the chatroom events are covered if it runs either
way; and it has nothing to say if the chatroom events decide whether it runs. -/
structure QuietReconcile (now : Int) (phone : FeedPhone D) (paired : PairedRelay) (events : List EventRow) : Prop where
  covered : phone.skips outside now paired events = false -> phone.skips outside now paired (feedRows events) = false ->
    ∀ horizon, CanPruneTo outside.wireLength events paired.relayPruneBefore horizon ->
      MediaCovered phone.mediaBytes events horizon
  onlyWith : phone.skips outside now paired events = false -> phone.skips outside now paired (feedRows events) = true ->
    Idle phone.mediaBytes events paired.relayPruneBefore
  onlyWithout : phone.skips outside now paired events = true ->
    phone.skips outside now paired (feedRows events) = false ->
    Idle phone.mediaBytes (feedRows events) paired.relayPruneBefore

structure Hidden (now : Int) (phone : FeedPhone D) : Prop where
  manifest : ∀ identity, phone.identity = some identity ->
    (phone.peer identity).NothingBehindRooms Peer.manifestPageLimit
  events : ∀ identity, phone.identity = some identity -> (phone.peer identity).NoAnswersToRooms
  reconcile : ∀ identity paired, phone.identity = some identity -> phone.pairedRelay = some paired ->
    phone.secretKey ≠ none ->
    phone.QuietReconcile outside now paired (getEvents phone.rows identity.pubkey none none)

theorem getEvents_feedRows (rows : List EventRow) (pubkey : Pubkey) :
    getEvents (feedRows rows) pubkey none none = feedRows (getEvents rows pubkey none none) := by
  rw [← getEventsIn_since, getEventsIn_feedRows, getEventsIn_since]

/-- The count of `GET /status` is taken after the filter, without a limit. -/
theorem status_feedOnly : phone.status = phone.feedOnly.status := by
  unfold status
  dsimp [feedOnly]
  cases phone.identity with
  | none => rfl
  | some =>
    dsimp only
    rw [getEvents_feedRows, feedRows]
    simp

theorem manifest_same_iff :
    (∀ request, phone.manifest outside request = phone.feedOnly.manifest outside request) ↔
      ∀ identity, phone.identity = some identity -> (phone.peer identity).NothingBehindRooms manifestPageLimit := by
  unfold manifest
  dsimp [feedOnly]
  cases phone.identity with
  | none => exact ⟨fun _ => nofun, fun _ _ => rfl⟩
  | some =>
    simp only [Option.some.injEq, forall_eq', ← manifest_feedOnly_iff]
    constructor
    · intro same window
      have body := same ⟨window, none, none, none, none⟩
      injection body with pair
      exact congrArg Prod.fst pair
    · intro same request
      exact congrArg (fun page => Answer.ok (page, _)) (same request.window)

theorem events_same_iff : (∀ since, phone.events since = phone.feedOnly.events since) ↔
      ∀ identity, phone.identity = some identity -> (phone.peer identity).NoAnswersToRooms := by
  unfold events
  dsimp [feedOnly]
  cases phone.identity with
  | none => exact ⟨fun _ => nofun, fun _ _ => rfl⟩
  | some =>
    simp only [Option.some.injEq, forall_eq', ← events_feedOnly_iff, Answer.ok.injEq]
    exact Iff.rfl

end

theorem reconcile_errands {ρ : Type} (link : RelayLink ρ) (relay : ρ) (now) (phone : FeedPhone D)
    (paired : PairedRelay) (events : List EventRow) :
    (reconcileAndMark link outside.wireLength phone.mediaBytes outside.hash phone.coordinator paired relay
      events false now).session.errands =
      if phone.skips outside now paired events then []
      else (Session.syncToRelay link outside.wireLength phone.mediaBytes
        ⟨relay, [], paired.relayPruneBefore⟩ events).1.errands := by
  unfold reconcileAndMark skips
  dsimp only
  split
  · rfl
  · unfold fullPass
    dsimp only
    split
    · rfl
    · split <;> rfl

theorem quietReconcile_iff (now : Int) (phone : FeedPhone D) (paired : PairedRelay) (events : List EventRow) :
    (∀ (ρ : Type) (link : RelayLink ρ) (relay : ρ),
      traffic (reconcileAndMark link outside.wireLength phone.mediaBytes outside.hash phone.coordinator paired
          relay events false now).session.errands =
        traffic (reconcileAndMark link outside.wireLength phone.mediaBytes outside.hash phone.coordinator paired
          relay (feedRows events) false now).session.errands) ↔
      phone.QuietReconcile outside now paired events := by
  simp only [reconcile_errands]
  constructor
  · intro same
    constructor
    · intro withRooms without
      rw [withRooms, without] at same
      exact (same_traffic_iff _ _ _ _).mp same
    · intro withRooms without
      rw [withRooms, without] at same
      exact (no_traffic_iff _ _ _ _).mp same
    · intro withRooms without
      rw [withRooms, without] at same
      exact (no_traffic_iff _ _ _ _).mp (fun ρ link relay => (same ρ link relay).symm)
  · intro quiet ρ link relay
    cases withRooms : phone.skips outside now paired events with
    | false =>
      cases without : phone.skips outside now paired (feedRows events) with
      | false => exact (same_traffic_iff _ _ _ _).mpr (quiet.covered withRooms without) ρ link relay
      | true => exact (no_traffic_iff _ _ _ _).mpr (quiet.onlyWith withRooms without) ρ link relay
    | true =>
      cases without : phone.skips outside now paired (feedRows events) with
      | false => exact ((no_traffic_iff _ _ _ _).mpr (quiet.onlyWithout withRooms without) ρ link relay).symm
      | true => rfl

theorem reconcile_same_iff (now : Int) (phone : FeedPhone D) : (∀ (ρ : Type) (link : RelayLink ρ) (relay : ρ),
      traffic (phone.reconcile outside link relay now) = traffic (phone.feedOnly.reconcile outside link relay now)) ↔
      ∀ identity paired, phone.identity = some identity -> phone.pairedRelay = some paired ->
        phone.secretKey ≠ none ->
        phone.QuietReconcile outside now paired (getEvents phone.rows identity.pubkey none none) := by
  unfold reconcile
  dsimp [feedOnly]
  cases found : phone.pairedRelay with
  | none => exact ⟨fun _ _ _ _ => nofun, fun _ _ _ _ => rfl⟩
  | some paired =>
    cases known : phone.identity with
    | none => exact ⟨fun _ _ _ => nofun, fun _ _ _ _ => rfl⟩
    | some identity =>
      cases key : phone.secretKey with
      | none => exact ⟨fun _ _ _ _ _ missing => absurd rfl missing, fun _ _ _ _ => rfl⟩
      | some secret =>
        simp only [getEvents_feedRows, quietReconcile_iff]
        constructor
        · intro quiet _ _ sameIdentity samePaired _
          cases sameIdentity
          cases samePaired
          exact quiet
        · intro quiet
          exact quiet identity paired rfl rfl (Option.some_ne_none secret)

theorem sameSurface_feedOnly_iff (now) (phone : FeedPhone D) :
    SameSurface outside now phone phone.feedOnly ↔ phone.Hidden outside now := by
  constructor
  · intro same
    constructor
    · exact (manifest_same_iff outside phone).mp same.manifest
    · exact (events_same_iff phone).mp same.events
    · exact (reconcile_same_iff outside now phone).mp same.reconcile
  · intro hidden
    constructor
    · exact phone.status_feedOnly
    · exact (manifest_same_iff outside phone).mpr hidden.manifest
    · exact (events_same_iff phone).mpr hidden.events
    · exact (reconcile_same_iff outside now phone).mpr hidden.reconcile

variable {outside}

theorem SameSurface.symm {now left right} (same : SameSurface outside now left right) :
    SameSurface outside now right left where
  status := same.status.symm
  manifest := fun request => (same.manifest request).symm
  events := fun since => (same.events since).symm
  reconcile := fun ρ link relay => (same.reconcile ρ link relay).symm

theorem SameSurface.trans {now left middle right} (first : SameSurface outside now left middle)
    (second : SameSurface outside now middle right) : SameSurface outside now left right where
  status := first.status.trans second.status
  manifest := fun request => (first.manifest request).trans (second.manifest request)
  events := fun since => (first.events since).trans (second.events since)
  reconcile := fun ρ link relay => (first.reconcile ρ link relay).trans (second.reconcile ρ link relay)

/-- Two phones that differ in chatroom events only look alike, when those of the one do not show,
if and only if those of the other do not show either. -/
theorem sameSurface_iff_hidden (now : Int) {left right : FeedPhone D} (agree : AgreeButRooms left right)
    (hidden : right.Hidden outside now) : SameSurface outside now left right ↔ left.Hidden outside now := by
  have rightSame := (sameSurface_feedOnly_iff outside now right).mpr hidden
  rw [← sameSurface_feedOnly_iff, agree]
  constructor
  · intro same
    exact same.trans rightSame
  · intro same
    exact same.trans rightSame.symm

namespace Chatter

def row (id pubkey : String) (kind : Nat) (ref : Option String) (media : List String) : EventRow :=
  ⟨id, pubkey, 100, kind, ref, media, none⟩

def identity : Identity := ⟨"OWN", [], 0, 0, 0, none, 0⟩

def phone (rows : List EventRow) (distinct : (rows.map EventRow.id).Nodup) : FeedPhone Unit where
  identity := some identity
  rows := rows
  distinct := distinct
  deliveries := ()
  mediaCache := []
  mediaBytes := fun _ => some []
  pairedRelay := some ⟨"relay", false, 0, none, none⟩
  secretKey := some []
  coordinator := ⟨false, false, none, 0⟩

def libraries : Outside Unit Unit := ⟨fun _ _ _ _ _ _ => (), fun _ _ => (), fun _ _ => 0, fun _ => 1⟩

theorem phone_hidden {rows distinct} (few : rows.length ≤ 1000) (noRefs : ∀ event ∈ rows, event.ref = none)
    (noMedia : ∀ event ∈ rows, event.roomScoped = true -> event.media = []) :
    (phone rows distinct).Hidden libraries 1000 where
  manifest := by
    intro known _ before event rest whole _ long
    have atMost : (getEvents rows known.pubkey none none).length ≤ rows.length :=
      le_of_eq_of_le (inOrder_perm _ _).length_eq (length_filter_le _ _)
    have split : (getEvents rows known.pubkey none none).length = before.length + (rest.length + 1) := by
      rw [show getEvents rows known.pubkey none none = before ++ event :: rest from whole, length_append, length_cons]
    have page : manifestPageLimit = 1000 := rfl
    omega
  events := by
    intro known _ event room member _ _ _ _ _ named
    rw [noRefs event member] at named
    cases named
  reconcile := by
    intro known paired _ _ _
    constructor
    · intro _ _ horizon _
      constructor
      · intro room hash member inRoom _ shown
        rw [noMedia room (mem_getEvents.mp member).1 inRoom] at shown
        cases shown
      · intro room hash member inRoom _ shown
        rw [noMedia room (mem_getEvents.mp member).1 inRoom] at shown
        cases shown
    · exact nofun
    · exact nofun

def talking : FeedPhone Unit := phone [row "post" "OWN" 1 none ["photo"], row "message" "OWN" 102 none []] (by decide)

def silent : FeedPhone Unit := phone [row "post" "OWN" 1 none ["photo"]] (by decide)

theorem message_does_not_show : SameSurface libraries 1000 talking silent := by
  have hidden : silent.Hidden libraries 1000 := phone_hidden (by decide) (by decide) (by decide)
  have agree : AgreeButRooms talking silent := rfl
  apply (sameSurface_iff_hidden 1000 agree hidden).mpr
  exact phone_hidden (by decide) (by decide) (by decide)

def answered : FeedPhone Unit :=
  phone [row "message" "OWN" 102 none ["photo"], row "comment" "OTHER" 4 (some "message") []] (by decide)

def unanswered : FeedPhone Unit := phone [row "comment" "OTHER" 4 (some "message") []] (by decide)

/-- The comment is served to everybody only because the message is there, and the photo of the
message goes to the relay. -/
theorem comment_and_photo_show :
    AgreeButRooms answered unanswered ∧ ¬ SameSurface libraries 1000 answered unanswered ∧
      answered.events none = .ok [row "comment" "OTHER" 4 (some "message") []] ∧
      unanswered.events none = .ok [] ∧
      traffic (answered.reconcile libraries (.willing ∅ ∅) () 1000) = {.pushMedia "photo"} ∧
      traffic (unanswered.reconcile libraries (.willing ∅ ∅) () 1000) = ∅ := by
  have served : answered.events none = .ok [row "comment" "OTHER" 4 (some "message") []] := by decide +kernel
  have notServed : unanswered.events none = .ok [] := by decide +kernel
  refine ⟨rfl, ?_, served, notServed, by decide +kernel, by decide +kernel⟩
  intro same
  have equal := same.events none
  cases equal

end Chatter

end FeedPhone

end Starling.App
