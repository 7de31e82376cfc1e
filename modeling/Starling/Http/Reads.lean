import Starling.Http.Media
import Starling.Storage.Pages

namespace Starling.Http

/-!
# Paged reads

`GET /manifest`, `GET /events` and `GET /media-manifest`.  A page tells the client how to
ask for the next one: the manifests by a flag and the last entry, the events by a cursor
in the envelope.  The client follows these until there are none, while the Owner may push
and delete between two of its requests.
-/

open Storage List Store

/-! ## routes/manifest.rs -/

structure ManifestPage where
  pubkey : Bytes32
  events : List ManifestRow
  hasOlder : Bool

def manifestPageLimit : Nat := 1000

/-- The handler with its page limit as a parameter; one extra row is fetched to detect
`has_older`. -/
def manifestHandler (limit : Nat) (store : Store) (owner : Bytes32) (since untilAt : Option Int)
    (untilId : Option String) : ManifestPage :=
  let rows := store.manifestPage owner since untilAt untilId (limit + 1)
  { pubkey := owner
    events := rows.take limit
    hasOlder := decide (limit < rows.length) }

section

variable (owner : Bytes32)

/-- A request of a client that sends the last entry back as `until` and `until_id`. -/
def readManifest (since : Option Int) (limit : Nat) (store : Store)
    (cursor : Option (OrderDual (Lex (Int × String)))) : Page ManifestRow :=
  let page := manifestHandler limit store owner since (cursor.map (fun key => (ofLex (OrderDual.ofDual key)).1))
    (cursor.map (fun key => (ofLex (OrderDual.ofDual key)).2))
  ⟨page.events, page.hasOlder⟩

theorem readManifest_sound (since) {limit} (positive : 1 ≤ limit) :
    (manifestCatalog owner since).Sound (readManifest owner since limit) := by
  intro store cursor
  have cut := Page.fetched_cuts positive ((manifestCatalog owner since).remaining store cursor)
  rw [← manifestPage_eq_take] at cut
  exact cut

structure MediaManifestPage where
  hashes : List String
  hasOlder : Bool

/-- The part of `manifest_handler` after the signature check. -/
def mediaManifestPage (limit : Nat) (store : Store) (owner : Bytes32) (after : Option String) :
    MediaManifestPage :=
  let rows := store.hashesPage owner after (limit + 1)
  { hashes := rows.take limit
    hasOlder := decide (limit < rows.length) }

/-- `manifest_handler`, signed by the Owner over the empty body. -/
def mediaManifestHandler (K : Wire.Crypto) (now : Wire.I64) (headers : HeaderMap) (store : Store)
    (owner : Bytes32) (after : Option String) : Except Failure MediaManifestPage := do
  verifyOwnerRequest K now headers (Wire.ascii "GET") (Wire.ascii "/media-manifest") [] owner
  return mediaManifestPage manifestPageLimit store owner after

/-- A request of a client that sends the last hash back as `after`. -/
def readMediaManifest (limit : Nat) (store : Store) (cursor : Option String) : Page String :=
  let page := mediaManifestPage limit store owner cursor
  ⟨page.hashes, page.hasOlder⟩

theorem readMediaManifest_sound {limit} (positive : 1 ≤ limit) :
    (mediaCatalog owner).Sound (readMediaManifest owner limit) := by
  intro store cursor
  have cut := Page.fetched_cuts positive ((mediaCatalog owner).remaining store cursor)
  rw [← hashesPage_eq_take] at cut
  exact cut

end

/-! ## What a walk of the manifests promises -/

variable {owner : Bytes32} {store : Store} {maxRows : Int}

theorem mem_manifestCatalog {since row} : row ∈ (manifestCatalog owner since).rows store ↔
      (∃ event, store.eventRows.lookup (owner, row.id) = some event ∧ event.createdAt = row.createdAt) ∧
        ∀ bound, since = some bound -> bound ≤ row.createdAt := by
  have bounded : recent since row.createdAt = true ↔ ∀ bound, since = some bound -> bound ≤ row.createdAt := by
    cases since with
    | none | some => simp [recent]
  rw [← bounded]
  apply mem_filter.trans
  apply and_congr_left
  intro _
  rw [manifestRows, mem_map]
  constructor
  · rintro ⟨event, member, rfl⟩
    exact ⟨event.row, mem_eventsOf.mp member, rfl⟩
  · rintro ⟨event, found, same⟩
    refine ⟨⟨row.id, event⟩, mem_eventsOf.mpr found, ?_⟩
    rw [same]

theorem mem_mediaCatalog {hash} :
    hash ∈ (mediaCatalog owner).rows store ↔ (owner, hash) ∈ store.db.servedMedia := by
  rw [Table.mem_iff_lookup]
  apply mem_map.trans
  constructor
  · rintro ⟨⟨⟨_, _⟩, row⟩, member, rfl⟩
    rw [mem_filter, decide_eq_true_eq] at member
    rcases member with ⟨entry, rfl⟩
    exact ⟨row, Table.lookup_eq_some_iff.mpr entry⟩
  · rintro ⟨row, found⟩
    refine ⟨⟨(owner, hash), row⟩, ?_, rfl⟩
    rw [mem_filter, decide_eq_true_eq]
    exact ⟨Table.lookup_eq_some_iff.mp found, rfl⟩

/-- Walks of both manifests are lossless for every page limit.  The entries of
`GET /manifest` come newest first, those of `GET /media-manifest` by ascending hash. -/
theorem manifest_walks_lossless (owner : Bytes32) (since : Option Int) (limit : Nat) (positive : 1 ≤ limit) :
    ((manifestCatalog owner since).Lossless (readManifest owner since limit) ∧ (∀ left right : ManifestRow,
        (manifestCatalog owner since).key left < (manifestCatalog owner since).key right ↔
          right.createdAt < left.createdAt ∨ right.createdAt = left.createdAt ∧ right.id < left.id) ∧
      (∀ store row, row ∈ (manifestCatalog owner since).rows store ↔
        (∃ event, store.eventRows.lookup (owner, row.id) = some event ∧ event.createdAt = row.createdAt) ∧
        ∀ bound, since = some bound -> bound ≤ row.createdAt)) ∧
    ((mediaCatalog owner).Lossless (readMediaManifest owner limit) ∧
      (∀ left right : String, (mediaCatalog owner).key left < (mediaCatalog owner).key right ↔ left < right) ∧
      (∀ store hash, hash ∈ (mediaCatalog owner).rows store ↔ (owner, hash) ∈ store.db.servedMedia)) := by
  refine ⟨⟨?_, ?_, ?_⟩, ?_, ?_, ?_⟩
  · exact (readManifest_sound owner since positive).lossless
  · intro left right
    exact OrderDual.toDual_lt_toDual.trans Prod.Lex.toLex_lt_toLex
  · intro store row
    exact mem_manifestCatalog
  · exact (readMediaManifest_sound owner positive).lossless
  · intro left right
    exact Iff.rfl
  · intro store hash
    exact mem_mediaCatalog

/-! A store with three notes, two of them in the same second. -/

def sampleOwner : Bytes32 := Bytes32.fill 7

def note (createdAt : Int) (payload : Bytes) : NewEvent where
  createdAt := createdAt
  msgSeq := 0
  nonce := []
  payload := payload
  itemType := "event"

def notebook : Store :=
  (do
    let paired <- Store.empty.insertOwner sampleOwner ⟨none, 1, "relay.onion", 17000, none⟩
    let (first, _) <- paired.insertEvent sampleOwner "a" (note 5 [1])
    let (second, _) <- first.insertEvent sampleOwner "b" (note 5 [2, 2])
    let (third, _) <- second.insertEvent sampleOwner "c" (note 4 [3])
    return third).getD Store.empty

theorem manifest_walks_lossless_shared_second :
    (manifestCatalog sampleOwner none).walk (readManifest sampleOwner none 1) none [notebook, notebook, notebook] =
      some [⟨[⟨"b", 5⟩], true⟩, ⟨[⟨"a", 5⟩], true⟩, ⟨[⟨"c", 4⟩], false⟩] ∧
    (∀ row, row ∈ [ManifestRow.mk "b" 5, ⟨"a", 5⟩, ⟨"c", 4⟩] ↔
      row ∈ (manifestCatalog sampleOwner none).rows notebook) := by
  have walked : (manifestCatalog sampleOwner none).walk (readManifest sampleOwner none 1) none
      [notebook, notebook, notebook] =
        some [⟨[⟨"b", 5⟩], true⟩, ⟨[⟨"a", 5⟩], true⟩, ⟨[⟨"c", 4⟩], false⟩] := by decide +kernel
  have lossless := (manifest_walks_lossless sampleOwner none 1 (Nat.le_refl 1)).1.1
  refine ⟨walked, lossless.complete notebook _ _ walked ?_⟩
  intro store member
  simpa using member

/-! ## routes/events.rs: get_handler -/

def protocolVersion : String := "2026-04-28"

def eventsPageLimit : Int := 500

def pageByteBudget : Int := 4 * 1024 * 1024

/-- The envelope of `GET /events`; `next` is the extension of that name. -/
structure Envelope where
  version : String
  items : List ServedPayload
  next : Option (Int × String)
  deriving DecidableEq

def getEvents (maxRows byteBudget : Int) (store : Store) (owner : Bytes32) (since : Option Int)
    (sinceId : Option String) : Envelope :=
  let page := store.payloadsPage owner since sinceId maxRows byteBudget
  { version := protocolVersion
    items := page.items
    next := page.next }

/-- Follow `next` until it is absent, each request in its own state. -/
def eventsWalk (maxRows byteBudget : Int) (owner : Bytes32) :
    Option (Int × String) -> List Store -> Option (List Envelope)
  | _, [] => none
  | cursor, store :: stores =>
    let page := getEvents maxRows byteBudget store owner (cursor.map Prod.fst) (cursor.map Prod.snd)
    match page.next with
    | none => some [page]
    | some next => (eventsWalk maxRows byteBudget owner (some next) stores).map (fun pages => page :: pages)

def readEvents (maxRows byteBudget : Int) (owner : Bytes32) (store : Store)
    (cursor : Option (Lex (Int × String))) : Page StoredEvent :=
  store.payloadsRows owner (cursor.map (fun key => (ofLex key).1)) (cursor.map (fun key => (ofLex key).2))
    maxRows byteBudget

def Envelope.ofRows (page : Page StoredEvent) : Envelope where
  version := protocolVersion
  items := (EventsPage.ofRows page).items
  next := (EventsPage.ofRows page).next

theorem readEvents_sound (maxRows byteBudget owner) :
    (eventCatalog owner).Sound (readEvents maxRows byteBudget owner) := by
  intro store cursor
  rw [readEvents, payloadsRows_eq_loop]
  exact payloadsLoop_cuts maxRows byteBudget _

theorem readEvents_bounded (positive : 1 ≤ maxRows) (byteBudget owner store cursor) :
    Bounded maxRows byteBudget (readEvents maxRows byteBudget owner store cursor).items := by
  apply payloadsLoop_bounded positive
  · rfl
  · refine ⟨?_, .inl (Nat.zero_le 1)⟩
    simp only [length_nil, Int.ofNat_zero]
    omega

theorem getEvents_eq (maxRows byteBudget owner store) (cursor : Option (Int × String)) :
    getEvents maxRows byteBudget store owner (cursor.map Prod.fst) (cursor.map Prod.snd) =
      Envelope.ofRows (readEvents maxRows byteBudget owner store (cursor.map toLex)) := by
  cases cursor with
  | none | some => rfl

theorem next_of_done {page} (done : page.more = false) : (Envelope.ofRows page).next = none := by
  simp [Envelope.ofRows, EventsPage.ofRows, done]

theorem next_of_more {page event} (more : page.more = true) (found : page.items.getLast? = some event) :
    (Envelope.ofRows page).next = some (event.row.createdAt, event.id) := by
  simp [Envelope.ofRows, EventsPage.ofRows, more, found]

theorem last_of_more {byteBudget cursor} (more : (readEvents maxRows byteBudget owner store cursor).more = true) :
    ∃ event, (readEvents maxRows byteBudget owner store cursor).items.getLast? = some event := by
  have some := Catalog.items_ne_nil_of_more (readEvents_sound maxRows byteBudget owner) more
  exact Option.isSome_iff_exists.mp (List.getLast?_isSome.mpr some)

theorem next_ne_none_iff {byteBudget} {cursor : Option (Int × String)} :
    (getEvents maxRows byteBudget store owner (cursor.map Prod.fst) (cursor.map Prod.snd)).next ≠ none ↔
      (readEvents maxRows byteBudget owner store (cursor.map toLex)).more = true := by
  rw [getEvents_eq]
  cases more : (readEvents maxRows byteBudget owner store (cursor.map toLex)).more with
  | false => simp [next_of_done more]
  | true =>
    rcases last_of_more more with ⟨_, found⟩
    simp [next_of_more more found]

theorem eventsWalk_eq (maxRows byteBudget owner cursor)
    (stores : List Store) : eventsWalk maxRows byteBudget owner cursor stores =
      ((eventCatalog owner).walk (readEvents maxRows byteBudget owner) (cursor.map toLex) stores).map
        (fun pages => pages.map Envelope.ofRows) := by
  induction stores generalizing cursor with
  | nil => rfl
  | cons store rest ih =>
    rw [eventsWalk, Catalog.walk, getEvents_eq]
    cases more : (readEvents maxRows byteBudget owner store (cursor.map toLex)).more with
    | false =>
      simp only [next_of_done more, Bool.false_eq_true, if_false]
      rfl
    | true =>
      rcases last_of_more more with ⟨_, found⟩
      simp only [next_of_more more found, ih, found, if_true, Option.map_map]
      rfl

theorem served_bytes {events : List StoredEvent} (stored : ∀ event ∈ events, event ∈ store.eventsOf owner) :
    ((events.map StoredEvent.served).map (fun item => (item.payload.length : Int))).sum =
      (events.map (fun event => event.row.size)).sum := by
  rw [map_map]
  congr 1
  apply map_congr_left
  intro event member
  exact (store.sized _ event.row (mem_eventsOf.mp (stored event member))).symm

/-- Walks of `GET /events` are lossless, and every page keeps to both limits. -/
theorem events_walks_lossless (owner : Bytes32) (maxRows byteBudget : Int) (positive : 1 ≤ maxRows) :
    (eventCatalog owner).Lossless (readEvents maxRows byteBudget owner) ∧
    (∀ left right : StoredEvent, (eventCatalog owner).key left < (eventCatalog owner).key right ↔
        left.row.createdAt < right.row.createdAt ∨ left.row.createdAt = right.row.createdAt ∧
          left.id < right.id) ∧
    (∀ store event, event ∈ (eventCatalog owner).rows store ↔
      store.eventRows.lookup (owner, event.id) = some event.row) ∧
    (∀ stores, eventsWalk maxRows byteBudget owner none stores =
      ((eventCatalog owner).walk (readEvents maxRows byteBudget owner) none stores).map
        (fun pages => pages.map Envelope.ofRows)) ∧
    (∀ (store : Store) (cursor : Option (Int × String)),
      let rows := (readEvents maxRows byteBudget owner store (cursor.map toLex)).items
      let page := getEvents maxRows byteBudget store owner (cursor.map Prod.fst) (cursor.map Prod.snd)
      page.items = rows.map (fun event => ⟨event.row.itemType, event.row.payload⟩) ∧
        (page.next ≠ none -> page.items ≠ []) ∧
        (page.items.length : Int) ≤ maxRows ∧
        (page.items.length ≤ 1 ∨ (page.items.map (fun item => (item.payload.length : Int))).sum ≤ byteBudget) ∧
        (page.next ≠ none ↔ ∃ event, store.eventRows.lookup (owner, event.id) = some event.row ∧
          Catalog.past (cursor.map toLex) event.stamp = true ∧ event ∉ rows)) := by
  refine ⟨?_, ?_, ?_, ?_, ?_⟩
  · exact (readEvents_sound maxRows byteBudget owner).lossless
  · intro left right
    exact Prod.Lex.toLex_lt_toLex
  · intro store event
    exact mem_eventsOf
  · intro stores
    exact eventsWalk_eq maxRows byteBudget owner none stores
  · intro store cursor rows page
    have served : page = Envelope.ofRows (readEvents maxRows byteBudget owner store (cursor.map toLex)) :=
      getEvents_eq maxRows byteBudget owner store cursor
    have sound := readEvents_sound maxRows byteBudget owner store (cursor.map toLex)
    have bounded := readEvents_bounded positive byteBudget owner store (cursor.map toLex)
    have itemsEq : page.items = rows.map StoredEvent.served := by
      rw [served]
      rfl
    have length : page.items.length = rows.length := by rw [itemsEq, length_map]
    have stored : ∀ event ∈ rows, event ∈ store.eventsOf owner := by
      intro event member
      exact (Catalog.key_past_of_mem (readEvents_sound maxRows byteBudget owner) member).1
    refine ⟨itemsEq, ?_, ?_, ?_, ?_⟩
    · intro present
      rw [itemsEq, ne_eq, map_eq_nil_iff]
      exact Catalog.items_ne_nil_of_more (readEvents_sound maxRows byteBudget owner) (next_ne_none_iff.mp present)
    · rw [length]
      exact bounded.rows
    · rw [length, itemsEq, served_bytes stored]
      exact bounded.bytes
    · rw [next_ne_none_iff, sound.more_iff ((eventCatalog owner).nodup_of_strict
        ((eventCatalog owner).remaining_strict store (cursor.map toLex)))]
      apply exists_congr
      intro event
      rw [(eventCatalog owner).mem_remaining, and_assoc]
      exact and_congr_left (fun _ => mem_eventsOf)

/-- The second note is larger than the budget and is delivered on a page of its own. -/
theorem events_walks_lossless_small_budget : eventsWalk 2 1 sampleOwner none [notebook, notebook, notebook] = some
        [⟨protocolVersion, [⟨"event", [3]⟩], some (4, "c")⟩,
          ⟨protocolVersion, [⟨"event", [1]⟩], some (5, "a")⟩,
          ⟨protocolVersion, [⟨"event", [2, 2]⟩], none⟩] ∧
    (getEvents 2 1 notebook sampleOwner none none).next ≠ none ∧
      ((getEvents 2 1 notebook sampleOwner none none).items.length : Int) ≤ 2 := by
  have walked : eventsWalk 2 1 sampleOwner none [notebook, notebook, notebook] = some
        [⟨protocolVersion, [⟨"event", [3]⟩], some (4, "c")⟩,
          ⟨protocolVersion, [⟨"event", [1]⟩], some (5, "a")⟩,
          ⟨protocolVersion, [⟨"event", [2, 2]⟩], none⟩] := by decide +kernel
  have pages := (events_walks_lossless sampleOwner 2 1 (by decide)).2.2.2.2 notebook none
  exact ⟨walked, by decide +kernel, pages.2.2.1⟩

/-- Over a store that does not change, walks of `/manifest` and of `/events` end, and the second returns the
events that the first names, in the reverse order, and as many as `/status` counts. -/
theorem manifest_names_events (owner : Bytes32) (more : Nat) (maxRows byteBudget : Int) (store : Store) :
    ∃ named sent,
    (manifestCatalog owner none).walk (readManifest owner none (more + 1)) none
      (replicate (((manifestCatalog owner none).rows store).length + 1) store) = some named ∧
    (eventCatalog owner).walk (readEvents maxRows byteBudget owner) none
      (replicate (((eventCatalog owner).rows store).length + 1) store) = some sent ∧
    (Catalog.listing sent).map (fun event => (⟨event.id, event.row.createdAt⟩ : ManifestRow)) =
      (Catalog.listing named).reverse ∧ (Catalog.listing sent).length = store.countEvents owner := by
  have manifest := (readManifest_sound owner none (Nat.succ_pos more)).lossless
  have events := (readEvents_sound maxRows byteBudget owner).lossless
  rcases manifest.settles store with ⟨named, walked⟩
  rcases events.settles store with ⟨sent, fetched⟩
  have fixed : ∀ {count length}, ∀ state ∈ (replicate count store).take length, state = store := by
    intro count length state member
    exact eq_of_mem_replicate (mem_of_mem_take member)
  have complete := events.complete store _ _ fetched fixed
  have strict := events.ascending _ _ fetched
  refine ⟨named, sent, walked, fetched, ?_, ?_⟩
  · -- Both lists ascend in the stamp, so it is enough that they have the same rows.
    have ascending :
        ((Catalog.listing sent).map (fun event => (⟨event.id, event.row.createdAt⟩ : ManifestRow))).Pairwise
        (fun left right => left.stamp < right.stamp) := pairwise_map.mpr strict
    have descending : (Catalog.listing named).reverse.Pairwise (fun left right => left.stamp < right.stamp) :=
      pairwise_reverse.mpr (manifest.ascending _ _ walked)
    refine ascending.eq_of_mem_iff descending ?_
    intro row
    rw [mem_reverse, manifest.complete store _ _ walked fixed row, mem_map]
    simp only [complete, manifestCatalog, manifestRows, eventCatalog, recent, mem_map, filter_true]
  · have distinct : (Catalog.listing sent).Nodup := (eventCatalog owner).nodup_of_strict strict
    rw [((perm_ext_iff_of_nodup distinct (store.eventsOf_ids_nodup owner).of_map).mpr complete).length_eq]
    exact length_map _

end Starling.Http
