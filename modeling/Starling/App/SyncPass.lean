import Starling.App.Author
import Starling.App.FollowRows
import Mathlib.Data.Prod.Lex
import Mathlib.Data.String.Basic

namespace Starling.App

open List Author

/-!
# One sync pass

A pass compares the peer's manifest with the local events, fetches one envelope from the
oldest second on that something is missing, and moves the cursor to the newest second of
the manifest.  The envelope is cut after 500 rows and the newest rows come first, while the
cursor does not look at the envelope.  So a row that is missing is fetched if and only if
fewer than 500 of the rows that the peer serves come before it; and a peer that answers for
somebody else is never asked for an envelope, but its full pass is stamped all the same.
-/

/-- The peer's side: who answers, and the events table, where an id stands once. -/
structure Peer where
  pubkey : Pubkey
  rows : List EventRow
  distinct : (rows.map EventRow.id).Nodup

structure ManifestEntry where
  id : String
  createdAt : Int
  deriving DecidableEq

structure Manifest where
  pubkey : Pubkey
  events : List ManifestEntry
  hasOlder : Bool

def EventRow.entry (event : EventRow) : ManifestEntry := ⟨event.id, event.createdAt⟩

/-- `getEvents`, which orders by `created_at DESC, id DESC`. -/
def getEvents (rows : List EventRow) (pubkey : Pubkey) (since : Option Int) (limit : Option Nat) : List EventRow :=
  let sorted := inOrder (fun event : EventRow => OrderDual.toDual (toLex (event.createdAt, event.id)))
    (rows.filter (fun event => decide (event.pubkey = pubkey) && atLeast since event.createdAt))
  match limit with
  | none => sorted
  | some count => sorted.take count

theorem mem_getEvents {rows pubkey since event} : event ∈ getEvents rows pubkey since none ↔
      event ∈ rows ∧ event.pubkey = pubkey ∧ atLeast since event.createdAt = true := by
  unfold getEvents
  rw [mem_inOrder, mem_filter, Bool.and_eq_true, decide_eq_true_eq]

namespace Peer

def manifestPageLimit : Nat := 1000

/-- One answer to GET /manifest.  The chatroom kinds are dropped after the limit. -/
def manifestPage (peer : Peer) (since : Option Int) : Manifest :=
  let fetched := (getEvents peer.rows peer.pubkey since (some (manifestPageLimit + 1))).filter
    (fun event => !event.roomScoped)
  let hasOlder := decide (manifestPageLimit < fetched.length)
  let events := if hasOlder then fetched.take manifestPageLimit else fetched
  ⟨peer.pubkey, events.map EventRow.entry, hasOlder⟩

/-- All pages together, as `pageManifestToCompletion` gets them. -/
def wholeManifest (peer : Peer) : Manifest where
  pubkey := peer.pubkey
  events := ((getEvents peer.rows peer.pubkey none none).filter (fun event => !event.roomScoped)).map EventRow.entry
  hasOlder := false

/-- The rows whose wire forms `buildEventsEnvelope` answers with. -/
def envelope (peer : Peer) (since : Option Int) : List EventRow :=
  (getOwnAndIncomingRefs peer.rows peer.pubkey since (some Author.eventsPageLimit)).filter
    (fun event => !event.roomScoped)

structure Lists (peer : Peer) (event : EventRow) : Prop where
  member : event ∈ peer.rows
  own : event.pubkey = peer.pubkey
  noRoom : event.roomScoped = false

def ahead (peer : Peer) (event : EventRow) : Nat :=
  rank (fun other : EventRow => -other.createdAt) event (servable peer.rows peer.pubkey none)

variable {entry : ManifestEntry} {peer : Peer} {since : Option Int} {event : EventRow}

theorem mem_wholeManifest :
    entry ∈ peer.wholeManifest.events ↔ ∃ event, peer.Lists event ∧ event.entry = entry := by
  unfold wholeManifest
  simp only [mem_map, mem_filter, mem_getEvents, Bool.not_eq_true']
  constructor
  · rintro ⟨event, ⟨⟨member, own, _⟩, noRoom⟩, same⟩
    exact ⟨event, ⟨member, own, noRoom⟩, same⟩
  · rintro ⟨event, ⟨member, own, noRoom⟩, same⟩
    exact ⟨event, ⟨⟨member, own, rfl⟩, noRoom⟩, same⟩

theorem of_mem_manifestPage (member : entry ∈ (peer.manifestPage since).events) :
    ∃ event, peer.Lists event ∧ event.entry = entry ∧ atLeast since event.createdAt = true := by
  rcases mem_map.mp member with ⟨event, onPage, same⟩
  have fetched : event ∈ (getEvents peer.rows peer.pubkey since (some (manifestPageLimit + 1))).filter
      (fun event => !event.roomScoped) := by
    split at onPage
    · exact mem_of_mem_take onPage
    · exact onPage
  rcases mem_filter.mp fetched with ⟨read, noRoom⟩
  rcases mem_getEvents.mp (mem_of_mem_take read) with ⟨stored, own, late⟩
  exact ⟨event, ⟨stored, own, by simpa using noRoom⟩, same, late⟩

theorem since_le {since} (member : entry ∈ (peer.manifestPage (some since)).events) : since ≤ entry.createdAt := by
  rcases of_mem_manifestPage member with ⟨_, _, rfl, late⟩
  exact of_decide_eq_true late

theorem eq_of_id {other} (member : event ∈ peer.rows) (otherMember : other ∈ peer.rows)
    (same : event.id = other.id) : event = other :=
  inj_on_of_nodup_map peer.distinct member otherMember same

theorem servable_nodup (peer : Peer) (since : Option Int) : (servable peer.rows peer.pubkey since).Nodup :=
  (List.Nodup.of_map _ peer.distinct).filter _

theorem servable_since (rows owner since) : servable rows owner since =
      (servable rows owner none).filter (fun event => atLeast since event.createdAt) := by
  unfold servable
  dsimp only
  rw [filter_filter]
  congr 1
  funext event
  rw [atLeast, Bool.and_true, Bool.and_comm]

theorem mem_servable {rows owner} : event ∈ servable rows owner since ↔ event ∈ rows ∧
      (event.pubkey = owner ∨ ∃ target ∈ rows, target.pubkey = owner ∧ event.ref = some target.id) ∧
      event.roomScoped = false ∧ atLeast since event.createdAt = true := by
  unfold servable
  simp only [mem_filter, Bool.and_eq_true, Bool.or_eq_true, decide_eq_true_eq, Bool.not_eq_true',
    Option.any_eq_true, mem_map, and_assoc]
  constructor
  · rintro ⟨member, ours | ⟨_, named, target, stored, own, rfl⟩, rest⟩
    · exact ⟨member, .inl ours, rest⟩
    · exact ⟨member, .inr ⟨target, stored, own, named⟩, rest⟩
  · rintro ⟨member, ours | ⟨target, stored, own, named⟩, rest⟩
    · exact ⟨member, .inl ours, rest⟩
    · exact ⟨member, .inr ⟨target.id, named, target, stored, own, rfl⟩, rest⟩

theorem envelope_eq (peer : Peer) (since : Option Int) :
    peer.envelope since = (inOrder (fun event : EventRow => -event.createdAt)
      (servable peer.rows peer.pubkey since)).take eventsPageLimit := by
  apply filter_eq_self.mpr
  intro event fetched
  have served := mem_servable.mp (mem_inOrder.mp (mem_of_mem_take fetched))
  rw [served.2.2.1]
  rfl

theorem mem_envelope (served : event ∈ servable peer.rows peer.pubkey since) :
    event ∈ peer.envelope since ↔ peer.ahead event < eventsPageLimit := by
  have late := (mem_servable.mp served).2.2.2
  have undisturbed : rank (fun other : EventRow => -other.createdAt) event
      (servable peer.rows peer.pubkey since) = peer.ahead event := by
    rw [servable_since, rank_filter, ahead]
    intro other before
    cases since with
    | none => rfl
    | some bound =>
      have early : bound ≤ event.createdAt := of_decide_eq_true late
      exact decide_eq_true (by omega)
  rw [envelope_eq, mem_take_inOrder (peer.servable_nodup since) served, undisturbed]

theorem Lists.servable (listed : peer.Lists event) (late : atLeast since event.createdAt = true) :
    event ∈ servable peer.rows peer.pubkey since :=
  mem_servable.mpr ⟨listed.member, .inl listed.own, listed.noRoom, late⟩

end Peer

/-! ## The diff -/

structure ManifestDiff where
  missingIds : List String
  peerEvents : List ManifestEntry
  windowSince : Option Int
  maxCreatedAt : Option Int
  hasOlder : Bool

def maxCreatedAt (entries : List ManifestEntry) : Option Int := (entries.map ManifestEntry.createdAt).max?

def missing (localRows : List EventRow) (entries : List ManifestEntry) : List ManifestEntry :=
  entries.filter (fun entry => entry.id ∉ localRows.map EventRow.id)

/-- The input of a pass: the follow as it was read, the local events, the peer, and what the
clock says when the pass begins and when it writes its results. -/
structure SyncPass where
  follow : Follow
  events : List EventRow
  peer : Peer
  startedAt : Int
  finishedAt : Int

namespace SyncPass

section

variable (pass : SyncPass)

def fetchAndDiff : ManifestDiff :=
  let windowSince := some pass.follow.lastSyncedAt
  let manifest := pass.peer.manifestPage windowSince
  if manifest.pubkey = pass.follow.pubkey then
    let localRows := getEvents pass.events pass.follow.pubkey windowSince none
    { missingIds := (missing localRows manifest.events).map ManifestEntry.id
      peerEvents := manifest.events
      windowSince := windowSince
      maxCreatedAt := maxCreatedAt manifest.events
      hasOlder := manifest.hasOlder }
  else ⟨[], [], windowSince, none, false⟩

/-- The diff of all pages.  The window begins at the oldest entry that is missing. -/
def fetchAndDiffFull : ManifestDiff :=
  let manifest := pass.peer.wholeManifest
  if manifest.pubkey = pass.follow.pubkey then
    let localRows := getEvents pass.events pass.follow.pubkey none none
    let absent := missing localRows manifest.events
    { missingIds := absent.map ManifestEntry.id
      peerEvents := manifest.events
      windowSince := (absent.map ManifestEntry.createdAt).min?
      maxCreatedAt := maxCreatedAt manifest.events
      hasOlder := false }
  else ⟨[], [], none, none, false⟩

/-- The full diff is taken when it is due, and when the window has overflowed. -/
def ranFull : Bool := pass.follow.fullSyncDue pass.startedAt || pass.fetchAndDiff.hasOlder

def diff : ManifestDiff :=
  if pass.ranFull then pass.fetchAndDiffFull else pass.fetchAndDiff

def manifest : Manifest :=
  if pass.ranFull then pass.peer.wholeManifest
  else pass.peer.manifestPage (some pass.follow.lastSyncedAt)

/-- The rows of the envelope that is processed; there is none if nothing is missing. -/
def envelope : List EventRow :=
  if pass.diff.missingIds = [] then [] else pass.peer.envelope pass.diff.windowSince

def lastSyncedAt : Int :=
  (SyncDiff.cursorFor ⟨none, none, pass.diff.maxCreatedAt⟩ pass.follow pass.finishedAt).getD
    pass.follow.lastSyncedAt

/-- What `updateLastFullSynced` writes, if it is called. -/
def stamp : Option Int := if pass.ranFull then some pass.finishedAt else none

/-! ## What a pass has attempted -/

def Attempted (id : String) : Prop := id ∈ pass.events.map EventRow.id ∨ id ∈ pass.envelope.map EventRow.id

end

instance (pass : SyncPass) (id : String) : Decidable (pass.Attempted id) := inferInstanceAs (Decidable (_ ∨ _))

/-- The cursor has passed nothing of the manifest that was not attempted, and a stamp says
that everything the peer lists was. -/
structure Complete (pass : SyncPass) : Prop where
  cursor : ∀ entry ∈ pass.manifest.events, entry.createdAt < pass.lastSyncedAt -> pass.Attempted entry.id
  full : pass.stamp.isSome = true -> ∀ entry ∈ pass.peer.wholeManifest.events, pass.Attempted entry.id

/-- No row that is not here stands too far back in what the peer serves: in a full pass no row
that the peer lists, who is then the person that is followed; in the window no row that is
older than another one of it and not in the far future. -/
structure GapFits (pass : SyncPass) : Prop where
  full : pass.ranFull = true -> ∀ event, pass.peer.Lists event -> event.id ∉ pass.events.map EventRow.id ->
    pass.peer.pubkey = pass.follow.pubkey ∧ pass.peer.ahead event < Author.eventsPageLimit
  window : pass.ranFull = false -> pass.peer.pubkey = pass.follow.pubkey -> ∀ event,
    pass.peer.Lists event -> event.id ∉ pass.events.map EventRow.id ->
    event.entry ∈ (pass.peer.manifestPage (some pass.follow.lastSyncedAt)).events ->
    (∃ newer, newer ∈ (pass.peer.manifestPage (some pass.follow.lastSyncedAt)).events ∧
      event.createdAt < newer.createdAt) ->
    event.createdAt < pass.finishedAt + 300 -> pass.peer.ahead event < Author.eventsPageLimit

variable {entries : List ManifestEntry} {entry : ManifestEntry} {pass : SyncPass}

theorem mem_missing {since} (member : entry ∈ entries) (absent : entry.id ∉ pass.events.map EventRow.id) :
    entry ∈ missing (getEvents pass.events pass.follow.pubkey since none) entries := by
  apply mem_filter.mpr
  refine ⟨member, decide_eq_true ?_⟩
  intro found
  rcases mem_map.mp found with ⟨stored, read, same⟩
  exact absent (mem_map.mpr ⟨stored, (mem_getEvents.mp read).1, same⟩)

theorem atLeast_min (member : entry ∈ entries) :
    atLeast (entries.map ManifestEntry.createdAt).min? entry.createdAt = true := by
  cases oldest : (entries.map ManifestEntry.createdAt).min? with
  | none => rfl
  | some => exact decide_eq_true ((min?_eq_some_iff.mp oldest).2 _ (mem_map_of_mem member))

section

variable (served : pass.peer.pubkey = pass.follow.pubkey)
include served

theorem fetchAndDiff_missing (listed : entry ∈ (pass.peer.manifestPage (some pass.follow.lastSyncedAt)).events)
    (absent : entry.id ∉ pass.events.map EventRow.id) : entry.id ∈ pass.fetchAndDiff.missingIds ∧
      atLeast pass.fetchAndDiff.windowSince entry.createdAt = true := by
  unfold fetchAndDiff
  rw [if_pos (show (pass.peer.manifestPage (some pass.follow.lastSyncedAt)).pubkey = pass.follow.pubkey from served)]
  rcases Peer.of_mem_manifestPage listed with ⟨_, _, rfl, late⟩
  exact ⟨mem_map_of_mem (mem_missing listed absent), late⟩

theorem fetchAndDiffFull_missing (listed : entry ∈ pass.peer.wholeManifest.events)
    (absent : entry.id ∉ pass.events.map EventRow.id) : entry.id ∈ pass.fetchAndDiffFull.missingIds ∧
      atLeast pass.fetchAndDiffFull.windowSince entry.createdAt = true := by
  unfold fetchAndDiffFull
  rw [if_pos (show pass.peer.wholeManifest.pubkey = pass.follow.pubkey from served)]
  have found : entry ∈ missing (getEvents pass.events pass.follow.pubkey none none)
      pass.peer.wholeManifest.events := mem_missing listed absent
  exact ⟨mem_map_of_mem found, atLeast_min found⟩

theorem diff_missing (listed : entry ∈ pass.manifest.events) (absent : entry.id ∉ pass.events.map EventRow.id) :
    entry.id ∈ pass.diff.missingIds ∧ atLeast pass.diff.windowSince entry.createdAt = true := by
  unfold manifest at listed
  unfold diff
  cases full : pass.ranFull with rw [full] at listed
  | true => exact fetchAndDiffFull_missing served listed absent
  | false => exact fetchAndDiff_missing served listed absent

end

theorem diff_of_stranger (stranger : pass.peer.pubkey ≠ pass.follow.pubkey) :
    pass.diff.missingIds = [] ∧ pass.diff.maxCreatedAt = none := by
  unfold diff
  split
  · have dropped : pass.fetchAndDiffFull = ⟨[], [], none, none, false⟩ := if_neg stranger
    rw [dropped]
    exact ⟨rfl, rfl⟩
  · have dropped : pass.fetchAndDiff = ⟨[], [], some pass.follow.lastSyncedAt, none, false⟩ :=
      if_neg stranger
    rw [dropped]
    exact ⟨rfl, rfl⟩

theorem lists_of_listed (listed : entry ∈ pass.manifest.events) :
    ∃ event, pass.peer.Lists event ∧ event.entry = entry := by
  unfold manifest at listed
  split at listed
  · exact Peer.mem_wholeManifest.mp listed
  · rcases Peer.of_mem_manifestPage listed with ⟨event, lists, same, _⟩
    exact ⟨event, lists, same⟩

theorem attempted_iff {event} (lists : pass.peer.Lists event) (listed : event.entry ∈ pass.manifest.events)
    (absent : event.id ∉ pass.events.map EventRow.id) : pass.Attempted event.id ↔
      pass.peer.pubkey = pass.follow.pubkey ∧ pass.peer.ahead event < eventsPageLimit := by
  rw [Attempted, or_iff_right absent]
  by_cases served : pass.peer.pubkey = pass.follow.pubkey
  · have gap := diff_missing served listed absent
    have asked : pass.envelope = pass.peer.envelope pass.diff.windowSince :=
      if_neg (ne_nil_of_mem gap.1)
    rw [asked, and_iff_right served, ← Peer.mem_envelope (lists.servable gap.2)]
    constructor
    · intro fetched
      rcases mem_map.mp fetched with ⟨other, inside, same⟩
      have kept : other ∈ pass.peer.rows := mem_of_mem_filter (mem_of_mem_newestFirst (mem_of_mem_filter inside))
      exact Peer.eq_of_id kept lists.member same ▸ inside
    · exact mem_map_of_mem
  · rw [envelope, if_pos (diff_of_stranger served).1]
    exact ⟨nofun, fun both => absurd both.1 served⟩

theorem manifest_window (windowed : pass.ranFull = false) :
    pass.manifest = pass.peer.manifestPage (some pass.follow.lastSyncedAt) := by
  unfold manifest
  rw [windowed]
  rfl

theorem listed_of_ranFull {event} (full : pass.ranFull = true) (lists : pass.peer.Lists event) :
    event.entry ∈ pass.manifest.events := by
  rw [manifest, if_pos full]
  exact Peer.mem_wholeManifest.mpr ⟨event, lists, rfl⟩

theorem stamp_isSome (pass : SyncPass) : pass.stamp.isSome = pass.ranFull := by
  unfold stamp
  cases pass.ranFull <;> rfl

/-! ## Where the cursor goes -/

theorem lt_maxCreatedAt {maxAt second} (newest : maxCreatedAt entries = some maxAt) :
    second < maxAt ↔ ∃ newer ∈ entries, second < newer.createdAt := by
  rcases max?_eq_some_iff.mp newest with ⟨member, largest⟩
  constructor
  · intro below
    rcases mem_map.mp member with ⟨newer, inside, same⟩
    exact ⟨newer, inside, same ▸ below⟩
  · rintro ⟨_, inside, below⟩
    exact lt_of_lt_of_le below (largest _ (mem_map_of_mem inside))

theorem lt_lastSyncedAt_iff (windowed : pass.ranFull = false) (served : pass.peer.pubkey = pass.follow.pubkey)
    (listed : entry ∈ (pass.peer.manifestPage (some pass.follow.lastSyncedAt)).events) :
    entry.createdAt < pass.lastSyncedAt ↔
      (∃ newer, newer ∈ (pass.peer.manifestPage (some pass.follow.lastSyncedAt)).events ∧
        entry.createdAt < newer.createdAt) ∧ entry.createdAt < pass.finishedAt + 300 := by
  have newest : pass.diff.maxCreatedAt =
      maxCreatedAt (pass.peer.manifestPage (some pass.follow.lastSyncedAt)).events := by
    unfold diff fetchAndDiff
    rw [windowed]
    exact congrArg ManifestDiff.maxCreatedAt (if_pos served)
  have since := Peer.since_le listed
  rw [lastSyncedAt, newest]
  cases found : maxCreatedAt (pass.peer.manifestPage (some pass.follow.lastSyncedAt)).events with
  | none =>
    have empty := map_eq_nil_iff.mp (max?_eq_none_iff.mp found)
    rw [empty] at listed
    cases listed
  | some maxAt =>
    rw [← lt_maxCreatedAt found, SyncDiff.cursorFor, Option.map_some, ← lt_min_iff]
    by_cases moves : pass.follow.lastSyncedAt < min maxAt (pass.finishedAt + 300)
    · rw [Option.filter_some, if_pos (decide_eq_true moves), Option.getD_some]
    · rw [Option.filter_some, if_neg (fun passes => moves (of_decide_eq_true passes)), Option.getD_none]
      omega

/-- Whether a pass is complete depends on how many rows stand before what is missing. -/
theorem complete_iff_gapFits (pass : SyncPass) : pass.Complete ↔ pass.GapFits := by
  constructor
  · intro complete
    constructor
    · intro full event lists absent
      rw [← attempted_iff lists (listed_of_ranFull full lists) absent]
      exact complete.full (pass.stamp_isSome.trans full) event.entry
        (Peer.mem_wholeManifest.mpr ⟨event, lists, rfl⟩)
    · intro windowed served event lists absent onPage newer soon
      have listed := manifest_window windowed ▸ onPage
      have passed : event.createdAt < pass.lastSyncedAt :=
        (lt_lastSyncedAt_iff windowed served onPage).mpr ⟨newer, soon⟩
      exact ((attempted_iff lists listed absent).mp (complete.cursor event.entry listed passed)).2
  · intro fits
    -- A full pass attempts everything that the peer lists, so its cursor cannot pass anything.
    have whole : pass.ranFull = true -> ∀ event, pass.peer.Lists event -> pass.Attempted event.id := by
      intro full event lists
      by_cases stored : event.id ∈ pass.events.map EventRow.id
      · exact .inl stored
      · exact (attempted_iff lists (listed_of_ranFull full lists) stored).mpr (fits.full full event lists stored)
    constructor
    · intro entry listed passed
      rcases lists_of_listed listed with ⟨event, lists, rfl⟩
      by_cases stored : event.id ∈ pass.events.map EventRow.id
      · exact .inl stored
      · cases mode : pass.ranFull with
        | true => exact whole mode event lists
        | false =>
          have onPage := manifest_window mode ▸ listed
          by_cases served : pass.peer.pubkey = pass.follow.pubkey
          · have older := (lt_lastSyncedAt_iff mode served onPage).mp passed
            exact (attempted_iff lists listed stored).mpr
              ⟨served, fits.window mode served event lists stored onPage older.1 older.2⟩
          · -- The window holds nothing from before the old cursor.
            rw [lastSyncedAt, (diff_of_stranger served).2] at passed
            exact absurd passed (not_lt_of_ge (Peer.since_le onPage))
    · intro stamped entry member
      rw [stamp_isSome] at stamped
      rcases Peer.mem_wholeManifest.mp member with ⟨event, lists, rfl⟩
      exact whole stamped event lists

def post (author : Pubkey) (second : Nat) : EventRow where
  id := String.ofList (List.replicate (second / 25) 'a' ++ List.replicate (second % 25) 'b')
  pubkey := author
  createdAt := second
  kind := 1
  ref := none
  media := []
  encryptedPayload := none

theorem post_id_injective (author) : (EventRow.id ∘ post author).Injective := by
  intro first second same
  have chars := String.ofList_injective same
  have quotient := congrArg (count 'a') chars
  have remainder := congrArg (count 'b') chars
  simp [count_replicate] at quotient remainder
  omega

def poster (author : Pubkey) (seconds : Nat) : Peer where
  pubkey := author
  rows := (List.range seconds).reverse.map (post author)
  distinct := by
    rw [map_map]
    exact (nodup_reverse.mpr nodup_range).map (post_id_injective author)

def firstSync (pubkey : Pubkey) (peer : Peer) : SyncPass where
  follow :=
    { pubkey := pubkey
      connectionCard := ⟨pubkey, [], []⟩
      feedKey := []
      feedKeyEpoch := 0
      lastSyncedAt := 0
      lastFullSyncAt := 0
      lastReceivedRotationAt := 0
      lastReceivedCardAt := 0
      lastDecryptFailureAt := none }
  events := []
  peer := peer
  startedAt := 1000
  finishedAt := 1001

theorem post_lists {author seconds second} (posted : second < seconds) :
    (poster author seconds).Lists (post author second) where
  member := mem_map_of_mem (mem_reverse.mpr (mem_range.mpr posted))
  own := rfl
  noRoom := rfl

/-- The oldest of 501 posts is not in the envelope, the cursor is past it and the pass is
stamped; and so is a pass with a peer that answers for somebody else. -/
theorem cursor_passes_oldest_post :
    ((post "PEER" 0).entry ∈ (firstSync "PEER" (poster "PEER" 501)).manifest.events ∧
      (post "PEER" 0).createdAt < (firstSync "PEER" (poster "PEER" 501)).lastSyncedAt ∧
      ¬ (firstSync "PEER" (poster "PEER" 501)).Attempted (post "PEER" 0).id ∧
      (firstSync "PEER" (poster "PEER" 501)).stamp = some 1001) ∧
    ((post "OTHER" 0).entry ∈ (firstSync "PEER" (poster "OTHER" 1)).peer.wholeManifest.events ∧
      ¬ (firstSync "PEER" (poster "OTHER" 1)).Attempted (post "OTHER" 0).id ∧
      (firstSync "PEER" (poster "OTHER" 1)).stamp = some 1001) := by
  have lists : (poster "PEER" 501).Lists (post "PEER" 0) := post_lists (by decide)
  have listed : (post "PEER" 0).entry ∈ (firstSync "PEER" (poster "PEER" 501)).manifest.events :=
    listed_of_ranFull rfl lists
  have cursor : (firstSync "PEER" (poster "PEER" 501)).lastSyncedAt = 500 := by decide +kernel
  have beyond : (poster "PEER" 501).ahead (post "PEER" 0) = 500 := by decide +kernel
  refine ⟨⟨listed, ?_, ?_, rfl⟩, by decide +kernel, by decide +kernel, rfl⟩
  · rw [cursor]
    decide
  · rw [attempted_iff lists listed (by decide)]
    rintro ⟨_, fits⟩
    exact absurd (beyond ▸ fits) (by decide)

end SyncPass

end Starling.App
