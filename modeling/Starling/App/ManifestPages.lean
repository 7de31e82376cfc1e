import Starling.App.SyncPass
import Starling.Foundation.Sieve

namespace Starling.App

open List

/-!
# The pages of the phone's manifest

`GET /manifest` answers with one page of the own events, newest first, and a client asks
for the next one with the time and the id of the last entry.  One row more than the page
holds is fetched, which tells whether older ones exist; the chatroom kinds are dropped
after that.
-/

structure Window where
  since : Option Int
  untilAt : Option Int
  untilId : Option String

namespace Window

/-- The condition of `getEvents`.  With an id the upper bound is a strict cursor, and without
one it is inclusive; an id alone is not looked at. -/
def admits (window : Window) (event : EventRow) : Bool :=
  atLeast window.since event.createdAt &&
    match window.untilAt, window.untilId with
    | none, _ => true
    | some untilAt, some untilId => decide (event.createdAt < untilAt) ||
        (decide (event.createdAt = untilAt) && decide (event.id < untilId))
    | some untilAt, none => decide (event.createdAt ≤ untilAt)

end Window

/-- The order of the pages: `created_at DESC, id DESC`. -/
abbrev Place := OrderDual (Int ×ₗ String)

def EventRow.place (event : EventRow) : Place := OrderDual.toDual (toLex (event.createdAt, event.id))

def ManifestEntry.place (entry : ManifestEntry) : Place := OrderDual.toDual (toLex (entry.createdAt, entry.id))

/-- `getEvents` with all its bounds. -/
def getEventsIn (rows : List EventRow) (pubkey : Pubkey) (window : Window) (limit : Option Nat) : List EventRow :=
  let sorted := inOrder EventRow.place
    (rows.filter (fun event => decide (event.pubkey = pubkey) && window.admits event))
  match limit with
  | none => sorted
  | some count => sorted.take count

theorem getEventsIn_since (rows pubkey since limit) :
    getEventsIn rows pubkey ⟨since, none, none⟩ limit = getEvents rows pubkey since limit := by
  unfold getEventsIn getEvents
  simp only [Window.admits, Bool.and_true]
  rfl

def Manifest.page (manifest : Manifest) : Page ManifestEntry := ⟨manifest.events, manifest.hasOlder⟩

namespace Peer

/-- `buildManifestResponseBytes`, without the deliveries that are attached for a follower. -/
def manifestResponse (peer : Peer) (window : Window) (pageLimit : Nat) : Manifest :=
  let fetched := (getEventsIn peer.rows peer.pubkey window (some (pageLimit + 1))).filter
    (fun event => !event.roomScoped)
  let hasOlder := decide (pageLimit < fetched.length)
  let events := if hasOlder then fetched.take pageLimit else fetched
  ⟨peer.pubkey, events.map EventRow.entry, hasOlder⟩

theorem manifestResponse_page (peer : Peer) (window) (pageLimit : Nat) :
    (peer.manifestResponse window pageLimit).page =
      Page.fetched pageLimit (((getEventsIn peer.rows peer.pubkey window (some (pageLimit + 1))).filter
        (fun event => !event.roomScoped)).map EventRow.entry) := by
  unfold manifestResponse Manifest.page Page.fetched
  dsimp only
  rw [length_map, ← map_take]
  congr 2
  split
  · rfl
  next fewer =>
    rw [decide_eq_true_iff, not_lt] at fewer
    exact (take_of_length_le fewer).symm

def ownRows : Catalog Peer EventRow Place where
  rows := fun peer => peer.rows.filter (fun event => event.pubkey = peer.pubkey)
  key := EventRow.place
  distinct := by
    intro peer
    refine List.Nodup.of_map (fun place : Place => (ofLex (OrderDual.ofDual place)).2) ?_
    rw [List.map_map]
    exact peer.distinct.sublist (List.filter_sublist.map EventRow.id)

def feedView : Catalog.View ownRows ManifestEntry where
  keep := fun event => !event.roomScoped
  entry := EventRow.entry
  key := ManifestEntry.place
  keyed := fun _ => rfl

def feedEntries : Catalog Peer ManifestEntry Place := feedView.entries

/-- `until` and `until_id` of the last entry that was read. -/
def windowAfter : Option Place -> Window
  | none => ⟨none, none, none⟩
  | some place => ⟨none, some (ofLex (OrderDual.ofDual place)).1, some (ofLex (OrderDual.ofDual place)).2⟩

def feedPage (pageLimit : Nat) (peer : Peer) (cursor : Option Place) : Page ManifestEntry :=
  (peer.manifestResponse (windowAfter cursor) pageLimit).page

theorem windowAfter_admits (cursor event) : (windowAfter cursor).admits event = Catalog.past cursor event.place := by
  cases cursor with
  | none => rfl
  | some place =>
    simp only [windowAfter, Window.admits, atLeast, Bool.true_and, Catalog.past]
    rw [Bool.eq_iff_iff]
    simp only [Bool.or_eq_true, Bool.and_eq_true, decide_eq_true_eq]
    have below : toLex (event.createdAt, event.id) < OrderDual.ofDual place ↔ _ := Prod.Lex.lt_iff
    exact below.symm

theorem getEventsIn_after (peer cursor) :
    getEventsIn peer.rows peer.pubkey (windowAfter cursor) none = ownRows.remaining peer cursor := by
  unfold getEventsIn Catalog.remaining ownRows
  dsimp only
  rw [filter_filter]
  congr 2
  funext event
  rw [windowAfter_admits, Bool.and_comm]

theorem getEvents_eq_remaining (peer) : getEvents peer.rows peer.pubkey none none = ownRows.remaining peer none := by
  rw [← getEventsIn_after]
  rfl

/-- Once the first pages have fetched an own chatroom event, no own event of the feed is left
behind them. -/
def RoomsFit (peer : Peer) (pageLimit : Nat) : Prop :=
  ∀ count, 1 ≤ count ->
    (∃ room, room ∈ (getEvents peer.rows peer.pubkey none none).take (count * pageLimit + 1) ∧
      room.roomScoped = true) ->
    ∀ event, event ∈ (getEvents peer.rows peer.pubkey none none).drop (count * pageLimit + 1) ->
      event.roomScoped = true

theorem roomsFit_iff (peer pageLimit) :
    peer.RoomsFit pageLimit ↔ feedView.Fits pageLimit (ownRows.remaining peer none) := by
  unfold RoomsFit Catalog.View.Fits
  rw [getEvents_eq_remaining]
  simp [feedView]

/-- The walk over the pages lists the feed, newest first and nothing twice, with a truthful
`has_older` on every page, if and only if the chatroom events fit. -/
theorem manifest_walk_exhausts_iff (peer : Peer) {pageLimit : Nat} (positive : 1 ≤ pageLimit) :
    (∃ pages, feedEntries.walk (feedPage pageLimit) none
        (List.replicate ((ownRows.rows peer).length + 1) peer) = some pages ∧
      feedEntries.Exhausts peer pages) ↔ peer.RoomsFit pageLimit := by
  have pages : feedPage pageLimit = feedView.page pageLimit := by
    funext state cursor
    unfold feedPage Catalog.View.page
    rw [manifestResponse_page, ← getEventsIn_after]
    rfl
  rw [pages, roomsFit_iff]
  exact feedView.exhausts_iff_fits positive peer

namespace Busy

def row (id : String) (second : Int) (kind : Nat) : EventRow := ⟨id, "OWN", second, kind, none, [], none⟩

def peer : Peer where
  pubkey := "OWN"
  rows := [row "a" 1 1, row "b" 2 1, row "c" 3 102]
  distinct := by decide

def laterPosts : Peer where
  pubkey := "OWN"
  rows := [row "a" 1 102, row "b" 2 1, row "c" 3 1]
  distinct := by decide

/-- The message is the oldest event, so the pages list both posts. -/
theorem posts_after_message_listed :
    ∃ pages, feedEntries.walk (feedPage 1) none (List.replicate 4 laterPosts) = some pages ∧
      feedEntries.Exhausts laterPosts pages := by
  apply (manifest_walk_exhausts_iff laterPosts (le_refl 1)).mpr
  intro count positive gap event member
  have few : (getEvents laterPosts.rows laterPosts.pubkey none none).length = 3 := by decide +kernel
  cases count with
  | zero => cases positive
  | succ fewer =>
    cases fewer with
    | zero => exact absurd gap (by decide +kernel)
    | succ =>
      rw [drop_of_length_le (by omega)] at member
      cases member

/-- With one entry a page, the first page fetches the message and one post.  It says that
nothing older exists, and the other post is not listed. -/
theorem message_ends_walk :
    feedEntries.walk (feedPage 1) none (List.replicate 4 peer) = some [⟨[⟨"b", 2⟩], false⟩] ∧
      ¬ ∃ pages, feedEntries.walk (feedPage 1) none
          (List.replicate ((ownRows.rows peer).length + 1) peer) = some pages ∧
        feedEntries.Exhausts peer pages := by
  have walked : feedEntries.walk (feedPage 1) none (replicate 4 peer) = some [⟨[⟨"b", 2⟩], false⟩] := by
    decide +kernel
  refine ⟨walked, ?_⟩
  rintro ⟨_, again, exhausts⟩
  have same := again.symm.trans walked
  have listed := (exhausts.complete ⟨"a", 1⟩).mpr (by decide)
  rw [Option.some.inj same] at listed
  exact absurd listed (by decide)

end Busy

end Peer
end Starling.App
