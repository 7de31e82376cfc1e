import Starling.App.ManifestPages
import Starling.Http.Reads

namespace Starling.App

open List Storage

/-!
# One manifest from two tiers

A follower asks the phone or the relay for the next page.  Each side is translated from its own query.
-/

inductive Tier where
  | phone
  | relay

variable (peer : Peer) (store : Store) (owner : Bytes32) (pageLimit : Nat) (since untilAt : Option Int)
  (untilId : Option String)

def Tier.manifest : Tier -> Page ManifestRow
  | .phone =>
    let manifest := peer.manifestResponse ⟨since, untilAt, untilId⟩ pageLimit
    ⟨manifest.events.map (fun entry => ⟨entry.id, entry.createdAt⟩), manifest.hasOlder⟩
  | .relay =>
    let page := Http.manifestHandler pageLimit store owner since untilAt untilId
    ⟨page.events, page.hasOlder⟩

def Tier.read (tier : Tier) (cursor : Option (OrderDual (Lex (Int × String)))) : Page ManifestRow :=
  tier.manifest peer store owner pageLimit since (cursor.map (fun key => (ofLex (OrderDual.ofDual key)).1))
    (cursor.map (fun key => (ofLex (OrderDual.ofDual key)).2))

def Tier.catalog : Catalog Tier ManifestRow (OrderDual (Lex (Int × String))) where
  rows _ := (manifestCatalog owner since).rows store
  key := ManifestRow.newestFirst
  distinct := fun _ => (manifestCatalog owner since).distinct store

structure Mirrored : Prop where
  rows : (store.manifestRows owner).Perm ((peer.rows.filter (fun event => event.pubkey = peer.pubkey)).map
    (fun event => ⟨event.id, event.createdAt⟩))
  feed : ∀ event ∈ peer.rows, event.pubkey = peer.pubkey -> event.roomScoped = false

theorem manifestWhere_eq_admits (event : EventRow) :
    (manifestWhere since untilAt untilId ⟨event.id, event.createdAt⟩).holds =
      (⟨since, untilAt, untilId⟩ : Window).admits event := by
  rw [manifestWhere, Truth.holds_and, recent_eq_holds]
  have same : recent since event.createdAt = atLeast since event.createdAt := by cases since <;> rfl
  rw [same, Window.admits]
  congr 1
  cases untilAt with
  | none => rfl
  | some =>
    cases untilId with
    | none =>
      have unknown : (Truth.compare (fun left right => left < right) event.id none).holds = false := rfl
      simp only [Truth.holds_or, Truth.holds_and, Truth.holds_isNull, Truth.holds_compare_some, unknown]
      grind
    | some => simp

variable {peer store owner}

theorem Mirrored.selected (mirrored : Mirrored peer store owner) (limit : Nat) :
    (getEventsIn peer.rows peer.pubkey ⟨since, untilAt, untilId⟩ (some limit)).map
        (fun event => (⟨event.id, event.createdAt⟩ : ManifestRow)) =
      store.manifestPage owner since untilAt untilId limit := by
  have distinct := (manifestRows_distinct store owner).sublist ((filter_sublist (p := fun row =>
    (manifestWhere since untilAt untilId row).holds)).map ManifestRow.newestFirst)
  rw [getEventsIn, Store.manifestPage, inOrder_eq_of_perm (mirrored.rows.filter _) distinct, map_take, filter_map,
    filter_filter, inOrder_map]
  congr 3
  apply filter_congr
  intro event _
  rw [Function.comp, manifestWhere_eq_admits, Bool.and_comm]

/-- The two tiers answer every query alike, so a walk that asks either of them for each page is lossless. -/
theorem manifest_tiers_agree (mirrored : Mirrored peer store owner) {pageLimit : Nat} (positive : 1 ≤ pageLimit) :
    (∀ since untilAt untilId, Tier.phone.manifest peer store owner pageLimit since untilAt untilId =
      Tier.relay.manifest peer store owner pageLimit since untilAt untilId) ∧
    ∀ since, (Tier.catalog store owner since).Lossless
      (fun tier cursor => tier.read peer store owner pageLimit since cursor) := by
  have agree : ∀ since untilAt untilId, Tier.phone.manifest peer store owner pageLimit since untilAt untilId =
      Tier.relay.manifest peer store owner pageLimit since untilAt untilId := by
    intro since untilAt untilId
    have whole : (getEventsIn peer.rows peer.pubkey ⟨since, untilAt, untilId⟩ (some (pageLimit + 1))).filter
        (fun event => !event.roomScoped) = getEventsIn peer.rows peer.pubkey ⟨since, untilAt, untilId⟩
          (some (pageLimit + 1)) := by
      rw [filter_eq_self]
      intro event member
      have facts := mem_filter.mp (mem_inOrder.mp (mem_of_mem_take member))
      simp only [Bool.and_eq_true, decide_eq_true_eq] at facts
      rw [mirrored.feed event facts.1 facts.2.1]
      rfl
    have page := peer.manifestResponse_page ⟨since, untilAt, untilId⟩ pageLimit
    rw [whole] at page
    have entries := congrArg Page.items page
    have older := congrArg Page.more page
    simp only [Manifest.page, Page.fetched] at entries older
    simp [Tier.manifest, Http.manifestHandler, ← mirrored.selected, entries, older, EventRow.entry, Function.comp_def]
  refine ⟨agree, ?_⟩
  intro since
  apply Catalog.Sound.lossless
  intro tier cursor
  have sound := Http.readManifest_sound owner since positive store cursor
  cases tier with
  | phone =>
    simp only [Tier.read, agree]
    exact sound
  | relay => exact sound

def notebookPeer : Peer where
  pubkey := "OWN"
  rows := [Peer.Busy.row "c" 4 1, Peer.Busy.row "a" 5 1, Peer.Busy.row "b" 5 1]
  distinct := by decide

/-- Both stop in the middle of a second. -/
theorem manifest_tiers_agree_notebook :
    Tier.phone.manifest notebookPeer Http.notebook Http.sampleOwner 1 none none none = ⟨[⟨"b", 5⟩], true⟩ := by
  have mirrored : Mirrored notebookPeer Http.notebook Http.sampleOwner := ⟨by decide +kernel, by decide⟩
  rw [(manifest_tiers_agree mirrored (Nat.le_refl 1)).1]
  decide +kernel

end Starling.App
