import Starling.App.Records

namespace Starling.App

open List

/-!
# Keys and cards that a follower takes over

A manifest may bring a rotated feed key and a new connection card, each sealed for the
follower.  The functions below are what the sync engine makes of them: the follow with the
new key or card, the entry that keeps the old key with its half-open window of seconds, and
the keys that are tried on an event.
-/

/-- A sealed payload.  `none` is content that does not unseal. -/
structure SealedDelivery (M : Type) where
  createdAt : Int
  content : Option M
  deriving DecidableEq

/-- A row of `follow_feed_key_history_entries`. -/
structure FollowKeyRow where
  followPubkey : Pubkey
  feedKey : FeedKey
  feedKeyEpoch : Int
  validFrom : Int
  validUntil : Int

namespace Follow

section

variable (follow : Follow)

def keyFrom (delivery : SealedDelivery FeedKey) : Option FeedKey :=
  if delivery.createdAt < follow.lastReceivedRotationAt then none else delivery.content

def archive (createdAt : Int) : List FollowKeyRow :=
  if follow.feedKey = [] then []
  else [⟨follow.pubkey, follow.feedKey, follow.feedKeyEpoch, follow.lastReceivedRotationAt, createdAt⟩]

def withKey (newKey : FeedKey) (createdAt : Int) : Follow :=
  { follow with
    feedKey := newKey
    feedKeyEpoch := 0
    lastReceivedRotationAt := createdAt
    lastDecryptFailureAt := none }

def cardFrom (delivery : SealedDelivery ConnectionCard) : Option ConnectionCard :=
  if delivery.createdAt < follow.lastReceivedCardAt then none
  else delivery.content.filter (fun card => card.pubkey = follow.pubkey)

def withCard (card : ConnectionCard) (createdAt : Int) : Follow :=
  { follow with connectionCard := card, lastReceivedCardAt := createdAt }

/-- The candidate keys of `_processEventItem` for an event of some second. -/
def candidates (history : List FollowKeyRow) (createdAt : Int) : List FeedKey :=
  let rows := inOrder FollowKeyRow.validFrom (history.filter (fun row => row.followPubkey = follow.pubkey))
  follow.feedKey :: (rows.filter (fun row => row.validFrom ≤ createdAt ∧ createdAt < row.validUntil)).map
      FollowKeyRow.feedKey

def decrypts (history : List FollowKeyRow) (encrypted : EncryptedEvent) : Bool :=
  (follow.candidates history encrypted.createdAt).any encrypted.opens

end

theorem decrypts_iff {follow : Follow} {history} {encrypted : EncryptedEvent} :
    follow.decrypts history encrypted = true ↔ encrypted.sealing.feedKey = follow.feedKey ∨
        ∃ row ∈ history, row.followPubkey = follow.pubkey ∧ row.feedKey = encrypted.sealing.feedKey ∧
          row.validFrom ≤ encrypted.createdAt ∧ encrypted.createdAt < row.validUntil := by
  rw [decrypts, candidates, any_cons, Bool.or_eq_true, EncryptedEvent.opens, decide_eq_true_eq]
  apply or_congr_right
  rw [any_eq_true]
  constructor
  · rintro ⟨_, member, opens⟩
    rcases mem_map.mp member with ⟨row, kept, rfl⟩
    rcases mem_filter.mp kept with ⟨ordered, window⟩
    rcases mem_filter.mp (mem_inOrder.mp ordered) with ⟨inside, mine⟩
    have bounds := of_decide_eq_true window
    exact ⟨row, inside, of_decide_eq_true mine, (of_decide_eq_true opens).symm, bounds.1, bounds.2⟩
  · rintro ⟨row, inside, mine, same, after, before⟩
    refine ⟨row.feedKey, mem_map.mpr ⟨row, ?_, rfl⟩, decide_eq_true same.symm⟩
    exact mem_filter.mpr
      ⟨mem_inOrder.mpr (mem_filter.mpr ⟨inside, decide_eq_true mine⟩), decide_eq_true ⟨after, before⟩⟩

end Follow

end Starling.App
