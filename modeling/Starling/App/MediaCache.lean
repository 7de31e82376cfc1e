import Mathlib.Algebra.Ring.Nat
import Starling.App.Retention

namespace Starling.App

open List

/-!
# Room in the media cache

The limit is meant for the entries without a pin.  The loop counts down from the size of all entries.
-/

/-- A row of `media_cache_entries`. -/
structure MediaCacheEntry where
  hash : String
  size : Nat
  lastAccessed : Int
  deriving DecidableEq

def totalSize (entries : List MediaCacheEntry) : Nat := (entries.map MediaCacheEntry.size).sum

/-- Is in `getPinnedMediaHashes`; `refs` are the hashes in the `media_refs` column of an event. -/
def isPinned (refs : String -> List String) (events : EventTable) (hash : String) : Bool :=
  events.keys.any (fun id =>
    (events.lookup id).any (fun row => row.isSaved || row.isOwn) && decide (hash ∈ refs id))

section

variable (maxBytes : Nat) (pinned : String -> Bool) (rows : List MediaCacheEntry)

/-- The loop of `evictOverLimitExcluding`, with its `totalSize`. -/
def evictLoop : Nat -> List MediaCacheEntry -> List MediaCacheEntry
  | _, [] => []
  | total, entry :: rest =>
    if total ≤ maxBytes then []
    else if pinned entry.hash then evictLoop total rest
    else entry :: evictLoop (total - entry.size) rest

def byAccess : List MediaCacheEntry := inOrder MediaCacheEntry.lastAccessed rows

def evictOverLimitExcluding : List MediaCacheEntry :=
  let all := byAccess rows
  if totalSize all ≤ maxBytes then [] else evictLoop maxBytes pinned (totalSize all) all

def unpinned : List MediaCacheEntry := rows.filter (fun entry => !pinned entry.hash)

def pinnedSize : Nat := totalSize (rows.filter (fun entry => pinned entry.hash))

end

/-- What `RetentionService.run` evicts from the cache, after it has evicted events. -/
def evictMedia (columns : String -> SignedColumns) (refs : String -> List String) (maxAge grace now : Int)
    (maxBytes : Nat) (events : EventTable) (rows : List MediaCacheEntry) : List MediaCacheEntry :=
  evictOverLimitExcluding maxBytes (isPinned refs (events.evictOldEvents columns maxAge grace now)) rows

/-- The policy.  After `count` evictions the entries without a pin are `free.drop count`, so nothing is
evicted if all of them fit. -/
structure Policy (maxBytes : Nat) (free removed : List MediaCacheEntry) : Prop where
  oldest : removed <+: free
  under : totalSize (free.drop removed.length) ≤ maxBytes
  minimal : ∀ count < removed.length, maxBytes < totalSize (free.drop count)

/-- Every rest of the entries that fits in the limit, and is not empty, fits there with `extra` bytes
more. -/
def FitsWith (maxBytes extra : Nat) (free : List MediaCacheEntry) : Prop :=
  ∀ count, totalSize (free.drop count) ≤ maxBytes ->
    free.drop count = [] ∨ extra + totalSize (free.drop count) ≤ maxBytes

section

variable {maxBytes extra : Nat} {pinned : String -> Bool}

theorem totalSize_drop_le {free} (count) : totalSize (free.drop count) ≤ totalSize free := by
  conv_rhs => rw [← take_append_drop count free, totalSize, map_append, sum_append]
  exact Nat.le_add_left _ _

theorem policy_cons_iff {entry rest later} : Policy maxBytes (entry :: rest) (entry :: later) ↔
    maxBytes < totalSize (entry :: rest) ∧ Policy maxBytes rest later := by
  constructor
  · intro policy
    refine ⟨policy.minimal 0 (Nat.succ_pos _), (cons_prefix_cons.mp policy.oldest).2, policy.under, ?_⟩
    exact fun count below => policy.minimal (count + 1) (Nat.succ_lt_succ below)
  · rintro ⟨above, policy⟩
    refine ⟨cons_prefix_cons.mpr ⟨rfl, policy.oldest⟩, policy.under, ?_⟩
    rintro (_ | count) below
    · exact above
    · exact policy.minimal count (Nat.lt_of_succ_lt_succ below)

/-- The loop with `extra` bytes of pinned entries in its `totalSize`. -/
theorem policy_evictLoop_iff (all) : Policy maxBytes (unpinned pinned all)
      (evictLoop maxBytes pinned (extra + totalSize (unpinned pinned all)) all) ↔
    FitsWith maxBytes extra (unpinned pinned all) := by
  induction all with
  | nil => exact iff_of_true ⟨prefix_rfl, Nat.zero_le _, nofun⟩ (fun _ _ => .inl drop_nil)
  | cons entry rest ih =>
    rw [evictLoop]
    split
    next fits =>
      refine iff_of_true ⟨ nil_prefix, Nat.le_of_add_left_le fits, nofun⟩ (fun count _ => .inr ?_)
      exact le_trans (Nat.add_le_add_left (totalSize_drop_le count) _) fits
    next above =>
      split
      next held => simpa [unpinned, held] using ih
      next loose =>
        have first : unpinned pinned (entry :: rest) = entry :: unpinned pinned rest := by
          simp [unpinned, loose]
        have onward : extra + totalSize (entry :: unpinned pinned rest) - entry.size =
            extra + totalSize (unpinned pinned rest) := by
          simp only [totalSize, map_cons, sum_cons]
          omega
        rw [first] at above ⊢
        rw [onward, policy_cons_iff, ih]
        constructor
        · rintro ⟨most, later⟩ (_ | count) fits
          · exact absurd fits (Nat.not_le.mpr most)
          · exact later count fits
        · intro every
          exact ⟨Nat.not_le.mp (fun fits => (every 0 fits).elim nofun above), fun count => every (count + 1)⟩

theorem evictOverLimitExcluding_eq (rows) : evictOverLimitExcluding maxBytes pinned rows =
    evictLoop maxBytes pinned (pinnedSize pinned rows + totalSize (unpinned pinned (byAccess rows)))
      (byAccess rows) := by
  have perm : (byAccess rows).Perm rows := inOrder_perm _ rows
  have parts := ((filter_append_perm (fun entry => pinned entry.hash) (byAccess rows)).map MediaCacheEntry.size).sum_nat
  rw [map_append, sum_append, ((perm.filter _).map _).sum_nat] at parts
  have total : totalSize (byAccess rows) =
    pinnedSize pinned rows + totalSize (unpinned pinned (byAccess rows)) := parts.symm
  rw [evictOverLimitExcluding, ← total]
  generalize byAccess rows = all
  cases all with
  | nil => exact if_pos (Nat.zero_le _)
  | cons =>
    rw [evictLoop]
    split <;> rfl

end

end Starling.App
