import Starling.App.Records

namespace Starling.App

/-!
# Pending key distributions

A rotated feed key waits in a table until the follower has fetched and acknowledged it.
The table has one row for each follower and second, so a second rotation in the same second
replaces the row.  Only the newest row that is not delivered is ever handed out.
-/

/-- A row of `pending_key_distribution_entries`; `feedKey` stands for what is sealed. -/
structure Distribution where
  targetPubkey : Pubkey
  createdAt : Int
  feedKey : FeedKey
  distributed : Bool

abbrev Distributions := Table (Pubkey × Int) Distribution

namespace Distributions

section

variable (table : Distributions) (target : Pubkey)

/-- `addPendingDistribution`, which inserts or replaces. -/
def add (createdAt : Int) (feedKey : FeedKey) : Distributions :=
  table.insert (target, createdAt) ⟨target, createdAt, feedKey, false⟩

def waiting : List Distribution :=
  (table.entries.map Sigma.snd).filter (fun row =>
    decide (row.targetPubkey = target) && !row.distributed)

def latestPendingFor : Option Distribution :=
  (inOrder (fun row : Distribution => -row.createdAt) (table.waiting target)).head?

def markDelivered (upTo : Int) : Distributions :=
  table.mapValues (fun row =>
    if row.targetPubkey = target ∧ row.createdAt ≤ upTo then { row with distributed := true } else row)

/-- `clearPendingDistributionsFor`. -/
def clearFor : Distributions := table.retain (fun key _ => key.1 ≠ target)

def Keyed : Prop := ∀ key row, table.lookup key = some row -> key = (row.targetPubkey, row.createdAt)

theorem lookup_add (createdAt feedKey key) : (table.add target createdAt feedKey).lookup key =
      if key = (target, createdAt) then some ⟨target, createdAt, feedKey, false⟩ else table.lookup key :=
  Table.lookup_insert_eq table (target, createdAt) key _

theorem lookup_markDelivered (upTo key) : (table.markDelivered target upTo).lookup key =
      (table.lookup key).map (fun row =>
        if row.targetPubkey = target ∧ row.createdAt ≤ upTo then { row with distributed := true }
        else row) :=
  Table.lookup_mapValues table _ key

end

namespace Keyed

variable {table : Distributions}

theorem add (keyed : table.Keyed) (target createdAt feedKey) : (table.add target createdAt feedKey).Keyed :=
  Table.of_lookup_insert keyed rfl

theorem clearFor (keyed : table.Keyed) (target) : (table.clearFor target).Keyed := by
  intro key row found
  exact keyed key row (Table.lookup_retain_eq_some.mp found).1

theorem markDelivered (keyed : table.Keyed) (target upTo) : (table.markDelivered target upTo).Keyed := by
  intro key row found
  rw [lookup_markDelivered, Option.map_eq_some_iff] at found
  rcases found with ⟨before, atKey, rfl⟩
  have same := keyed key before atKey
  split <;> exact same

end Keyed

variable {row : Distribution} {table : Distributions} {target : Pubkey}

theorem mem_waiting : row ∈ table.waiting target ↔
      (∃ key, table.lookup key = some row) ∧ row.targetPubkey = target ∧ row.distributed = false := by
  rw [waiting, List.mem_filter, Bool.and_eq_true, decide_eq_true_eq, Bool.not_eq_true']
  apply and_congr_left
  intro _
  rw [List.mem_map]
  constructor
  · rintro ⟨⟨key, _⟩, member, rfl⟩
    exact ⟨key, Table.lookup_eq_some_iff.mpr member⟩
  · rintro ⟨key, found⟩
    exact ⟨⟨key, row⟩, Table.lookup_eq_some_iff.mp found, rfl⟩

theorem latest_mem (latest : table.latestPendingFor target = some row) : row ∈ table.waiting target :=
  mem_inOrder.mp (List.mem_of_mem_head? latest)

theorem latest_eq (keyed : table.Keyed) (waits : row ∈ table.waiting target)
    (newest : ∀ other ∈ table.waiting target, other.createdAt ≤ row.createdAt) :
    table.latestPendingFor target = some row := by
  cases latest : table.latestPendingFor target with
  | none =>
    have member : row ∈ inOrder (fun other : Distribution => -other.createdAt) (table.waiting target) :=
      mem_inOrder.mpr waits
    rw [List.head?_eq_none_iff.mp latest] at member
    cases member
  | some other =>
    have head := latest
    have above := le_of_head_inOrder head waits
    have below := newest other (latest_mem latest)
    have sameTime : other.createdAt = row.createdAt := by omega
    rcases mem_waiting.mp (latest_mem latest) with ⟨⟨key, atKey⟩, target₁, _⟩
    rcases mem_waiting.mp waits with ⟨⟨place, atPlace⟩, target₂, _⟩
    have sameKey : key = place := by
      rw [keyed key other atKey, keyed place row atPlace, target₁, target₂, sameTime]
    rw [sameKey, atPlace] at atKey
    exact atKey.symm

theorem latest_none (nothing : ∀ row, row ∉ table.waiting target) : table.latestPendingFor target = none := by
  cases latest : table.latestPendingFor target with
  | none => rfl
  | some row => exact (nothing row (latest_mem latest)).elim

end Distributions

end Starling.App
