import Starling.Storage.Database

namespace Starling

/-!
# The exits of `pair_owner`

`pair_owner` holds the pair lock, so nothing else pairs or removes an Owner while it runs.  What
matters here is where it stops: the listener is bound and the task is in the owners map before the
row is written, and each later exit has to undo that.
-/

open Storage Table Option Owners

/-- An entry of the owners map: a live onion, and a router that listens on `port`. -/
structure OwnerListener where
  onion : String
  port : Nat
  deriving DecidableEq

/-- `bound` has the loopback ports with the Owner whose router listens there.  A router that has
lost its map entry may still listen. -/
structure Supervisor where
  db : Database
  owners : Table Bytes32 OwnerListener
  bound : Table Nat Bytes32
  holds : ∀ owner task, owners.lookup owner = some task -> bound.lookup task.port = some owner

/-- How the fallible steps go, in their order.  `lookup` and `usedPorts` are a checkout with the
query that follows it, and `onion` is the address Arti publishes. -/
structure PairOutcomes where
  lookup : Bool
  usedPorts : Bool
  onion : Option String
  binds : Bool
  checkout : Bool
  inserts : Bool

namespace Supervisor

section

variable (range : Nat × Nat) (label : Option String) (now : Int) (outcomes : PairOutcomes)
  (sup : Supervisor) (owner : Bytes32)

/-- A launch that fails drops its onion.  The map entry it replaces is dropped, and dropping a
`JoinHandle` does not stop the task. -/
def launchOwner (port : Nat) : Option (Supervisor × String) :=
  match outcomes.onion with
  | none => none
  | some onion =>
    if free : outcomes.binds ∧ sup.bound.lookup port = none then
      some ({ sup with
            owners := sup.owners.insert owner ⟨onion, port⟩
            bound := sup.bound.insert port owner
            holds := by
              intro other task found
              rw [lookup_insert_eq] at found ⊢
              split at found
              · cases found
                simp [*]
              · have held := sup.holds other task found
                rw [if_neg, held]
                intro same
                rw [same, free.2] at held
                cases held }, onion)
    else none

def stopOwner : Supervisor :=
  match found : sup.owners.lookup owner with
  | none => sup
  | some task =>
    { sup with
      owners := sup.owners.erase owner
      bound := sup.bound.erase task.port
      holds := by
        intro other left kept
        rw [lookup_erase_eq] at kept ⊢
        split at kept
        · cases kept
        next differs =>
          have held := sup.holds other left kept
          rw [if_neg, held]
          intro same
          rw [same, sup.holds owner task found] at held
          exact differs (some.inj held).symm }

/-- The onion of the answer, or none for an error. -/
def pairOwner : Supervisor × Option String :=
  if outcomes.lookup then
    match Owners.get sup.db owner with
    | some existing =>
      if owner ∈ sup.owners then (sup, some existing.relayOnionAddress)
      else
        match launchOwner outcomes sup owner existing.localPort with
        | none => (sup, none)
        | some (live, _) => (live, some existing.relayOnionAddress)
    | none =>
      if outcomes.usedPorts then
        match Owners.lowestFreePort range.1 range.2 (Owners.usedPorts sup.db) with
        | none => (sup, none)
        | some port =>
          match launchOwner outcomes sup owner port with
          | none => (sup, none)
          | some (live, onion) =>
            -- The `?` of this checkout leaves the function past the teardown below.
            if outcomes.checkout then
              match (if outcomes.inserts then
                Owners.insert live.db owner ⟨label, now, onion, port, none⟩ else none) with
              | none => (live.stopOwner owner, none)
              | some db => ({ live with db := db }, some onion)
            else (live, none)
      else (sup, none)
  else (sup, none)

/-- No router listens for the Owner, so no map entry is left either. -/
def Idle : Prop := ∀ port, sup.bound.lookup port ≠ some owner

def Sole (port : Nat) : Prop := ∀ other, sup.bound.lookup other = some owner ↔ other = port

def Served : Prop :=
  ∃ row, Owners.get sup.db owner = some row ∧ owner ∈ sup.owners ∧ sup.Sole owner row.localPort ∧
    ∀ left right leftRow rightRow, Owners.get sup.db left = some leftRow ->
      Owners.get sup.db right = some rightRow -> leftRow.localPort = rightRow.localPort -> left = right

def Unpaired (after : Supervisor) : Prop :=
  Owners.get after.db owner = none ∧ owner ∉ after.owners ∧ after.Idle owner ∧
    Owners.usedPorts after.db = Owners.usedPorts sup.db ∧
    ∀ port, after.bound.lookup port = sup.bound.lookup port

def AllOrNothing (result : Supervisor × Option String) : Prop :=
  match result.2 with
  | none => Owners.get sup.db owner = none -> sup.Unpaired owner result.1
  | some _ => result.1.Served owner

def Launches (port : Nat) : Prop := outcomes.onion.isSome ∧ outcomes.binds ∧ sup.bound.lookup port = none

/-- The launch goes well and the pool has no connection for the row. -/
def Strands : Prop :=
  outcomes.lookup ∧ outcomes.usedPorts ∧ outcomes.checkout = false ∧
    ∃ port, Owners.lowestFreePort range.1 range.2 (Owners.usedPorts sup.db) = some port ∧ Launches outcomes sup port

/-- What `pair_owner` needs: the routers that listen are those of the owners map and the rows, and
the launch of a new Owner is not followed by a failed checkout. -/
def Ready : Prop :=
  match Owners.get sup.db owner with
  | none => sup.Idle owner ∧ ¬ Strands range outcomes sup
  | some row => outcomes.lookup ->
    if owner ∈ sup.owners then sup.Sole owner row.localPort
    else Launches outcomes sup row.localPort -> sup.Idle owner

end

variable {range : Nat × Nat} {outcomes : PairOutcomes} {sup live : Supervisor} {owner : Bytes32}
  {port : Nat} {onion : String} {label : Option String} {now : Int}

theorem idle_notMem (idle : sup.Idle owner) : owner ∉ sup.owners := by
  intro member
  rcases mem_iff_lookup.mp member with ⟨task, found⟩
  exact idle task.port (sup.holds owner task found)

theorem launchOwner_none : launchOwner outcomes sup owner port = none ↔ ¬ Launches outcomes sup port := by
  unfold launchOwner Launches
  cases outcomes.onion <;> simp

theorem launchOwner_some (launched : launchOwner outcomes sup owner port = some (live, onion)) :
    Launches outcomes sup port ∧ live.db = sup.db ∧
      live.owners = sup.owners.insert owner ⟨onion, port⟩ ∧ live.bound = sup.bound.insert port owner := by
  unfold launchOwner at launched
  cases published : outcomes.onion with
  | none => simp [published] at launched
  | some =>
    simp only [published] at launched
    split at launched
    next free =>
      cases launched
      exact ⟨⟨by simp [published], free⟩, rfl, rfl, rfl⟩
    · cases launched

theorem sole_launched (launched : launchOwner outcomes sup owner port = some (live, onion)) :
    live.Sole owner port ↔ sup.Idle owner := by
  obtain ⟨⟨_, _, free⟩, _, _, bound⟩ := launchOwner_some launched
  constructor
  · intro sole other held
    have same := (sole other).mp (by rw [bound, lookup_insert_eq, held, ite_self])
    rw [same, free] at held
    cases held
  · intro idle other
    rw [bound, lookup_insert_eq]
    by_cases same : other = port
    · simp [same]
    · simpa [same] using idle other

theorem stopOwner_launched (launched : launchOwner outcomes sup owner port = some (live, onion)) :
    (live.stopOwner owner).db = sup.db ∧ owner ∉ (live.stopOwner owner).owners ∧
      ∀ other, (live.stopOwner owner).bound.lookup other = sup.bound.lookup other := by
  obtain ⟨⟨_, _, free⟩, db, owners, bound⟩ := launchOwner_some launched
  have entry : live.owners.lookup owner = some ⟨onion, port⟩ := by simp [owners]
  unfold stopOwner
  split
  next missing =>
    rw [entry] at missing
    cases missing
  next found =>
    cases entry.symm.trans found
    refine ⟨db, by simp, ?_⟩
    intro other
    rw [lookup_erase_eq, bound, lookup_insert_eq]
    split
    next same => rw [same, free]
    · rfl

theorem unpaired_iff (unpaired : get sup.db owner = none) {after : Supervisor}
    (db : after.db = sup.db) (absent : sup.Idle owner -> owner ∉ after.owners)
    (bound : ∀ port, after.bound.lookup port = sup.bound.lookup port) :
    AllOrNothing sup owner (after, none) ↔ sup.Idle owner := by
  constructor
  · intro holds other held
    exact (holds unpaired).2.2.1 other ((bound other).trans held)
  · intro idle _
    refine ⟨db ▸ unpaired, absent idle, ?_, by rw [db], bound⟩
    intro other
    rw [bound other]
    exact idle other

theorem served_iff (row) (found : get sup.db owner = some row) (member : owner ∈ sup.owners)
    (onion : String) (before : Supervisor) :
    AllOrNothing before owner (sup, some onion) ↔ sup.Sole owner row.localPort := by
  constructor
  · rintro ⟨_, same, _, sole, _⟩
    cases found.symm.trans same
    exact sole
  · intro sole
    exact ⟨row, found, member, sole, sup.db.portsUnique⟩

theorem persisted_iff (launched : launchOwner outcomes sup owner port = some (live, onion))
    (unpaired : Owners.get sup.db owner = none)
    (free : Owners.lowestFreePort range.1 range.2 (Owners.usedPorts sup.db) = some port) :
    AllOrNothing sup owner (match (if outcomes.inserts then
        Owners.insert live.db owner ⟨label, now, onion, port, none⟩ else none) with
      | none => (live.stopOwner owner, none)
      | some db => ({ live with db := db }, some onion)) ↔ sup.Idle owner := by
  obtain ⟨_, same, owners, _⟩ := launchOwner_some launched
  have unused : port ∉ Owners.usedPorts sup.db := by simpa using List.find?_some free
  cases outcomes.inserts with
  | false =>
    obtain ⟨db, absent, bound⟩ := stopOwner_launched launched
    exact unpaired_iff unpaired db (fun _ => absent) bound
  | true =>
    simp only [same, Owners.insert, unpaired, unused, not_false_eq_true, and_self, if_true, dite_true]
    rw [← sole_launched launched]
    refine served_iff ⟨label, now, onion, port, none⟩ ?_ ?_ onion sup
    · exact AList.lookup_insert _
    · simp [owners]

/-- For every supervisor, Owner and outcome of the steps, `pair_owner` is all or nothing exactly if
the listeners match the rows and no launch is stranded. -/
theorem pair_owner_all_or_nothing_iff (range : Nat × Nat) (label : Option String) (now : Int)
    (outcomes : PairOutcomes) (sup : Supervisor) (owner : Bytes32) :
    AllOrNothing sup owner (pairOwner range label now outcomes sup owner) ↔ Ready range outcomes sup owner := by
  have kept (unpaired : get sup.db owner = none) : AllOrNothing sup owner (sup, none) ↔ sup.Idle owner :=
    unpaired_iff unpaired rfl idle_notMem (fun _ => rfl)
  unfold pairOwner Ready
  cases found : get sup.db owner with
  | some row =>
    have failed : AllOrNothing sup owner (sup, none) := by
      intro unpaired
      rw [found] at unpaired
      cases unpaired
    cases outcomes.lookup with
    | false => simp [failed]
    | true =>
      by_cases member : owner ∈ sup.owners
      · simpa [member] using served_iff row found member _ sup
      · cases launched : launchOwner outcomes sup owner row.localPort with
        | none => simp [member, launched, failed, launchOwner_none.mp launched]
        | some =>
          obtain ⟨launches, db, owners, _⟩ := launchOwner_some launched
          have served := served_iff row (db ▸ found) (by simp [owners]) row.relayOnionAddress sup
          simp [member, launched, served, sole_launched launched, launches]
  | none =>
    cases looked : outcomes.lookup with
    | false => simp [kept found, Strands, looked]
    | true =>
      cases listed : outcomes.usedPorts with
      | false => simp [kept found, Strands, listed]
      | true =>
        cases free : lowestFreePort range.1 range.2 (usedPorts sup.db) with
        | none => simp [free, kept found, Strands]
        | some port =>
          cases launched : launchOwner outcomes sup owner port with
          | none => simp [free, launched, kept found, Strands, launchOwner_none.mp launched]
          | some pair =>
            have ⟨launches, _, owners, _⟩ := launchOwner_some launched
            cases checked : outcomes.checkout with
            | true => simpa [free, launched, Strands, checked] using persisted_iff launched found free
            | false =>
              have stranded : ¬ AllOrNothing sup owner (pair.1, none) := by
                intro holds
                exact (holds found).2.1 (by simp [owners])
              simp [free, launched, stranded, Strands, looked, listed, checked, launches]

def fresh : Supervisor := ⟨Database.empty, ∅, ∅, fun _ _ found => by simp at found⟩

def fine : PairOutcomes := ⟨true, true, some "a.onion", true, true, true⟩

/-- The failed pairing leaves its listener on the lowest free port, and the next pairing of another
Owner, with nothing else failing, is refused there. -/
theorem stranded_launch_blocks_pairing :
    let (after, answer) := pairOwner (17000, 17999) none 0 { fine with checkout := false } fresh (Bytes32.fill 7)
    answer = none ∧ Owners.get after.db (Bytes32.fill 7) = none ∧
      after.owners.lookup (Bytes32.fill 7) = some ⟨"a.onion", 17000⟩ ∧
      after.bound.lookup 17000 = some (Bytes32.fill 7) ∧
      ¬ AllOrNothing fresh (Bytes32.fill 7) (after, answer) ∧
      (pairOwner (17000, 17999) none 1 fine after (Bytes32.fill 8)).2 = none := by
  refine ⟨by decide +kernel, by decide +kernel, by decide +kernel, by decide +kernel, ?_, by decide +kernel⟩
  intro holds
  exact (holds rfl).2.1 (by decide +kernel)

end Supervisor

end Starling
