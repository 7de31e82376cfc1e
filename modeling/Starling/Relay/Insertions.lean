import Starling.Relay.Tokens

namespace Starling

/-!
# Owners are paid for with tokens

A row of `paired_owners` is inserted by a claim that went through the token step, or by
one that was let past it because the Owner had a row at the time.  The second kind
inserts nothing as long as the row is still there when the supervisor looks for it.
Along runs that meet this condition every insertion is by a request that spent a token.
-/

open Storage List

def RelayJob.beforeToken : RelayJob -> Bool
  | .pair _ _ .received => true
  | .pair _ _ .unpaired => true
  | .pair _ _ (.found _) => true
  | .pair _ _ (.timely _ _) => true
  | _ => false

def RelayJob.inserting : RelayJob -> Bool
  | .pair _ _ (.launching _ _) => true
  | .pair _ _ (.launched _ _ _) => true
  | _ => false

namespace Relay

variable {site : RelaySite} {relay after : Relay} {input : RelayInput}

def HasSpent (relay : Relay) (id : Nat) : Prop := ∃ token, (id, token) ∈ relay.spent

/-- When `pair_owner` gets the lock for a claim that spent no token, the row that let
the claim past the token step is still there. -/
def KeepsRow (relay : Relay) (input : RelayInput) : Prop :=
  ∀ id owner token label, input.actor = some id ->
    relay.jobs.get id = some (.pair owner token (.proceed label)) -> relay.pairLock = none ->
      ¬ relay.HasSpent id -> Owners.get relay.db owner ≠ none

structure Accounted (relay : Relay) : Prop where
  recorded : relay.Recorded
  unspent : relay.jobs.All (fun id job => job.beforeToken = true -> ¬ relay.HasSpent id)
  paying : relay.jobs.All (fun id job => job.inserting = true -> relay.HasSpent id)
  claimedOnce : (relay.spent.map Prod.fst).Nodup
  paid : ∀ id owner, (id, owner) ∈ relay.inserted -> relay.HasSpent id
  ended : ∀ id owner, (id, owner) ∈ relay.inserted -> id < relay.jobs.next ∧ relay.jobs.get id = none
  insertedOnce : (relay.inserted.map Prod.fst).Nodup

theorem Booted.accounted (booted : relay.Booted) : relay.Accounted where
  recorded := booted.recorded
  unspent := booted.idle.all
  paying := booted.idle.all
  claimedOnce := by
    rw [booted.noneSpent]
    exact nodup_nil
  paid := by
    rw [booted.noneInserted]
    exact nofun
  ended := by
    rw [booted.noneInserted]
    exact nofun
  insertedOnce := by
    rw [booted.noneInserted]
    exact nodup_nil

theorem Move.spent_eq (move : Move site relay input after) : after.spent = relay.spent ∨
      ∃ id owner token pending now, relay.jobs.get id = some (.pair owner token (.timely pending now)) ∧
          after.jobs.get id = some (.pair owner token (.proceed pending.label)) ∧
            after.spent = relay.spent ++ [(id, token)] := by
  cases move with
  | spend id owner token pending now found =>
    refine Or.inr ⟨id, owner, token, pending, now, found, ?_, rfl⟩
    change (relay.jobs.update id _).get id = _
    rw [Jobs.get_update found, if_pos rfl]
  | _ => exact .inl rfl

theorem HasSpent.move (move : Move site relay input after) {id} (spent : relay.HasSpent id) : after.HasSpent id := by
  rcases spent with ⟨token, member⟩
  refine ⟨token, ?_⟩
  rcases move.spent_eq with same | ⟨_, _, _, _, _, _, _, grown⟩
  · exact same ▸ member
  · rw [grown]
    exact mem_append_left _ member

theorem Accounted.move_unspent (accounted : relay.Accounted) (move : Move site relay input after) :
    after.jobs.All (fun id job => job.beforeToken = true -> ¬ after.HasSpent id) := by
  intro id job found before spent
  -- A number that is spent now was spent before, unless its request spent just now.
  have earlier : relay.HasSpent id := by
    rcases spent with ⟨token, member⟩
    rcases move.spent_eq with same | ⟨_, _, _, _, _, _, ran, grown⟩
    · exact ⟨token, same ▸ member⟩
    · rw [grown] at member
      rcases mem_append.mp member with old | new
      · exact ⟨token, old⟩
      · rw [mem_singleton, Prod.mk.injEq] at new
        rw [new.1, ran, Option.some.injEq] at found
        rw [← found] at before
        cases before
  rcases move.job found with (same | ⟨old, running, stage⟩) | ⟨new, _⟩
  · exact accounted.unspent id job same before earlier
  · have oldBefore : old.beforeToken = true := by
      cases stage with
      | read _ _ _ _ reads =>
        cases reads with
        | _ => rfl
      | spend => rfl
      | acquire _ _ _ _ _ decides =>
        cases decides with
        | relaunch | launch => cases before
      | _ => cases before
    exact accounted.unspent id old running oldBefore earlier
  · rcases earlier with ⟨token, member⟩
    exact lt_irrefl _ (new ▸ accounted.recorded.arrived id token member)

theorem Accounted.move_paying (accounted : relay.Accounted) (keepsRow : relay.KeepsRow input)
    (move : Move site relay input after) :
    after.jobs.All (fun id job => job.inserting = true -> after.HasSpent id) := by
  intro id job found inserting
  rcases move.job found with (same | ⟨_, running, stage⟩) | ⟨_, ⟨initial, _⟩ | ⟨owner, _, _, rfl⟩⟩
  · exact (accounted.paying id job same inserting).move move
  · cases stage with
    | read _ _ _ _ reads =>
      cases reads with
      | _ => cases inserting
    | acquire owner token label _ free decides acts =>
      cases decides with
      | relaunch => cases inserting
      | launch _ noRow =>
        by_contra notSpent
        have fresh : ¬ relay.HasSpent id := fun spent => notSpent (spent.move move)
        exact keepsRow id owner token label acts running free fresh noRow
    | launch => exact (accounted.paying id _ running rfl).move move
    | _ => cases inserting
  · rcases RelayJob.initial_cases initial with ⟨_, _, _, _, rfl⟩ | ⟨_, _, rfl⟩ | ⟨_, rfl⟩
    · cases inserting
    · cases inserting
    · cases inserting
  · cases inserting

theorem Accounted.move_claimedOnce (accounted : relay.Accounted)
    (move : Move site relay input after) : (after.spent.map Prod.fst).Nodup := by
  rcases move.spent_eq with same | ⟨_, _, _, _, _, running, _, grown⟩
  · rw [same]
    exact accounted.claimedOnce
  · rw [grown, map_append, map_singleton, ← concat_eq_append]
    apply accounted.claimedOnce.concat
    intro old
    rcases mem_map.mp old with ⟨⟨_, claimed⟩, member, rfl⟩
    exact accounted.unspent _ _ running rfl ⟨claimed, member⟩

theorem Move.inserted_eq (move : Move site relay input after) : after.inserted = relay.inserted ∨
      ∃ id owner token label port onion, relay.jobs.get id = some (.pair owner token (.launched label port onion)) ∧
          after.jobs.get id = none ∧ after.inserted = relay.inserted ++ [(id, owner)] := by
  cases move with
  | insert id owner token label port onion _ _ _ found =>
    refine Or.inr ⟨id, owner, token, label, port, onion, found, ?_, rfl⟩
    change (relay.jobs.finish id).get id = none
    rw [Jobs.get_finish, if_pos rfl]
  | _ => exact .inl rfl

theorem Accounted.move (accounted : relay.Accounted) (keepsRow : relay.KeepsRow input)
    (move : Move site relay input after) : after.Accounted := by
  have kept : ∀ id owner, (id, owner) ∈ relay.inserted -> id < after.jobs.next ∧ after.jobs.get id = none := by
    intro id owner member
    have ended := accounted.ended id owner member
    exact ⟨lt_of_lt_of_le ended.1 move.next_le, move.gone ended.1 ended.2⟩
  have base := mk (move.recorded accounted.recorded) (accounted.move_unspent move)
    (accounted.move_paying keepsRow move) (accounted.move_claimedOnce move)
  rcases move.inserted_eq with same | ⟨id, _, _, _, _, _, running, ended, grown⟩
  · apply base
    · intro other someone member
      exact (accounted.paid other someone (same ▸ member)).move move
    · intro other someone member
      exact kept other someone (same ▸ member)
    · rw [same]
      exact accounted.insertedOnce
  · apply base
    · intro other someone member
      rw [grown] at member
      rcases mem_append.mp member with old | new
      · exact (accounted.paid other someone old).move move
      · rw [(Prod.mk.inj (mem_singleton.mp new)).1]
        exact (accounted.paying id _ running rfl).move move
    · intro other someone member
      rw [grown] at member
      rcases mem_append.mp member with old | new
      · exact kept other someone old
      · rw [(Prod.mk.inj (mem_singleton.mp new)).1]
        exact ⟨lt_of_lt_of_le (Jobs.lt_next running) move.next_le, ended⟩
    · rw [grown, map_append, map_singleton, ← concat_eq_append]
      apply accounted.insertedOnce.concat
      intro old
      rcases mem_map.mp old with ⟨⟨_, someone⟩, member, rfl⟩
      have gone := (accounted.ended _ someone member).2
      rw [running] at gone
      cases gone

theorem Accounted.inserted_le (accounted : relay.Accounted) : relay.inserted.length ≤ relay.spent.length := by
  have covered : relay.inserted.map Prod.fst ⊆ relay.spent.map Prod.fst := by
    intro id member
    rcases mem_map.mp member with ⟨⟨_, owner⟩, listed, rfl⟩
    rcases accounted.paid _ owner listed with ⟨_, spent⟩
    exact mem_map_of_mem spent
  have shorter := (subperm_of_subset accounted.insertedOnce covered).length_le
  rw [length_map, length_map] at shorter
  exact shorter

/-- A test for `KeepsRow`. -/
def keepsRowCheck (relay : Relay) (input : RelayInput) : Bool :=
  match input.actor.bind relay.jobs.get with
  | some (.pair owner _ (.proceed _)) =>
    relay.spent.any (fun claim => input.actor = some claim.1) || (Owners.get relay.db owner).isSome
  | _ => true

theorem keepsRow_of_check (relay : Relay) (input : RelayInput)
    (checked : relay.keepsRowCheck input = true) : relay.KeepsRow input := by
  intro id owner token label acts running _ notSpent noRow
  simp only [keepsRowCheck, acts, Option.bind_some, running, noRow, Option.isSome_none,
    Bool.or_false, any_eq_true, decide_eq_true_eq] at checked
  rcases checked with ⟨⟨_, claimed⟩, member, same⟩
  rw [Option.some.injEq] at same
  exact notSpent ⟨claimed, same ▸ member⟩

def pairPhone : List RelayInput := mintToken firstToken :: proceed 0 1 ++ .pair firstToken :: proceed 1 7

/-- The phone retries its claim, the admin removes the Owner after the retry found its
row, and the retry goes on. -/
def pairAgainUnpaid : List RelayInput :=
  pairPhone ++ .pair firstToken :: proceed 2 1 ++ .adminUnpair Http.phoneKey :: proceed 3 2 ++ proceed 2 3

end Relay

end Starling
