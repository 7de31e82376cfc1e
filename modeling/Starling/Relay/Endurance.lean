import Starling.Relay.Insertions

namespace Starling

/-!
# How long a pairing lasts

Removals are asked for by key and carried out later.  A pairing therefore lasts if no
removal of the same key is queued or under way when the supervisor returns, and none is
asked for afterwards.  The pair lock protects what `pair_owner` and `unpair_owner`
establish between their steps.
-/

open Storage List Option Table AList Owners Http

namespace Relay

variable {site : RelaySite} {relay after : Relay} {input : RelayInput}

/-- A removal of the Owner is queued or under way. -/
def UnpairPending (relay : Relay) (owner : Bytes32) : Prop :=
  owner ∈ relay.unpairQueue ∨ ∃ id phase, relay.jobs.get id = some (.unpair owner phase)

/-! ## What a move can take away -/

theorem Move.lock (move : Move site relay input after) :
    after.pairLock = relay.pairLock ∨ relay.pairLock = none ∨
      ∃ id job, relay.jobs.get id = some job ∧ job.locked = true ∧ after.jobs.get id = none := by
  have ended : ∀ id, (relay.jobs.finish id).get id = none := by
    intro id
    rw [Jobs.get_finish, if_pos rfl]
  cases move with
  | acquire _ _ _ _ _ _ free | stop _ _ _ free => exact .inr (Or.inl free)
  | fail id job found held => exact .inr (Or.inr ⟨id, job, found, held, ended id⟩)
  | relaunch id _ _ _ _ _ found | withdraw id _ _ _ _ _ _ found
  | insert id _ _ _ _ _ _ _ _ found | abandon id _ _ found | remove id _ _ found =>
    exact .inr (Or.inr ⟨id, _, found, rfl, ended id⟩)
  | _ => exact .inl rfl

variable {label : Option String}

theorem mintRows_frame {prunes db minted token createdBy now}
    (done : mintRows site prunes db token label createdBy now = some minted) :
    minted.pairedOwners = db.pairedOwners ∧ minted.servedEvents = db.servedEvents := by
  have frame := (Pairings.insert_eq_some done).2
  rw [frame.1, frame.2]
  cases prunes with
  | true | false => exact ⟨rfl, rfl⟩

section

variable (move : Move site relay input after)
include move

theorem Move.row {owner row} (found : get relay.db owner = some row) :
    get after.db owner = some row ∨ ∃ id, relay.jobs.get id = some (.unpair owner .stopped) := by
  cases move with
  | mint _ _ _ _ _ _ db _ _ minted =>
    left
    change db.pairedOwners.lookup owner = some row
    rw [(mintRows_frame minted).1]
    exact found
  | spend _ _ token _ now =>
    left
    change (Pairings.markConsumed relay.db token now).1.pairedOwners.lookup owner = some row
    rw [(Pairings.markConsumed_frame relay.db token now).1]
    exact found
  | insert _ _ _ _ _ _ _ db _ _ inserted =>
    left
    have rows := insert_eq_some inserted
    change db.pairedOwners.lookup owner = some row
    rw [rows.2.1, lookup_insert_eq, if_neg]
    · exact found
    · rintro rfl
      rw [rows.1] at found
      cases found
  | remove id other _ job =>
    by_cases same : owner = other
    · subst same
      exact .inr ⟨id, job⟩
    · left
      change (relay.db.pairedOwners.erase other).lookup owner = some row
      rw [lookup_erase_ne same]
      exact found
  | storeEvent _ _ _ db _ stored =>
    left
    change db.pairedOwners.lookup owner = some row
    rw [(Events.insert_eq_some stored).1]
    exact found
  | _ => exact .inl found

theorem Move.event {owner name event} (found : relay.db.servedEvents.lookup (owner, name) = some event) :
    after.db.servedEvents.lookup (owner, name) = some event ∨
      ∃ id, relay.jobs.get id = some (.unpair owner .stopped) := by
  cases move with
  | mint _ _ _ _ _ _ db _ _ minted =>
    left
    change db.servedEvents.lookup (owner, name) = some event
    rw [(mintRows_frame minted).2]
    exact found
  | spend _ _ token _ now =>
    left
    change (Pairings.markConsumed relay.db token now).1.servedEvents.lookup (owner, name) = some event
    rw [(Pairings.markConsumed_frame relay.db token now).2]
    exact found
  | insert _ _ _ _ _ _ _ db _ _ inserted =>
    left
    change db.servedEvents.lookup (owner, name) = some event
    rw [(insert_eq_some inserted).2.2.2.1]
    exact found
  | remove id other _ job =>
    by_cases same : owner = other
    · subst same
      exact .inr ⟨id, job⟩
    · left
      exact lookup_retain_eq_some.mpr ⟨found, decide_eq_true same⟩
  | storeEvent _ _ _ _ _ stored =>
    exact .inl ((Events.insert_eq_some stored).2.2 _ _ found)
  | _ => exact .inl found

theorem Move.serving {owner} (serving : owner ∈ relay.owners) : owner ∈ after.owners ∨
      (relay.pairLock = none ∧ ∃ id, relay.jobs.get id = some (.unpair owner .waiting)) ∨
        ∃ id token label port onion,
          relay.jobs.get id = some (.pair owner token (.launched label port onion)) ∧ after.jobs.get id = none := by
  have stopped : ∀ other, owner ≠ other -> owner ∈ relay.owners.erase other :=
    fun other apart => mem_erase.mpr ⟨apart, serving⟩
  cases move with
  | relaunch | launch => exact .inl ((mem_insert _).mpr (Or.inr serving))
  | withdraw id other token label port onion _ found =>
    by_cases same : owner = other
    · subst same
      refine Or.inr (Or.inr ⟨id, token, label, port, onion, found, ?_⟩)
      change (relay.jobs.finish id).get id = none
      rw [Jobs.get_finish, if_pos rfl]
    · exact .inl (stopped other same)
  | stop id other found free =>
    by_cases same : owner = other
    · subst same
      exact .inr (Or.inl ⟨free, id, found⟩)
    · exact .inl (stopped other same)
  | _ => exact .inl serving

theorem Move.notPending {owner} (silent : input.asked site ≠ some owner)
    (none : ¬ relay.UnpairPending owner) : ¬ after.UnpairPending owner := by
  rintro (queued | ⟨id, phase, found⟩)
  · have old : owner ∈ relay.unpairQueue := by
      cases move with
      | enqueue _ _ asks =>
        rcases mem_append.mp queued with old | new
        · exact old
        · rw [mem_singleton] at new
          exact (silent (new ▸ asks)).elim
      | dequeue _ _ before =>
        rw [before]
        exact mem_cons_of_mem _ queued
      | _ => exact queued
    exact none (Or.inl old)
  · rcases move.job found with (same | ⟨_, running, stage⟩) |
        ⟨_, ⟨_, asks⟩ | ⟨_, _, queued, same⟩⟩
    · exact none (Or.inr ⟨id, phase, same⟩)
    · cases stage with
      | await | stop => exact none (Or.inr ⟨id, _, running⟩)
    · exact silent asks
    · cases same
      rw [UnpairPending, queued] at none
      exact none (Or.inl mem_cons_self)

end

/-! ## What the lock protects -/

/-- A request inside `pair_owner` or `unpair_owner` holds the lock.  The row that a
relaunch found and the task that a launch started are still there. -/
structure Guarded (relay : Relay) : Prop where
  locked : relay.jobs.All (fun id job => job.locked = true -> relay.pairLock = some id)
  relaunching : ∀ id owner token existing, relay.jobs.get id = some (.pair owner token (.relaunching existing)) ->
      ∃ row, Owners.get relay.db owner = some row
  launched : ∀ id owner token label port onion,
    relay.jobs.get id = some (.pair owner token (.launched label port onion)) -> owner ∈ relay.owners

theorem Booted.guarded (booted : relay.Booted) : relay.Guarded where
  locked := booted.idle.all
  relaunching := by
    intro id owner token existing found
    rw [booted.idle id] at found
    cases found
  launched := by
    intro id owner token label port onion found
    rw [booted.idle id] at found
    cases found

section

variable (guarded : relay.Guarded)
include guarded

theorem Guarded.same_holder {left right leftJob rightJob} (atLeft : relay.jobs.get left = some leftJob)
    (leftHolds : leftJob.locked = true) (atRight : relay.jobs.get right = some rightJob)
    (rightHolds : rightJob.locked = true) : left = right := by
  have first := guarded.locked left leftJob atLeft leftHolds
  rw [guarded.locked right rightJob atRight rightHolds, some.injEq] at first
  exact first.symm

variable (moved : Move site relay input after)
include moved

theorem Guarded.keeps_lock {id old job}
    (running : relay.jobs.get id = some old) (held : old.locked = true)
    (found : after.jobs.get id = some job) : after.pairLock = some id := by
  have holder := guarded.locked id old running held
  rcases moved.lock with same | free | ⟨_, _, atOther, otherHeld, ended⟩
  · rw [same]
    exact holder
  · rw [free] at holder
    cases holder
  · rw [guarded.same_holder atOther otherHeld running held, found] at ended
    cases ended

theorem Guarded.move_locked :
    after.jobs.All (fun id job => job.locked = true -> after.pairLock = some id) := by
  intro id job found held
  rcases moved.job found with (same | ⟨_, running, stage⟩) | ⟨_, ⟨initial, _⟩ | ⟨owner, _, _, rfl⟩⟩
  · exact guarded.keeps_lock moved same held found
  · cases stage with
    | read _ _ _ _ reads =>
      cases reads with
      | _ => cases held
    | spend | await => cases held
    | acquire _ _ _ _ _ _ _ holds | stop _ _ holds => exact holds
    | launch => exact guarded.keeps_lock moved running rfl found
  · rcases RelayJob.initial_cases initial with ⟨_, _, _, _, rfl⟩ | ⟨_, _, rfl⟩ | ⟨_, rfl⟩ <;> cases held
  · cases held

theorem Guarded.move_relaunching {id owner token existing}
    (found : after.jobs.get id = some (.pair owner token (.relaunching existing))) :
    ∃ row, get after.db owner = some row := by
  rcases moved.job found with (same | ⟨_, _, stage⟩) | ⟨_, ⟨initial, _⟩ | ⟨_, _, _, never⟩⟩
  · rcases guarded.relaunching id owner token existing same with ⟨row, atRow⟩
    rcases moved.row atRow with kept | ⟨_, removing⟩
    · exact ⟨row, kept⟩
    · have holder := guarded.same_holder same rfl removing rfl
      rw [holder, removing] at same
      cases same
  · cases stage with
    | read _ _ _ _ reads => cases reads
    | acquire _ _ _ _ free decides =>
      cases decides with
      | relaunch existing atRow =>
        rcases moved.row atRow with kept | ⟨other, removing⟩
        · exact ⟨existing, kept⟩
        · have holder := guarded.locked other _ removing rfl
          rw [free] at holder
          cases holder
  · cases initial
  · cases never

theorem Guarded.move_launched {id owner token port onion}
    (found : after.jobs.get id = some (.pair owner token (.launched label port onion))) :
    owner ∈ after.owners := by
  rcases moved.job found with (same | ⟨_, _, stage⟩) | ⟨_, ⟨initial, _⟩ | ⟨_, _, _, never⟩⟩
  · rcases moved.serving (guarded.launched id owner token label port onion same) with
      kept | ⟨free, _⟩ | ⟨_, _, _, _, _, atOther, ended⟩
    · exact kept
    · have holder := guarded.locked id _ same rfl
      rw [free] at holder
      cases holder
    · rw [guarded.same_holder atOther rfl same rfl, found] at ended
      cases ended
  · cases stage with
    | read _ _ _ _ reads | acquire _ _ _ _ _ reads => cases reads
    | launch _ _ _ _ _ serves => exact serves
  · cases initial
  · cases never

theorem Guarded.move : after.Guarded where
  locked := guarded.move_locked moved
  relaunching := fun _ _ _ _ found => guarded.move_relaunching moved found
  launched := fun _ _ _ _ _ _ found => guarded.move_launched moved found

end

theorem guarded_of_reaches {start} (booted : start.Booted)
    (reaches : Reaches (step site) start relay) : relay.Guarded :=
  reaches.invariant (fun _ _ _ guarded stepped => guarded.move (move_of_step stepped)) booted.guarded

/-! ## A pairing that stands -/

structure Standing (relay : Relay) (owner : Bytes32) : Prop where
  guarded : relay.Guarded
  row : ∃ row, Owners.get relay.db owner = some row
  serving : owner ∈ relay.owners
  notPending : ¬ relay.UnpairPending owner
  notInserting : ∀ id token phase, relay.jobs.get id = some (.pair owner token phase) ->
    (RelayJob.pair owner token phase).inserting = false

theorem Standing.move {owner} (standing : relay.Standing owner) (move : Move site relay input after)
    (silent : input.asked site ≠ some owner) : after.Standing owner where
  guarded := standing.guarded.move move
  row := by
    rcases standing.row with ⟨row, atRow⟩
    rcases move.row atRow with kept | ⟨id, removing⟩
    · exact ⟨row, kept⟩
    · exact (standing.notPending (Or.inr ⟨id, _, removing⟩)).elim
  serving := by
    rcases move.serving standing.serving with kept | ⟨_, id, removing⟩ | ⟨id, _, _, _, _, launched, _⟩
    · exact kept
    · exact (standing.notPending (Or.inr ⟨id, _, removing⟩)).elim
    · cases standing.notInserting id _ _ launched
  notPending := move.notPending silent standing.notPending
  notInserting := by
    intro id token phase found
    rcases move.job found with (same | ⟨_, running, stage⟩) |
        ⟨_, ⟨initial, _⟩ | ⟨_, _, _, never⟩⟩
    · exact standing.notInserting id token phase same
    · cases stage with
      | read _ _ _ _ reads =>
        cases reads with
        | _ => rfl
      | spend => rfl
      | acquire _ _ _ _ _ decides =>
        cases decides with
        | relaunch => rfl
        | launch _ noRow =>
          rcases standing.row with ⟨_, atRow⟩
          rw [noRow] at atRow
          cases atRow
      | launch => cases standing.notInserting id _ _ running
    · cases phase with
      | received => rfl
      | _ => cases initial
    · cases never

theorem Standing.event {owner} (standing : relay.Standing owner) (move : Move site relay input after)
    {name event} (found : relay.db.servedEvents.lookup (owner, name) = some event) :
    after.db.servedEvents.lookup (owner, name) = some event := by
  rcases move.event found with kept | ⟨id, removing⟩
  · exact kept
  · exact (standing.notPending (Or.inr ⟨id, _, removing⟩)).elim

/-! ## A claim answered with success -/

def Served (relay : Relay) (owner : Bytes32) : Prop :=
  (∃ row, Owners.get relay.db owner = some row) ∧ owner ∈ relay.owners ∧ relay.pairLock = none

section Answers

variable {answers : List (Nat × RelayAnswer)} {id : Nat} {onion : String} {goal : Prop}

theorem of_unanswered (same : answers = answers ++ [(id, .paired onion)]) : goal :=
  (cons_ne_nil _ _ (self_eq_append_right.mp same)).elim

theorem of_refused {code message}
    (same : answers ++ [(id, .text code message)] = answers ++ [(id, .paired onion)]) : goal := by
  have entries := append_cancel_left same
  cases entries

end Answers

variable {id : Nat} {owner : Bytes32} {token : Bytes} {onion : String}

theorem pairOwner_served (free : relay.pairLock = none)
    (answered : (relay.pairOwner site id owner token label).answers = relay.answers ++ [(id, .paired onion)]) :
    (relay.pairOwner site id owner token label).Served owner := by
  revert answered
  unfold pairOwner
  split
  next existing row =>
    split
    next serving => exact fun _ => ⟨⟨existing, row⟩, serving, free⟩
    · exact of_unanswered
  · split
    · exact of_refused
    · exact of_unanswered

theorem persist_served {fault port address} (serving : owner ∈ relay.owners)
    (answered : (relay.persist id fault owner label port address).answers = relay.answers ++ [(id, .paired
      onion)]) : (relay.persist id fault owner label port address).Served owner := by
  revert answered
  unfold persist
  split
  · exact of_refused
  · exact of_refused
  · split
    · exact of_refused
    next db inserted =>
      intro _
      refine ⟨⟨⟨label, relay.clock, address, port, none⟩, ?_⟩, serving, rfl⟩
      change db.pairedOwners.lookup owner = _
      rw [(insert_eq_some inserted).2.1, lookup_insert]

/-- When `pair_owner` returns successfully the Owner is served. -/
theorem Guarded.paired_served (guarded : relay.Guarded) {phase fault address}
    (running : relay.jobs.get id = some (.pair owner token phase))
    (answered : (relay.advancePair site id fault address owner token phase).answers =
      relay.answers ++ [(id, .paired onion)]) :
    (relay.advancePair site id fault address owner token phase).Served owner := by
  revert answered
  cases phase with
  | received =>
    rw [advancePair]
    split
    · exact of_refused
    · split <;> exact of_unanswered
  | unpaired =>
    rw [advancePair]
    split
    · exact of_refused
    · split
      · exact of_refused
      · exact of_unanswered
  | timely =>
    rw [advancePair]
    split
    · exact of_refused
    · unfold spend
      simp only []
      split
      · exact of_unanswered
      · exact of_refused
  | proceed =>
    rw [advancePair]
    split
    · exact of_unanswered
    next unlocked =>
      split
      · exact of_refused
      · exact pairOwner_served (not_isSome_iff_eq_none.mp unlocked)
  | relaunching existing =>
    rw [advancePair]
    split
    · exact of_refused
    · exact fun _ => ⟨guarded.relaunching id owner token existing running,
        (mem_insert _).mpr (Or.inl rfl), rfl⟩
  | launched label port address =>
    exact persist_served (guarded.launched id owner token label port address running)
  | _ =>
    rw [advancePair]
    split
    · exact of_refused
    · exact of_unanswered

/-- A pairing that is answered with success while no removal of the Owner is queued or
under way stands, with the events stored by then, until a removal is asked for. -/
theorem pairing_stands (site : RelaySite) {start before paired final : Relay} {phase : PairPhase}
    {fault : RelayFault} {prunes : Bool} {address : String} {inputs : List RelayInput} (booted : start.Booted)
    (reaches : Reaches (step site) start before)
    (running : before.jobs.get id = some (.pair owner token phase))
    (stepped : before.step site (.advance id fault prunes address) = .ok paired)
    (answered : paired.answers = before.answers ++ [(id, .paired onion)])
    (nonePending : ¬ before.UnpairPending owner)
    (along : Along (step site) (fun _ input => input.asked site ≠ some owner) paired inputs)
    (reached : run (step site) paired inputs = .ok final) :
    (∃ row, Owners.get final.db owner = some row) ∧ owner ∈ final.owners ∧
      ∀ name event, paired.db.servedEvents.lookup (owner, name) = some event ->
        final.db.servedEvents.lookup (owner, name) = some event := by
  have guarded := guarded_of_reaches booted reaches
  have move := move_of_step stepped
  have served : paired.Served owner := by
    have same : before.advancePair site id fault address owner token phase = paired := by
      simp only [step, advance, running, Except.ok.injEq] at stepped
      exact stepped
    rw [← same] at answered ⊢
    exact guarded.paired_served running answered
  have pairedGuarded := guarded.move move
  have standing : paired.Standing owner := by
    refine ⟨pairedGuarded, served.1, served.2.1, move.notPending ?_ nonePending, ?_⟩
    · exact fun asked => some_ne_none _ asked.symm
    · intro other claimed stage found
      cases inserting : (RelayJob.pair owner claimed stage).inserting with
      | false => rfl
      | true =>
        have held : (RelayJob.pair owner claimed stage).locked = true := by
          cases stage with
          | launching | launched => rfl
          | _ => cases inserting
        have holder := pairedGuarded.locked other _ found held
        rw [served.2.2] at holder
        cases holder
  let Kept (relay : Relay) : Prop := relay.Standing owner ∧
    ∀ name event, paired.db.servedEvents.lookup (owner, name) = some event ->
      relay.db.servedEvents.lookup (owner, name) = some event
  have preserved : ∀ (relay : Relay) (input : RelayInput) (next : Relay), Kept relay ->
      input.asked site ≠ some owner -> relay.step site input = .ok next -> Kept next := by
    intro relay input next kept silent stepped
    have move := move_of_step stepped
    exact ⟨kept.1.move move silent,
      fun name event found => kept.1.event move (kept.2 name event found)⟩
  have kept : Kept final := run_invariant preserved ⟨standing, fun _ _ found => found⟩ along reached
  exact ⟨kept.1.row, kept.1.serving, kept.2⟩

/-! ### A pairing with and without an earlier request to unpair -/

def launchedPhone : Relay :=
  relayAfter (mintToken firstToken :: proceed 0 1 ++ .pair firstToken :: proceed 1 6)

def pairedPhone : Relay := finalState (step phoneSite) launchedPhone (proceed 1 1)

def quietInputs : List RelayInput := [.tick 30, mintToken secondToken]

theorem launchedPhone_running : launchedPhone.jobs.get 1 =
    some (.pair phoneKey firstToken (.launched none 17000 "phone.onion")) := by decide +kernel

theorem launchedPhone_notPending : ¬ launchedPhone.UnpairPending phoneKey := by
  rintro (queued | ⟨id, _, found⟩)
  · have empty : launchedPhone.unpairQueue = [] := by decide +kernel
    rw [empty] at queued
    exact not_mem_nil queued
  · have keys : launchedPhone.jobs.running.keys = [1] := by decide +kernel
    have listed : id ∈ launchedPhone.jobs.running.keys := AList.mem_keys.mp (mem_iff_lookup.mpr ⟨_, found⟩)
    rw [keys, mem_singleton] at listed
    rw [listed, launchedPhone_running] at found
    cases found

theorem pairing_stands_quiet :
    (∃ row, Owners.get (finalState (step phoneSite) pairedPhone quietInputs).db Http.phoneKey = some row) ∧
      Http.phoneKey ∈ (finalState (step phoneSite) pairedPhone quietInputs).owners := by
  have reaches : Reaches (step phoneSite) freshRelay launchedPhone := Reaches.finalState (by decide +kernel)
  have stepped : launchedPhone.step phoneSite (.advance 1 .fine true "phone.onion") = .ok pairedPhone := rfl
  have answered : pairedPhone.answers = launchedPhone.answers ++ [(1, .paired "phone.onion")] := by
    decide +kernel
  have silent : checkAlong (step phoneSite)
      (fun _ input => input.asked phoneSite ≠ some phoneKey) pairedPhone quietInputs =
        true := by decide +kernel
  have along : Along (step phoneSite) (fun _ input => input.asked phoneSite ≠ some phoneKey)
      pairedPhone quietInputs := Along.of_check (fun _ _ checked => of_decide_eq_true checked) silent
  have returns : (run (step phoneSite) pairedPhone quietInputs).toBool = true := by decide +kernel
  have stands := pairing_stands phoneSite freshRelay_booted reaches launchedPhone_running stepped
    answered launchedPhone_notPending along (run_finalState returns)
  exact ⟨stands.1, stands.2.1⟩

/-- At most one request at a time is past the pair lock, and a claim that is answered with success finds the
Owner paired and served. -/
theorem pair_lock_protects (site : RelaySite) {start relay : Relay} (booted : start.Booted)
    (reaches : Reaches (step site) start relay) :
    (∀ left right leftJob rightJob, relay.jobs.get left = some leftJob -> leftJob.locked = true ->
      relay.jobs.get right = some rightJob -> rightJob.locked = true -> left = right) ∧
    ∀ id owner token phase fault prunes address onion after, relay.jobs.get id = some (.pair owner token phase) ->
      relay.step site (.advance id fault prunes address) = .ok after ->
      after.answers = relay.answers ++ [(id, .paired onion)] -> after.Served owner := by
  have guarded := guarded_of_reaches booted reaches
  refine ⟨fun _ _ _ _ => guarded.same_holder, ?_⟩
  intro id owner token phase fault prunes address onion after running stepped answered
  simp only [step, advance, running, Except.ok.injEq] at stepped
  rw [← stepped] at answered ⊢
  exact guarded.paired_served running answered

theorem pair_lock_protects_phone : pairedPhone.Served Http.phoneKey :=
  (pair_lock_protects phoneSite freshRelay_booted (Reaches.finalState (by decide +kernel))).2 1 _ _ _ .fine true
    "phone.onion" "phone.onion" _ launchedPhone_running rfl (by decide +kernel)

/-- The phone pairs, stores an event and asks to be unpaired.  The dispatcher takes the
request and waits; meanwhile the phone pairs again. -/
def pairAgain : List RelayInput :=
  pairPhone ++ [.storeEvent Http.phoneKey "note" [7], .unpair 0 Http.phoneKey Http.capturedHeaders [],
    .dispatch, .pair firstToken] ++ proceed 4 2

/-- The second pairing is answered with success, and then the removal that was asked
for before it takes the row, the event and the task away. -/
theorem second_pairing_is_wiped : freshRelay.Booted ∧ run (step phoneSite) freshRelay pairAgain =
        .ok (relayAfter pairAgain) ∧
      (relayAfter pairAgain).answers.getLast? = some (4, .paired "phone.onion") ∧
      (relayAfter pairAgain).db.servedEvents.lookup (Http.phoneKey, "note") = some ⟨[7], 1⟩ ∧
      (∀ input ∈ proceed 3 3, input.asked phoneSite = none) ∧
      run (step phoneSite) (relayAfter pairAgain) (proceed 3 3) =
        .ok (relayAfter (pairAgain ++ proceed 3 3)) ∧
      Owners.get (relayAfter (pairAgain ++ proceed 3 3)).db Http.phoneKey = none ∧
      (relayAfter (pairAgain ++ proceed 3 3)).owners.lookup Http.phoneKey = none ∧
      (relayAfter (pairAgain ++ proceed 3 3)).db.servedEvents.lookup
        (Http.phoneKey, "note") = none := by
  have first : run (step phoneSite) freshRelay pairAgain =
      .ok (relayAfter pairAgain) := run_finalState (by decide +kernel)
  have second : run (step phoneSite) freshRelay (pairAgain ++ proceed 3 3) =
      .ok (relayAfter (pairAgain ++ proceed 3 3)) :=
    run_finalState (by decide +kernel)
  refine ⟨freshRelay_booted, first, ?_, ?_, ?_, ?_, ?_, ?_, ?_⟩
  · decide +kernel
  · decide +kernel
  · intro input member
    rw [eq_of_mem_replicate member]
    rfl
  · rw [← run_append _ first]
    exact second
  · decide +kernel
  · decide +kernel
  · decide +kernel

end Relay

end Starling
