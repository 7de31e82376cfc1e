import Starling.Relay.Pairing

namespace Starling

/-!
# What a step of the relay can do

Every step is one of the moves below.  A move keeps what the code has established at
that point (the row that was found, the free lock, the successful insertion), so an
invariant is checked against the moves and never against the handlers again.
-/

open Storage Jobs

def RelayJob.initial : RelayJob -> Bool
  | .mint _ _ _ _ => true
  | .pair _ _ .received => true
  | .unpair _ .waiting => true
  | _ => false

theorem RelayJob.initial_cases {job : RelayJob} (initial : job.initial = true) :
    (∃ token label createdBy now, job = .mint token label createdBy now) ∨
      (∃ owner token, job = .pair owner token .received) ∨ ∃ owner, job = .unpair owner .waiting := by
  cases job with
  | mint token label createdBy now => exact .inl ⟨token, label, createdBy, now, rfl⟩
  | pair owner token phase =>
    cases phase with
    | received => exact .inr (.inl ⟨owner, token, rfl⟩)
    | _ => cases initial
  | unpair owner phase =>
    cases phase with
    | waiting => exact .inr (.inr ⟨owner, rfl⟩)
    | _ => cases initial

def RelayJob.asked : RelayJob -> Option Bytes32
  | .unpair owner _ => some owner
  | _ => none

def RelayInput.asked (site : RelaySite) : RelayInput -> Option Bytes32
  | .unpair now owner headers body =>
    if (Http.unpairHandler site.K now true headers body owner).2 then some owner else none
  | .adminUnpair owner => some owner
  | _ => none

def RelayInput.actor : RelayInput -> Option Nat
  | .advance id _ _ _ => some id
  | _ => none

namespace Relay

inductive Reads (relay : Relay) (owner : Bytes32) (token : Bytes) : PairPhase -> PairPhase -> Prop where
  | shortcut (existing : PairedOwner) (row : Owners.get relay.db owner = some existing) :
      Reads relay owner token .received (.proceed none)
  | unpaired (noRow : Owners.get relay.db owner = none) : Reads relay owner token .received .unpaired
  | found (pending : PendingPairing) (row : Pairings.get relay.db token = some pending) :
      Reads relay owner token .unpaired (.found pending)
  | timely (pending : PendingPairing) (unexpired : ¬ pending.expiresAt < relay.clock) :
      Reads relay owner token (.found pending) (.timely pending relay.clock)

/-- What `pair_owner` sets out to do when it has the lock. -/
inductive Decides (relay : Relay) (owner : Bytes32) (label : Option String) : PairPhase -> Prop where
  | relaunch (existing : PairedOwner) (row : Owners.get relay.db owner = some existing) :
      Decides relay owner label (.relaunching existing)
  | launch (port : Nat) (noRow : Owners.get relay.db owner = none) :
      Decides relay owner label (.launching label port)

section

variable (site : RelaySite) (relay : Relay) (input : RelayInput)

inductive Move : Relay -> Prop where
  | stay : Move relay
  | refuse (answer) : Move (relay.refuse answer)
  | tick (seconds : Nat) : Move { relay with clock := relay.clock + seconds }
  | enqueue (owner answer) (asks : input.asked site = some owner) :
      Move ((relay.enqueueUnpair owner).refuse answer)
  | start (job) (initial : job.initial = true) (asks : input.asked site = job.asked) :
      Move (relay.start job)
  | dequeue (owner rest) (queued : relay.unpairQueue = owner :: rest) :
      Move (relay.dequeue owner rest)
  | close (id job) (found : relay.jobs.get id = some job) (free : job.locked = false) (answer) :
      Move (relay.close id answer)
  | read (id owner token phase next) (found : relay.jobs.get id = some (.pair owner token phase))
      (reads : relay.Reads owner token phase next) : Move (relay.setJob id (.pair owner token next))
  | mint (id prunes token label createdBy now db answer)
      (found : relay.jobs.get id = some (.mint token label createdBy now))
      (minted : mintRows site prunes relay.db token label createdBy now = some db) : Move
        (((relay.withRows db).recordMinted token (now + site.pairingTtlSecs)).close id answer)
  | spend (id owner token pending now)
      (found : relay.jobs.get id = some (.pair owner token (.timely pending now)))
      (won : (Pairings.markConsumed relay.db token now).2 = 1) : Move
        (((relay.withRows (Pairings.markConsumed relay.db token now).1).recordSpent id token).setJob
          id (.pair owner token (.proceed pending.label)))
  | acquire (id owner token label next)
      (found : relay.jobs.get id = some (.pair owner token (.proceed label)))
      (free : relay.pairLock = none) (decides : relay.Decides owner label next)
      (acts : input.actor = some id) : Move ((relay.lock id).setJob id (.pair owner token next))
  | fail (id job) (found : relay.jobs.get id = some job) (held : job.locked = true) (answer) :
      Move (relay.close id answer).unlock
  | relaunch (id owner token existing address answer)
      (found : relay.jobs.get id = some (.pair owner token (.relaunching existing))) :
      Move ((relay.serve owner address).close id answer).unlock
  | launch (id owner token label port address)
      (found : relay.jobs.get id = some (.pair owner token (.launching label port))) :
      Move ((relay.serve owner address).setJob id (.pair owner token (.launched label port address)))
  | withdraw (id owner token label port onion answer)
      (found : relay.jobs.get id = some (.pair owner token (.launched label port onion))) :
      Move ((relay.stopOwner owner).close id answer).unlock
  | insert (id owner token label port onion row db answer)
      (found : relay.jobs.get id = some (.pair owner token (.launched label port onion)))
      (inserted : Owners.insert relay.db owner row = some db) :
      Move (((relay.withRows db).recordInserted id owner).close id answer).unlock
  | await (id owner) (found : relay.jobs.get id = some (.unpair owner .grace)) :
      Move (relay.setJob id (.unpair owner .waiting))
  | stop (id owner) (found : relay.jobs.get id = some (.unpair owner .waiting))
      (free : relay.pairLock = none) :
      Move (((relay.stopOwner owner).lock id).setJob id (.unpair owner .stopped))
  | abandon (id owner answer) (found : relay.jobs.get id = some (.unpair owner .stopped)) :
      Move (relay.finishUnpair id answer)
  | remove (id owner answer) (found : relay.jobs.get id = some (.unpair owner .stopped)) :
      Move ((relay.withRows (Owners.delete relay.db owner)).finishUnpair id answer)
  | storeEvent (owner id payload db new)
      (stored : Events.insert relay.db owner id payload = some (db, new)) : Move (relay.withRows db)

end

variable {site : RelaySite} {relay : Relay} {input : RelayInput}

theorem move_receivePair (body) : Move site relay (.pair body) (relay.receivePair site body) := by
  unfold receivePair
  split
  · exact .refuse _
  · split
    · exact .refuse _
    · split
      · exact .refuse _
      · simp only []
        split
        next pubkey _ _ => exact .start (.pair pubkey _ .received) rfl rfl
        · exact .refuse _

theorem move_receiveUnpair (now owner headers body) : Move site relay (.unpair now owner headers body)
      (relay.receiveUnpair site now owner headers body) := by
  unfold receiveUnpair
  simp only []
  split
  next triggered => exact .enqueue owner _ (if_pos triggered)
  · exact .refuse _

theorem move_dispatch : Move site relay .dispatch relay.dispatch := by
  unfold dispatch
  split
  next queued => exact .dequeue _ _ queued
  · exact .stay

theorem move_storeEvent (owner id payload) :
    Move site relay (.storeEvent owner id payload) (relay.storeEvent owner id payload) := by
  unfold storeEvent
  split
  · exact .stay
  next stored => exact .storeEvent _ _ _ _ _ stored

variable {id : Nat} {label : Option String} {token : Bytes} {owner : Bytes32}

theorem move_advanceMint {createdBy now} (found : relay.jobs.get id = some (.mint token label createdBy now))
    (fault prunes) :
    Move site relay input (relay.advanceMint site id fault prunes token label createdBy now) := by
  unfold advanceMint
  split
  · exact .close id _ found rfl _
  · split
    · exact .close id _ found rfl _
    next minted => exact .mint id prunes _ _ _ _ _ _ found minted

theorem move_spend {pending now} (found : relay.jobs.get id = some (.pair owner token (.timely pending now))) :
    Move site relay input (relay.spend id owner token pending now) := by
  unfold spend
  simp only []
  split
  next won => exact .spend id owner token pending now found won
  · exact .close id _ found rfl _

theorem move_pairOwner (found : relay.jobs.get id = some (.pair owner token (.proceed label)))
    (free : relay.pairLock = none) (acts : input.actor = some id) :
    Move site relay input (relay.pairOwner site id owner token label) := by
  unfold pairOwner
  split
  next existing row =>
    split
    · exact .close id _ found rfl _
    · exact .acquire id owner token label _ found free (.relaunch existing row) acts
  next noRow =>
    split
    · exact .close id _ found rfl _
    next port _ => exact .acquire id owner token label _ found free (.launch port noRow) acts

theorem move_persist {port onion}
    (found : relay.jobs.get id = some (.pair owner token (.launched label port onion))) (fault) :
    Move site relay input (relay.persist id fault owner label port onion) := by
  unfold persist
  split
  · exact .fail id _ found rfl _
  · exact .withdraw id owner token label port onion _ found
  · split
    · exact .withdraw id owner token label port onion _ found
    next inserted => exact .insert id owner token label port onion _ _ _ found inserted

theorem move_advancePair {phase} (found : relay.jobs.get id = some (.pair owner token phase))
    (fault address) (acts : input.actor = some id) :
    Move site relay input (relay.advancePair site id fault address owner token phase) := by
  cases phase with
  | received =>
    rw [advancePair]
    split
    · exact .close id _ found rfl _
    · split
      next existing row => exact .read id owner token _ _ found (.shortcut existing row)
      next noRow => exact .read id owner token _ _ found (.unpaired noRow)
  | unpaired =>
    rw [advancePair]
    split
    · exact .close id _ found rfl _
    · split
      · exact .close id _ found rfl _
      next pending row => exact .read id owner token _ _ found (.found pending row)
  | found pending =>
    rw [advancePair]
    split
    · exact .close id _ found rfl _
    next unexpired => exact .read id owner token _ _ found (.timely pending unexpired)
  | timely =>
    rw [advancePair]
    split
    · exact .close id _ found rfl _
    · exact move_spend found
  | proceed =>
    rw [advancePair]
    split
    · exact .stay
    next unlocked =>
      split
      · exact .close id _ found rfl _
      · exact move_pairOwner found (Option.not_isSome_iff_eq_none.mp unlocked) acts
  | relaunching existing =>
    rw [advancePair]
    split
    · exact .fail id _ found rfl _
    · exact .relaunch id owner token existing address _ found
  | launching label port =>
    rw [advancePair]
    split
    · exact .fail id _ found rfl _
    · exact .launch id owner token label port address found
  | launched => exact move_persist found fault

theorem move_advanceUnpair {phase} (found : relay.jobs.get id = some (.unpair owner phase))
    (fault) : Move site relay input (relay.advanceUnpair id fault owner phase) := by
  cases phase with
  | grace => exact .await id owner found
  | waiting =>
    rw [advanceUnpair]
    split
    · exact .stay
    next unlocked => exact .stop id owner found (Option.not_isSome_iff_eq_none.mp unlocked)
  | stopped =>
    rw [advanceUnpair]
    split
    · exact .abandon id owner _ found
    · exact .remove id owner _ found

theorem move_of_step {input next} (stepped : relay.step site input = .ok next) : Move site relay input next := by
  cases input with cases stepped
  | mint token label createdBy => exact .start (.mint token label createdBy relay.clock) rfl rfl
  | pair body => exact move_receivePair body
  | unpair now owner headers body => exact move_receiveUnpair now owner headers body
  | adminUnpair owner => exact .start (.unpair owner .waiting) rfl rfl
  | dispatch => exact move_dispatch
  | storeEvent owner id payload => exact move_storeEvent owner id payload
  | tick seconds => exact .tick seconds
  | advance _ fault prunes address =>
    unfold advance
    split
    · exact .stay
    next found => exact move_advanceMint found fault prunes
    next found => exact move_advancePair found fault address rfl
    next found => exact move_advanceUnpair found fault

/-! ## What a step does to one request -/

/-- The stages that a running request passes from one step to the next, with what the
step has done for it. -/
inductive Stage (relay after : Relay) (input : RelayInput) (id : Nat) : RelayJob -> RelayJob -> Prop where
  | read (owner : Bytes32) (token : Bytes) (phase next : PairPhase)
      (reads : relay.Reads owner token phase next) :
      Stage relay after input id (.pair owner token phase) (.pair owner token next)
  | spend (owner : Bytes32) (token : Bytes) (pending : PendingPairing) (now : Int) :
      Stage relay after input id (.pair owner token (.timely pending now)) (.pair owner token (.proceed pending.label))
  | acquire (owner : Bytes32) (token : Bytes) (label : Option String) (next : PairPhase)
      (free : relay.pairLock = none) (decides : relay.Decides owner label next)
      (acts : input.actor = some id) (holds : after.pairLock = some id) :
      Stage relay after input id (.pair owner token (.proceed label)) (.pair owner token next)
  | launch (owner : Bytes32) (token : Bytes) (label : Option String) (port : Nat) (address : String)
      (serves : owner ∈ after.owners) :
      Stage relay after input id (.pair owner token (.launching label port))
        (.pair owner token (.launched label port address))
  | await (owner : Bytes32) :
      Stage relay after input id (.unpair owner .grace) (.unpair owner .waiting)
  | stop (owner : Bytes32) (free : relay.pairLock = none) (holds : after.pairLock = some id) :
      Stage relay after input id (.unpair owner .waiting) (.unpair owner .stopped)

variable {after : Relay}

theorem job_of_update {id target old next job} (running : relay.jobs.get id = some old)
    (stage : relay.Stage after input id old next)
    (found : (relay.jobs.update id next).get target = some job) : relay.jobs.get target = some job ∨
      ∃ earlier, relay.jobs.get target = some earlier ∧ relay.Stage after input target earlier job := by
  rw [get_update running] at found
  split at found
  next same =>
    cases found
    subst same
    exact .inr ⟨old, running, stage⟩
  · exact .inl found

section

variable (move : Move site relay input after)
include move

theorem Move.job {job} (found : after.jobs.get id = some job) : (relay.jobs.get id = some job ∨
      ∃ earlier, relay.jobs.get id = some earlier ∧ relay.Stage after input id earlier job) ∨
        (id = relay.jobs.next ∧ ((job.initial = true ∧ input.asked site = job.asked) ∨
            ∃ owner rest, relay.unpairQueue = owner :: rest ∧ job = .unpair owner .grace)) := by
  cases move with
  | stay | refuse | tick | enqueue | storeEvent => exact .inl (.inl found)
  | start first initial asks =>
    change (relay.jobs.start first).get id = some job at found
    rw [get_start] at found
    split at found
    next same =>
      cases found
      exact .inr ⟨same, .inl ⟨initial, asks⟩⟩
    · exact .inl (.inl found)
  | dequeue owner rest queued =>
    change (relay.jobs.start (.unpair owner .grace)).get id = some job at found
    rw [get_start] at found
    split at found
    next same =>
      cases found
      exact .inr ⟨same, .inr ⟨owner, rest, queued, rfl⟩⟩
    · exact .inl (.inl found)
  | read _ owner token phase next running reads =>
    exact .inl (job_of_update running (.read owner token phase next reads) found)
  | spend _ owner token pending now running =>
    exact .inl (job_of_update running (.spend owner token pending now) found)
  | acquire _ owner token label next running free decides acts =>
    exact .inl (job_of_update running (.acquire owner token label next free decides acts rfl) found)
  | launch _ owner token label port address running =>
    exact .inl (job_of_update running (.launch owner token label port address
      ((AList.mem_insert _).mpr (.inl rfl))) found)
  | await _ owner running => exact .inl (job_of_update running (.await owner) found)
  | stop _ owner running free => exact .inl (job_of_update running (.stop owner free rfl) found)
  | _ => exact .inl (.inl (of_get_finish found).1)

theorem Move.next_le : relay.jobs.next ≤ after.jobs.next := by
  cases move with
  | refuse | enqueue | start | dequeue => exact Nat.le_succ _
  | read | spend | acquire | launch | await | stop => exact le_of_eq (next_update _ _ _).symm
  | _ => exact le_refl _

theorem Move.gone (given : id < relay.jobs.next) (ended : relay.jobs.get id = none) : after.jobs.get id = none := by
  cases found : after.jobs.get id with
  | none => rfl
  | some job =>
    rcases move.job found with (same | ⟨_, running, _⟩) | ⟨new, _⟩
    · rw [ended] at same
      cases same
    · rw [ended] at running
      cases running
    · exact (lt_irrefl _ (new ▸ given)).elim

end

end Relay

end Starling
