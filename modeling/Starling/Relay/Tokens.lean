import Starling.Foundation.Tickets
import Starling.Relay.Moves

namespace Starling

/-!
# Pairing tokens are single-use tickets

The unconsumed rows of `pending_pairings` are live tickets: a mint issues one and voids
the others, a claim redeems one, and no other move touches them.  A token that expired
may still be live, but a claim that arrives later reads its expiry first.
-/

open Storage List Option Table Pairings

namespace Relay

variable {site : RelaySite} {relay after : Relay} {input : RelayInput}

def unconsumed (db : Database) : Set Bytes :=
  {token | ∃ row, db.pendingPairings.lookup token = some row ∧ row.consumedAt = none}

def tickets (relay : Relay) : Tickets Nat Bytes where
  issued := relay.minted.map Prod.fst
  live := unconsumed relay.db
  redeemed := relay.spent

variable {db : Database} {now : Int} {row : PendingPairing} {token : Bytes}

theorem lookup_mintRows {prunes minted label createdBy}
    (done : mintRows site prunes db token label createdBy now = some minted) {target}
    (found : minted.pendingPairings.lookup target = some row) :
    (target = token ∧ row.consumedAt = none ∧ row.expiresAt = now + site.pairingTtlSecs) ∨
      (target ≠ token ∧ row.consumedAt ≠ none ∧
        ∃ old, db.pendingPairings.lookup target = some old ∧ row.expiresAt = old.expiresAt) := by
  have inserted := (insert_eq_some done).1
  rw [inserted, lookup_insert_eq] at found
  split at found
  next same =>
    cases found
    exact .inl ⟨same, rfl, rfl⟩
  next apart =>
    refine Or.inr ⟨apart, ?_⟩
    rw [consumeAllUnconsumed, lookup_mapValues, map_eq_some_iff] at found
    rcases found with ⟨old, atOld, rfl⟩
    have kept : db.pendingPairings.lookup target = some old := by
      split at atOld
      · exact (lookup_retain_eq_some.mp atOld).1
      · exact atOld
    unfold consumed
    cases consumed : old.consumedAt with
    | none => exact ⟨by simp only [ne_eq, reduceCtorEq, not_false_eq_true], old, kept, rfl⟩
    | some =>
      refine ⟨?_, old, kept, rfl⟩
      rw [consumed]
      exact some_ne_none _

theorem mintRows_inserts {prunes minted label createdBy}
    (done : mintRows site prunes db token label createdBy now = some minted) :
    unconsumed minted = {token} := by
  ext target
  constructor
  · rintro ⟨_, found, live⟩
    rcases lookup_mintRows done found with ⟨same, _⟩ | ⟨_, consumed, _⟩
    · exact same
    · exact (consumed live).elim
  · intro same
    rw [Set.mem_singleton_iff] at same
    refine ⟨⟨now, now + site.pairingTtlSecs, none, createdBy, label⟩, ?_, rfl⟩
    rw [(insert_eq_some done).1, lookup_insert_eq, if_pos same]

theorem lookup_markConsumed {target} (won : (markConsumed db token now).2 = 1)
    (found : (markConsumed db token now).1.pendingPairings.lookup target = some row) :
    (target = token ∧ row.consumedAt ≠ none ∧
        ∃ old, db.pendingPairings.lookup target = some old ∧ row.expiresAt = old.expiresAt) ∨
      (target ≠ token ∧ db.pendingPairings.lookup target = some row) := by
  rcases markConsumed_one won with ⟨old, atToken, _, rows⟩
  rw [rows, lookup_insert_eq] at found
  split at found
  next same =>
    cases found
    exact .inl ⟨same, some_ne_none _, old, same ▸ atToken, rfl⟩
  next apart => exact .inr ⟨apart, found⟩

theorem unconsumed_markConsumed (won : (markConsumed db token now).2 = 1) :
    unconsumed (markConsumed db token now).1 = unconsumed db \ {token} := by
  ext target
  constructor
  · rintro ⟨row, found, live⟩
    rcases lookup_markConsumed won found with ⟨_, consumed, _⟩ | ⟨apart, old⟩
    · exact (consumed live).elim
    · exact ⟨⟨row, old, live⟩, apart⟩
  · rintro ⟨⟨row, found, live⟩, apart⟩
    rw [Set.mem_singleton_iff] at apart
    refine ⟨row, ?_, live⟩
    rcases markConsumed_one won with ⟨_, _, _, rows⟩
    rw [rows, AList.lookup_insert_ne apart]
    exact found

theorem tickets_congr (minted : after.minted = relay.minted)
    (rows : after.db.pendingPairings = relay.db.pendingPairings) (spent : after.spent = relay.spent) :
    after.tickets = relay.tickets := by
  simp [tickets, unconsumed, minted, rows, spent]

theorem Move.tickets (move : Move site relay input after) :
    after.tickets = relay.tickets ∨ Tickets.Step relay.tickets after.tickets := by
  cases move with
  | mint _ _ token _ _ _ _ _ _ minted =>
    right
    have issued : Tickets.Step relay.tickets _ := Tickets.Step.issue token
    convert issued using 1
    simp [Relay.tickets, Relay.close, recordMinted, withRows, mintRows_inserts minted, map_append]
  | spend id _ token _ _ _ won =>
    right
    rcases markConsumed_one won with ⟨row, atToken, unclaimed, _⟩
    have live : token ∈ relay.tickets.live := ⟨row, atToken, unclaimed⟩
    have redeemed : Tickets.Step relay.tickets _ := Tickets.Step.redeem id token live
    convert redeemed using 1
    simp [Relay.tickets, setJob, recordSpent, withRows, unconsumed_markConsumed won]
  | insert _ _ _ _ _ _ _ _ _ _ inserted =>
    exact .inl (tickets_congr rfl (Owners.insert_eq_some inserted).2.2.1 rfl)
  | storeEvent _ _ _ _ _ stored =>
    exact .inl (tickets_congr rfl (Events.insert_eq_some stored).2.1 rfl)
  | _ => exact .inl rfl

structure Recorded (relay : Relay) : Prop where
  sound : relay.tickets.Sound
  rows : ∀ token row, relay.db.pendingPairings.lookup token = some row -> (token, row.expiresAt) ∈ relay.minted
  arrived : ∀ id token, (id, token) ∈ relay.spent -> id < relay.jobs.next

theorem Booted.recorded (booted : relay.Booted) : relay.Recorded where
  sound := by
    have none : ∀ token, token ∉ relay.tickets.live := by
      rintro token ⟨_, found, _⟩
      rw [booted.noTokens token] at found
      cases found
    refine ⟨fun token live => (none token live).elim,
      fun token live => (none token live).elim, ?_⟩
    rw [tickets, booted.noneSpent]
    exact nil_sublist _
  rows := by
    intro token row found
    rw [booted.noTokens token] at found
    cases found
  arrived := by
    rw [booted.noneSpent]
    exact nofun

section

variable (move : Move site relay input after)
include move

theorem Move.spent {id} (member : (id, token) ∈ after.spent) : (id, token) ∈ relay.spent ∨
      ∃ owner pending now, relay.jobs.get id = some (.pair owner token (.timely pending now)) := by
  cases move with
  | spend _ owner _ pending now found =>
    rcases mem_append.mp member with old | new
    · exact .inl old
    · rw [mem_singleton, Prod.mk.injEq] at new
      rw [new.1, new.2]
      exact .inr ⟨owner, pending, now, found⟩
  | _ => exact .inl member

theorem Move.rows (found : after.db.pendingPairings.lookup token = some row) :
    (∃ old, relay.db.pendingPairings.lookup token = some old ∧ row.expiresAt = old.expiresAt) ∨
      after.minted = relay.minted ++ [(token, row.expiresAt)] := by
  cases move with
  | mint _ _ _ _ _ _ _ _ _ minted =>
    rcases lookup_mintRows minted found with ⟨same, _, expiry⟩ | ⟨_, _, old⟩
    · right
      rw [same, expiry]
      rfl
    · exact .inl old
  | spend _ _ _ _ _ _ won =>
    rcases lookup_markConsumed won found with ⟨_, _, old⟩ | ⟨_, same⟩
    · exact .inl old
    · exact .inl ⟨row, same, rfl⟩
  | insert _ _ _ _ _ _ _ _ _ _ inserted =>
    left
    rw [← (Owners.insert_eq_some inserted).2.2.1]
    exact ⟨row, found, rfl⟩
  | storeEvent _ _ _ _ _ stored =>
    left
    rw [← (Events.insert_eq_some stored).2.1]
    exact ⟨row, found, rfl⟩
  | _ => exact .inl ⟨row, found, rfl⟩

theorem Move.minted : relay.minted.Sublist after.minted := by
  cases move with
  | mint => exact sublist_append_left _ _
  | _ => exact List.Sublist.refl _

theorem Move.recorded (recorded : relay.Recorded) : after.Recorded where
  sound := by
    rcases move.tickets with same | step
    · rw [same]
      exact recorded.sound
    · exact step.sound recorded.sound
  rows := by
    intro token row found
    rcases move.rows found with ⟨old, atOld, expiry⟩ | minted
    · rw [expiry]
      exact move.minted.subset (recorded.rows token old atOld)
    · rw [minted]
      exact mem_append_right _ (mem_singleton_self _)
  arrived := by
    intro id token member
    rcases move.spent member with old | ⟨_, _, _, found⟩
    · exact lt_of_lt_of_le (recorded.arrived id token old) move.next_le
    · exact lt_of_lt_of_le (Jobs.lt_next found) move.next_le

end

theorem recorded_of_reaches {start} (booted : start.Booted)
    (reaches : Reaches (step site) start relay) : relay.Recorded :=
  reaches.invariant (fun _ _ _ recorded stepped => (move_of_step stepped).recorded recorded) booted.recorded

end Relay

/-- A claim that has not found the token unexpired. -/
def PairPhase.Late (bound : Int) : PairPhase -> Prop
  | .found pending => pending.expiresAt < bound
  | .timely _ _ => False
  | _ => True

def RelayJob.Late (token : Bytes) (bound : Int) : RelayJob -> Prop
  | .pair _ claimed phase => claimed = token -> phase.Late bound
  | _ => True

namespace Relay

variable {site : RelaySite} {relay after : Relay} {input : RelayInput}

/-- The token expired before `bound`, and the requests from number `first` on have
neither spent it nor come to spend it. -/
structure Expired (relay : Relay) (token : Bytes) (bound : Int) (first : Nat) : Prop where
  clock : bound ≤ relay.clock
  known : token ∈ relay.minted.map Prod.fst
  rows : ∀ row, relay.db.pendingPairings.lookup token = some row -> row.expiresAt < bound
  claims : relay.jobs.All (fun id job => first ≤ id -> job.Late token bound)
  unspent : ∀ id, first ≤ id -> (id, token) ∉ relay.spent

theorem Move.clock_le (move : Move site relay input after) : relay.clock ≤ after.clock := by
  cases move with
  | tick seconds => exact Int.le_add_of_nonneg_right (Int.natCast_nonneg seconds)
  | _ => exact le_refl _

variable {bound : Int} {first : Nat} {token : Bytes} {final middle : Relay}

section

variable (expired : relay.Expired token bound first)
include expired

theorem Expired.reads {owner claimed phase next} (reads : relay.Reads owner claimed phase next)
    (late : claimed = token -> phase.Late bound) (same : claimed = token) : next.Late bound := by
  cases reads with
  | shortcut | unpaired => trivial
  | found pending row =>
    subst same
    exact expired.rows pending row
  | timely _ unexpired =>
    exact (unexpired (lt_of_lt_of_le (late same) expired.clock)).elim

theorem Expired.claims_move (move : Move site relay input after) :
    after.jobs.All (fun id job => first ≤ id -> job.Late token bound) := by
  intro id job found later
  rcases move.job found with (same | ⟨_, running, stage⟩) |
      ⟨_, ⟨initial, _⟩ | ⟨owner, _, _, rfl⟩⟩
  · exact expired.claims id job same later
  · cases stage with
    | read _ _ _ _ reads =>
      exact expired.reads reads (expired.claims id _ running later)
    | spend | launch => exact fun _ => trivial
    | acquire _ _ _ _ _ decides =>
      intro _
      cases decides with
      | relaunch | launch => trivial
    | await | stop => trivial
  · rcases RelayJob.initial_cases initial with ⟨_, _, _, _, rfl⟩ | ⟨_, _, rfl⟩ | ⟨_, rfl⟩
    · trivial
    · exact fun _ => trivial
    · trivial
  · trivial

theorem Expired.move (move : Move site relay input after) (distinct : (after.minted.map Prod.fst).Nodup) :
    after.Expired token bound first where
  clock := le_trans expired.clock move.clock_le
  known := (move.minted.map Prod.fst).subset expired.known
  rows := by
    intro row found
    rcases move.rows found with ⟨old, atOld, expiry⟩ | minted
    · rw [expiry]
      exact expired.rows old atOld
    · rw [minted, map_append] at distinct
      have apart := (nodup_append.mp distinct).2.2
      exact (apart token expired.known token (mem_singleton_self _) rfl).elim
  claims := expired.claims_move move
  unspent := by
    intro id later member
    rcases move.spent member with old | ⟨_, _, _, found⟩
    · exact expired.unspent id later old
    · exact expired.claims id _ found later rfl

end

theorem distinct_of_move (move : Move site relay input after)
    (distinct : (after.minted.map fst).Nodup) : (relay.minted.map fst).Nodup :=
  distinct.sublist (move.minted.map fst)

def Voided (relay : Relay) (token : Bytes) : Prop :=
  (∃ earlier expiry later, relay.minted = earlier ++ (token, expiry) :: later ∧ later ≠ []) ∨
    ∃ id, (id, token) ∈ relay.spent

def Lapsed (relay : Relay) (token : Bytes) : Prop :=
  ∃ expiry, (token, expiry) ∈ relay.minted ∧ expiry < relay.clock

theorem spent_of_void (reaches : Reaches (step site) middle final) (void : middle.tickets.Void token)
    (distinct : (final.minted.map Prod.fst).Nodup) {id} (member : (id, token) ∈ final.spent) :
    (id, token) ∈ middle.spent := by
  suffices kept : (final.minted.map Prod.fst).Nodup ->
      final.tickets.Void token ∧ ∀ id, (id, token) ∈ final.spent -> (id, token) ∈ middle.spent from
    (kept distinct).2 id member
  apply reaches.invariant
  · intro relay input next kept stepped nextDistinct
    have move := move_of_step stepped
    have before := kept (distinct_of_move move nextDistinct)
    rcases move.tickets with same | step
    · refine ⟨same ▸ before.1, ?_⟩
      intro other spent
      have redeemed : (other, token) ∈ next.tickets.redeemed := spent
      rw [same] at redeemed
      exact before.2 other redeemed
    · have later := step.void nextDistinct before.1
      exact ⟨later.1, fun other spent => before.2 other (later.2 other spent)⟩
  · exact fun _ => ⟨void, fun _ spent => spent⟩

theorem expired_of_reaches (reaches : Reaches (step site) middle final)
    (expired : middle.Expired token bound first) (distinct : (final.minted.map Prod.fst).Nodup) :
    final.Expired token bound first := by
  revert distinct
  apply reaches.invariant
  · intro relay input next kept stepped nextDistinct
    have move := move_of_step stepped
    exact (kept (distinct_of_move move nextDistinct)).move move nextDistinct
  · exact fun _ => expired

theorem Recorded.expired (recorded : relay.Recorded) (distinct : (relay.minted.map Prod.fst).Nodup)
    {expiry} (minted : (token, expiry) ∈ relay.minted) (past : expiry < relay.clock) :
    relay.Expired token relay.clock relay.jobs.next where
  clock := le_refl _
  known := mem_map_of_mem minted
  rows := by
    intro row found
    have same := inj_on_of_nodup_map distinct (recorded.rows token row found) minted rfl
    rw [(Prod.mk.inj same).2]
    exact past
  claims := by
    intro id job found later
    exact (lt_irrefl _ (lt_of_le_of_lt later (Jobs.lt_next found))).elim
  unspent := by
    intro id later member
    exact lt_irrefl _ (lt_of_le_of_lt later (recorded.arrived id token member))

theorem Recorded.void (recorded : relay.Recorded) (distinct : (relay.minted.map Prod.fst).Nodup)
    (voided : relay.Voided token) : relay.tickets.Void token := by
  rcases voided with ⟨earlier, _, newer, record, followed⟩ | ⟨_, spent⟩
  · have names : relay.tickets.issued = earlier.map Prod.fst ++ token :: newer.map Prod.fst := by
      rw [tickets, record, map_append, map_cons]
    exact recorded.sound.void_of_superseded distinct names (fun nil => followed (map_eq_nil_iff.mp nil))
  · exact recorded.sound.void_of_spent distinct (mem_map_of_mem spent)

theorem minted_of_reaches (reaches : Reaches (step site) middle final) : middle.minted.Sublist final.minted := by
  apply reaches.invariant
  · intro relay input next kept stepped
    exact kept.trans (move_of_step stepped).minted
  · exact .refl _

theorem receivePair_answered {body answer}
    (answered : (relay.receivePair site body).answers = relay.answers ++ [(relay.jobs.next, answer)]) :
    (relay.receivePair site body).db = relay.db ∧
      ∀ id, (relay.receivePair site body).jobs.get id = relay.jobs.get id := by
  revert answered
  unfold receivePair
  split
  · exact fun _ => ⟨rfl, fun _ => rfl⟩
  · split
    · exact fun _ => ⟨rfl, fun _ => rfl⟩
    · split
      · exact fun _ => ⟨rfl, fun _ => rfl⟩
      · simp only []
        split
        · intro answered
          exact (ne_cons_self (self_eq_append_right.mp answered).symm).elim
        · exact fun _ => ⟨rfl, fun _ => rfl⟩

def phoneSite : RelaySite where
  K := ⟨Http.lengthDigest, fun _ _ _ => true⟩
  parseClaim := fun body => some ⟨Base64.encode Http.phoneKey.val, body, Http.phoneSignature⟩
  adminOnion := []
  pairingTtlSecs := 600
  portRange := (17000, 17999)

def freshRelay : Relay where
  db := Database.empty
  owners := ∅
  clock := 0
  pairLock := none
  unpairQueue := []
  dispatcher := none
  jobs := Jobs.empty
  answers := []
  minted := []
  spent := []
  inserted := []

abbrev relayAfter (inputs : List RelayInput) : Relay := finalState (step phoneSite) freshRelay inputs

theorem freshRelay_booted : freshRelay.Booted where
  noTokens := fun _ => rfl
  idle := fun _ => rfl
  unlocked := rfl
  noneQueued := rfl
  resting := rfl
  noneMinted := rfl
  noneSpent := rfl
  noneInserted := rfl

def firstToken : Bytes := List.replicate 32 1

def secondToken : Bytes := List.replicate 32 2

def proceed (id count : Nat) : List RelayInput := List.replicate count (.advance id .fine true "phone.onion")

def mintToken (token : Bytes) : RelayInput := .mint token none "web"

def mintTwice : List RelayInput := mintToken firstToken :: proceed 0 1 ++ mintToken secondToken :: proceed 1 1

def claimBoth : List RelayInput := .pair firstToken :: proceed 2 4 ++ .pair secondToken :: proceed 3 7

/-- The second token was spent, and the refused claim was answered with a conflict. -/
example : (relayAfter (mintTwice ++ claimBoth)).spent = [(3, secondToken)] := by decide +kernel

end Relay

end Starling
