import Starling.App.Distributions
import Starling.App.FollowKeys
import Starling.Foundation.Run

namespace Starling.App

open App.Distributions List Option

/-!
# What a follower can read

An author posts and rotates the feed key, and a follower syncs now and then.  A pass
acknowledges the last rotation that the follower has, and is handed the newest one that is
not acknowledged.  Which key opens an event is decided by seconds: the follower keeps an old
key for the window from its own rotation up to the next one that they get, without the last
second.  An event of that second is outside, and so is everything under a key that the
follower never got.
-/

/-- What `randomBytes(32)` returns. -/
abbrev RandomKey := { key : FeedKey // key.length = 32 }

theorem RandomKey.ne_nil (key : RandomKey) : key.val ≠ [] := by
  intro empty
  have length := key.property
  rw [empty] at length
  cases length

/-- One author and one follower.  `rotatedAt` is the second of the last rotation, and no call
reads it. -/
structure Reading where
  clock : Int
  feedKey : FeedKey
  feedKeyEpoch : Nat
  msgSeqCounter : Nat
  events : List EncryptedEvent
  pending : Distributions
  reader : Pubkey
  follow : Follow
  history : List FollowKeyRow
  rotatedAt : Int

inductive ReadingInput where
  | tick (seconds : Nat)
  | post
  | rotate (newKey : RandomKey)
  | sync

namespace Reading

variable {state next : Reading} {input : ReadingInput}

section

variable (state : Reading)

def tick (seconds : Nat) : Reading := { state with clock := state.clock + seconds }

def post : Reading :=
  { state with
    events := state.events ++ [EncryptedEvent.mk state.follow.pubkey state.clock state.feedKeyEpoch
        ⟨state.feedKey, state.msgSeqCounter⟩]
    msgSeqCounter := state.msgSeqCounter + 1 }

/-- `_rotateLocked`, for an accepted follower. -/
def rotate (newKey : FeedKey) : Reading :=
  { state with
    feedKey := newKey
    feedKeyEpoch := 0
    msgSeqCounter := 0
    pending := state.pending.add state.reader state.clock newKey
    rotatedAt := state.clock }

/-- `applyDeliveryAcks`; there is no acknowledgement before the first rotation. -/
def acked : Distributions :=
  if 0 < state.follow.lastReceivedRotationAt then
    state.pending.markDelivered state.reader state.follow.lastReceivedRotationAt
  else state.pending

/-- `_applyRotatedFeedKey`. -/
def applyRotatedFeedKey (delivery : SealedDelivery FeedKey) : Reading :=
  match state.follow.keyFrom delivery with
  | none => state
  | some newKey =>
    { state with
      history := state.history ++ state.follow.archive delivery.createdAt
      follow := state.follow.withKey newKey delivery.createdAt }

def sync : Reading :=
  let acknowledged := { state with pending := state.acked }
  match state.acked.latestPendingFor state.reader with
  | none => acknowledged
  | some row => acknowledged.applyRotatedFeedKey ⟨row.createdAt, some row.feedKey⟩

def step : ReadingInput -> Except Empty Reading
  | .tick seconds => .ok (state.tick seconds)
  | .post => .ok state.post
  | .rotate newKey => .ok (state.rotate newKey.val)
  | .sync => .ok state.sync

def boot (reader : Pubkey) (author : Pubkey) (card : ConnectionCard) (feedKey : RandomKey)
    (epoch start : Nat) : Reading where
  clock := start
  feedKey := feedKey.val
  feedKeyEpoch := epoch
  msgSeqCounter := 0
  events := []
  pending := ∅
  reader := reader
  follow := ⟨author, card, feedKey.val, epoch, 0, 0, 0, 0, none⟩
  history := []
  rotatedAt := 0

/-- A rotation comes in a later second than every event under the retiring key, and than the
last rotation that the follower has; and if there is such an event, the follower has the
retiring key. -/
def rotatesCleanly : ReadingInput -> Bool
  | .rotate _ =>
    decide (state.follow.lastReceivedRotationAt < state.clock) && state.events.all (fun encrypted =>
        decide (encrypted.sealing.feedKey ≠ state.feedKey) ||
          decide (encrypted.createdAt ≠ state.clock ∧ state.follow.feedKey = state.feedKey))
  | _ => true

end

/-- Why an event is, or will be, readable: it is under the current key, or under the key that
the follower has and will keep for it, or under one that the follower keeps. -/
inductive Kept (state : Reading) (encrypted : EncryptedEvent) : Prop where
  | current (key : encrypted.sealing.feedKey = state.feedKey)
      (since : state.rotatedAt ≤ encrypted.createdAt)
  | held (key : encrypted.sealing.feedKey = state.follow.feedKey)
      (since : state.follow.lastReceivedRotationAt ≤ encrypted.createdAt)
      (before : encrypted.createdAt < state.rotatedAt)
  | archived (row : FollowKeyRow) (member : row ∈ state.history)
      (mine : row.followPubkey = state.follow.pubkey)
      (key : row.feedKey = encrypted.sealing.feedKey)
      (since : row.validFrom ≤ encrypted.createdAt) (before : encrypted.createdAt < row.validUntil)

structure Readable (state : Reading) : Prop where
  begun : 0 ≤ state.follow.lastReceivedRotationAt
  behind : state.follow.lastReceivedRotationAt ≤ state.rotatedAt
  past : state.rotatedAt ≤ state.clock
  filled : state.follow.feedKey ≠ [] ∧ state.feedKey ≠ []
  keyed : state.pending.Keyed
  rows : ∀ key row, state.pending.lookup key = some row -> 0 < row.createdAt ∧ row.createdAt ≤ state.rotatedAt
  holds : state.follow.lastReceivedRotationAt = state.rotatedAt -> state.follow.feedKey = state.feedKey
  waits : state.follow.lastReceivedRotationAt < state.rotatedAt ->
    state.pending.lookup (state.reader, state.rotatedAt) =
      some ⟨state.reader, state.rotatedAt, state.feedKey, false⟩
  written : ∀ encrypted ∈ state.events, encrypted.createdAt ≤ state.clock ∧ state.Kept encrypted

namespace Readable

theorem kept_congr {encrypted} (kept : state.Kept encrypted)
    (feedKey : next.feedKey = state.feedKey) (rotatedAt : next.rotatedAt = state.rotatedAt)
    (follow : next.follow = state.follow) (history : next.history = state.history) : next.Kept encrypted := by
  cases kept with
  | current key since => exact .current (feedKey ▸ key) (rotatedAt ▸ since)
  | held key since before => exact .held (follow ▸ key) (follow ▸ since) (rotatedAt ▸ before)
  | archived row member mine key since before =>
    exact .archived row (history ▸ member) (follow ▸ mine) key since before

section

variable (kept : Readable state)
include kept

theorem tick (seconds : Nat) : Readable (state.tick seconds) := by
  have later : state.clock ≤ (state.tick seconds).clock := Int.le_add_of_nonneg_right (by omega)
  refine { kept with past := kept.past.trans later, written := ?_ }
  intro encrypted member
  have facts := kept.written encrypted member
  exact ⟨facts.1.trans later, kept_congr facts.2 rfl rfl rfl rfl⟩

theorem post : Readable state.post := by
  refine { kept with written := ?_ }
  refine forall_mem_append.mpr ⟨?_, forall_mem_singleton.mpr ⟨le_refl _, .current rfl kept.past⟩⟩
  intro encrypted before
  have facts := kept.written encrypted before
  exact ⟨facts.1, kept_congr facts.2 rfl rfl rfl rfl⟩

theorem rotate {newKey} (cleanly : state.rotatesCleanly (.rotate newKey) = true) :
    Readable (state.rotate newKey.val) := by
  rw [rotatesCleanly, Bool.and_eq_true, decide_eq_true_eq, List.all_eq_true] at cleanly
  refine ⟨kept.begun, cleanly.1.le, le_refl _, ⟨kept.filled.1, newKey.ne_nil⟩, kept.keyed.add _ _ _,
    ?_, ?_, ?_, ?_⟩
  · intro key row found
    change (state.pending.add _ _ _).lookup key = some row at found
    rw [lookup_add] at found
    split at found
    · cases found
      exact ⟨lt_of_le_of_lt kept.begun cleanly.1, le_refl _⟩
    · have bounds := kept.rows key row found
      exact ⟨bounds.1, bounds.2.trans kept.past⟩
  · intro same
    exact (cleanly.1.ne same).elim
  · intro _
    change (state.pending.add _ _ _).lookup (state.reader, state.clock) = _
    rw [lookup_add, if_pos rfl]
    rfl
  · intro encrypted member
    have facts := kept.written encrypted member
    refine ⟨facts.1, ?_⟩
    cases facts.2 with
    | current key since =>
      have either := cleanly.2 encrypted member
      rw [Bool.or_eq_true, decide_eq_true_eq, decide_eq_true_eq] at either
      rcases either with apart | ⟨notNow, has⟩
      · exact (apart key).elim
      · exact .held (key.trans has.symm) (kept.behind.trans since) (lt_of_le_of_ne facts.1 notNow)
    | held key since before => exact .held key since (before.trans_le kept.past)
    | archived row inside mine key since before => exact .archived row inside mine key since before

theorem keyed_acked : state.acked.Keyed := by
  unfold acked
  split
  · exact kept.keyed.markDelivered _ _
  · exact kept.keyed

end

theorem lookup_acked {key row} (found : state.acked.lookup key = some row) :
    ∃ before, state.pending.lookup key = some before ∧ before.targetPubkey = row.targetPubkey ∧
      before.createdAt = row.createdAt ∧
      (row.distributed = false -> state.follow.lastReceivedRotationAt ≤ 0 ∨ before.targetPubkey ≠ state.reader ∨
          state.follow.lastReceivedRotationAt < before.createdAt) := by
  unfold acked at found
  split at found
  · rw [lookup_markDelivered, map_eq_some_iff] at found
    rcases found with ⟨before, atKey, rfl⟩
    refine ⟨before, atKey, ?_⟩
    split
    · exact ⟨rfl, rfl, nofun⟩
    next unmarked =>
      refine ⟨rfl, rfl, fun _ => Or.inr ?_⟩
      by_cases target : before.targetPubkey = state.reader
      · exact .inr (not_le.mp (fun early => unmarked ⟨target, early⟩))
      · exact .inl target
  next first => exact ⟨row, found, rfl, rfl, fun _ => Or.inl (not_lt.mp first)⟩

section

variable (kept : Readable state)
include kept

theorem rows_acked (key row) (found : state.acked.lookup key = some row) :
    0 < row.createdAt ∧ row.createdAt ≤ state.rotatedAt := by
  rcases lookup_acked found with ⟨before, atKey, _, sameTime, _⟩
  rw [← sameTime]
  exact kept.rows key before atKey

theorem sync_current (same : state.follow.lastReceivedRotationAt = state.rotatedAt) :
    state.sync = { state with pending := state.acked } := by
  have nothing : state.acked.latestPendingFor state.reader = none := by
    apply latest_none
    intro row waiting
    rcases mem_waiting.mp waiting with ⟨⟨key, found⟩, target, undelivered⟩
    rcases lookup_acked found with ⟨before, atKey, sameTarget, _, excuse⟩
    have bounds := kept.rows key before atKey
    rcases excuse undelivered with _ | other | _
    · omega
    · exact other (sameTarget.trans target)
    · omega
  rw [sync, nothing]

theorem sync_behind (behind : state.follow.lastReceivedRotationAt < state.rotatedAt) :
    state.sync = { state with
      pending := state.acked
      history := state.history ++ state.follow.archive state.rotatedAt
      follow := state.follow.withKey state.feedKey state.rotatedAt } := by
  have still : state.acked.lookup (state.reader, state.rotatedAt) =
      some ⟨state.reader, state.rotatedAt, state.feedKey, false⟩ := by
    unfold acked
    split
    · rw [lookup_markDelivered, kept.waits behind, map_some, if_neg]
      exact fun early => (not_le.mpr behind) early.2
    · exact kept.waits behind
  have latest : state.acked.latestPendingFor state.reader =
      some ⟨state.reader, state.rotatedAt, state.feedKey, false⟩ := by
    apply latest_eq kept.keyed_acked
    · exact mem_waiting.mpr ⟨⟨_, still⟩, rfl, rfl⟩
    · intro other waiting
      rcases mem_waiting.mp waiting with ⟨⟨key, found⟩, _, _⟩
      exact (kept.rows_acked key other found).2
  rw [sync, latest]
  dsimp only
  rw [applyRotatedFeedKey, Follow.keyFrom]
  rw [if_neg (not_lt.mpr behind.le)]

theorem sync : Readable state.sync ∧ state.sync.follow.lastReceivedRotationAt = state.sync.rotatedAt := by
  rcases kept.behind.lt_or_eq with behind | same
  · rw [kept.sync_behind behind]
    refine ⟨⟨kept.begun.trans behind.le, le_refl _, kept.past, ⟨kept.filled.2, kept.filled.2⟩,
      kept.keyed_acked, kept.rows_acked, fun _ => rfl, ?_, ?_⟩, rfl⟩
    · intro late
      exact (lt_irrefl _ late).elim
    · intro encrypted member
      have facts := kept.written encrypted member
      refine ⟨facts.1, ?_⟩
      cases facts.2 with
      | current key since => exact .current key since
      | held key since before =>
        refine .archived ⟨state.follow.pubkey, state.follow.feedKey, state.follow.feedKeyEpoch,
          state.follow.lastReceivedRotationAt, state.rotatedAt⟩ ?_ rfl key.symm since before
        rw [Follow.archive, if_neg kept.filled.1]
        exact mem_append_right _ (mem_singleton_self _)
      | archived row inside mine key since before =>
        exact .archived row (mem_append_left _ inside) mine key since before
  · rw [kept.sync_current same]
    refine ⟨{ kept with keyed := kept.keyed_acked, rows := kept.rows_acked, waits := ?_, written := ?_ }, same⟩
    · intro late
      exact (late.ne same).elim
    · intro encrypted member
      have facts := kept.written encrypted member
      exact ⟨facts.1, kept_congr facts.2 rfl rfl rfl rfl⟩

theorem move (cleanly : state.rotatesCleanly input = true) (stepped : state.step input = .ok next) : Readable next := by
  cases input with cases stepped
  | tick seconds => exact kept.tick seconds
  | post => exact kept.post
  | rotate => exact kept.rotate cleanly
  | sync => exact kept.sync.1

end

theorem boot (reader author card feedKey) (epoch start : Nat) :
    Readable (boot reader author card feedKey epoch start) where
  begun := le_refl _
  behind := le_refl _
  past := Int.natCast_nonneg start
  filled := ⟨feedKey.ne_nil, feedKey.ne_nil⟩
  keyed := nofun
  rows := nofun
  holds := fun _ => rfl
  waits := fun late => (lt_irrefl _ late).elim
  written := nofun

end Readable

def UpToDate (state : Reading) : Prop := Readable state ∧ state.follow.lastReceivedRotationAt = state.rotatedAt

theorem UpToDate.move (current : UpToDate state) (other : ∀ newKey, input ≠ .rotate newKey)
    (stepped : state.step input = .ok next) : UpToDate next := by
  cases input with
  | tick seconds => cases stepped; exact ⟨current.1.tick seconds, current.2⟩
  | post => cases stepped; exact ⟨current.1.post, current.2⟩
  | rotate newKey => exact (other newKey rfl).elim
  | sync => cases stepped; exact current.1.sync

theorem UpToDate.decrypts (current : UpToDate state) {encrypted}
    (member : encrypted ∈ state.events) : state.follow.decrypts state.history encrypted = true := by
  rw [Follow.decrypts_iff]
  cases (current.1.written encrypted member).2 with
  | current key => exact .inl (key.trans (current.1.holds current.2).symm)
  | held key => exact .inl key
  | archived row inside mine key since before => exact .inr ⟨row, inside, mine, key, since, before⟩

/-- If every rotation is clean, then after a pass, and until the next rotation, every event
of the author is decrypted by one of the follower's candidate keys. -/
theorem follower_reads_everything (reader author : Pubkey) (card : ConnectionCard) (feedKey : RandomKey)
    (epoch start : Nat) {before after : List ReadingInput} {final : Reading}
    (cleanly : Along step (fun state input => state.rotatesCleanly input = true)
      (Reading.boot reader author card feedKey epoch start) (before ++ .sync :: after))
    (last : ∀ newKey, ReadingInput.rotate newKey ∉ after)
    (reached : run step (Reading.boot reader author card feedKey epoch start)
      (before ++ .sync :: after) = .ok final) {encrypted : EncryptedEvent} (member : encrypted ∈ final.events) :
    final.follow.decrypts final.history encrypted = true := by
  rcases run_of_append reached with ⟨middle, first, rest⟩
  rcases run_of_cons rest with ⟨_, stepped, later⟩
  have kept : Readable middle :=
    run_invariant (fun _ _ _ holds allowed stepped => holds.move allowed stepped)
      (Readable.boot reader author card feedKey epoch start) cleanly.left first
  cases stepped
  have quiet : Along step (fun _ input => ∀ newKey, input ≠ .rotate newKey) middle.sync after := by
    apply Along.of_mem
    rintro _ _ inside newKey rfl
    exact last newKey inside
  have current : UpToDate final :=
    run_invariant (fun _ _ _ holds allowed stepped => holds.move allowed stepped) kept.sync quiet later
  exact current.decrypts member

/-! ## Days of an author -/

def exampleRandomKey (byte : UInt8) : RandomKey := Bytes32.fill byte

def freshReading : Reading := boot "READER" "AUTHOR" ⟨"AUTHOR", [], []⟩ (exampleRandomKey 1) 0 100

def readableDay : List ReadingInput :=
  [.post, .tick 1, .rotate (exampleRandomKey 2), .sync, .post, .tick 5, .rotate (exampleRandomKey 3)]

abbrev readToday : Reading := finalState step freshReading (readableDay ++ .sync :: [.post])

theorem follower_reads_everything_readableDay :
    readToday.events.map (fun encrypted => encrypted.sealing.feedKey) =
        [(exampleRandomKey 1).val, (exampleRandomKey 2).val, (exampleRandomKey 3).val] ∧
      ∀ encrypted, encrypted ∈ readToday.events ->
        readToday.follow.decrypts readToday.history encrypted = true := by
  have checks : checkAlong step (fun state input => state.rotatesCleanly input) freshReading
        (readableDay ++ .sync :: [.post]) = true ∧
      (run step freshReading (readableDay ++ .sync :: [.post])).toBool = true := by
    decide +kernel
  refine ⟨by decide +kernel, fun encrypted member => ?_⟩
  exact follower_reads_everything "READER" "AUTHOR" ⟨"AUTHOR", [], []⟩ (exampleRandomKey 1) 0 100
    (Along.checked checks.1) nofun (run_finalState checks.2) member

def readableIn (inputs : List ReadingInput) : List Bool :=
  let final := finalState step freshReading inputs
  final.events.map (final.follow.decrypts final.history)

/-- A post in the second of the rotation that retires its key is lost.  So is a post after a
second rotation in the second of one that the follower has, and a post under a key that was
retired before the follower came. -/
theorem follower_misses_events :
    readableIn [.post, .rotate (exampleRandomKey 2), .sync, .tick 9, .sync] = [false] ∧
      readableIn [.rotate (exampleRandomKey 2), .sync, .rotate (exampleRandomKey 3), .tick 9, .post,
        .sync, .sync] = [false] ∧
      readableIn [.rotate (exampleRandomKey 2), .tick 9, .post, .tick 9, .rotate (exampleRandomKey 3),
        .sync, .sync] = [false] := by
  decide +kernel

end Reading

end Starling.App
