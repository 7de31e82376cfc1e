import Starling.App.RoomHistory
import Starling.Foundation.Jobs

namespace Starling.App

open List Phone Option

/-!
# One room row and those who write it

Sending, adding, rotating and leaving hold the publish lock, and what arrives does not.  All of them
read the row, wait, and write the whole row back.
-/

/-- The calls under the lock; `send` is `announceCall` too. -/
inductive RoomCall where
  | send (now : Int)
  | addMember (now : Int)
  | rotate (newKey : FeedKey) (now : Int)
  | leaveRoom

inductive RoomArrival where
  | key (delivery : RoomKeyDelivery) (roomKey : FeedKey) (now : Int)
  | create (name : String) (creatorPubkey : Pubkey) (createdAt : Int)
  | roster (membershipEpoch : Int) (listed : Bool)

namespace RoomCall

def seals (room : Room) : RoomCall -> Option (FeedKey × Nat)
  | .rotate newKey _ => some (newKey, 0)
  | .leaveRoom => none
  | _ => some (room.roomKey, room.roomMsgSeqCounter)

def saves (room : Room) : RoomCall -> Room
  | .send now => { room with roomMsgSeqCounter := room.roomMsgSeqCounter + 1, lastActivityAt := now }
  | .addMember now =>
    { room with
      roomMsgSeqCounter := room.roomMsgSeqCounter + 1
      membershipEpoch := room.membershipEpoch + 1
      lastActivityAt := now }
  | .rotate newKey now => rotatedRoom room now newKey
  | .leaveRoom => { room with isMember := false }

def adopts (room : Room) : RoomCall -> Option (Int × FeedKey)
  | .rotate newKey _ => some (room.roomKeyEpoch + 1, newKey)
  | _ => none

def refused (room : Room) : RoomCall -> Bool
  | .send _ => !room.isMember
  | _ => false

end RoomCall

namespace RoomArrival

def saves : Option Room -> RoomArrival -> Option Room
  | none, .key delivery roomKey now => some (provisionalRoom delivery roomKey now)
  | none, _ => none
  | some room, .key delivery roomKey _ =>
    if room.roomKeyEpoch < delivery.epoch then some (adopt room delivery roomKey)
    else if delivery.epoch < room.roomKeyEpoch ∨ room.isMember then none
    else some { room with isMember := true }
  | some room, .create name creatorPubkey createdAt => some { room with name, creatorPubkey, createdAt }
  | some room, .roster membershipEpoch listed =>
    if room.membershipEpoch < membershipEpoch then some { room with membershipEpoch, isMember := listed }
    else none

def adopts : Option Room -> RoomArrival -> Option (Int × FeedKey)
  | read, .key delivery roomKey _ =>
    if read.all (fun room => room.roomKeyEpoch < delivery.epoch) then some (delivery.epoch, roomKey)
    else none
  | _, _ => none

end RoomArrival

structure RoomHolder where
  call : RoomCall
  room : Room
  sealed : Bool

structure RoomCell where
  row : Option Room
  used : List (FeedKey × Nat)
  adopted : List (Int × FeedKey)
  holder : Option RoomHolder
  arrivals : Jobs (RoomArrival × Option Room)

inductive RoomMoment where
  | call (call : RoomCall)
  | encrypt
  | save
  | arrive (arrival : RoomArrival)
  | apply (id : Nat)

namespace RoomCell

def columns (room : Room) : Int × FeedKey := (room.roomKeyEpoch, room.roomKey)

def start (row : Option Room) (used : List (FeedKey × Nat)) : RoomCell :=
  ⟨row, used, (row.map columns).toList, none, .empty⟩

section

variable (cell : RoomCell)

/-- `none` stands for a call that has to wait or is refused. -/
def moved : RoomMoment -> Option RoomCell
  | .call call => do
    let room <- cell.row
    if cell.holder.isSome ∨ call.refused room then none
    else some { cell with holder := some ⟨call, room, false⟩ }
  | .encrypt => do
    let holder <- cell.holder
    let number <- holder.call.seals holder.room
    if holder.sealed then none
    else some { cell with used := cell.used ++ [number], holder := some { holder with sealed := true } }
  | .save => do
    let holder <- cell.holder
    if holder.sealed ≠ (holder.call.seals holder.room).isSome then none
    else
      some { cell with
        row := some (holder.call.saves holder.room)
        adopted := cell.adopted ++ (holder.call.adopts holder.room).toList
        holder := none }
  | .arrive arrival => some { cell with arrivals := cell.arrivals.start (arrival, cell.row) }
  | .apply id => do
    let (arrival, read) <- cell.arrivals.get id
    some { cell with
      row := (arrival.saves read).or cell.row
      adopted := cell.adopted ++ (arrival.adopts read).toList
      arrivals := cell.arrivals.finish id }

def step (moment : RoomMoment) : Except Empty RoomCell := .ok ((cell.moved moment).getD cell)

def unused (adopted : Option (Int × FeedKey)) : Bool :=
  adopted.all (fun pair => cell.used.all (fun number => number.1 != pair.2))

/-- Who encrypts or writes finds the row as it was read, and adopts a key that nothing is encrypted
under. -/
def steady : RoomMoment -> Bool
  | .encrypt =>
    cell.holder.all (fun holder => cell.row = some holder.room ∧
      (holder.sealed ∨ cell.unused (holder.call.adopts holder.room)))
  | .save => cell.holder.all (fun holder => cell.row = some holder.room)
  | .apply id =>
    (cell.arrivals.get id).all (fun arrival => cell.row = arrival.2 ∧ cell.unused (arrival.1.adopts arrival.2))
  | _ => true

end

variable {cell next : RoomCell} {moment : RoomMoment} {room later : Room} {call : RoomCall}
  {arrival : RoomArrival} {number : FeedKey × Nat}

theorem not_used {pair} (test : cell.unused (some pair) = true) (seq) : (pair.2, seq) ∉ cell.used := by
  intro member
  simpa using all_eq_true.mp test _ member

def Grows (before after : Option Room) : Prop :=
  ∀ room, before = some room -> ∃ later, after = some later ∧
    room.roomKeyEpoch ≤ later.roomKeyEpoch ∧ room.membershipEpoch ≤ later.membershipEpoch

theorem saves_seals (seals : call.seals room = some number) :
    (call.saves room).roomKey = number.1 ∧ (call.saves room).roomMsgSeqCounter = number.2 + 1 := by
  cases call <;> cases seals <;> exact ⟨rfl, rfl⟩

theorem call_grows (room) (call : RoomCall) : Grows (some room) (some (call.saves room)) := by
  rintro _ ⟨⟩
  refine ⟨_, rfl, ?_⟩
  cases call <;> simp [RoomCall.saves, rotatedRoom]

theorem arrival_grows (read) (arrival : RoomArrival) : Grows read ((arrival.saves read).or read) := by
  rintro _ rfl
  cases arrival <;> simp only [RoomArrival.saves] <;> grind [adopt]

theorem arrival_keeps (read) (arrival : RoomArrival) :
    (∃ later, arrival.saves read = some later ∧ arrival.adopts read = some (columns later)) ∨
    arrival.adopts read = none ∧ ∀ later, (arrival.saves read).or read = some later ->
      ∃ room, read = some room ∧ columns later = columns room ∧
        later.roomMsgSeqCounter = room.roomMsgSeqCounter := by
  cases read <;> cases arrival <;> simp only [RoomArrival.saves, RoomArrival.adopts] <;>
    grind [columns, adopt, provisionalRoom]

structure Tidy (cell : RoomCell) : Prop where
  nodup : cell.used.Nodup
  held : ∀ room, cell.row = some room -> cell.adopted.getLast? = some (columns room)
  owing : ∀ holder, cell.holder = some holder -> holder.sealed = true ->
    ∀ number, holder.call.seals holder.room = some number -> ∀ seq, (number.1, seq) ∈ cell.used ->
      seq ≤ number.2
  free : (∀ holder, cell.holder = some holder -> holder.sealed = false) -> ∀ room, cell.row = some room ->
    ∀ seq, (room.roomKey, seq) ∈ cell.used -> seq < room.roomMsgSeqCounter

namespace Tidy

theorem encrypt (tidy : Tidy cell) {holder} (holds : cell.holder = some holder)
    (seals : holder.call.seals holder.room = some number) (unsealed : holder.sealed = false)
    (same : cell.row = some holder.room) (fresh : cell.unused (holder.call.adopts holder.room) = true) :
    Tidy { cell with used := cell.used ++ [number], holder := some { holder with sealed := true } } := by
  have below : ∀ seq, (number.1, seq) ∈ cell.used -> seq < number.2 := by
    intro seq member
    cases kind : holder.call with
    | rotate =>
      rw [kind] at seals fresh
      cases seals
      exact (not_used fresh seq member).elim
    | leaveRoom => rw [kind] at seals; cases seals
    | _ =>
      rw [kind] at seals
      cases seals
      refine tidy.free ?_ _ same seq member
      simp [holds, unsealed]
  constructor
  · refine nodup_append.mpr ⟨tidy.nodup, by simp, ?_⟩
    intro entry old other new same
    rw [same, mem_singleton.mp new] at old
    exact lt_irrefl _ (below _ old)
  · exact tidy.held
  · rintro _ ⟨⟩ _ _ other seq member
    cases seals.symm.trans other
    rcases mem_append.mp member with old | new
    · exact le_of_lt (below seq old)
    · exact le_of_eq (congrArg Prod.snd (mem_singleton.mp new))
  · intro nobody
    cases nobody _ rfl

theorem save (tidy : Tidy cell) {holder} (holds : cell.holder = some holder)
    (done : holder.sealed = (holder.call.seals holder.room).isSome) (same : cell.row = some holder.room) :
    Tidy { cell with
      row := some (holder.call.saves holder.room)
      adopted := cell.adopted ++ (holder.call.adopts holder.room).toList
      holder := none } := by
  refine ⟨tidy.nodup, ?_, by rintro _ ⟨⟩, ?_⟩
  · rintro _ ⟨⟩
    have last := tidy.held _ same
    cases kind : holder.call <;> simp [RoomCall.adopts, RoomCall.saves, columns, rotatedRoom, last]
  · rintro _ _ ⟨⟩ seq member
    cases seals : holder.call.seals holder.room with
    | none =>
      cases kind : holder.call with
      | leaveRoom =>
        rw [kind] at member
        refine tidy.free ?_ _ same seq member
        simp [holds, done, seals]
      | _ => rw [kind] at seals; cases seals
    | some number =>
      have saved := saves_seals seals
      rw [saved.1] at member
      rw [saved.2]
      exact Nat.lt_succ_of_le (tidy.owing holder holds (by simp [done, seals]) number seals seq member)

theorem apply (tidy : Tidy cell) (id : Nat) (fresh : cell.unused (arrival.adopts cell.row) = true) :
    Tidy { cell with
      row := (arrival.saves cell.row).or cell.row
      adopted := cell.adopted ++ (arrival.adopts cell.row).toList
      arrivals := cell.arrivals.finish id } := by
  rcases arrival_keeps cell.row arrival with ⟨later, saves, adopts⟩ | ⟨adopts, keeps⟩
  · rw [adopts] at fresh ⊢
    refine ⟨tidy.nodup, by simp [saves], tidy.owing, ?_⟩
    intro _ room found seq member
    simp only [saves, some_or, some.injEq] at found
    exact (not_used fresh seq (found ▸ member)).elim
  · refine ⟨tidy.nodup, ?_, tidy.owing, ?_⟩
    · intro later found
      rcases keeps later found with ⟨room, before, same, _⟩
      simpa [adopts, same] using tidy.held room before
    · intro nobody later found seq member
      rcases keeps later found with ⟨room, before, same, counter⟩
      have key : later.roomKey = room.roomKey := congrArg Prod.snd same
      rw [counter]
      exact tidy.free nobody room before seq (key ▸ member)

theorem step (tidy : Tidy cell) (allowed : cell.steady moment = true)
    (stepped : cell.step moment = .ok next) : Tidy next ∧ Grows cell.row next.row := by
  have stays : Grows cell.row cell.row := fun room found => ⟨room, found, le_refl _, le_refl _⟩
  cases stepped
  cases moved : cell.moved moment with
  | none => exact ⟨tidy, stays⟩
  | some =>
    cases moment <;> simp only [RoomCell.moved, bind_eq_bind, bind_eq_some_iff,
      ite_none_left_eq_some, some.injEq] at moved
    case call =>
      rcases moved with ⟨_, _, _, rfl⟩
      refine ⟨⟨tidy.nodup, tidy.held, ?_, fun _ => tidy.free (by grind)⟩, stays⟩
      rintro _ ⟨⟩ ⟨⟩
    case encrypt =>
      rcases moved with ⟨_, holds, _, seals, unsealed, rfl⟩
      simp only [steady, holds, all_some, decide_eq_true_eq, unsealed, Bool.false_eq_true, false_or] at allowed
      exact ⟨tidy.encrypt holds seals (by simpa using unsealed) allowed.1 allowed.2, stays⟩
    case save =>
      rcases moved with ⟨_, holds, done, rfl⟩
      simp only [steady, holds, all_some, decide_eq_true_eq] at allowed
      exact ⟨tidy.save holds (not_not.mp done) allowed, allowed ▸ call_grows _ _⟩
    case arrive =>
      cases moved
      exact ⟨⟨tidy.nodup, tidy.held, tidy.owing, tidy.free⟩, stays⟩
    case apply =>
      rcases moved with ⟨⟨_, _⟩, found, rfl⟩
      simp only [steady, found, all_some, decide_eq_true_eq] at allowed
      rcases allowed with ⟨rfl, fresh⟩
      exact ⟨tidy.apply _ fresh, arrival_grows _ _⟩

end Tidy

/-- If everybody finds the row as it was read, then we use no number twice, the row has the key and
the epoch that were adopted last, and no epoch falls. -/
theorem room_row_kept (row : Option Room) {used : List (FeedKey × Nat)} (nodup : used.Nodup)
    (below : ∀ room, row = some room -> ∀ seq, (room.roomKey, seq) ∈ used -> seq < room.roomMsgSeqCounter)
    {moments : List RoomMoment} {final : RoomCell}
    (steadily : Along step (fun cell moment => cell.steady moment = true) (start row used) moments)
    (reached : run step (start row used) moments = .ok final) : final.used.Nodup ∧
    (∀ room, final.row = some room -> final.adopted.getLast? = some (columns room)) ∧
    Along step (fun cell moment => ∀ next, cell.step moment = .ok next -> Grows cell.row next.row)
      (start row used) moments := by
  have initial : Tidy (start row used) := ⟨nodup, by rintro room rfl; rfl, by rintro _ ⟨⟩, fun _ => below⟩
  have preserved : ∀ cell moment next, Tidy cell -> cell.steady moment = true ->
      cell.step moment = .ok next -> Tidy next :=
    fun _ _ _ tidy allowed stepped => (tidy.step allowed stepped).1
  have tidy := run_invariant preserved initial steadily reached
  refine ⟨tidy.nodup, tidy.held, ?_⟩
  intro before moment after middle split passed next stepped
  have until' := run_invariant preserved initial (Along.left (split ▸ steadily)) passed
  exact (until'.step (steadily before moment after middle split passed) stepped).2

def sentAndRotated : List RoomMoment :=
  [.call (.send 20), .encrypt, .save, .arrive (.roster 5 true), .apply 0, .call (.rotate [9] 30), .encrypt, .save]

theorem room_row_kept_sentAndRotated :
    let final := finalState step (start (some Chat.row) []) sentAndRotated
    (final.used = [([8], 0), ([9], 0)] ∧ final.row.map Room.membershipEpoch = some 6) ∧ final.used.Nodup ∧
      ∀ room, final.row = some room -> final.adopted.getLast? = some (columns room) := by
  have kept := room_row_kept (some Chat.row) nodup_nil (fun _ _ _ => nofun)
    (Along.checked rfl) (run_finalState (by rfl : (run step (start (some Chat.row) [])
      sentAndRotated).toBool = true))
  exact ⟨⟨rfl, rfl⟩, kept.1, kept.2.1⟩

/-- A roster that was read before a message is written after it, and the next message has the same
number; of two rosters the older one is written last. -/
theorem room_row_overwritten :
    (finalState step (start (some Chat.row) []) [.arrive (.roster 5 true), .call (.send 20), .encrypt, .save,
      .apply 0, .call (.send 30), .encrypt]).used = [([8], 0), ([8], 0)] ∧
    ((finalState step (start (some Chat.row) []) [.arrive (.roster 5 true), .arrive (.roster 6 true),
      .apply 1, .apply 0]).row.map Room.membershipEpoch) = some 5 :=
  ⟨rfl, rfl⟩

/-! ## A room that was left -/

def joins (read : Option Room) : RoomArrival -> Bool
  | .key delivery roomKey now => (RoomArrival.saves read (.key delivery roomKey now)).isSome
  | _ => false

def readmits (read : Option Room) : RoomArrival -> Bool
  | .roster membershipEpoch listed => listed && read.any (fun room => room.membershipEpoch < membershipEpoch)
  | _ => false

/-- Who writes what arrived finds the row as it was read, and it makes us no member. -/
def staysAway (cell : RoomCell) : RoomMoment -> Bool
  | .apply id => (cell.arrivals.get id).all (fun arrival => decide (cell.row = arrival.2) &&
      !joins arrival.2 arrival.1 && !readmits arrival.2 arrival.1)
  | _ => true

/-- `leaveRoom` is completed, and no call works with a row from before. -/
structure Left (cell : RoomCell) : Prop where
  row : cell.row.map Room.isMember = some false
  holder : ∀ holder, cell.holder = some holder -> holder.room.isMember = false

theorem Left.step (left : Left cell) (away : cell.staysAway moment = true)
    (stepped : cell.step moment = .ok next) : Left next := by
  cases stepped
  rcases left with ⟨row, holds⟩
  cases moved : cell.moved moment with
  | none => exact ⟨row, holds⟩
  | some =>
    cases moment <;> simp only [RoomCell.moved, bind_eq_bind, bind_eq_some_iff,
      ite_none_left_eq_some, some.injEq] at moved
    case call =>
      rcases moved with ⟨_, read, _, rfl⟩
      rw [read] at row
      refine ⟨by rw [getD_some, read, row], ?_⟩
      rintro _ ⟨⟩
      exact some.inj row
    case encrypt =>
      rcases moved with ⟨_, held, _, _, _, rfl⟩
      have unlisted := holds _ held
      refine ⟨row, ?_⟩
      rintro _ ⟨⟩
      exact unlisted
    case save =>
      rcases moved with ⟨holder, held, _, rfl⟩
      have unlisted := congrArg some (holds _ held)
      refine ⟨?_, by rintro _ ⟨⟩⟩
      cases holder.call with
      | leaveRoom => rfl
      | _ => exact unlisted
    case arrive =>
      cases moved
      exact ⟨row, holds⟩
    case apply =>
      rcases moved with ⟨⟨arrival, _⟩, got, rfl⟩
      simp only [staysAway, got, all_some, Bool.and_eq_true, decide_eq_true_eq, Bool.not_eq_true'] at away
      rcases away with ⟨⟨rfl, keyless⟩, out⟩
      refine ⟨?_, holds⟩
      change ((arrival.saves cell.row).or cell.row).map Room.isMember = some false
      rcases map_eq_some_iff.mp row with ⟨_, found, gone⟩
      rw [found] at keyless out ⊢
      cases arrival with
      | key =>
        rw [joins, isSome_eq_false_iff, isNone_iff_eq_none] at keyless
        rw [keyless, none_or, map_some, gone]
      | create => exact congrArg some gone
      | roster =>
        rw [RoomArrival.saves]
        split
        next newer =>
          simp [readmits, newer] at out
          rw [out]
          rfl
        · exact congrArg some gone

/-- Until a newer roster lists us again, a room that was left stays left, if those who write find the
row as it was read and no key makes us a member. -/
theorem left_room_stays_left (completed : cell.row.map Room.isMember = some false) (unlocked : cell.holder = none)
    {moments : List RoomMoment} {final : RoomCell}
    (away : Along step (fun cell moment => cell.staysAway moment = true) cell moments)
    (reached : run step cell moments = .ok final) : final.row.map Room.isMember = some false := by
  have initial : Left cell := ⟨completed, by simp [unlocked]⟩
  exact (run_invariant (fun _ _ _ left => left.step) initial away reached).row

/-- A key from before the current one comes late. -/
theorem left_room_stays_left_late_key :
    ((finalState step (start (some { Chat.row with isMember := false }) [])
      [.arrive (.key ⟨"r", -1, 0, "1", ⟨0, none⟩⟩ [7] 20), .apply 0]).row.map Room.isMember) = some false :=
  left_room_stays_left rfl rfl (Along.checked rfl) (run_finalState rfl)

/-- The key of the current epoch comes once more. -/
theorem left_room_rejoined :
    ((finalState step (start (some Chat.row) []) [.call .leaveRoom, .save,
      .arrive (.key ⟨"r", 0, 0, "1", ⟨0, none⟩⟩ [8] 20), .apply 0]).row.map Room.isMember) = some true :=
  rfl

end RoomCell

end Starling.App
