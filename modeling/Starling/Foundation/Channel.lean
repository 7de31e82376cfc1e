import Mathlib.Data.List.Basic

namespace Starling

open List

/-!
# A bounded channel whose receiver runs on its own

The sending side of a bounded channel only learns whether an attempt to send
succeeded.  What the receiving task does in between is visible to the sender at
the next attempt.  A `Channel` therefore carries a script of receiver pauses, one
for each future attempt.  Quantifying over the script quantifies over every
relative speed of the two sides, a receiver that stalls or vanishes included.

The bound on the queue is a field, so an overfull channel cannot be built.
-/

/-- What the receiver does before the next attempt to send: take `taken`
messages out of the queue, and then possibly drop its end. -/
structure Pause where
  taken : Nat
  leaves : Bool
deriving DecidableEq, Repr

inductive SendResult where
  | sent
  | full
  | closed
deriving DecidableEq, Repr

/-- A bounded channel seen from its sender, with the receiver's history and its
future behaviour. -/
structure Channel (α : Type) where
  capacity : Nat
  queue : List α
  received : List α
  attached : Bool
  script : List Pause
  bounded : queue.length ≤ capacity

namespace Channel

variable {α : Type}

/-- A fresh channel with an attached receiver that will follow `script`. -/
def fresh (capacity : Nat) (script : List Pause) : Channel α where
  capacity := capacity
  queue := []
  received := []
  attached := true
  script := script
  bounded := Nat.zero_le capacity

section

variable (channel : Channel α)

/-- Let the receiver act out its next pause.  A receiver that has left stays
away, and an exhausted script means that nothing more happens. -/
def settle : Channel α :=
  match channel.script with
  | [] => channel
  | pause :: rest =>
    if channel.attached then
      { capacity := channel.capacity
        queue := channel.queue.drop pause.taken
        received := channel.received ++ channel.queue.take pause.taken
        attached := !pause.leaves
        script := rest
        bounded := by
          rw [length_drop]
          exact Nat.le_trans (Nat.sub_le _ _) channel.bounded }
    else { channel with script := rest }

def push (message : α) (room : channel.queue.length < channel.capacity) : Channel α :=
  { channel with
    queue := channel.queue ++ [message]
    bounded := by
      rw [length_append, length_singleton]
      exact room }

/-- One non-blocking send.  A failed attempt leaves the queue as it is; the
receiver's pause has happened either way. -/
def trySend (message : α) : Channel α × SendResult :=
  if channel.settle.attached then
    if room : channel.settle.queue.length < channel.settle.capacity then
      (channel.settle.push message room, .sent)
    else (channel.settle, .full)
  else (channel.settle, .closed)

/-- Every message the channel has accepted so far, in order.  Once the queue has
been drained this is exactly what the receiver has seen. -/
def accepted : List α := channel.received ++ channel.queue

@[simp] theorem settle_capacity : channel.settle.capacity = channel.capacity := by
  unfold settle
  split
  · rfl
  · split <;> rfl

@[simp] theorem settle_accepted : channel.settle.accepted = channel.accepted := by
  unfold settle
  split
  · rfl
  · split
    · simp [accepted, take_append_drop]
    · rfl

end

variable {channel : Channel α} {message : α}

theorem attached_of_settle (after : channel.settle.attached = true) : channel.attached = true := by
  by_cases before : channel.attached = true
  · exact before
  · unfold settle at after
    split at after
    · exact after
    · rw [if_neg before] at after
      exact after

theorem settle_queue_nil (empty : channel.queue = []) : channel.settle.queue = [] := by
  unfold settle
  split
  · exact empty
  · split
    · simp [empty, drop_nil]
    · exact empty

theorem trySend_sent_iff : (channel.trySend message).2 = .sent ↔
      channel.settle.attached = true ∧ channel.settle.queue.length < channel.settle.capacity := by
  unfold trySend
  split
  · split
    · simp only [*, and_self]
    · simp only [*, reduceCtorEq, and_false]
  · simp only [*, reduceCtorEq, Bool.false_eq_true, false_and]

theorem trySend_accepted_of_sent (sent : (channel.trySend message).2 = .sent) :
    (channel.trySend message).1.accepted = channel.accepted ++ [message] := by
  have ready := trySend_sent_iff.mp sent
  rw [← settle_accepted channel]
  simp only [trySend, ready.1, ready.2, if_true, dif_pos, accepted, push, append_assoc]

theorem trySend_accepted_of_not_sent (refused : (channel.trySend message).2 ≠ .sent) :
    (channel.trySend message).1.accepted = channel.accepted := by
  unfold trySend at refused ⊢
  split
  · split
    next attached room =>
      rw [if_pos attached, dif_pos room] at refused
      exact (refused rfl).elim
    · exact settle_accepted channel
  · exact settle_accepted channel

@[simp] theorem trySend_capacity (channel : Channel α) (message : α) :
    (channel.trySend message).1.capacity = channel.capacity := by
  unfold trySend
  split
  · split <;> exact settle_capacity channel
  · exact settle_capacity channel

theorem trySend_attached (channel : Channel α) (message : α) :
    (channel.trySend message).1.attached = channel.settle.attached := by
  unfold trySend
  split
  · split <;> rfl
  · rfl

end Channel

end Starling
