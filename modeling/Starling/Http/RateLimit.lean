import Mathlib.Algebra.Order.Floor.Semiring
import Mathlib.Data.Rat.Floor
import Mathlib.Tactic.Linarith

namespace Starling.Http

open List

/-!
# The token bucket

`rate_limit.rs`, with exact arithmetic and the instants in seconds.  A call takes its instant before it
takes the lock, and the bucket goes back to that instant even if a later one was there first.
-/

structure Bucket where
  tokens : ℚ
  capacity : ℚ
  refillPerSec : ℚ
  last : ℚ

namespace Bucket

def perMinute (rate burst : Nat) (now : ℚ) : Bucket := ⟨burst, burst, rate / 60, now⟩

/-- `.ceil() as u64`, where a division by zero is infinite and the cast saturates. -/
def wholeSecs (deficit rate : ℚ) : Nat := if rate = 0 then 2 ^ 64 - 1 else min ⌈deficit / rate⌉₊ (2 ^ 64 - 1)

/-- `duration_since` saturates at zero. -/
def refilled (bucket : Bucket) (now : ℚ) : ℚ :=
  min (bucket.tokens + max (now - bucket.last) 0 * bucket.refillPerSec) bucket.capacity

def tryAcquireAt (bucket : Bucket) (now : ℚ) : Bucket × Except Nat Unit :=
  let tokens := bucket.refilled now
  if 1 ≤ tokens then ({ bucket with tokens := tokens - 1, last := now }, .ok ())
  else ({ bucket with tokens, last := now }, .error (wholeSecs (1 - tokens) bucket.refillPerSec))

/-- How many calls at these instants are answered `Ok`. -/
def granted : Bucket -> List ℚ -> Nat
  | _, [] => 0
  | bucket, now :: rest =>
    (bucket.tryAcquireAt now).2.toOption.toList.length + granted (bucket.tryAcquireAt now).1 rest

def after (bucket : Bucket) (nows : List ℚ) : Bucket :=
  nows.foldl (fun bucket now => (bucket.tryAcquireAt now).1) bucket

structure Fits (rate burst : Nat) (bucket : Bucket) : Prop where
  tokens : 0 ≤ bucket.tokens
  capacity : bucket.capacity = burst
  refill : bucket.refillPerSec = rate / 60

variable {rate burst : Nat} {bucket : Bucket}

theorem Fits.refilled (fits : Fits rate burst bucket) (now) : 0 ≤ bucket.refilled now := by
  rw [Bucket.refilled, fits.refill, fits.capacity]
  exact le_min (add_nonneg fits.tokens (by positivity)) (by positivity)

theorem Fits.tryAcquireAt (fits : Fits rate burst bucket) (now) :
    Fits rate burst (bucket.tryAcquireAt now).1 ∧ (bucket.tryAcquireAt now).1.last = now ∧
    ((bucket.tryAcquireAt now).2.toOption.toList.length : ℚ) =
      bucket.refilled now - (bucket.tryAcquireAt now).1.tokens := by
  rw [Bucket.tryAcquireAt]
  split
  · exact ⟨⟨sub_nonneg.mpr (by assumption), fits.capacity, fits.refill⟩, rfl, by simp [Except.toOption]⟩
  · exact ⟨⟨fits.refilled now, fits.capacity, fits.refill⟩, rfl, by simp [Except.toOption]⟩

theorem Fits.granted_le (fits : Fits rate burst bucket) {nows} (ordered : (bucket.last :: nows).Pairwise (· ≤ ·)) :
    (bucket.granted nows : ℚ) ≤ bucket.tokens + rate / 60 * (nows.foldl max bucket.last - bucket.last) := by
  induction nows generalizing bucket with
  | nil => simp [granted, fits.tokens]
  | cons now rest ih =>
    have first : bucket.last ≤ now := rel_of_pairwise_cons ordered mem_cons_self
    have credit : bucket.refilled now ≤ bucket.tokens + (now - bucket.last) * (rate / 60) := by
      rw [Bucket.refilled, max_eq_left (sub_nonneg.mpr first), fits.refill]
      exact min_le_left _ _
    rcases fits.tryAcquireAt now with ⟨kept, moved, taken⟩
    have later := ih kept (by rw [moved]; exact ordered.of_cons)
    rw [moved] at later
    rw [granted, foldl_cons, max_eq_right first, Nat.cast_add, taken]
    linarith

theorem wholeSecs_suffices {deficit : ℚ} (below : deficit ≤ 1) (some : 0 < rate) :
    deficit ≤ wholeSecs deficit (rate / 60) * (rate / 60) := by
  have least : (1 : ℚ) ≤ rate := by exact_mod_cast some
  have short : deficit / (rate / 60) ≤ 60 := by
    rw [div_le_iff₀ (by positivity)]
    linarith
  have few : ⌈deficit / (rate / 60)⌉₊ ≤ 60 := Nat.ceil_le.mpr (by exact_mod_cast short)
  rw [wholeSecs, if_neg (by positivity), min_eq_left (by omega), ← div_le_iff₀ (by positivity)]
  exact Nat.le_ceil _

theorem Fits.retry (fits : Fits rate burst bucket) (some : 1 ≤ burst) {now wait}
    (refused : (bucket.tryAcquireAt now).2 = .error wait) :
    ((bucket.tryAcquireAt now).1.tryAcquireAt (now + wait)).2 = .ok () ↔ 0 < rate := by
  have least := fits.refilled now
  rw [Bucket.tryAcquireAt] at refused ⊢
  split at refused
  · cases refused
  next dry =>
    rw [Except.error.injEq, fits.refill] at refused
    have next : ({ bucket with tokens := bucket.refilled now, last := now } : Bucket).refilled (now + wait) =
        min (bucket.refilled now + wait * (rate / 60)) burst := by
      simp [Bucket.refilled, fits.refill, fits.capacity]
    simp only [dry, if_false, Bucket.tryAcquireAt, next]
    constructor
    · intro admitted
      by_contra none
      simp [Nat.eq_zero_of_not_pos none, dry] at admitted
    · intro positive
      have filled := wholeSecs_suffices (by linarith : 1 - bucket.refilled now ≤ 1) positive
      rw [refused] at filled
      rw [if_pos (le_min (by linarith) (by exact_mod_cast some))]

/-- Calls that come in the order of their instants are admitted within the rate, and whoever waits as
long as they were told is admitted if and only if there is a rate. -/
theorem admits_within_rate (rate burst : Nat) (some : 1 ≤ burst) (created : ℚ) (nows : List ℚ) :
    ((created :: nows).Pairwise (· ≤ ·) -> ((perMinute rate burst created).granted nows : ℚ) ≤
      burst + rate / 60 * (nows.foldl max created - created)) ∧
    ∀ now wait, (((perMinute rate burst created).after nows).tryAcquireAt now).2 = .error wait ->
      ((((perMinute rate burst created).after (nows ++ [now])).tryAcquireAt (now + wait)).2 = .ok () ↔ 0 < rate) := by
  have fits : Fits rate burst (perMinute rate burst created) := ⟨by simp [perMinute], rfl, rfl⟩
  refine ⟨fits.granted_le, ?_⟩
  intro now wait refused
  have later : Fits rate burst ((perMinute rate burst created).after nows) :=
    foldlRecOn nows _ fits (fun _ fits now _ => (fits.tryAcquireAt now).1)
  rw [after, foldl_append]
  exact later.retry some refused

theorem admits_within_rate_five : ((perMinute 60 3 0).granted [0, 0, 0, 0, 1] : ℚ) ≤ 3 + 60 / 60 * (1 - 0) :=
  (admits_within_rate 60 3 (by decide) 0 [0, 0, 0, 0, 1]).1 (by simp)

/-- Two instants that keep changing places. -/
theorem admits_again : (perMinute 60 1 0).granted [1, 0, 1, 0, 1] = 3 ∧
    (1 : ℚ) + 60 / 60 * ([1, 0, 1, 0, 1].foldl max 0 - 0) = 2 := by
  decide +kernel

end Bucket

end Starling.Http
