import Mathlib.Algebra.Ring.Int.Defs
import Mathlib.Logic.Function.Basic
import Starling.Foundation.Run

namespace Starling.App

open List Function

/-!
# The phone's rate limiter

`rate_limit.dart` counts the requests of an address in windows that start with a request.  The sweep
forgets windows that are long over.
-/

structure RateBucket where
  windowStart : Int
  count : Nat

/-- `window` is in seconds. -/
structure RateLimiter where
  requestsPerMinute : Nat
  window : Int
  buckets : String -> Option RateBucket

structure RequestContext where
  connectionInfo : Option String
  synthetic : Option String

def RequestContext.remoteAddress (context : RequestContext) : String :=
  (context.connectionInfo <|> context.synthetic).getD "unknown"

def currentBucket (window : Int) (bucket : Option RateBucket) (now : Int) : RateBucket :=
  let bucket := bucket.getD ⟨now, 0⟩
  if window ≤ now - bucket.windowStart then ⟨now, 0⟩ else bucket

namespace RateLimiter

variable (limiter : RateLimiter) (addr : String) (now : Int)

/-- The status, body and headers of a refusal; `none` goes on to the inner handler. -/
def middleware : RateLimiter × Option (Nat × String × List (String × String)) :=
  let bucket := currentBucket limiter.window (limiter.buckets addr) now
  let counted : RateBucket := ⟨bucket.windowStart, bucket.count + 1⟩
  ({ limiter with buckets := update limiter.buckets addr (some counted) },
    if limiter.requestsPerMinute < counted.count then
      some (429, "rate limit exceeded", [("retry-after", "60")])
    else none)

def sweep : RateLimiter :=
  { limiter with buckets := fun addr =>
      (limiter.buckets addr).filter (fun bucket => now - bucket.windowStart ≤ limiter.window * 2) }

end RateLimiter

inductive RateStep where
  | request (context : RequestContext)
  | sweep

structure Limited where
  limiter : RateLimiter
  clock : Int
  admitted : String -> List Int

def timesIn (times : List Int) (first last : Int) : Nat := times.countP (fun time => first ≤ time ∧ time < last)

namespace Limited

def start (limit : Nat) (window clock : Int) : Limited := ⟨⟨limit, window, fun _ => none⟩, clock, fun _ => []⟩

variable (limited : Limited) (input : Int × RateStep)

def after (now : Int) : RateStep -> Limited
  | .request context =>
    let addr := context.remoteAddress
    let (limiter, refusal) := limited.limiter.middleware addr now
    ⟨limiter, now, update limited.admitted addr (limited.admitted addr ++ if refusal.isSome then [] else [now])⟩
  | .sweep => { limited with limiter := limited.limiter.sweep now, clock := now }

def step : Except Unit Limited :=
  if input.1 < limited.clock then .error () else .ok (limited.after input.1 input.2)

/-- A refusal needs as many admitted requests as the limit in the last `window` seconds. -/
def Justified : Prop :=
  ∀ context, input.2 = .request context -> limited.clock ≤ input.1 ->
    (limited.limiter.middleware context.remoteAddress input.1).2.isSome = true -> limited.limiter.requestsPerMinute ≤
        timesIn (limited.admitted context.remoteAddress) (input.1 - limited.limiter.window + 1) (input.1 + 1)

end Limited

/-- The times of one address: those of the open window are counted, and few are in the window before. -/
structure Lane (limit : Nat) (window clock : Int) (bucket : Option RateBucket) (times : List Int) : Prop where
  past : ∀ time ∈ times, time ≤ clock
  bound : ∀ first, timesIn times first (first + window) ≤ 2 * limit
  idle : bucket = none -> ∀ time ∈ times, time + window < clock
  busy : ∀ last, bucket = some last -> last.windowStart ≤ clock ∧
    (∀ time ∈ times, time < last.windowStart + window) ∧
    timesIn times last.windowStart (last.windowStart + window) = min last.count limit ∧
    timesIn times (last.windowStart - window + 1) last.windowStart ≤ limit

variable {limit : Nat} {window clock now first last left right : Int} {times : List Int}
variable {bucket : Option RateBucket} {limited next : Limited}

theorem timesIn_split (middle) :
    timesIn times first last ≤ timesIn times first middle + timesIn times middle last := by
  induction times with
  | nil => simp [timesIn]
  | cons time rest ih =>
    simp only [timesIn, countP_cons] at ih ⊢
    grind

theorem timesIn_le (inside : ∀ time ∈ times, first ≤ time -> time < last -> left ≤ time ∧ time < right) :
    timesIn times first last ≤ timesIn times left right := by
  apply countP_mono_left
  simpa using inside

namespace Lane

theorem later (lane : Lane limit window clock bucket times) (passed : clock ≤ now) :
    Lane limit window now bucket times := by
  obtain ⟨past, bound, idle, busy⟩ := lane
  constructor <;> grind

theorem renewed (lane : Lane limit window now bucket times) (long : 1 ≤ window)
    (ended : ∀ time ∈ times, time < now)
    (few : timesIn times (now - window + 1) now ≤ limit) : Lane limit window now (some ⟨now, 0⟩) times := by
  have none : timesIn times now (now + window) = 0 := by
    simp only [timesIn, countP_eq_zero]
    grind
  refine { lane with idle := by simp, busy := ?_ }
  rintro _ ⟨⟩
  simp only [none]
  grind

theorem current (lane : Lane limit window now bucket times) (long : 1 ≤ window) :
    Lane limit window now (some (currentBucket window bucket now)) times ∧
      now < (currentBucket window bucket now).windowStart + window := by
  unfold currentBucket
  cases bucket with
  | none =>
    have ended := lane.idle rfl
    have few : timesIn times (now - window + 1) now = 0 := by
      simp only [timesIn, countP_eq_zero]
      grind
    simp only [Option.getD_none, ite_self]
    exact ⟨lane.renewed long (by grind) (by grind), by grind⟩
  | some last =>
    obtain ⟨started, within, counted, before⟩ := lane.busy last rfl
    simp only [Option.getD_some]
    split
    next ended =>
      have few : timesIn times (now - window + 1) now ≤
          timesIn times last.windowStart (last.windowStart + window) := timesIn_le (by grind)
      exact ⟨lane.renewed long (by grind) (by grind), by grind⟩
    · exact ⟨lane, by grind⟩

theorem count {opened : RateBucket} (lane : Lane limit window now (some opened) times)
    (inside : now < opened.windowStart + window) :
    Lane limit window now (some ⟨opened.windowStart, opened.count + 1⟩)
      (times ++ if limit < opened.count + 1 then [] else [now]) := by
  obtain ⟨past, bound, idle, busy⟩ := lane
  obtain ⟨started, within, counted, before⟩ := busy opened rfl
  split
  · refine ⟨by simpa using past, by simpa using bound, by simp, ?_⟩
    rintro _ ⟨⟩
    grind
  · have added : ∀ first last, timesIn (times ++ [now]) first last =
        timesIn times first last + if first ≤ now ∧ now < last then 1 else 0 := by
      intro first last
      simp [timesIn, countP_append, countP_singleton]
    refine ⟨by grind, ?_, by simp, ?_⟩
    · intro first
      rw [added]
      split
      -- The interval meets the open window and at most the one before.
      next met =>
        have parts := @timesIn_split first (first + window) times opened.windowStart
        have old : timesIn times first opened.windowStart ≤
            timesIn times (opened.windowStart - window + 1) opened.windowStart := timesIn_le (by grind)
        have new : timesIn times opened.windowStart (first + window) ≤
            timesIn times opened.windowStart (opened.windowStart + window) := timesIn_le (by grind)
        grind
      · exact bound first
    · rintro _ ⟨⟩
      simp only [added]
      grind

end Lane

namespace Limited

def Kept (limit : Nat) (window : Int) (limited : Limited) : Prop :=
  limited.limiter.requestsPerMinute = limit ∧ limited.limiter.window = window ∧
    ∀ addr, Lane limit window limited.clock (limited.limiter.buckets addr) (limited.admitted addr)

theorem Kept.after (kept : limited.Kept limit window) (long : 1 ≤ window) (passed : limited.clock ≤ now) (input) :
    (limited.after now input).Kept limit window := by
  obtain ⟨rfl, rfl, lanes⟩ := kept
  cases input with
  | request context =>
    refine ⟨rfl, rfl, fun addr => ?_⟩
    have lane := (lanes addr).later passed
    by_cases same : addr = context.remoteAddress
    · subst same
      have fresh := lane.current long
      have counted := fresh.1.count fresh.2
      simp only [Limited.after, RateLimiter.middleware, update_self]
      split <;> simp_all
    · simpa [Limited.after, RateLimiter.middleware, update_of_ne same] using lane
  | sweep =>
    refine ⟨rfl, rfl, fun addr => ?_⟩
    have lane := (lanes addr).later passed
    dsimp only [Limited.after, RateLimiter.sweep]
    cases held : limited.limiter.buckets addr with rw [held] at lane
    | none => exact lane
    | some last =>
      rw [Option.filter_some]
      split
      · exact lane
      · have busy := lane.busy last rfl
        exact { lane with idle := by grind, busy := by simp }

theorem Kept.justified (kept : limited.Kept limit window) (long : 1 ≤ window) (input) : limited.Justified input := by
  obtain ⟨rfl, rfl, lanes⟩ := kept
  intro context _ passed refused
  obtain ⟨⟨past, _, _, busy⟩, inside⟩ := ((lanes context.remoteAddress).later passed).current long
  obtain ⟨_, _, counted, _⟩ := busy _ rfl
  simp only [RateLimiter.middleware, Option.isSome_ite] at refused
  rw [min_eq_right (by omega)] at counted
  rw [← counted]
  exact timesIn_le (by grind)

/-- No interval of the window's length sees more than twice the limit, and every refusal has its reason. -/
theorem rate_limiter_bounded (limit : Nat) (window clock : Int) (long : 1 ≤ window)
    (inputs : List (Int × RateStep)) : Along step Justified (start limit window clock) inputs ∧
    ∀ final, run step (start limit window clock) inputs = .ok final ->
      ∀ addr first, timesIn (final.admitted addr) first (first + window) ≤ 2 * limit := by
  have begun : (start limit window clock).Kept limit window :=
    ⟨rfl, rfl, fun _ => by constructor <;> simp [start, timesIn]⟩
  have kept : ∀ inputs final, run step (start limit window clock) inputs = .ok final -> final.Kept limit window := by
    refine fun inputs _ reached => Reaches.invariant ?_ ⟨inputs, reached⟩ begun
    intro limited input next kept stepped
    unfold step at stepped
    split at stepped
    · cases stepped
    next passed =>
      cases stepped
      exact kept.after long (Int.not_lt.mp passed) input.2
  refine ⟨?_, fun final reached addr => ((kept inputs final reached).2.2 addr).bound⟩
  intro before input _ middle _ reached
  exact (kept before middle reached).justified long input

theorem rate_limiter_bounded_burst : ∃ inputs final, run step (start 1 3 0) inputs = .ok final ∧
    final.admitted "unknown" = [2, 5] ∧ ∀ first, timesIn (final.admitted "unknown") first (first + 3) ≤ 2 :=
  let inputs : List (Int × RateStep) := [2, 4, 5].map (·, .request ⟨none, none⟩)
  ⟨inputs, _, rfl, rfl, (rate_limiter_bounded 1 3 0 (by decide) inputs).2 _ rfl _⟩

end Limited

end Starling.App
