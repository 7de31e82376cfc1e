import Starling.Foundation.Run

namespace Starling.App

/-!
# The published onion

`_publishNow` runs in a chain, one call after the other.  A call that was overtaken ignores its result,
but the bridge has retargeted the reverse proxy all the same.
-/

/-- `_onionAddress` is set together with `onionPort`.  `publishChain` are the calls that have not begun,
`running` is the one that waits for the bridge, and `proxy` is the target of the reverse proxy. -/
structure OnionPublisher where
  desiredPort : Option Nat
  onionPort : Option Nat
  publishChain : List Nat
  running : Option Nat
  retryTimer : Option Nat
  proxy : Option Nat
  deriving DecidableEq

/-- `created` and `failed` end the wait for the bridge. -/
inductive OnionStep where
  | requestPublish (port : Nat)
  | reset
  | publishNow
  | created
  | failed
  | fire
  deriving DecidableEq

namespace OnionPublisher

variable (publisher : OnionPublisher)

def after : OnionStep -> OnionPublisher
  | .requestPublish port =>
    { publisher with
      retryTimer := if publisher.desiredPort = some port then publisher.retryTimer else none
      desiredPort := some port
      publishChain := publisher.publishChain ++ [port] }
  | .reset => { publisher with desiredPort := none, onionPort := none, retryTimer := none }
  | .publishNow =>
    match publisher.running, publisher.publishChain with
    | none, port :: rest =>
      let begun := { publisher with publishChain := rest }
      if publisher.desiredPort ≠ some port ∨ publisher.onionPort = some port then begun
      else { begun with running := some port }
    | _, _ => publisher
  | .created =>
    match publisher.running with
    | none => publisher
    | some port =>
      let called := { publisher with running := none, proxy := some port }
      if publisher.desiredPort ≠ some port then called
      else { called with onionPort := some port, retryTimer := none }
  | .failed =>
    match publisher.running with
    | none => publisher
    | some port =>
      let called := { publisher with running := none }
      if publisher.desiredPort ≠ some port then called else { called with retryTimer := some port }
  | .fire =>
    match publisher.retryTimer with
    | none => publisher
    | some port =>
      let fired := { publisher with retryTimer := none }
      if publisher.desiredPort ≠ some port then fired
      else { fired with publishChain := publisher.publishChain ++ [port] }

def step (input : OnionStep) : Except Empty OnionPublisher := .ok (publisher.after input)

def new : OnionPublisher := ⟨none, none, [], none, none, none⟩

def Pending (port : Nat) : Prop :=
  port ∈ publisher.publishChain ∨ publisher.running = some port ∨ publisher.retryTimer = some port

/-- The onion points where it says, or will. -/
structure Points : Prop where
  settled : publisher.publishChain = [] -> publisher.running = none -> publisher.retryTimer = none ->
    ∀ port, publisher.desiredPort = some port -> publisher.onionPort = some port ∧ publisher.proxy = some port
  pending : ∀ port, publisher.desiredPort = some port -> publisher.onionPort ≠ some port -> publisher.Pending port

structure Recorded : Prop where
  target : ∀ port, publisher.onionPort = some port -> publisher.proxy = some port
  pending : ∀ port, publisher.desiredPort = some port -> publisher.onionPort ≠ some port -> publisher.Pending port

/-- No call that was overtaken succeeds while an onion is recorded. -/
def timely (input : OnionStep) : Bool :=
  decide (input = .created -> publisher.running = publisher.desiredPort ∨ publisher.onionPort = none)

variable {publisher} {input : OnionStep}

theorem Recorded.points (recorded : publisher.Recorded) : publisher.Points where
  settled := by
    intro idle stopped unscheduled port desired
    have published : publisher.onionPort = some port := by
      by_contra missing
      have pending := recorded.pending port desired missing
      simp [Pending, idle, stopped, unscheduled] at pending
    exact ⟨published, recorded.target port published⟩
  pending := recorded.pending

theorem Recorded.after (recorded : publisher.Recorded) (timely : publisher.timely input = true) :
    (publisher.after input).Recorded := by
  obtain ⟨_, _⟩ := recorded
  cases input with
  | requestPublish port => constructor <;> grind [OnionPublisher.after, Pending]
  | reset => exact ⟨nofun, nofun⟩
  | created =>
    have current := of_decide_eq_true timely rfl
    constructor <;> grind [OnionPublisher.after, Pending]
  | _ => constructor <;> grind [OnionPublisher.after, Pending]

/-- In a run in which no overtaken call succeeds while an onion is recorded, the onion always points
where it says, or a publish is pending. -/
theorem onion_points {inputs : List OnionStep}
    (allowed : Along step (fun publisher input => publisher.timely input = true) new inputs)
    {final : OnionPublisher} (reached : run step new inputs = .ok final) : final.Points := by
  refine Recorded.points (run_invariant ?_ ⟨by simp [new], by simp [new]⟩ allowed reached)
  rintro publisher input next recorded timely ⟨⟩
  exact recorded.after timely

/-- A port is changed after the first publish ended. -/
theorem onion_points_after_change : (finalState step new [.requestPublish 1, .publishNow, .created,
      .requestPublish 2, .publishNow, .created]).Points :=
  onion_points (Along.checked rfl) (run_finalState rfl)

/-- The port goes back before the second publish ends: the record says 1, and the proxy targets 2. -/
theorem onion_points_elsewhere : finalState step new [.requestPublish 1, .publishNow, .created,
      .requestPublish 2, .publishNow, .requestPublish 1, .created, .publishNow] =
    ⟨some 1, some 1, [], none, none, some 2⟩ := by
  decide

end OnionPublisher

end Starling.App
