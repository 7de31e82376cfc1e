import Mathlib.Data.List.Basic

namespace Starling

open List

/-!
# Runs of a step function

A system is given by a step function that either produces the next state or
stops with a reason.  A run feeds it a list of inputs and stops at the first
failure.  The two rules below are the only inductions over runs that the rest of
the development needs: an invariant that every admissible step keeps holds after
every run of admissible steps, and a run fails exactly when some step that it
reaches fails.
-/

variable {State Input Stop : Type}

/-- Feed the inputs one after the other, stopping at the first failure. -/
def run (step : State -> Input -> Except Stop State) (start : State) : List Input -> Except Stop State
  | [] => .ok start
  | input :: rest =>
    match step start input with
    | .ok next => run step next rest
    | .error stop => .error stop

/-- Where a run ends; a run that stops early counts as not begun. -/
def finalState (step : State -> Input -> Except Stop State) (start : State) (inputs : List Input) :
    State :=
  (run step start inputs).toOption.getD start

/-- Some run leads from `start` to `final`. -/
def Reaches (step : State -> Input -> Except Stop State) (start final : State) : Prop :=
  ∃ inputs, run step start inputs = .ok final

/-- Every step that the run really takes meets the condition, at the state in
which it is taken. -/
def Along (step : State -> Input -> Except Stop State) (condition : State -> Input -> Prop)
    (start : State) (inputs : List Input) : Prop :=
  ∀ before input after middle, inputs = before ++ input :: after ->
    run step start before = .ok middle -> condition middle input

variable {input : Input} {start final middle : State} {step : State -> Input -> Except Stop State}
variable {rest inputs : List Input} {condition : State -> Input -> Prop}
variable {A B : Type}

theorem run_cons_ok {next} (rest) (stepped : step start input = .ok next) :
    run step start (input :: rest) = run step next rest := by
  simp [run, stepped]

theorem run_of_cons (reached : run step start (input :: rest) = .ok final) :
    ∃ next, step start input = .ok next ∧ run step next rest = .ok final := by
  cases stepped : step start input with
  | error => simp only [run, stepped, reduceCtorEq] at reached
  | ok next =>
    rw [run_cons_ok rest stepped] at reached
    exact ⟨next, rfl, reached⟩

theorem run_of_append {before after} (reached : run step start (before ++ after) = .ok final) :
    ∃ middle, run step start before = .ok middle ∧ run step middle after = .ok final := by
  induction before generalizing start with
  | nil => exact ⟨start, rfl, reached⟩
  | cons input rest ih =>
    rcases run_of_cons reached with ⟨_, stepped, later⟩
    rcases ih later with ⟨middle, first, second⟩
    refine ⟨middle, ?_, second⟩
    rw [run_cons_ok rest stepped]
    exact first

theorem run_append {before} (after) (reached : run step start before = .ok middle) :
    run step start (before ++ after) = run step middle after := by
  induction before generalizing start with
  | nil =>
    simp only [run, Except.ok.injEq] at reached
    rw [reached, nil_append]
  | cons input rest ih =>
    cases stepped : step start input with
    | error => simp only [run, stepped, reduceCtorEq] at reached
    | ok =>
      rw [run_cons_ok rest stepped] at reached
      rw [cons_append, run_cons_ok _ stepped]
      exact ih reached

theorem Along.tail {next} (along : Along step condition start (input :: rest))
    (stepped : step start input = .ok next) : Along step condition next rest := by
  intro before later after middle split reached
  apply along (input :: before) later after middle
  · rw [split, cons_append]
  · rw [run_cons_ok before stepped]
    exact reached

theorem Along.head (along : Along step condition start (input :: rest)) : condition start input :=
  along [] input rest start rfl rfl

theorem Along.nil : Along step condition start [] := by
  intro before input after middle split
  exact (append_ne_nil_of_right_ne_nil before (cons_ne_nil input after) split.symm).elim

theorem Along.cons (holds : condition start input)
    (later : ∀ next, step start input = .ok next -> Along step condition next rest) :
    Along step condition start (input :: rest) := by
  intro before item after middle split reached
  cases before with
  | nil =>
    simp only [run, Except.ok.injEq] at reached
    rw [nil_append, List.cons.injEq] at split
    rw [← reached, ← split.1]
    exact holds
  | cons head early =>
    rw [cons_append, List.cons.injEq] at split
    rcases run_of_cons reached with ⟨next, stepped, passed⟩
    rw [← split.1] at stepped
    exact later next stepped early item after middle split.2 passed

theorem Along.left {later} (along : Along step condition start (inputs ++ later)) :
    Along step condition start inputs := by
  intro before input after middle split reached
  apply along before input (after ++ later) middle _ reached
  rw [split, append_assoc, cons_append]

theorem Along.right {earlier} (along : Along step condition start (earlier ++ inputs))
    (reached : run step start earlier = .ok middle) : Along step condition middle inputs := by
  intro before input after last split reachedLast
  apply along (earlier ++ before) input after last
  · rw [split, append_assoc]
  · rw [run_append before reached]
    exact reachedLast

theorem Along.of_mem (all : ∀ state input, input ∈ inputs -> condition state input) :
    Along step condition start inputs := by
  intro before input after middle split _
  apply all middle input
  rw [split]
  exact mem_append_right before mem_cons_self

theorem Along.and {first second : State -> Input -> Prop} (left : Along step first start inputs)
    (right : Along step second start inputs) :
    Along step (fun state input => first state input ∧ second state input) start inputs :=
  fun before input after middle split reached =>
    ⟨left before input after middle split reached, right before input after middle split reached⟩

/-- Evaluate a test at every step of a run. -/
def checkAlong (step : State -> Input -> Except Stop State) (test : State -> Input -> Bool)
    (start : State) : List Input -> Bool
  | [] => true
  | input :: rest =>
    test start input &&
      match step start input with
      | .ok next => checkAlong step test next rest
      | .error _ => true

theorem Along.of_check {test} (sound : ∀ state input, test state input = true -> condition state input)
    (checked : checkAlong step test start inputs = true) : Along step condition start inputs := by
  induction inputs generalizing start with
  | nil => exact nil
  | cons first rest ih =>
    rw [checkAlong, Bool.and_eq_true] at checked
    apply cons (sound start first checked.1)
    intro next stepped
    have later := checked.2
    rw [stepped] at later
    exact ih later

theorem Along.checked {test} (checked : checkAlong step test start inputs = true) :
    Along step (fun state input => test state input = true) start inputs :=
  of_check (fun _ _ => id) checked

/-- The invariant rule.  A step has to keep the invariant only where it meets the
condition, and the run has to meet the condition only at the steps it takes. -/
theorem run_invariant {invariant : State -> Prop}
    (preserved : ∀ state input next, invariant state -> condition state input ->
      step state input = .ok next -> invariant next) {start final} (initial : invariant start)
    (along : Along step condition start inputs) (reached : run step start inputs = .ok final) :
    invariant final := by
  induction inputs generalizing start with
  | nil =>
    simp only [run, Except.ok.injEq] at reached
    exact reached ▸ initial
  | cons input rest ih =>
    cases stepped : step start input with
    | error => simp only [run, stepped, reduceCtorEq] at reached
    | ok next =>
      rw [run_cons_ok rest stepped] at reached
      exact ih (preserved start input next initial along.head stepped) (along.tail stepped) reached

/-- Two conditions that agree wherever an invariant holds, which one of them keeps, agree along
every run. -/
theorem Along.iff_of_invariant {invariant : State -> Prop} {first second side : State -> Input -> Prop}
    (agree : ∀ state input, invariant state -> side state input -> (first state input ↔ second state input))
    (preserved : ∀ state input next, invariant state -> first state input ->
      step state input = .ok next -> invariant next) {start} (initial : invariant start)
    (sides : Along step side start inputs) :
    Along step first start inputs ↔ Along step second start inputs := by
  constructor
  · intro along before input after middle split reached
    have earlier : Along step first start before := by
      rw [split] at along
      exact along.left
    have holds := run_invariant preserved initial earlier reached
    exact (agree middle input holds (sides before input after middle split reached)).mp
      (along before input after middle split reached)
  · intro along before input after middle split reached
    have earlier : Along step (fun state input => side state input ∧ second state input) start before := by
      rw [split] at along sides
      exact sides.left.and along.left
    have kept : ∀ state input next, invariant state -> side state input ∧ second state input ->
        step state input = .ok next -> invariant next :=
      fun state input next holds both =>
        preserved state input next holds ((agree state input holds both.1).mpr both.2)
    have holds := run_invariant kept initial earlier reached
    exact (agree middle input holds (sides before input after middle split reached)).mpr
      (along before input after middle split reached)

theorem Reaches.invariant {invariant : State -> Prop}
    (preserved : ∀ state input next, invariant state -> step state input = .ok next -> invariant next)
    {start final} (reaches : Reaches step start final) (initial : invariant start) : invariant final := by
  rcases reaches with ⟨inputs, reached⟩
  have unconditional : Along step (fun _ _ => True) start inputs := fun _ _ _ _ _ _ => trivial
  exact run_invariant (fun state input next holds _ stepped => preserved state input next holds stepped)
    initial unconditional reached

theorem run_finalState (returns : (run step start inputs).toBool = true) :
    run step start inputs = .ok (finalState step start inputs) := by
  rw [finalState]
  cases reached : run step start inputs with
  | error =>
    rw [reached] at returns
    cases returns
  | ok => rfl

theorem Reaches.finalState (returns : (run step start inputs).toBool = true) :
    Reaches step start (finalState step start inputs) := ⟨inputs, run_finalState returns⟩

theorem Reaches.trans (first : Reaches step start middle) (second : Reaches step middle final) :
    Reaches step start final := by
  rcases first with ⟨before, reachedMiddle⟩
  rcases second with ⟨after, reachedFinal⟩
  exact ⟨before ++ after, (run_append after reachedMiddle).trans reachedFinal⟩

/-! ## What a fallible computation returns -/

/-- Whatever the computation returns meets the condition. -/
def Ensures {A : Type} (result : Except Stop A) (post : A -> Prop) : Prop := ∀ value, result = .ok value -> post value

namespace Ensures

variable {A B : Type}

theorem ok {value} {post : A -> Prop} (holds : post value) : Ensures (.ok value : Except Stop A) post := by
  intro other same
  cases same
  exact holds

theorem error {stop} {post : A -> Prop} : Ensures (.error stop : Except Stop A) post := nofun

theorem bind {first} {next : A -> Except Stop B} {post : B -> Prop}
    (rest : ∀ value, first = .ok value -> Ensures (next value) post) : Ensures (first >>= next) post := by
  cases first with
  | error => exact error
  | ok value => exact rest value rfl

/-- The loop rule: what one turn keeps, the whole loop keeps. -/
theorem foldlM {turn : A -> B -> Except Stop A} {invariant : A -> Prop}
    (kept : ∀ state item, invariant state -> Ensures (turn state item) invariant) (items : List B) {start : A}
    (initial : invariant start) : Ensures (items.foldlM turn start) invariant := by
  induction items generalizing start with
  | nil => exact ok initial
  | cons item rest ih =>
    apply bind
    intro middle turned
    exact ih (kept start item initial middle turned)

end Ensures

variable {turn : A -> B -> A}

/-- A loop whose turns leave a part of the state alone leaves it alone. -/
theorem foldl_view {D : Type} {view : A -> D} (kept : ∀ state item, view (turn state item) = view state)
    (items : List B) (start : A) : view (items.foldl turn start) = view start := by
  induction items generalizing start with
  | nil => rfl
  | cons item rest ih => rw [foldl_cons, ih, kept]

theorem foldl_and {keep} (view : A -> Bool)
    (turned : ∀ state item, view (turn state item) = (view state && keep item)) (items : List B) (start : A) :
    view (items.foldl turn start) = (view start && items.all keep) := by
  induction items generalizing start with
  | nil => rw [foldl_nil, all_nil, Bool.and_true]
  | cons item rest ih => rw [foldl_cons, ih, turned, all_cons, Bool.and_assoc]

theorem foldl_or {hit} (view : A -> Bool)
    (turned : ∀ state item, view (turn state item) = (view state || hit item)) (items : List B) (start : A) :
    view (items.foldl turn start) = (view start || items.any hit) := by
  induction items generalizing start with
  | nil => rw [foldl_nil, any_nil, Bool.or_false]
  | cons item rest ih => rw [foldl_cons, ih, turned, any_cons, Bool.or_assoc]

/-- A run stops for a reason exactly when one of the steps it reaches does. -/
theorem run_error_iff {stop} : run step start inputs = .error stop ↔
      ∃ before input after middle, inputs = before ++ input :: after ∧
        run step start before = .ok middle ∧ step middle input = .error stop := by
  constructor
  · intro failed
    induction inputs generalizing start with
    | nil => simp only [run, reduceCtorEq] at failed
    | cons input rest ih =>
      cases stepped : step start input with
      | error =>
        simp only [run, stepped, Except.error.injEq] at failed
        exact ⟨[], input, rest, start, rfl, rfl, failed ▸ stepped⟩
      | ok =>
        rw [run_cons_ok rest stepped] at failed
        rcases ih failed with ⟨before, later, after, middle, split, reached, fails⟩
        refine ⟨input :: before, later, after, middle, ?_, ?_, fails⟩
        · rw [split, cons_append]
        · rw [run_cons_ok before stepped]
          exact reached
  · rintro ⟨_, _, _, _, split, reached, fails⟩
    rw [split, run_append _ reached]
    simp [run, fails]

end Starling
