import Starling.Foundation.Run

namespace Starling.App

open List

/-!
# The sync pool, the retry chain and the publish lock

All put off calls of an async function.  A step is what runs between two awaits, so other calls come
in between.
-/

/-- A `Pool`, with the calls of `run` numbered as they come in.  `_running` is the length of `running`,
and `resuming` are the callers whose waiter is completed and who have not resumed yet. -/
structure Pool where
  maxConcurrent : Nat
  calls : Nat
  started : List Nat
  running : List Nat
  waiting : List Nat
  resuming : List Nat

inductive PoolStep where
  | call
  | resume
  | finish (call : Nat)

namespace Pool

def begin (pool : Pool) (call : Nat) : Pool :=
  { pool with started := pool.started ++ [call], running := pool.running ++ [call] }

/-- `run`, up to the wait or the task; from the wait to the task; and from the end of the task, which
may be an exception. -/
def after (pool : Pool) : PoolStep -> Pool
  | .call =>
    let entered := { pool with calls := pool.calls + 1 }
    if pool.maxConcurrent ≤ pool.running.length then { entered with waiting := pool.waiting ++ [pool.calls] }
    else entered.begin pool.calls
  | .resume =>
    match pool.resuming with
    | [] => pool
    | call :: rest => { pool with resuming := rest }.begin call
  | .finish call =>
    if call ∈ pool.running then
      let left := { pool with running := pool.running.erase call }
      match pool.waiting with
      | [] => left
      | first :: rest => { left with waiting := rest, resuming := pool.resuming ++ [first] }
    else pool

def step (pool : Pool) (input : PoolStep) : Except Empty Pool := .ok (pool.after input)

def new (maxConcurrent : Nat) : Pool := ⟨maxConcurrent, 0, [], [], [], []⟩

structure Bounds (pool : Pool) : Prop where
  bounded : pool.running.length ≤ pool.maxConcurrent
  inOrder : pool.started <+: range pool.calls
  used : pool.running.length < pool.maxConcurrent -> pool.resuming = [] -> pool.waiting = []

structure Reserved (pool : Pool) : Prop where
  queue : pool.started ++ (pool.resuming ++ pool.waiting) = range pool.calls
  within : pool.running.length + pool.resuming.length ≤ pool.maxConcurrent
  full : pool.waiting ≠ [] -> pool.running.length + pool.resuming.length = pool.maxConcurrent

def Alone (pool : Pool) (input : PoolStep) : Prop := input = .call -> pool.resuming = []

variable {pool : Pool} {input : PoolStep}

theorem Reserved.bounds (reserved : pool.Reserved) : pool.Bounds where
  bounded := Nat.le_of_add_right_le reserved.within
  inOrder := ⟨_, reserved.queue⟩
  used := by
    intro free nobody
    by_contra some
    have full := reserved.full some
    simp [nobody] at full
    omega

theorem Reserved.after (reserved : pool.Reserved) (alone : pool.Alone input) : (pool.after input).Reserved := by
  obtain ⟨queue, within, full⟩ := reserved
  cases input with
  | call =>
    have nobody := alone rfl
    simp only [nobody, nil_append, length_nil, Nat.add_zero] at queue within full
    rw [Pool.after]
    split
    next busy =>
      refine ⟨?_, ?_, fun _ => ?_⟩
      · simp only [nobody, nil_append, range_succ, ← queue, append_assoc]
      · rwa [nobody, length_nil]
      · rw [nobody]
        exact Nat.le_antisymm within busy
    next free =>
      have idle : pool.waiting = [] := by
        by_contra some
        exact free (Nat.le_of_eq (full some).symm)
      refine ⟨?_, ?_, fun some => (some idle).elim⟩
      · simp only [begin, nobody, idle, append_nil, range_succ, ← queue]
      · simp only [begin, nobody, length_append, length_singleton, length_nil]
        omega
  | resume =>
    rw [Pool.after]
    split
    · exact ⟨queue, within, full⟩
    next call rest resumes =>
      rw [resumes] at queue within full
      refine ⟨?_, ?_, fun some => ?_⟩
      · simpa only [begin, append_assoc, cons_append, nil_append] using queue
      · simp only [begin, length_append, length_cons, length_nil] at within ⊢
        omega
      · have all := full some
        simp only [begin, length_append, length_cons, length_nil] at all ⊢
        omega
  | finish call =>
    rw [Pool.after]
    split
    next member =>
      have shorter := length_erase_of_mem member
      have positive := length_pos_of_mem member
      split
      next idle =>
        refine ⟨queue, ?_, fun some => (some idle).elim⟩
        simp only [shorter]
        omega
      next first rest waits =>
        -- The slot of the call that ended is kept for the first that waits.
        have all := full (by simp [waits])
        rw [waits] at queue
        have moved : (pool.running.erase call).length + (pool.resuming ++ [first]).length = pool.maxConcurrent := by
          rw [shorter, length_append, length_singleton]
          omega
        refine ⟨?_, Nat.le_of_eq moved, fun _ => moved⟩
        simpa only [append_assoc, cons_append, nil_append] using queue
    · exact ⟨queue, within, full⟩

theorem Reserved.alone (reserved : pool.Reserved) (bounds : (pool.after input).Bounds) : pool.Alone input := by
  rintro rfl
  by_contra pending
  have resumes := length_pos_iff.mpr pending
  have free : ¬ pool.maxConcurrent ≤ pool.running.length := by grind [reserved.within]
  have order := bounds.inOrder
  simp only [Pool.after, if_neg free, begin] at order
  have total := congrArg length reserved.queue
  rw [length_append, length_append, length_range] at total
  have slot := List.IsPrefix.getElem order (i := pool.started.length) (by simp)
  simp at slot
  omega

/-- The bounds hold in every state of a run exactly if no call comes in while a resumption is pending. -/
theorem pool_bounds_iff (maxConcurrent : Nat) (inputs : List PoolStep) :
    Along step (fun pool input => (pool.after input).Bounds) (new maxConcurrent) inputs ↔
      Along step Alone (new maxConcurrent) inputs := by
  have agree : ∀ pool input, Reserved pool -> True -> (pool.Alone input ↔ (pool.after input).Bounds) :=
    fun pool input reserved _ => ⟨fun alone => (reserved.after alone).bounds, reserved.alone⟩
  refine (Along.iff_of_invariant agree ?_ ?_ (fun _ _ _ _ _ _ => trivial)).symm
  · rintro _ _ _ reserved alone ⟨⟩
    exact reserved.after alone
  · exact ⟨rfl, Nat.zero_le _, fun some => (some rfl).elim⟩

/-- A third call between the end of the first task and the resumption of the second call. -/
theorem pool_overtaken : (finalState step (new 1) [.call, .call, .finish 0, .call, .resume]).running = [2, 1] := by
  decide

end Pool

theorem length_of_found {A : Type} {items : List A} {index : Nat} {item} (found : items[index]? = some item) :
    index < items.length :=
  (List.getElem?_eq_some_iff.mp found).1

inductive Link where
  | waiting
  | running
  | completed
  | failed (pass : Nat)
  deriving DecidableEq

/-- `_retryChain`: the futures of the calls so far, each with the pass whose exception it carries, and
the passes that were begun. -/
structure RetryChain where
  links : List Link
  passes : List Nat

inductive ChainStep where
  | call
  | turn (call : Nat)
  | finish (call : Nat) (ok : Bool)

namespace RetryChain

def previous (chain : RetryChain) : Nat -> Link
  | 0 => .completed
  | call + 1 => chain.links[call]?.getD .waiting

/-- A call of `retryQueuedAccepts` or `retryQueuedRequests`; what `then` does when the future before has
ended; and the end of a pass. -/
def after (chain : RetryChain) : ChainStep -> RetryChain
  | .call => { chain with links := chain.links ++ [.waiting] }
  | .turn call =>
    if chain.links[call]? = some .waiting then
      match chain.previous call with
      | .completed => ⟨chain.links.set call .running, chain.passes ++ [call]⟩
      | .failed pass => { chain with links := chain.links.set call (.failed pass) }
      | _ => chain
    else chain
  | .finish call ok =>
    if chain.links[call]? = some .running then
      { chain with links := chain.links.set call (if ok then .completed else .failed call) }
    else chain

def step (chain : RetryChain) (input : ChainStep) : Except Empty RetryChain := .ok (chain.after input)

def Ended (chain : RetryChain) (call : Nat) : Prop :=
  chain.links[call]? = some .completed ∨ ∃ pass, chain.links[call]? = some (.failed pass)

/-- A call joins the chain; when all calls before it have ended, its turn begins its own pass; the end
of the pass is that of its future; and the passes run in the order of the calls and one at a time. -/
structure Pumps (chain : RetryChain) : Prop where
  joins : (chain.after .call).links = chain.links ++ [.waiting]
  proceeds : ∀ call, chain.links[call]? = some .waiting -> (∀ earlier < call, chain.Ended earlier) ->
    (chain.after (.turn call)).links[call]? = some .running ∧
      (chain.after (.turn call)).passes = chain.passes ++ [call]
  ends : ∀ call ok, chain.links[call]? = some .running ->
    (chain.after (.finish call ok)).links[call]? = some (if ok then .completed else .failed call)
  ran : ∀ (call : Nat) link, chain.links[call]? = some link -> (call ∈ chain.passes ↔ link ≠ .waiting)
  inOrder : chain.passes.Pairwise (· < ·)
  single : ∀ first second : Nat, chain.links[first]? = some .running ->
    chain.links[second]? = some .running -> first = second
  own : ∀ (call : Nat) pass, chain.links[call]? = some (.failed pass) -> pass = call

structure Linked (chain : RetryChain) (opened : Nat) : Prop where
  passes : chain.passes = range opened
  within : opened ≤ chain.links.length
  stages : ∀ (call : Nat) link, chain.links[call]? = some link ->
    (link = .waiting ↔ opened ≤ call) ∧ (call + 1 < opened -> link = .completed)
  last : ∀ (call : Nat) pass, chain.links[call]? = some (.failed pass) ->
    pass = call ∧ call + 1 = chain.links.length

/-- No call is made after a failed pass, and the pass that fails is that of the last call. -/
def Unbroken (chain : RetryChain) : ChainStep -> Prop
  | .call => ∀ pass, .failed pass ∉ chain.links
  | .finish call false => chain.links[call]? = some .running -> call + 1 = chain.links.length
  | _ => True

variable {chain : RetryChain} {input : ChainStep} {opened : Nat}

theorem of_previous_succ {last link} (found : chain.previous (last + 1) = link) (came : link ≠ .waiting) :
    chain.links[last]? = some link := by
  cases here : chain.links[last]? <;> simp_all [previous]

theorem previous_succ {last link} (found : chain.links[last]? = some link) : chain.previous (last + 1) = link := by
  rw [previous, found, Option.getD_some]

theorem Linked.opened_of_running (linked : chain.Linked opened) {call : Nat}
    (running : chain.links[call]? = some .running) : call + 1 = opened := by
  have stages := linked.stages call _ running
  have begun : ¬ opened ≤ call := fun behind => nomatch stages.1.mpr behind
  have latest : ¬ call + 1 < opened := fun before => nomatch stages.2 before
  omega

theorem Linked.opened_of_completed (linked : chain.Linked opened) {call : Nat}
    (waits : chain.links[call]? = some .waiting) (completed : chain.previous call = .completed) :
    call = opened := by
  have behind := (linked.stages call _ waits).1.mp rfl
  cases call with
  | zero => omega
  | succ last =>
    have ended := linked.stages last _ (of_previous_succ completed nofun)
    have begun : ¬ opened ≤ last := fun behind => nomatch ended.1.mpr behind
    omega

theorem Linked.completed_of_ended (linked : chain.Linked opened) {call : Nat}
    (waits : chain.links[call]? = some .waiting) (ended : ∀ earlier < call, chain.Ended earlier) :
    chain.previous call = .completed := by
  cases call with
  | zero => rfl
  | succ last =>
    rcases ended last (Nat.lt_succ_self last) with completed | ⟨pass, failed⟩
    · exact previous_succ completed
    · have within := length_of_found waits
      have final := (linked.last last pass failed).2
      omega

theorem Linked.pumps (linked : chain.Linked opened) : chain.Pumps where
  joins := rfl
  proceeds := by
    intro call waits ended
    simp only [RetryChain.after, if_pos waits, linked.completed_of_ended waits ended]
    exact ⟨getElem?_set_self (length_of_found waits), trivial⟩
  ends := by
    intro call ok running
    simp only [RetryChain.after, if_pos running]
    exact getElem?_set_self (length_of_found running)
  ran := by
    intro call link found
    rw [linked.passes, mem_range, Ne, (linked.stages call link found).1, Nat.not_le]
  inOrder := linked.passes ▸ pairwise_lt_range
  single := by
    intro first second one two
    have same := (linked.opened_of_running one).trans (linked.opened_of_running two).symm
    exact Nat.succ.inj same
  own := fun call pass failed => (linked.last call pass failed).1

theorem Linked.call (linked : chain.Linked opened) (intact : ∀ pass, .failed pass ∉ chain.links) :
    (chain.after .call).Linked opened := by
  obtain ⟨passes, within, stages, _⟩ := linked
  refine ⟨passes, by grind [RetryChain.after], ?_, ?_⟩ <;> intro call _ found
  · rcases Nat.lt_or_ge call chain.links.length with old | new
    · exact stages call _ ((getElem?_append_left old).symm.trans found)
    · grind [RetryChain.after]
  · rcases mem_append.mp (mem_of_getElem? found) with old | new
    · exact (intact _ old).elim
    · cases mem_singleton.mp new

theorem Linked.turn (linked : chain.Linked opened) {call : Nat} (waits : chain.links[call]? = some .waiting)
    (completed : chain.previous call = .completed) :
    Linked ⟨chain.links.set call .running, chain.passes ++ [call]⟩ (opened + 1) := by
  have within := length_of_found waits
  -- The call before has completed, so this is the first one that waits.
  obtain rfl := linked.opened_of_completed waits completed
  refine ⟨by rw [linked.passes, range_succ], by rwa [length_set], ?_, ?_⟩ <;> intro other _ found
  · have stages := linked.stages other
    have before := @of_previous_succ chain other
    grind
  · grind [linked.last other]

theorem Linked.finish (linked : chain.Linked opened) {call : Nat} {ok : Bool}
    (running : chain.links[call]? = some .running) (unbroken : chain.Unbroken (.finish call ok)) :
    Linked { chain with links := chain.links.set call (if ok then .completed else .failed call) } opened := by
  have latest := linked.opened_of_running running
  refine ⟨linked.passes, by simpa using linked.within, ?_, ?_⟩ <;> intro other _ found
  · grind [linked.stages other]
  · cases ok <;> grind [linked.last other, Unbroken]

theorem Linked.after (linked : chain.Linked opened) (unbroken : chain.Unbroken input) :
    ∃ later, (chain.after input).Linked later := by
  cases input with
  | call => exact ⟨opened, linked.call unbroken⟩
  | turn call =>
    simp only [RetryChain.after]
    split
    next waits =>
      split
      next completed => exact ⟨opened + 1, linked.turn waits completed⟩
      next pass failed =>
        -- A call waits behind the one that failed, which is the last.
        cases call with
        | zero => cases failed
        | succ last =>
          have final := (linked.last last pass (of_previous_succ failed nofun)).2
          have within := length_of_found waits
          omega
      · exact ⟨opened, linked⟩
    · exact ⟨opened, linked⟩
  | finish call ok =>
    simp only [RetryChain.after]
    split
    next running => exact ⟨opened, linked.finish running unbroken⟩
    · exact ⟨opened, linked⟩

/-- A call that waits behind a failed one does not run its pass. -/
theorem not_pumps {last pass : Nat} (failed : chain.links[last]? = some (.failed pass))
    (waits : chain.links[last + 1]? = some .waiting) (ended : ∀ earlier < last, chain.Ended earlier) :
    ¬ chain.Pumps := by
  intro pumps
  have runs := (pumps.proceeds (last + 1) waits ?_).1
  · simp only [RetryChain.after, if_pos waits, previous_succ failed] at runs
    rw [getElem?_set_self (length_of_found waits)] at runs
    cases runs
  · intro earlier before
    rcases Nat.lt_succ_iff_lt_or_eq.mp before with before | rfl
    · exact ended earlier before
    · exact .inr ⟨pass, failed⟩

theorem Linked.completed_before (linked : chain.Linked opened) {call earlier : Nat} (begun : call < opened)
    (before : earlier < call) : chain.links[earlier]? = some .completed := by
  have within : earlier < chain.links.length := by
    have opens := linked.within
    omega
  have found := getElem?_eq_getElem within
  rw [found, (linked.stages earlier _ found).2 (Nat.lt_of_le_of_lt before begun)]

theorem Linked.unbroken (linked : chain.Linked opened) (pumps : (chain.after input).Pumps) :
    chain.Unbroken input := by
  cases input with
  | call =>
    intro pass member
    rcases mem_iff_getElem?.mp member with ⟨last, failed⟩
    have within := length_of_found failed
    have begun : last < opened := Nat.not_le.mp (fun behind => nomatch (linked.stages last _ failed).1.mpr behind)
    refine not_pumps ((getElem?_append_left within).trans failed) ?_ (fun earlier before => .inl ?_) pumps
    · rw [(linked.last last pass failed).2]
      exact getElem?_concat_length
    · exact (getElem?_append_left (Nat.lt_trans before within)).trans (linked.completed_before begun before)
  | turn => trivial
  | finish call ok =>
    cases ok with
    | true => trivial
    | false =>
      intro running
      by_contra more
      have latest := linked.opened_of_running running
      have within := length_of_found running
      have next : call + 1 < chain.links.length := by omega
      have found := getElem?_eq_getElem next
      rw [(linked.stages (call + 1) _ found).1.mpr (Nat.le_of_eq latest.symm)] at found
      simp only [RetryChain.after, if_pos running] at pumps
      refine not_pumps (getElem?_set_self within) ?_ (fun earlier before => .inl ?_) pumps
      · rwa [getElem?_set_ne (Nat.ne_of_lt (Nat.lt_succ_self call))]
      · rw [getElem?_set_ne (Nat.ne_of_gt before)]
        exact linked.completed_before (by omega) before

/-- The pump goes on in every state of a run exactly if no call comes or waits behind a failed pass. -/
theorem retry_chain_pumps_iff (inputs : List ChainStep) :
    Along step (fun chain input => (chain.after input).Pumps) ⟨[], []⟩ inputs ↔
      Along step Unbroken ⟨[], []⟩ inputs := by
  have agree : ∀ chain input, (∃ opened, Linked chain opened) -> True ->
      (chain.Unbroken input ↔ (chain.after input).Pumps) := by
    rintro chain input ⟨opened, linked⟩ _
    refine ⟨fun unbroken => ?_, linked.unbroken⟩
    rcases linked.after unbroken with ⟨_, later⟩
    exact later.pumps
  refine (Along.iff_of_invariant agree ?_ ?_ (fun _ _ _ _ _ _ => trivial)).symm
  · rintro _ _ _ ⟨_, linked⟩ unbroken ⟨⟩
    exact linked.after unbroken
  · exact ⟨0, by constructor <;> simp⟩

/-- The second call fails with the exception of the first, and its pass does not run. -/
theorem retry_chain_stops :
    finalState step ⟨[], []⟩ [.call, .call, .turn 0, .finish 0 false, .turn 1] =
      ⟨[.failed 0, .failed 0], [0]⟩ := by
  rfl

end RetryChain

/-- A call of `synchronized`: its body waits, runs or has ended, with a value or an exception; then the
completer is completed and the future of the call has the result. -/
inductive Turn (R : Type) where
  | waiting
  | running
  | ended (result : R)
  | settled (result : R)

/-- A `PublishLock`.  A call takes `_tail` and puts its own completer there at once, so it waits for the
call before it.  `started` and `finished` are the bodies that were begun and those that ended. -/
structure PublishLock (R : Type) where
  turns : List (Turn R)
  started : List Nat
  finished : List (Nat × R)

inductive LockStep (R : Type) where
  | synchronized
  | start (call : Nat)
  | finish (call : Nat) (result : R)
  | complete (call : Nat)

def LockStep.isCall {R : Type} : LockStep R -> Bool
  | .synchronized => true
  | _ => false

namespace PublishLock

variable {R : Type} (lock : PublishLock R)

/-- At first `_tail` is a completed future. -/
def tailCompleted : Nat -> Bool
  | 0 => true
  | last + 1 =>
    match lock.turns[last]? with
    | some (.settled _) => true
    | _ => false

/-- A call; what `then` does; the end of a body; and what `whenComplete` does. -/
def after : LockStep R -> PublishLock R
  | .synchronized => { lock with turns := lock.turns ++ [.waiting] }
  | .start call =>
    match lock.turns[call]?, lock.tailCompleted call with
    | some .waiting, true => { lock with turns := lock.turns.set call .running, started := lock.started ++ [call] }
    | _, _ => lock
  | .finish call result =>
    match lock.turns[call]? with
    | some .running => ⟨lock.turns.set call (.ended result), lock.started, lock.finished ++ [(call, result)]⟩
    | _ => lock
  | .complete call =>
    match lock.turns[call]? with
    | some (.ended result) => { lock with turns := lock.turns.set call (.settled result) }
    | _ => lock

def step (input : LockStep R) : Except Empty (PublishLock R) := .ok (lock.after input)

/-- Every call has its turn; one body runs at a time, in the order of the calls; a body starts when all
before it have ended; and a future has the result of its own body, once that has ended. -/
structure Fair (calls : Nat) : Prop where
  queued : lock.turns.length = calls
  exclusive : ∀ first second : Nat, lock.turns[first]? = some .running ->
    lock.turns[second]? = some .running -> first = second
  inOrder : lock.started = range lock.started.length
  begun : ∀ (call : Nat) turn, lock.turns[call]? = some turn -> (call ∈ lock.started ↔ turn ≠ .waiting)
  proceeds : ∀ call : Nat, lock.turns[call]? = some .waiting ->
    (∀ earlier < call, ∃ result, (earlier, result) ∈ lock.finished) ->
    ((lock.after (.complete (call - 1))).after (.start call)).turns[call]? = some .running
  settles : ∀ (call : Nat) result, lock.turns[call]? = some .running ->
    ((lock.after (.finish call result)).after (.complete call)).turns[call]? = some (.settled result)
  own : ∀ (call : Nat) result, (call, result) ∈ lock.finished ↔
    lock.turns[call]? = some (.ended result) ∨ lock.turns[call]? = some (.settled result)

structure Chained (opened : Nat) : Prop where
  started : lock.started = range opened
  within : opened ≤ lock.turns.length
  stages : ∀ (call : Nat) turn, lock.turns[call]? = some turn ->
    (turn = .waiting ↔ opened ≤ call) ∧ (call + 1 < opened -> ∃ result, turn = .settled result)
  own : ∀ (call : Nat) result, (call, result) ∈ lock.finished ↔
    lock.turns[call]? = some (.ended result) ∨ lock.turns[call]? = some (.settled result)

variable {lock} {opened : Nat}

theorem tailCompleted_succ (last) :
    lock.tailCompleted (last + 1) = true ↔ ∃ result, lock.turns[last]? = some (.settled result) := by
  rw [tailCompleted]
  split <;> simp_all

theorem length_after (input) :
    (lock.after input).turns.length = lock.turns.length + if input.isCall then 1 else 0 := by
  cases input with
  | synchronized => exact length_append
  | start | finish | complete =>
    rw [PublishLock.after]
    split <;> simp [LockStep.isCall]

theorem Chained.after (chained : lock.Chained opened) (input) : ∃ later, (lock.after input).Chained later := by
  have stays : ∃ later, lock.Chained later := ⟨opened, chained⟩
  obtain ⟨started, within, stages, own⟩ := chained
  cases input with
  | synchronized => refine ⟨opened, started, ?_, ?_, ?_⟩ <;> grind [PublishLock.after]
  | start call =>
    simp only [PublishLock.after]
    split
    next waits completed =>
      -- The call before is settled, so it is the last one that was started.
      have first : call = opened := by cases call <;> grind [tailCompleted_succ]
      refine ⟨opened + 1, ?_, ?_, ?_, ?_⟩
      · grind [range_succ]
      · grind
      · cases call <;> grind [tailCompleted_succ]
      · grind
    · exact stays
  | finish call result =>
    simp only [PublishLock.after]
    split
    · refine ⟨opened, started, ?_, ?_, ?_⟩ <;> grind
    · exact stays
  | complete call =>
    simp only [PublishLock.after]
    split
    · refine ⟨opened, started, ?_, ?_, ?_⟩ <;> grind
    · exact stays

theorem Chained.fair (chained : lock.Chained opened) : lock.Fair lock.turns.length := by
  obtain ⟨started, within, stages, own⟩ := chained
  have last : ∀ call : Nat, lock.turns[call]? = some .running -> call + 1 = opened := by grind
  refine ⟨rfl, by grind, by simp [started], by grind, ?_, ?_, own⟩
  · intro call waits ready
    cases call with
    | zero =>
      simp [PublishLock.after, waits, tailCompleted]
      grind
    | succ last =>
      rcases ready last (Nat.lt_succ_self last) with ⟨result, finished⟩
      rcases (own last result).mp finished with ended | settled
      · simp [PublishLock.after, ended, waits, tailCompleted]
        grind
      · simp [PublishLock.after, settled, waits, tailCompleted]
        grind
  · intro call result running
    have inside := length_of_found running
    simp only [PublishLock.after, running, getElem?_set_self inside]
    exact getElem?_set_self (by rwa [length_set])

theorem Chained.run (chained : lock.Chained opened) (inputs : List (LockStep R)) :
    ∃ final, run step lock inputs = .ok final ∧ final.Fair (lock.turns.length + inputs.countP LockStep.isCall) := by
  induction inputs generalizing lock opened with
  | nil => exact ⟨lock, rfl, chained.fair⟩
  | cons input rest ih =>
    rcases chained.after input with ⟨_, later⟩
    rcases ih later with ⟨final, reached, fair⟩
    refine ⟨final, reached, ?_⟩
    rw [countP_cons, Nat.add_comm (countP _ _), ← Nat.add_assoc, ← length_after]
    exact fair

/-- After every sequence of calls, starts, ends and completions the lock is fair. -/
theorem publish_lock_fair (inputs : List (LockStep R)) :
    ∃ lock, run step ⟨[], [], []⟩ inputs = .ok lock ∧ lock.Fair (inputs.countP LockStep.isCall) := by
  have chained : Chained (R := R) ⟨[], [], []⟩ 0 := by constructor <;> simp
  simpa using chained.run inputs

/-- The second body ends with an error, and the third still has its turn. -/
example : (finalState step ⟨[], [], []⟩ [.synchronized, .synchronized, .start 0, .finish 0 true, .complete 0,
    .synchronized, .start 1, .start 2, .finish 1 false, .complete 1, .start 2]).turns =
      [.settled true, .settled false, .running] := by
  rfl

end PublishLock

end Starling.App
