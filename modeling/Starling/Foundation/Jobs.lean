import Mathlib.Data.Set.Insert
import Starling.Foundation.Table

namespace Starling

open Table AList

/-!
# Numbered jobs

A service works on several jobs at once.  Each job gets the next number when it
starts and keeps it until it is finished; a number is never given out twice.
`gather` collects what the running jobs have in hand.
-/

variable {V N : Type}

structure Jobs (V : Type) where
  running : Table Nat V
  next : Nat
  fresh : ∀ id ∈ running, id < next

namespace Jobs

def empty : Jobs V where
  running := ∅
  next := 0
  fresh := nofun

section

variable (jobs : Jobs V)

def get (id : Nat) : Option V := jobs.running.lookup id

def Idle : Prop := ∀ id, jobs.get id = none

def start (job : V) : Jobs V where
  running := jobs.running.insert jobs.next job
  next := jobs.next + 1
  fresh := by
    intro id member
    rcases (mem_insert _).mp member with rfl | old
    · exact Nat.lt_succ_self _
    · exact Nat.lt_succ_of_lt (jobs.fresh id old)

/-- Give out a number for a job that ends at once. -/
def skip : Jobs V where
  running := jobs.running
  next := jobs.next + 1
  fresh := fun id member => Nat.lt_succ_of_lt (jobs.fresh id member)

def update (id : Nat) (job : V) : Jobs V :=
  if present : id ∈ jobs.running then
    { running := jobs.running.insert id job
      next := jobs.next
      fresh := by
        intro other member
        rcases (mem_insert _).mp member with rfl | old
        · exact jobs.fresh other present
        · exact jobs.fresh other old }
  else jobs

def finish (id : Nat) : Jobs V where
  running := jobs.running.erase id
  next := jobs.next
  fresh := fun other member => jobs.fresh other (mem_erase.mp member).2

theorem get_next : jobs.get jobs.next = none := by
  apply lookup_eq_none.mpr
  intro member
  exact lt_irrefl _ (jobs.fresh _ member)

theorem get_start (job id) : (jobs.start job).get id = if id = jobs.next then some job else jobs.get id :=
  lookup_insert_eq jobs.running jobs.next id job

theorem get_start_next (job) : (jobs.start job).get jobs.next = some job := by
  rw [get_start, if_pos rfl]

end

variable {id : Nat} {job old : V} {jobs : Jobs V} {holds : Nat -> V -> Prop}

theorem get_start_running (found : jobs.get id = some job) (new) : (jobs.start new).get id = some job := by
  rw [get_start, if_neg]
  · exact found
  · rintro rfl
    rw [get_next] at found
    cases found

theorem get_finish (jobs : Jobs V) (id target : Nat) :
    (jobs.finish id).get target = if target = id then none else jobs.get target :=
  lookup_erase_eq jobs.running id target

theorem of_get_finish {other} (found : (jobs.finish id).get other = some job) :
    jobs.get other = some job ∧ other ≠ id := by
  rw [get_finish] at found
  split at found
  · cases found
  next apart => exact ⟨found, apart⟩

theorem get_update (found : jobs.get id = some old) (job target) :
    (jobs.update id job).get target = if target = id then some job else jobs.get target := by
  have present : id ∈ jobs.running := mem_iff_lookup.mpr ⟨old, found⟩
  rw [update, dif_pos present]
  exact lookup_insert_eq jobs.running id target job

theorem lt_next (found : jobs.get id = some job) : id < jobs.next := jobs.fresh id (mem_iff_lookup.mpr ⟨job, found⟩)

theorem next_update (jobs : Jobs V) (id) (job : V) : (jobs.update id job).next = jobs.next := by
  unfold update
  split <;> rfl

def All (jobs : Jobs V) (holds : Nat -> V -> Prop) : Prop := ∀ id job, jobs.get id = some job -> holds id job

theorem All.start (all : jobs.All holds) (new : holds jobs.next job) : (jobs.start job).All holds := by
  intro id other found
  rw [get_start] at found
  split at found
  next same =>
    cases found
    rw [same]
    exact new
  · exact all id other found

theorem all_finish (others : ∀ other job, jobs.get other = some job -> other ≠ id -> holds other job) :
    (jobs.finish id).All holds := by
  intro other job found
  have ⟨atOther, elsewhere⟩ := of_get_finish found
  exact others other job atOther elsewhere

theorem all_update (found : jobs.get id = some old)
    (others : ∀ other job, jobs.get other = some job -> other ≠ id -> holds other job)
    (next : holds id job) : (jobs.update id job).All holds := by
  intro other held atOther
  rw [get_update found] at atOther
  split at atOther
  next same =>
    cases atOther
    rw [same]
    exact next
  next elsewhere => exact others other held atOther elsewhere

theorem All.finish (all : jobs.All holds) (id : Nat) : (jobs.finish id).All holds :=
  all_finish (fun other job found _ => all other job found)

theorem All.update (all : jobs.All holds) (found : jobs.get id = some old) (next : holds id job) :
    (jobs.update id job).All holds :=
  all_update found (fun other job atOther _ => all other job atOther) next

section

variable {W : Type*} {view : V -> Option W} {fact : W -> Prop}
variable (all : jobs.All (fun _ job => ∀ item, view job = some item -> fact item))
include all

theorem All.start_view (nothing : view job = none) :
    (jobs.start job).All (fun _ job => ∀ item, view job = some item -> fact item) := by
  apply all.start
  intro item shown
  rw [nothing] at shown
  cases shown

theorem All.update_view (found : jobs.get id = some old) (same : view job = view old ∨ view job = none) :
    (jobs.update id job).All (fun _ job => ∀ item, view job = some item -> fact item) := by
  apply all.update found
  intro item shown
  rcases same with kept | gone
  · exact all id old found item (kept ▸ shown)
  · rw [gone] at shown
    cases shown

end

theorem All.of_finish (all : (jobs.finish id).All holds) (found : jobs.get id = some old) (ended : holds id old) :
    jobs.All holds := by
  intro other job atOther
  by_cases same : other = id
  · subst same
    rw [found, Option.some.injEq] at atOther
    exact atOther ▸ ended
  · exact all other job (by rw [get_finish, if_neg same]; exact atOther)

theorem All.of_update (all : (jobs.update id job).All holds) (found : jobs.get id = some old)
    (back : holds id job -> holds id old) : jobs.All holds := by
  refine of_finish (all_finish ?_) found (back (all id job (by rw [get_update found, if_pos rfl])))
  intro other held atOther elsewhere
  exact all other held (by rw [get_update found, if_neg elsewhere]; exact atOther)

theorem exists_iff_not_all {fact : V -> Prop} :
    (∃ id job, jobs.get id = some job ∧ ¬ fact job) ↔ ¬ jobs.All (fun _ job => fact job) := by
  simp [All]

def every (jobs : Jobs V) (test : Nat -> V -> Bool) : Bool :=
  jobs.running.entries.all (fun entry => test entry.1 entry.2)

theorem every_iff {test} : jobs.every test = true ↔ jobs.All (fun id job => test id job = true) := by
  rw [every, List.all_eq_true]
  constructor
  · intro checked id job found
    exact checked ⟨id, job⟩ (lookup_eq_some_iff.mp found)
  · rintro all ⟨id, job⟩ member
    exact all id job (lookup_eq_some_iff.mpr member)

/-- All running jobs are lost; their numbers stay given out. -/
def clear (jobs : Jobs V) : Jobs V where
  running := ∅
  next := jobs.next
  fresh := nofun

theorem idle_clear (jobs : Jobs V) : jobs.clear.Idle := fun _ => rfl

theorem Idle.all (idle : jobs.Idle) : jobs.All holds := by
  intro id job found
  rw [idle id] at found
  cases found

theorem idle_of_keys (none : jobs.running.keys = []) : jobs.Idle := by
  intro id
  apply lookup_eq_none.mpr
  intro member
  rw [mem_keys, none] at member
  exact List.not_mem_nil member

/-! ## Claims that exclude each other -/

/-- Two running jobs that claim the same thing are one job. -/
def Exclusive (claims : V -> Option N) (jobs : Jobs V) : Prop :=
  ∀ first second left right thing, jobs.get first = some left -> jobs.get second = some right ->
    claims left = some thing -> claims right = some thing -> first = second

namespace Exclusive

variable {claims : V -> Option N} {jobs : Jobs V} {id : Nat} {old job : V}

theorem of_idle (idle : jobs.Idle) : Exclusive claims jobs := by
  intro first second left right thing atFirst
  rw [idle first] at atFirst
  cases atFirst

section

variable (exclusive : Exclusive claims jobs)
include exclusive

theorem place {after} (placed : ∀ other, after.get other = if other = id then some job else jobs.get other)
    (free : ∀ other held thing, jobs.get other = some held -> other ≠ id ->
      claims job = some thing -> claims held ≠ some thing) : Exclusive claims after := by
  intro first second left right thing atFirst atSecond leftClaims rightClaims
  rw [placed] at atFirst atSecond
  split at atFirst
  next firstHere =>
    split at atSecond
    next secondHere => rw [firstHere, secondHere]
    next elsewhere =>
      cases atFirst
      exact (free second right thing atSecond elsewhere leftClaims rightClaims).elim
  next elsewhere =>
    split at atSecond
    · cases atSecond
      exact (free first left thing atFirst elsewhere rightClaims leftClaims).elim
    · exact exclusive first second left right thing atFirst atSecond leftClaims rightClaims

theorem startClaim (free : ∀ other held thing, jobs.get other = some held -> claims job = some thing ->
    claims held ≠ some thing) : Exclusive claims (jobs.start job) :=
  exclusive.place (jobs.get_start job) (fun other held thing got _ => free other held thing got)

theorem start (nothing : claims job = none) : Exclusive claims (jobs.start job) := by
  apply exclusive.startClaim
  intro other held thing _ claimed
  rw [nothing] at claimed
  cases claimed

theorem finish (id : Nat) : Exclusive claims (jobs.finish id) := by
  intro first second left right thing atFirst atSecond
  exact exclusive first second left right thing (of_get_finish atFirst).1 (of_get_finish atSecond).1

theorem claim (found : jobs.get id = some old)
    (free : ∀ other held thing, jobs.get other = some held -> other ≠ id ->
      claims job = some thing -> claims held ≠ some thing) :
    Exclusive claims (jobs.update id job) :=
  exclusive.place (get_update found job) free

theorem update (found : jobs.get id = some old) (same : claims job = claims old ∨ claims job = none) :
    Exclusive claims (jobs.update id job) := by
  apply exclusive.claim found
  intro other held thing atOther elsewhere claimed alsoClaimed
  rcases same with kept | gone
  · exact elsewhere (exclusive other id held old thing atOther found alsoClaimed (kept ▸ claimed))
  · rw [gone] at claimed
    cases claimed

end

end Exclusive

/-! ## What the running jobs have in hand -/

/-- The union of a set over all running jobs. -/
def gather (jobs : Jobs V) (hold : V -> Set N) : Set N :=
  {name | ∃ id job, jobs.get id = some job ∧ name ∈ hold job}

variable {hold : V -> Set N}

theorem gather_start (quiet : hold job = ∅) : (jobs.start job).gather hold = jobs.gather hold := by
  ext name
  constructor
  · rintro ⟨id, found, atId, member⟩
    rw [get_start] at atId
    split at atId
    · cases atId
      rw [quiet] at member
      exact False.elim member
    · exact ⟨id, found, atId, member⟩
  · rintro ⟨id, found, atId, member⟩
    exact ⟨id, found, get_start_running atId job, member⟩

theorem gather_finish_subset (jobs : Jobs V) (id : Nat) : (jobs.finish id).gather hold ⊆ jobs.gather hold := by
  rintro _ ⟨other, job, atOther, member⟩
  exact ⟨other, job, (of_get_finish atOther).1, member⟩

theorem gather_finish (found : jobs.get id = some job) (quiet : hold job = ∅) :
    (jobs.finish id).gather hold = jobs.gather hold := by
  apply antisymm (gather_finish_subset jobs id)
  rintro _ ⟨other, held, atOther, member⟩
  refine ⟨other, held, ?_, member⟩
  rw [get_finish, if_neg]
  · exact atOther
  · rintro rfl
    rw [found, Option.some.injEq] at atOther
    rw [← atOther, quiet] at member
    exact member

theorem gather_update (found : jobs.get id = some old) :
    (jobs.update id job).gather hold = hold job ∪ (jobs.finish id).gather hold := by
  ext name
  constructor
  · rintro ⟨other, held, atOther, member⟩
    rw [get_update found] at atOther
    by_cases same : other = id
    · rw [if_pos same, Option.some.injEq] at atOther
      exact .inl (atOther ▸ member)
    · rw [if_neg same] at atOther
      refine Or.inr ⟨other, held, ?_, member⟩
      rw [get_finish, if_neg same]
      exact atOther
  · rintro (member | ⟨other, held, atOther, member⟩)
    · exact ⟨id, job, by rw [get_update found, if_pos rfl], member⟩
    · have ⟨running, apart⟩ := of_get_finish atOther
      exact ⟨other, held, by rw [get_update found, if_neg apart]; exact running, member⟩

theorem gather_update_same (found : jobs.get id = some old) (same : hold job = hold old) :
    (jobs.update id job).gather hold = jobs.gather hold := by
  rw [gather_update found, same]
  apply Set.Subset.antisymm
  · rintro _ (member | member)
    · exact ⟨id, old, found, member⟩
    · exact gather_finish_subset jobs id member
  · rintro _ ⟨other, held, atOther, member⟩
    by_cases equal : other = id
    · subst equal
      rw [found, Option.some.injEq] at atOther
      exact .inl (atOther ▸ member)
    · refine Or.inr ⟨other, held, ?_, member⟩
      rw [get_finish, if_neg equal]
      exact atOther

end Jobs

end Starling
