import Starling.Foundation.Jobs

namespace Starling

/-!
# First come, first served

A mutex is a queue of job numbers: a job enters at the tail, the job at the head holds the
mutex, and it leaves by being taken off.  `Guarded` says that only the holder is inside the
critical section, which is a matter of the stage that a job has reached.  It is kept by all
changes that a service makes to its jobs and its queue, so two jobs are never inside at
once.
-/

abbrev Mutex := List Nat

namespace Mutex

def holder (lock : Mutex) : Option Nat := lock.head?

def enter (lock : Mutex) (id : Nat) : Mutex := lock ++ [id]

def leave (lock : Mutex) : Mutex := lock.tail

end Mutex

variable {V : Type}

/-- Only the holder is inside the critical section. -/
def Guarded (inside : V -> Bool) (lock : Mutex) (jobs : Jobs V) : Prop :=
  jobs.All (fun id job => inside job = true -> lock.holder = some id)

namespace Guarded

variable {inside : V -> Bool} {lock : Mutex} {jobs : Jobs V}

theorem unique (guarded : Guarded inside lock jobs) {first second left right}
    (atFirst : jobs.get first = some left) (atSecond : jobs.get second = some right)
    (leftIn : inside left = true) (rightIn : inside right = true) : first = second := by
  have held := guarded first left atFirst leftIn
  rw [guarded second right atSecond rightIn, Option.some.injEq] at held
  exact held.symm

theorem empty (inside) : Guarded inside [] (Jobs.empty : Jobs V) := Jobs.Idle.all (fun _ => rfl)

theorem clear (inside : V -> Bool) (jobs : Jobs V) : Guarded inside [] jobs.clear := jobs.idle_clear.all

variable {job : V}

section

variable (guarded : Guarded inside lock jobs)
include guarded

theorem start (outside : inside job = false) : Guarded inside lock (jobs.start job) := by
  apply Jobs.All.start guarded
  intro claimed
  rw [outside] at claimed
  cases claimed

theorem enter (outside : inside job = false) : Guarded inside (lock.enter jobs.next) (jobs.start job) := by
  intro id held found claimed
  have holds := guarded.start outside id held found claimed
  cases lock with
  | nil => cases holds
  | cons => exact holds

theorem finish (id) : Guarded inside lock (jobs.finish id) := Jobs.All.finish guarded id

theorem leave {id} (held : lock.holder = some id) : Guarded inside lock.leave (jobs.finish id) := by
  intro other job found claimed
  have ⟨running, apart⟩ := Jobs.of_get_finish found
  have claims := guarded other job running claimed
  rw [held, Option.some.injEq] at claims
  exact (apart claims.symm).elim

theorem update {id old} (found : jobs.get id = some old)
    (allowed : inside job = true -> lock.holder = some id) : Guarded inside lock (jobs.update id job) :=
  Jobs.All.update guarded found allowed

end

end Guarded

end Starling
