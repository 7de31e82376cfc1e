import Mathlib.Data.List.Basic

namespace Starling

/-!
# The last word of a log

Some events of a log settle a question anew, and the others leave it as it is.
-/

variable {E A : Type}

/-- The last answer in the log, or the one from the beginning. -/
def lastWord (first : A) (answers : E -> Option A) (log : List E) : A :=
  log.foldl (fun held event => (answers event).getD held) first

theorem lastWord_concat (first : A) (answers log) (event : E) :
    lastWord first answers (log ++ [event]) = (answers event).getD (lastWord first answers log) := by
  rw [lastWord, List.foldl_append]
  rfl

theorem lastWord_append (first : A) {answers} (log : List E) {events}
    (still : ∀ event ∈ events, answers event = none) :
    lastWord first answers (log ++ events) = lastWord first answers log := by
  induction events generalizing log with
  | nil => rw [List.append_nil]
  | cons event rest ih =>
    rw [List.append_cons, ih (log ++ [event])
      (fun other member => still other (List.mem_cons_of_mem event member)), lastWord_concat,
      still event List.mem_cons_self, Option.getD_none]

end Starling
