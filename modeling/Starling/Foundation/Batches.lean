import Mathlib.Data.List.Basic

namespace Starling

/-!
# Cutting a list into batches

A batch is filled item by item.  The level that it has reached decides whether the next item still
fits; if not, the batch is closed and the item opens the next one.
-/

variable {A S : Type} (fill : S -> A -> Option S)

def batch : S -> List A -> List A × List A
  | _, [] => ([], [])
  | level, item :: rest =>
    match fill level item with
    | none => ([], item :: rest)
    | some next => (item :: (batch next rest).1, (batch next rest).2)

def batchesUpTo (empty : S) : Nat -> List A -> List (List A)
  | 0, _ => []
  | _ + 1, [] => []
  | count + 1, item :: rest =>
    (batch fill empty (item :: rest)).1 :: batchesUpTo empty count (batch fill empty (item :: rest)).2

def batches (empty : S) (items : List A) : List (List A) := batchesUpTo fill empty items.length items

/-- A list is cut into batches that fit and are not empty, and none of them could take the first item
of the next one. -/
structure Cut (fits : List A -> Prop) (items : List A) (cut : List (List A)) : Prop where
  whole : cut.flatten = items
  opened : [] ∉ cut
  fitting : ∀ batch ∈ cut, fits batch
  greedy : cut.IsChain (fun batch next => ∀ item ∈ next.head?, ¬ fits (batch ++ [item]))

variable {fill}

theorem batch_append (level items) : (batch fill level items).1 ++ (batch fill level items).2 = items := by
  induction items generalizing level with
  | nil => rfl
  | cons item rest ih =>
    rw [batch]
    split
    · rfl
    next next _ => exact congrArg (List.cons item) (ih next)

theorem batch_filled (level items) : ∃ reached, (batch fill level items).1.foldlM fill level = some reached ∧
    ∀ item ∈ (batch fill level items).2.head?, fill reached item = none := by
  induction items generalizing level with
  | nil => exact ⟨level, rfl, by simp [batch]⟩
  | cons item rest ih =>
    rw [batch]
    cases found : fill level item with
    | none => exact ⟨level, rfl, by simp [found]⟩
    | some next => simpa [found] using ih next

variable {empty : S} {items : List A}

theorem batch_ne_nil (opens : ∀ item, (fill empty item).isSome = true) (item rest) :
    (batch fill empty (item :: rest)).1 ≠ [] := by
  rw [batch]
  split
  next refused => simpa [refused] using opens item
  · exact List.cons_ne_nil _ _

theorem cut_batchesUpTo (opens : ∀ item, (fill empty item).isSome = true) {count} (enough : items.length ≤ count) :
    Cut (fun batch => (batch.foldlM fill empty).isSome = true) items (batchesUpTo fill empty count items) := by
  induction count generalizing items with
  | zero =>
    cases List.eq_nil_of_length_eq_zero (Nat.le_zero.mp enough)
    exact ⟨rfl, List.not_mem_nil, List.forall_mem_nil _, .nil⟩
  | succ count ih =>
    cases items with
    | nil => exact ⟨rfl, List.not_mem_nil, List.forall_mem_nil _, .nil⟩
    | cons item rest =>
      obtain ⟨reached, filled, stops⟩ := @batch_filled _ _ fill empty (item :: rest)
      have opened := batch_ne_nil opens item rest
      have whole := @batch_append _ _ fill empty (item :: rest)
      have total := congrArg List.length whole
      have positive := List.length_pos_iff.mpr opened
      simp only [List.length_append, List.length_cons] at total enough
      have later := @ih (batch fill empty (item :: rest)).2 (by omega)
      rw [batchesUpTo]
      refine ⟨?_, ?_, List.forall_mem_cons.mpr ⟨by simp [filled], later.fitting⟩, ?_⟩
      · rw [List.flatten_cons, later.whole, whole]
      · simp [opened.symm, later.opened]
      · cases onward : batchesUpTo fill empty count (batch fill empty (item :: rest)).2 with
        | nil => exact .singleton _
        | cons next others =>
          rw [onward] at later
          refine .cons_cons ?_ later.greedy
          -- The next batch starts where this one stopped.
          intro first head
          have started : first ∈ (batch fill empty (item :: rest)).2.head? := by
            rw [← later.whole, List.flatten_cons, List.head?_append, Option.mem_def.mp head]
            rfl
          simp [List.foldlM_append, filled, stops first started]

theorem cut_batches (opens : ∀ item, (fill empty item).isSome = true) (items) :
    Cut (fun batch => (batch.foldlM fill empty).isSome = true) items (batches fill empty items) :=
  cut_batchesUpTo opens (Nat.le_refl _)

end Starling
