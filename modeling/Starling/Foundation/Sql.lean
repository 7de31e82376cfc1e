import Mathlib.Data.List.Sort
import Mathlib.Order.Lattice

namespace Starling

open List

/-!
# Conditions and orders of SQL queries

A bound parameter may be `NULL`, and a comparison with it is neither true nor false.
`Truth` is the three-valued logic of a `WHERE` clause, which keeps the rows whose
condition is true.  `inOrder` is `ORDER BY` over a key: the result depends on the
rows alone, and not on the order in which the table happens to store them.
-/

/-- The value of a condition; `none` is unknown. -/
abbrev Truth := Option Bool

namespace Truth

def or : Truth -> Truth -> Truth
  | some true, _ => some true
  | _, some true => some true
  | some false, some false => some false
  | _, _ => none

def and : Truth -> Truth -> Truth
  | some false, _ => some false
  | _, some false => some false
  | some true, some true => some true
  | _, _ => none

/-- `IS NULL`, which is never unknown. -/
def isNull {α : Type} (value : Option α) : Truth := some value.isNone

/-- A comparison of a column, which is not null, with a parameter. -/
def compare {α : Type} (test : α -> α -> Bool) (column : α) (parameter : Option α) : Truth :=
  parameter.map (test column)

/-- `WHERE` keeps a row when the condition is true. -/
def holds (truth : Truth) : Bool := decide (truth = some true)

@[simp] theorem holds_or (left right) : (or left right).holds = (left.holds || right.holds) := by
  rcases left with _ | _ | _ <;> rcases right with _ | _ | _ <;> rfl

@[simp] theorem holds_and (left right) : (and left right).holds = (left.holds && right.holds) := by
  rcases left with _ | _ | _ <;> rcases right with _ | _ | _ <;> rfl

@[simp] theorem holds_isNull {α : Type} (value : Option α) : (isNull value).holds = value.isNone := by
  cases value with
  | none | some => rfl

@[simp] theorem holds_compare_some {α : Type} (test) (column parameter : α) :
    (compare test column (some parameter)).holds = test column parameter := by
  simp [compare, holds]

end Truth

section Ordering

variable {R K : Type} [LinearOrder K]

def inOrder (key : R -> K) (rows : List R) : List R := rows.insertionSort (fun left right => key left ≤ key right)

abbrev Below (key : R -> K) (left right : R) : Prop := key left ≤ key right

variable {key : R -> K} {rows : List R}

theorem mem_inOrder {row} : row ∈ inOrder key rows ↔ row ∈ rows := mem_insertionSort _

theorem inOrder_perm (key : R -> K) (rows : List R) : (inOrder key rows).Perm rows := perm_insertionSort _ rows

theorem inOrder_ascending (key : R -> K) (rows : List R) : (inOrder key rows).Pairwise (Below key) := by
  exact pairwise_insertionSort (Below key) rows

theorem le_of_head_inOrder {first row} (head : (inOrder key rows).head? = some first)
    (member : row ∈ rows) : key first ≤ key row := by
  have ascending := inOrder_ascending key rows
  have inside : row ∈ inOrder key rows := mem_inOrder.mpr member
  rw [eq_cons_of_mem_head? head] at ascending inside
  rcases mem_cons.mp inside with rfl | later
  · exact le_refl _
  · exact (pairwise_cons.mp ascending).1 row later

theorem inOrder_strict (distinct : (rows.map key).Nodup) :
    (inOrder key rows).Pairwise (fun left right => key left < key right) := by
  have ascending := inOrder_ascending key rows
  have separate : (inOrder key rows).Pairwise (fun left right => key left ≠ key right) := by
    have nodup : ((inOrder key rows).map key).Nodup := ((inOrder_perm key rows).map key).nodup_iff.mpr distinct
    exact pairwise_map.mp nodup
  exact ascending.imp₂ (fun _ _ below apart => lt_of_le_of_ne below apart) separate

theorem inOrder_eq_of_perm {left right} (perm : left.Perm right) (distinct : (left.map key).Nodup) :
    inOrder key left = inOrder key right := by
  have leftStrict := inOrder_strict distinct
  have rightStrict := inOrder_strict ((perm.map key).nodup_iff.mp distinct)
  have same := (inOrder_perm key left).trans (perm.trans (inOrder_perm key right).symm)
  apply same.eq_of_pairwise _ leftStrict rightStrict
  intro first second _ _ below above
  exact (lt_asymm below above).elim

theorem inOrder_map {T : Type} (key : T -> K) (column : R -> T) (rows : List R) :
    inOrder key (rows.map column) = (inOrder (fun row => key (column row)) rows).map column :=
  (map_insertionSort _ _ column rows (fun _ _ _ _ => Iff.rfl)).symm

theorem orderedInsert_filter {inserted} (keep) (ascending : rows.Pairwise (Below key)) (kept : keep inserted = true) :
    (rows.orderedInsert (Below key) inserted).filter keep =
      (rows.filter keep).orderedInsert (Below key) inserted := by
  induction rows with
  | nil => simp [orderedInsert_nil, filter_cons_of_pos kept]
  | cons head tail ih =>
    have parts := pairwise_cons.mp ascending
    by_cases below : key inserted ≤ key head
    · -- What stays of the list is above the inserted row as well.
      have front : ∀ rest : List R, (∀ row ∈ rest, key inserted ≤ key row) ->
          rest.orderedInsert (Below key) inserted = inserted :: rest := by
        intro rest above
        cases rest with
        | nil => rfl
        | cons first => rw [orderedInsert_cons, if_pos (above first mem_cons_self)]
      rw [orderedInsert_cons, if_pos below, filter_cons_of_pos kept, front]
      intro row member
      rcases mem_cons.mp (mem_of_mem_filter member) with rfl | later
      · exact below
      · exact le_trans below (parts.1 row later)
    · rw [orderedInsert_cons, if_neg below]
      cases keeps : keep head with
      | true =>
        rw [filter_cons_of_pos keeps, filter_cons_of_pos keeps, ih parts.2, orderedInsert_cons, if_neg below]
      | false =>
        have dropped : ¬ keep head = true := by rw [keeps]; exact Bool.false_ne_true
        rw [filter_cons_of_neg dropped, filter_cons_of_neg dropped, ih parts.2]

/-- `ORDER BY` is stable, so a condition may be tested before or after it. -/
theorem inOrder_filter (key : R -> K) (keep) (rows : List R) :
    inOrder key (rows.filter keep) = (inOrder key rows).filter keep := by
  induction rows with
  | nil => rfl
  | cons head tail ih =>
    have inserted : inOrder key (head :: tail) =
        (inOrder key tail).orderedInsert (Below key) head := rfl
    cases keeps : keep head with
    | true =>
      rw [filter_cons_of_pos keeps, inserted, orderedInsert_filter keep (inOrder_ascending key tail) keeps, ← ih]
      rfl
    | false =>
      have dropped : ¬ keep head = true := by rw [keeps]; exact Bool.false_ne_true
      rw [filter_cons_of_neg dropped, ih, inserted, orderedInsert_eq_take_drop,
        filter_append, filter_cons_of_neg dropped, ← filter_append,
        takeWhile_append_dropWhile]

/-- `LIMIT` does not notice a condition if and only if the rows it keeps all meet it. -/
theorem take_filter_eq_iff {keep limit} :
    (rows.filter keep).take limit = rows.take limit ↔ ∀ row ∈ rows.take limit, keep row = true := by
  constructor
  · intro same row member
    rw [← same] at member
    exact of_mem_filter (mem_of_mem_take member)
  · intro kept
    have parts : rows.filter keep = rows.take limit ++ (rows.drop limit).filter keep := by
      conv => lhs; rw [← take_append_drop limit rows]
      rw [filter_append, filter_eq_self.mpr kept]
    rw [parts, take_append]
    by_cases long : limit ≤ rows.length
    · rw [length_take, Nat.min_eq_left long, Nat.sub_self, take_zero, append_nil, take_take, Nat.min_self]
    · rw [drop_of_length_le (by omega), filter_nil, take_nil, append_nil, take_take, min_self]

section Rank

variable {key : R -> K} {row : R} {rows : List R}

theorem orderedInsert_before {inserted} (before rest : List R) (below : key inserted ≤ key row) :
    (before ++ row :: rest).orderedInsert (Below key) inserted =
      before.orderedInsert (Below key) inserted ++ row :: rest := by
  induction before with
  | nil => simp [orderedInsert_cons, if_pos below, orderedInsert_nil]
  | cons head tail ih =>
    simp only [cons_append, orderedInsert_cons, ih]
    split <;> rfl

theorem orderedInsert_after {inserted} (before rest : List R) (above : key row < key inserted)
    (lower : ∀ other ∈ before, key other ≤ key row) :
    (before ++ row :: rest).orderedInsert (Below key) inserted =
      before ++ row :: rest.orderedInsert (Below key) inserted := by
  induction before with
  | nil => exact orderedInsert_of_not_le _ _ (not_le_of_gt above)
  | cons head tail ih =>
    have past : ¬ key inserted ≤ key head := not_le_of_gt (lt_of_le_of_lt (lower head mem_cons_self) above)
    rw [cons_append, orderedInsert_cons, if_neg past,
      ih (fun other member => lower other (mem_cons_of_mem head member))]
    rfl

theorem takeWhile_below {bound} (ascending : rows.Pairwise (Below key)) :
    rows.takeWhile (fun row => key row < bound) = rows.filter (fun row => key row < bound) := by
  induction rows with
  | nil => rfl
  | cons head tail ih =>
    have parts := pairwise_cons.mp ascending
    by_cases below : key head < bound
    · simp [below, ih parts.2]
    · have none_below : tail.filter (fun row => key row < bound) = [] := by
        rw [filter_eq_nil_iff]
        intro row member found
        exact below (lt_of_le_of_lt (parts.1 row member) (of_decide_eq_true found))
      simp [below, none_below]

variable [DecidableEq R]

/-- How many rows of a table come before a row in the order of a key: those with a smaller
key, and those with the same key that stand before it in the table. -/
def rank (key : R -> K) (row : R) : List R -> Nat
  | [] => 0
  | other :: rest =>
    if other = row then (rest.filter (fun later => key later < key row)).length
    else (if key other ≤ key row then 1 else 0) + rank key row rest

theorem inOrder_rank (member : row ∈ rows) :
    ∃ before rest, inOrder key rows = before ++ row :: rest ∧ before.length = rank key row rows := by
  induction rows with
  | nil => cases member
  | cons other tail ih =>
    by_cases same : other = row
    · subst same
      have front : (inOrder key tail).takeWhile (fun later => ¬ key other ≤ key later) =
          (inOrder key tail).filter (fun later => key later < key other) := by
        simp only [not_le]
        exact takeWhile_below (inOrder_ascending key tail)
      refine ⟨_, _, orderedInsert_eq_take_drop _ other (inOrder key tail), ?_⟩
      rw [front, rank, if_pos rfl]
      exact ((inOrder_perm key tail).filter _).length_eq
    · have later : row ∈ tail := (mem_cons.mp member).resolve_left (fun equal => same equal.symm)
      rcases ih later with ⟨before, rest, split, count⟩
      have inserted : inOrder key (other :: tail) =
          (inOrder key tail).orderedInsert (Below key) other := rfl
      rw [rank, if_neg same, inserted, split]
      by_cases below : key other ≤ key row
      · refine ⟨_, rest, orderedInsert_before before rest below, ?_⟩
        rw [if_pos below, orderedInsert_length, count, Nat.add_comm]
      · have ascending := inOrder_ascending key tail
        rw [split] at ascending
        have lower : ∀ lowerRow ∈ before, key lowerRow ≤ key row := fun lowerRow inside =>
          (pairwise_append.mp ascending).2.2 lowerRow inside row mem_cons_self
        refine ⟨before, _, orderedInsert_after before rest (not_le.mp below) lower, ?_⟩
        rw [if_neg below, Nat.zero_add, count]

/-- `LIMIT` keeps a row if and only if fewer rows come before it. -/
theorem mem_take_inOrder {limit} (distinct : rows.Nodup) (member : row ∈ rows) :
    row ∈ (inOrder key rows).take limit ↔ rank key row rows < limit := by
  obtain ⟨before, rest, split, count⟩ :
      ∃ before rest, inOrder key rows = before ++ row :: rest ∧ before.length = rank key row rows :=
    inOrder_rank member
  have ordered : (before ++ row :: rest).Nodup := split ▸ (inOrder_perm key rows).nodup_iff.mpr distinct
  rw [split, ← count, take_append, mem_append]
  constructor
  · rintro (early | late)
    · have apart := (nodup_append.mp ordered).2.2 row (mem_of_mem_take early) row mem_cons_self
      exact (apart rfl).elim
    · by_contra beyond
      rw [Nat.sub_eq_zero_of_le (Nat.not_lt.mp beyond)] at late
      cases late
  · intro inside
    obtain ⟨_, enough⟩ := Nat.exists_eq_succ_of_ne_zero (Nat.sub_ne_zero_of_lt inside)
    rw [enough]
    exact .inr mem_cons_self

theorem rank_filter {keep} (kept : ∀ other, key other ≤ key row -> keep other = true)
    (rows) : rank key row (rows.filter keep) = rank key row rows := by
  induction rows with
  | nil => rfl
  | cons other tail ih =>
    cases keeps : keep other with
    | true =>
      rw [filter_cons_of_pos keeps]
      unfold rank
      rw [filter_filter]
      congr 3
      funext later
      by_cases below : key later < key row
      · simp [below, kept later (le_of_lt below)]
      · simp [below]
    | false =>
      have above : ¬ key other ≤ key row := fun below => by
        rw [kept other below] at keeps
        cases keeps
      have apart : other ≠ row := fun same => above (le_of_eq (congrArg key same))
      rw [filter_cons_of_neg (by rw [keeps]; exact Bool.false_ne_true), ih, rank,
        if_neg apart, if_neg above, Nat.zero_add]

end Rank

end Ordering

end Starling
