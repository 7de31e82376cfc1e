import Mathlib.Data.List.AList
import Mathlib.Data.List.Dedup

namespace Starling

open List Option AList

/-!
# Finite tables with an unspecified iteration order

A hash map is a finite partial function together with an order in which its
entries happen to be visited.  Lookups never depend on that order, but a loop
over the entries does.  `Table` keeps the entries as an association list whose
keys are proved distinct, and `Table.visit` lists the keys in an order that a
caller may choose freely.  A statement proved for every choice covers every
iteration order a real hash map can produce.
-/

/-- A finite map from `K` to `V`.  The key distinctness is a field of `AList`. -/
abbrev Table (K V : Type) := AList (fun _ : K => V)

namespace Table

variable {K V : Type}

section

variable (table : Table K V) (test : V -> Bool)

def count : Nat := (table.entries.filter (fun entry => test entry.2)).length

/-- The keys counted by `count`. -/
def selected : List K := (table.entries.filter (fun entry => test entry.2)).map Sigma.fst

theorem selected_length : (table.selected test).length = table.count test := length_map _

theorem selected_nodup : (table.selected test).Nodup := table.keys_nodup.sublist (filter_sublist.map Sigma.fst)

end

variable {left right table : Table K V} {test : V -> Bool} {key : K} {value : V}

theorem count_le_of_selected (covered : ∀ key ∈ left.selected test, key ∈ right.selected test) :
    left.count test ≤ right.count test := by
  rw [← selected_length, ← selected_length]
  exact (subperm_of_subset (left.selected_nodup test) covered).length_le

theorem count_le_succ_of_selected (extra)
    (covered : ∀ key ∈ left.selected test, key = extra ∨ key ∈ right.selected test) :
    left.count test ≤ right.count test + 1 := by
  rw [← selected_length, ← selected_length]
  have sub : (left.selected test).Subperm (extra :: right.selected test) :=
    subperm_of_subset (left.selected_nodup test) (fun key member => mem_cons.mpr (covered key member))
  exact sub.length_le

variable [DecidableEq K]

theorem lookup_insert_eq (table : Table K V) (key target) (value : V) :
    (table.insert key value).lookup target =
      if target = key then some value else table.lookup target := by
  by_cases same : target = key
  · subst target
    rw [lookup_insert, if_pos rfl]
  · rw [lookup_insert_ne same, if_neg same]

theorem of_lookup_insert {fact : K -> V -> Prop}
    (old : ∀ target row, table.lookup target = some row -> fact target row)
    (new : fact key value) (target row) (found : (table.insert key value).lookup target = some row) :
    fact target row := by
  rw [lookup_insert_eq] at found
  split at found
  next same =>
    cases found
    rw [same]
    exact new
  · exact old target row found

theorem map_lookup_insert {D : Type} {view : V -> D} {old} (found : table.lookup key = some old)
    (same : view value = view old) (target : K) :
    ((table.insert key value).lookup target).map view = (table.lookup target).map view := by
  rw [lookup_insert_eq]
  split
  next here => rw [here, found, map_some, map_some, same]
  · rfl

theorem lookup_erase_eq (table : Table K V) (key target : K) :
    (table.erase key).lookup target = if target = key then none else table.lookup target := by
  by_cases same : target = key
  · subst target
    rw [lookup_erase, if_pos rfl]
  · rw [lookup_erase_ne same, if_neg same]

theorem of_lookup_erase {target} (found : (table.erase key).lookup target = some value) :
    table.lookup target = some value := by
  rw [lookup_erase_eq] at found
  split at found
  · cases found
  · exact found

theorem mem_iff_lookup : key ∈ table ↔ ∃ value, table.lookup key = some value := by
  rw [← lookup_isSome, isSome_iff_exists]

theorem lookup_eq_some_iff :
    table.lookup key = some value ↔ (⟨key, value⟩ : Sigma fun _ : K => V) ∈ table.entries :=
  mem_lookup_iff

theorem mem_selected :
    key ∈ table.selected test ↔ ∃ value, table.lookup key = some value ∧ test value = true := by
  rw [selected, List.mem_map]
  constructor
  · rintro ⟨⟨_, value⟩, member, rfl⟩
    have entry := mem_filter.mp member
    exact ⟨value, lookup_eq_some_iff.mpr entry.1, entry.2⟩
  · rintro ⟨value, found, passes⟩
    exact ⟨⟨key, value⟩, mem_filter.mpr ⟨lookup_eq_some_iff.mp found, passes⟩, rfl⟩

/-- Keep exactly the entries accepted by `keep`, as `HashMap::retain` does. -/
def retain (table : Table K V) (keep : K -> V -> Bool) : Table K V where
  entries := table.entries.filter (fun entry => keep entry.1 entry.2)
  nodupKeys := table.nodupKeys.sublist filter_sublist

theorem lookup_retain_eq_some {keep} : (table.retain keep).lookup key = some value ↔
      table.lookup key = some value ∧ keep key value = true := by
  rw [lookup_eq_some_iff, lookup_eq_some_iff]
  exact mem_filter

theorem lookup_retain (table : Table K V) (keep) (key : K) :
    (table.retain keep).lookup key = (table.lookup key).filter (keep key) := by
  apply Option.ext
  intro value
  rw [lookup_retain_eq_some]
  cases found : table.lookup key with
  | none => simp [filter_none]
  | some => rw [filter_eq_some_iff]

section Halves

variable {A B V D : Type} [DecidableEq A] [DecidableEq B] {left right table : Table (A × B) V} {first : A}

theorem lookup_retain_fst (table : Table (A × B) V) (first) (key : A × B) :
    (table.retain (fun other _ => other.1 ≠ first)).lookup key =
      if key.1 = first then none else table.lookup key := by
  rw [lookup_retain]
  cases table.lookup key with
  | none => rw [filter_none, ite_self]
  | some =>
    by_cases same : key.1 = first
    · simp only [same, ne_eq, not_true_eq_false, decide_false, if_true]
      rfl
    · simp only [same, ne_eq, not_false_eq_true, decide_true, if_false]
      rfl

section Owners

variable {W : Type} {owners : Table A W} (owned : ∀ key ∈ table, key.1 ∈ owners)
include owned

theorem owned_insert {second value} (here : first ∈ owners) :
    ∀ key ∈ table.insert (first, second) value, key.1 ∈ owners := by
  intro key member
  rcases (mem_insert _).mp member with rfl | old
  · exact here
  · exact owned key old

theorem owned_cascade : ∀ key ∈ table.retain (fun other _ => other.1 ≠ first), key.1 ∈ owners.erase first := by
  intro key member
  rcases mem_iff_lookup.mp member with ⟨row, found⟩
  rw [lookup_retain_eq_some, decide_eq_true_eq] at found
  exact mem_erase.mpr ⟨found.2, owned key (mem_iff_lookup.mpr ⟨row, found.1⟩)⟩

end Owners

theorem lookup_of_fst (same : ∀ second, left.lookup (first, second) = right.lookup (first, second))
    (key : A × B) (mine : decide (key.1 = first) = true) : left.lookup key = right.lookup key := by
  rcases key with ⟨half, second⟩
  have equal : half = first := of_decide_eq_true mine
  subst equal
  exact same second

theorem mem_map_fst {view : (_ : A × B) × V -> D} {item} :
    item ∈ (table.entries.filter (fun entry => entry.1.1 = first)).map view ↔
      ∃ second value, table.lookup (first, second) = some value ∧ view ⟨(first, second), value⟩ = item := by
  rw [List.mem_map]
  constructor
  · rintro ⟨⟨⟨_, second⟩, value⟩, member, same⟩
    rcases mem_filter.mp member with ⟨entry, mine⟩
    cases of_decide_eq_true mine
    exact ⟨second, value, lookup_eq_some_iff.mpr entry, same⟩
  · rintro ⟨_, _, found, same⟩
    exact ⟨_, mem_filter.mpr ⟨lookup_eq_some_iff.mp found, decide_eq_true rfl⟩, same⟩

omit [DecidableEq B] in
theorem nodup_map_snd (table : Table (A × B) V) (first) :
    ((table.entries.filter (fun entry => entry.1.1 = first)).map (fun entry => entry.1.2)).Nodup := by
  have keys := (pairwise_map.mp table.keys_nodup).sublist (filter_sublist (p := fun entry => entry.1.1 = first))
  rw [List.Nodup, pairwise_map]
  refine keys.imp_of_mem ?_
  intro one other oneMember otherMember apart same
  rw [mem_filter, decide_eq_true_eq] at oneMember otherMember
  exact apart (Prod.ext (oneMember.2.trans otherMember.2.symm) same)

end Halves

theorem filter_perm_of_lookup {keep : K -> Bool}
    (same : ∀ key, keep key = true -> left.lookup key = right.lookup key) :
    (left.entries.filter (fun entry => keep entry.1)).Perm (right.entries.filter (fun entry => keep entry.1)) := by
  have leftNodup := left.nodupKeys.nodup.filter (fun entry => keep entry.1)
  have rightNodup := right.nodupKeys.nodup.filter (fun entry => keep entry.1)
  apply (perm_ext_iff_of_nodup leftNodup rightNodup).mpr
  rintro ⟨key, _⟩
  rw [mem_filter, mem_filter]
  apply and_congr_left
  intro kept
  rw [← lookup_eq_some_iff, ← lookup_eq_some_iff, same key kept]

/-- Apply a function to every value, as an update of all rows does. -/
def mapValues (table : Table K V) (change : V -> V) : Table K V where
  entries := table.entries.map (fun entry => ⟨entry.1, change entry.2⟩)
  nodupKeys := by
    rw [List.NodupKeys, List.keys, List.map_map]
    exact table.nodupKeys

theorem lookup_mapValues (table : Table K V) (change) (key : K) :
    (table.mapValues change).lookup key = (table.lookup key).map change := by
  apply Option.ext
  intro value
  rw [lookup_eq_some_iff, map_eq_some_iff]
  constructor
  · intro member
    rcases mem_map.mp member with ⟨⟨_, stored⟩, entry, same⟩
    cases same
    exact ⟨stored, lookup_eq_some_iff.mpr entry, rfl⟩
  · rintro ⟨stored, found, rfl⟩
    exact mem_map.mpr ⟨⟨key, stored⟩, lookup_eq_some_iff.mp found, rfl⟩

/-- List every key once, those named by `hint` first and in its order.  Any
permutation of the keys is the visit of some hint, namely of itself. -/
def visit (hint : List K) (table : Table K V) : List K :=
  hint.dedup.filter (fun key => key ∈ table) ++ table.keys.filter (fun key => key ∉ hint)

theorem mem_visit {hint} : key ∈ table.visit hint ↔ key ∈ table := by
  rw [visit, mem_append, mem_filter, mem_filter, ← AList.mem_keys]
  by_cases named : key ∈ hint <;> simp [named]

end Table

end Starling
