import Starling.Foundation.Keyset

namespace Starling.Catalog

open List Option

/-!
# Pages that are filtered after the limit

A surface shows some of the rows of a table.  A page fetches one row more than its limit,
drops the rows that are not shown, and says that more remain if still more are left than
the limit.  A dropped row thus takes the place of the row that would have told that more
remain, and the walk is over at the first page that has fetched one.  It lists everything
if and only if nothing that is shown lies behind that page.
-/

/-- What a surface shows of a table: some of the rows, and of a row an entry that tells its
key. -/
structure View {S T K : Type} (catalog : Catalog S T K) (R : Type) where
  keep : T -> Bool
  entry : T -> R
  key : R -> K
  keyed : ∀ row, key (entry row) = catalog.key row

/-- A walk has listed every row once and in ascending order, and each of its pages says
truthfully whether rows lie past its last one. -/
structure Exhausts {S R K : Type} [LinearOrder K] (catalog : Catalog S R K) (state : S)
    (pages : List (Page R)) : Prop where
  ascending : (listing pages).Pairwise (fun left right => catalog.key left < catalog.key right)
  complete : ∀ row, row ∈ listing pages ↔ row ∈ catalog.rows state
  truthful : ∀ page ∈ pages, (page.more = true ↔
    ∃ row ∈ catalog.rows state, past (page.items.getLast?.map catalog.key) (catalog.key row) = true)

section Remaining

variable {S R K : Type} [LinearOrder K] (catalog : Catalog S R K)

variable {state : S}

theorem remaining_after {cursor last before rest} (split : catalog.remaining state cursor = before ++ last :: rest) :
    catalog.remaining state (some (catalog.key last)) = rest := by
  have strict := catalog.remaining_strict state cursor
  rw [split, pairwise_append, pairwise_cons] at strict
  have inside : ∀ row, row ∈ before ++ last :: rest ↔
      row ∈ catalog.rows state ∧ past cursor (catalog.key row) = true := by
    intro row
    rw [← split, catalog.mem_remaining]
  have reached := ((inside last).mp (mem_append_right before mem_cons_self)).2
  apply catalog.eq_of_strict (catalog.remaining_strict state _) strict.2.1.2
  intro row
  rw [catalog.mem_remaining, past_some]
  constructor
  · rintro ⟨present, beyond⟩
    rcases mem_append.mp ((inside row).mpr ⟨present, past_of_past reached beyond⟩) with early | late
    · exact (lt_asymm beyond (strict.2.2 row early last mem_cons_self)).elim
    · rcases mem_cons.mp late with same | behind
      · exact (lt_irrefl _ (same ▸ beyond)).elim
      · exact behind
  · intro behind
    refine ⟨((inside row).mp ?_).1, strict.2.1.1 row behind⟩
    exact mem_append_right before (mem_cons_of_mem last behind)

theorem remaining_getLast {cursor} (start : cursor = none ∨ catalog.remaining state cursor ≠ []) :
    catalog.remaining state ((catalog.remaining state cursor).getLast?.map catalog.key) = [] := by
  cases found : (catalog.remaining state cursor).getLast? with
  | none =>
    rw [getLast?_eq_none_iff] at found
    have atStart := start.resolve_right (fun some => some found)
    rw [atStart] at found
    exact found
  | some =>
    rcases getLast?_eq_some_iff.mp found with ⟨_, split⟩
    exact catalog.remaining_after split

/-- A walk over one state exhausts it if it lists what remained at the start, and each of its
pages says truthfully whether anything remains after it. -/
theorem exhausts_iff {pages}
    (truthful : listing pages = catalog.remaining state none -> ∀ page ∈ pages,
      (page.more = true ↔ catalog.remaining state (page.items.getLast?.map catalog.key) ≠ [])) :
    catalog.Exhausts state pages ↔ listing pages = catalog.remaining state none := by
  constructor
  · intro exhausts
    apply catalog.eq_of_strict exhausts.ascending (catalog.remaining_strict state none)
    intro row
    rw [exhausts.complete, catalog.mem_remaining]
    exact (and_iff_left rfl).symm
  · intro listed
    constructor
    · rw [listed]
      exact catalog.remaining_strict state none
    · intro row
      rw [listed, catalog.mem_remaining]
      exact and_iff_left rfl
    · intro page member
      rw [truthful listed page member, ne_eq, eq_nil_iff_forall_not_mem]
      simp [catalog.mem_remaining, not_forall]

end Remaining

namespace View

variable {S T R K : Type} {catalog : Catalog S T K} (view : View catalog R)

def shown (rows : List T) : List R := (rows.filter view.keep).map view.entry

theorem shown_take_append_drop (count rows) :
    view.shown (rows.take count) ++ view.shown (rows.drop count) = view.shown rows := by
  rw [shown, shown, shown, ← map_append, ← filter_append, take_append_drop]

variable {rows : List T}

theorem shown_eq_nil : view.shown rows = [] ↔ ∀ row ∈ rows, view.keep row = false := by
  simp [shown, map_eq_nil_iff, filter_eq_nil_iff, Bool.not_eq_true]

theorem length_shown_of_all (kept : ∀ row ∈ rows, view.keep row = true) :
    (view.shown rows).length = rows.length := by
  rw [shown, length_map, filter_eq_self.mpr kept]

theorem length_shown_lt {hidden} (member : hidden ∈ rows) (dropped : view.keep hidden = false) :
    (view.shown rows).length < rows.length := by
  rw [shown, length_map, length_filter_lt_length_iff_exists]
  exact ⟨hidden, member, by rw [dropped]; exact Bool.false_ne_true⟩

theorem map_key_shown (rows) : (view.shown rows).map view.key = (rows.filter view.keep).map catalog.key := by
  rw [shown, List.map_map]
  apply map_congr_left
  intro row _
  exact view.keyed row

def entries : Catalog S R K where
  rows := fun state => view.shown (catalog.rows state)
  key := view.key
  distinct := by
    intro state
    rw [map_key_shown]
    exact (catalog.distinct state).sublist (filter_sublist.map catalog.key)

/-- One page of some rows: the limit first, and the filter afterwards. -/
def cut (limit : Nat) (rows : List T) : Page R := Page.fetched limit (view.shown (rows.take (limit + 1)))

/-- How many rows the walk can fetch without a gap: if the first pages have fetched a row that
is not shown, nothing that is shown is left for the next ones. -/
def Fits (limit : Nat) (rows : List T) : Prop :=
  ∀ count, 1 ≤ count -> (∃ hidden, hidden ∈ rows.take (count * limit + 1) ∧ view.keep hidden = false) ->
    ∀ row ∈ rows.drop (count * limit + 1), view.keep row = false

section Cutting

variable {view} {limit : Nat} {rows : List T}

theorem cut_stops (last : (∃ hidden, hidden ∈ rows.take (limit + 1) ∧ view.keep hidden = false) ∨
    rows.length ≤ limit) : view.cut limit rows = ⟨view.shown (rows.take (limit + 1)), false⟩ := by
  have few : (view.shown (rows.take (limit + 1))).length ≤ limit := by
    rcases last with ⟨_, member, dropped⟩ | _
    · have gap := view.length_shown_lt member dropped
      have most := length_take_le (limit + 1) rows
      omega
    · have most := length_filter_le view.keep (rows.take (limit + 1))
      rw [shown, length_map]
      rw [length_take] at most
      omega
  rw [cut, Page.fetched, take_of_length_le few, decide_eq_false (not_lt.mpr few)]

theorem cut_continues (kept : ∀ row ∈ rows.take (limit + 1), view.keep row = true)
    (long : limit < rows.length) : view.cut limit rows = ⟨view.shown (rows.take limit), true⟩ := by
  have full : (view.shown (rows.take (limit + 1))).length = limit + 1 := by
    rw [view.length_shown_of_all kept, length_take, Nat.min_eq_left long]
  have begins : (view.shown (rows.take (limit + 1))).take limit = view.shown (rows.take limit) := by
    have keptFewer : ∀ row ∈ rows.take limit, view.keep row = true := by
      intro row member
      exact kept row (take_subset_take_left rows (Nat.le_succ limit) member)
    rw [shown, shown, filter_eq_self.mpr kept, filter_eq_self.mpr keptFewer, ← map_take,
      take_take, Nat.min_eq_left (Nat.le_succ limit)]
  rw [cut, Page.fetched, begins, full, decide_eq_true (Nat.lt_succ_self limit)]

theorem shown_cut_off (kept : ∀ row ∈ rows.take (limit + 1), view.keep row = true)
    (long : limit < rows.length) : view.shown (rows.drop limit) ≠ [] := by
  rw [ne_eq, shown_eq_nil]
  intro hidden
  have cutOff : rows.get ⟨limit, long⟩ ∈ rows.drop limit := by
    rw [drop_eq_getElem_cons long]
    exact mem_cons_self
  have fetched : rows.get ⟨limit, long⟩ ∈ rows.take (limit + 1) := by
    rw [take_succ_eq_append_getElem long]
    exact mem_append_right _ mem_cons_self
  have seen := kept _ fetched
  rw [hidden _ cutOff] at seen
  cases seen

/-- A page is the one that a table of the shown rows alone would give if and only if no hidden
row was fetched, or nothing is left to be shown. -/
theorem cut_eq_iff : view.cut limit rows = Page.fetched limit ((view.shown rows).take (limit + 1)) ↔
    (∀ row ∈ rows.take (limit + 1), view.keep row = true) ∨ view.shown (rows.drop (limit + 1)) = [] := by
  have parts := view.shown_take_append_drop (limit + 1) rows
  constructor
  · intro same
    by_contra neither
    rw [not_or] at neither
    rcases neither with ⟨someHidden, left⟩
    simp only [not_forall, Bool.not_eq_true] at someHidden
    rcases someHidden with ⟨hidden, member, dropped⟩
    rw [cut_stops (.inl ⟨hidden, member, dropped⟩), ← parts] at same
    injection same with items more
    -- Both pages would be the last one, and still the second has more entries.
    have short := of_decide_eq_false more.symm
    rw [length_take] at short
    have lengths := congrArg length items
    rw [take_take, length_take, length_append] at lengths
    rw [length_append] at short
    have some_left := length_pos_iff.mpr left
    omega
  · rintro (kept | nothing)
    · have same : view.shown (rows.take (limit + 1)) = (view.shown rows).take (limit + 1) := by
        by_cases long : limit + 1 ≤ rows.length
        · have full : (view.shown (rows.take (limit + 1))).length = limit + 1 := by
            rw [view.length_shown_of_all kept, length_take, min_eq_left long]
          rw [← parts]
          exact (take_left' full).symm
        · have all := take_of_length_le (Nat.le_of_not_le long)
          have few := length_filter_le view.keep rows
          rw [all, take_of_length_le]
          rw [shown, length_map]
          omega
      rw [cut, same]
    · rw [nothing, append_nil] at parts
      have few : (view.shown rows).length ≤ limit + 1 := by
        rw [← parts, shown, length_map]
        exact le_trans (length_filter_le _ _) (length_take_le _ _)
      rw [cut, parts, take_of_length_le few]

theorem fits_of_stop (last : (∃ hidden, hidden ∈ rows.take (limit + 1) ∧ view.keep hidden = false) ∨
    rows.length ≤ limit) : view.Fits limit rows ↔ view.shown (rows.drop (limit + 1)) = [] := by
  rw [shown_eq_nil]
  constructor
  · intro fits
    rcases last with gap | short
    · have first := fits 1 (le_refl 1)
      rw [Nat.one_mul] at first
      exact first gap
    · rw [drop_of_length_le (Nat.le_succ_of_le short)]
      exact nofun
  · intro nothing count positive _ row member
    apply nothing row
    have farther : limit + 1 ≤ count * limit + 1 := Nat.succ_le_succ (Nat.le_mul_of_pos_left limit positive)
    exact drop_subset_drop_left rows farther member

/-- A full page without a gap can be left out of account. -/
theorem fits_of_continue (kept : ∀ row ∈ rows.take (limit + 1), view.keep row = true) :
    view.Fits limit rows ↔ view.Fits limit (rows.drop limit) := by
  -- The first `count + 1` pages are the first one and the first `count` of the rest.
  have dropped : ∀ count, rows.drop ((count + 1) * limit + 1) = (rows.drop limit).drop (count * limit + 1) := by
    intro count
    rw [drop_drop]
    congr 1
    rw [Nat.succ_mul]
    omega
  have gaps : ∀ count, (∃ hidden, hidden ∈ rows.take ((count + 1) * limit + 1) ∧ view.keep hidden = false) ↔
      ∃ hidden, hidden ∈ (rows.drop limit).take (count * limit + 1) ∧ view.keep hidden = false := by
    intro count
    have parts : rows.take ((count + 1) * limit + 1) =
        rows.take limit ++ (rows.drop limit).take (count * limit + 1) := by
      rw [← take_add]
      congr 1
      rw [Nat.succ_mul]
      omega
    rw [parts]
    constructor
    · rintro ⟨hidden, member, gap⟩
      rcases mem_append.mp member with early | late
      · have seen := kept hidden (take_subset_take_left rows (Nat.le_succ limit) early)
        rw [gap] at seen
        cases seen
      · exact ⟨hidden, late, gap⟩
    · rintro ⟨hidden, member, gap⟩
      exact ⟨hidden, mem_append_right _ member, gap⟩
  constructor
  · intro fits count positive gap
    rw [← dropped]
    exact fits (count + 1) (Nat.le_succ_of_le positive) ((gaps count).mpr gap)
  · intro fits count positive gap
    rcases Nat.exists_eq_add_of_le' positive with ⟨fewer, rfl⟩
    rw [dropped]
    rw [gaps] at gap
    cases fewer with
    | zero =>
      -- The row after the first page is on its window, so it is shown.
      rcases gap with ⟨hidden, member, dropped⟩
      rw [Nat.zero_mul] at member
      have onWindow : hidden ∈ rows.take (limit + 1) := by
        rw [take_add]
        exact mem_append_right _ member
      rw [kept hidden onWindow] at dropped
      cases dropped
    | succ count => exact fits (count + 1) (Nat.succ_pos count) gap

end Cutting

section Walking

variable [LinearOrder K]

def page (limit : Nat) (state : S) (cursor : Option K) : Page R := view.cut limit (catalog.remaining state cursor)

theorem remaining_entries (state cursor) :
    view.entries.remaining state cursor = view.shown (catalog.remaining state cursor) := by
  have strict : (view.shown (catalog.remaining state cursor)).Pairwise
      (fun left right => view.key left < view.key right) := by
    rw [← pairwise_map, map_key_shown, pairwise_map]
    exact (catalog.remaining_strict state cursor).sublist filter_sublist
  apply view.entries.eq_of_strict (view.entries.remaining_strict state cursor) strict
  intro entry
  rw [mem_remaining]
  simp only [entries, shown, List.mem_map, mem_filter, catalog.mem_remaining]
  constructor
  · rintro ⟨⟨row, ⟨present, kept⟩, rfl⟩, reached⟩
    rw [view.keyed] at reached
    exact ⟨row, ⟨⟨present, reached⟩, kept⟩, rfl⟩
  · rintro ⟨row, ⟨⟨present, reached⟩, kept⟩, rfl⟩
    refine ⟨⟨row, ⟨present, kept⟩, rfl⟩, ?_⟩
    rw [view.keyed]
    exact reached

/-- A page is the last one, and has fetched a hidden row or everything; or it goes on, all its
rows are shown, and so is the row that the limit has cut off. -/
theorem page_cases (limit state cursor) :
    (((∃ hidden, hidden ∈ (catalog.remaining state cursor).take (limit + 1) ∧ view.keep hidden = false) ∨
        (catalog.remaining state cursor).length ≤ limit) ∧
      view.page limit state cursor = ⟨view.shown ((catalog.remaining state cursor).take (limit + 1)), false⟩) ∨
    ((∀ row, row ∈ (catalog.remaining state cursor).take (limit + 1) -> view.keep row = true) ∧
      limit < (catalog.remaining state cursor).length ∧
      view.page limit state cursor = ⟨view.shown ((catalog.remaining state cursor).take limit), true⟩) := by
  by_cases gap : ∃ hidden, hidden ∈ (catalog.remaining state cursor).take (limit + 1) ∧ view.keep hidden = false
  · exact .inl ⟨.inl gap, cut_stops (.inl gap)⟩
  · by_cases short : (catalog.remaining state cursor).length ≤ limit
    · exact .inl ⟨.inr short, cut_stops (.inr short)⟩
    · have kept : ∀ row, row ∈ (catalog.remaining state cursor).take (limit + 1) -> view.keep row = true := by
        intro row member
        rw [← Bool.not_eq_false]
        exact fun dropped => gap ⟨row, member, dropped⟩
      exact .inr ⟨kept, not_le.mp short, cut_continues kept (not_le.mp short)⟩

variable {limit : Nat}

/-- After a page that goes on the walk is at the row that the limit has cut off. -/
theorem remaining_of_continue {state cursor last}
    (kept : ∀ row, row ∈ (catalog.remaining state cursor).take (limit + 1) -> view.keep row = true)
    (found : (view.shown ((catalog.remaining state cursor).take limit)).getLast? = some last) :
    catalog.remaining state (some (view.key last)) = (catalog.remaining state cursor).drop limit := by
  have allShown : ((catalog.remaining state cursor).take limit).filter view.keep =
      (catalog.remaining state cursor).take limit := by
    apply filter_eq_self.mpr
    intro row member
    exact kept row (take_subset_take_left _ (Nat.le_succ limit) member)
  rw [shown, allShown, getLast?_map, map_eq_some_iff] at found
  rcases found with ⟨_, final, rfl⟩
  rcases getLast?_eq_some_iff.mp final with ⟨_, split⟩
  have whole := take_append_drop limit (catalog.remaining state cursor)
  rw [split, append_assoc] at whole
  rw [view.keyed]
  exact catalog.remaining_after whole.symm

/-- The walk ends, and it lists what it should if and only if the rows fit. -/
theorem walk_iff (positive : 1 ≤ limit) (state count cursor)
    (enough : (catalog.remaining state cursor).length < count) :
    ∃ pages, view.entries.walk (view.page limit) cursor (replicate count state) = some pages ∧
      (listing pages = view.entries.remaining state cursor ↔ view.Fits limit (catalog.remaining state cursor)) := by
  induction count generalizing cursor with
  | zero => exact absurd enough (Nat.not_lt_zero _)
  | succ fewer ih =>
    rw [replicate_succ, walk, view.remaining_entries]
    rcases view.page_cases limit state cursor with ⟨stop, same⟩ | ⟨kept, _, same⟩
    · rw [same]
      refine ⟨[_], rfl, ?_⟩
      rw [fits_of_stop stop, ← view.shown_take_append_drop (limit + 1) (catalog.remaining state cursor)]
      simp only [listing, flatMap_cons, flatMap_nil, append_nil]
      exact self_eq_append_right
    · have some_shown : view.shown ((catalog.remaining state cursor).take limit) ≠ [] := by
        rw [← length_pos_iff, length_shown_of_all, length_take]
        · omega
        · intro row member
          exact kept row (take_subset_take_left _ (Nat.le_succ limit) member)
      rcases isSome_iff_exists.mp (getLast?_isSome.mpr some_shown) with ⟨last, found⟩
      have next := view.remaining_of_continue kept found
      have shorter : (catalog.remaining state (some (view.key last))).length < fewer := by
        rw [next, length_drop]
        omega
      rcases ih (some (view.key last)) shorter with ⟨later, continued, exact_iff⟩
      have onwards : view.entries.walk (view.page limit) (some (view.entries.key last))
          (replicate fewer state) = some later := continued
      rw [view.remaining_entries, next] at exact_iff
      rw [same]
      simp only [found, onwards, if_true, map_some]
      refine ⟨_, rfl, ?_⟩
      rw [fits_of_continue kept, ← exact_iff, ← view.shown_take_append_drop limit (catalog.remaining state cursor)]
      exact append_right_inj _

theorem walk_truthful {state states cursor pages}
    (walked : view.entries.walk (view.page limit) cursor states = some pages)
    (constant : ∀ met ∈ states, met = state)
    (start : cursor = none ∨ view.entries.remaining state cursor ≠ [])
    (listed : listing pages = view.entries.remaining state cursor) (shownPage)
    (member : shownPage ∈ pages) : shownPage.more = true ↔
      view.entries.remaining state (shownPage.items.getLast?.map view.entries.key) ≠ [] := by
  revert constant start listed member
  refine walk_induction (motive := fun cursor states pages => (∀ met ∈ states, met = state) ->
    (cursor = none ∨ view.entries.remaining state cursor ≠ []) ->
    listing pages = view.entries.remaining state cursor -> shownPage ∈ pages ->
    (shownPage.more = true ↔
      view.entries.remaining state (shownPage.items.getLast?.map view.entries.key) ≠ [])) ?_ ?_ walked
  · intro cursor met rest done constant start listed member
    cases mem_singleton.mp member
    simp only [listing, flatMap_cons, flatMap_nil, append_nil] at listed
    rw [listed, view.entries.remaining_getLast start, done]
    simp
  · intro cursor met rest last later more found continued ih constant start listed member
    cases constant met mem_cons_self
    rcases view.page_cases limit state cursor with ⟨_, same⟩ | ⟨kept, long, same⟩
    · rw [same] at more
      cases more
    · rw [same] at found
      have next := view.remaining_of_continue kept found
      have left : view.entries.remaining state (some (view.entries.key last)) =
          view.shown ((catalog.remaining state cursor).drop limit) := by
        rw [view.remaining_entries]
        exact congrArg view.shown next
      have nonempty := left ▸ shown_cut_off kept long
      rcases mem_cons.mp member with first | onLater
      · rw [first, same]
        simp only [found, map_some]
        exact ⟨fun _ => nonempty, fun _ => trivial⟩
      · apply ih _ (.inr nonempty) _ onLater
        · exact fun met inside => constant met (mem_cons_of_mem _ inside)
        · rw [same, view.remaining_entries,
            ← view.shown_take_append_drop limit (catalog.remaining state cursor)] at listed
          rw [left]
          exact (append_right_inj _).mp listed

/-- The walk from the start exhausts what is shown if and only if the rows fit. -/
theorem exhausts_iff_fits (positive : 1 ≤ limit) (state) : (∃ pages, view.entries.walk (view.page limit) none
        (replicate ((catalog.rows state).length + 1) state) = some pages ∧
      view.entries.Exhausts state pages) ↔ view.Fits limit (catalog.remaining state none) := by
  have enough : (catalog.remaining state none).length < (catalog.rows state).length + 1 := by
    have same := (inOrder_perm catalog.key
      ((catalog.rows state).filter (fun row => past none (catalog.key row)))).length_eq
    have fewer := length_filter_le (fun row => past none (catalog.key row)) (catalog.rows state)
    rw [remaining]
    omega
  rcases view.walk_iff positive state _ none enough with ⟨pages, walked, exactly⟩
  have exhausts : view.entries.Exhausts state pages ↔ listing pages = view.entries.remaining state none := by
    apply view.entries.exhausts_iff
    intro listed
    apply view.walk_truthful walked _ (.inl rfl) listed
    exact fun met member => eq_of_mem_replicate member
  rw [← exactly, ← exhausts]
  constructor
  · rintro ⟨_, walkedToo, exhausted⟩
    rw [walked] at walkedToo
    cases walkedToo
    exact exhausted
  · intro exhausted
    exact ⟨pages, walked, exhausted⟩

end Walking

end View
end Starling.Catalog
