import Mathlib.Data.Finset.Card
import Starling.Foundation.Sql

namespace Starling

open List

/-!
# Walking a changing table page by page

A client reads a table in pages.  Each page starts after the key of the last row of
the page before, and says whether rows are left.  The table may change between two
requests, so a walk is given the state that each of its requests meets.

A page function is sound for a catalog when every page is a beginning of what remains
past the cursor, not empty while something remains, and truthful about whether it is
all.  Everything that is promised about a walk follows from that alone.
-/

structure Page (R : Type) where
  items : List R
  more : Bool
  deriving DecidableEq

/-- A page is a beginning of what remains, and says truthfully whether it is all. -/
structure Page.Cuts {R : Type} (page : Page R) (remaining : List R) : Prop where
  starts : page.items <+: remaining
  progress : remaining ≠ [] -> page.items ≠ []
  truthful : page.more = true ↔ page.items ≠ remaining

theorem Page.Cuts.more_iff {R : Type} {page : Page R} {remaining : List R} (cut : page.Cuts remaining)
    (nodup : remaining.Nodup) : page.more = true ↔ ∃ row ∈ remaining, row ∉ page.items := by
  rw [cut.truthful]
  rcases cut.starts with ⟨left, split⟩
  constructor
  · intro partly
    cases left with
    | nil =>
      rw [append_nil] at split
      exact (partly split).elim
    | cons row =>
      refine ⟨row, ?_, ?_⟩
      · rw [← split]
        exact mem_append_right _ mem_cons_self
      · intro onPage
        rw [← split, nodup_append] at nodup
        exact nodup.2.2 row onPage row mem_cons_self rfl
  · rintro ⟨_, member, absent⟩ whole
    rw [whole] at absent
    exact absent member

/-- A page of at most `limit` rows out of those fetched with `LIMIT limit + 1`: the
extra row tells that more remain. -/
def Page.fetched {R : Type} (limit : Nat) (rows : List R) : Page R where
  items := rows.take limit
  more := decide (limit < rows.length)

theorem Page.fetched_cuts {R : Type} {limit} (positive : 1 ≤ limit) (remaining : List R) :
    (fetched limit (remaining.take (limit + 1))).Cuts remaining where
  starts := by
    rw [fetched, take_take]
    exact take_prefix _ remaining
  progress := by
    intro some
    cases remaining with
    | nil => exact (some rfl).elim
    | cons =>
      cases limit with
      | zero => omega
      | succ => exact cons_ne_nil _ _
  truthful := by
    rw [fetched, decide_eq_true_iff, length_take, take_take, ne_eq, take_eq_self_iff]
    omega

/-- The rows that a state holds, in any order, and the key they are read by. -/
structure Catalog (S R K : Type) where
  rows : S -> List R
  key : R -> K
  distinct : ∀ state, ((rows state).map key).Nodup

namespace Catalog

variable {S R K : Type}

section Cursors

variable [LinearOrder K]

def past (cursor : Option K) (key : K) : Bool :=
  match cursor with
  | none => true
  | some last => decide (last < key)

theorem past_some {last key : K} : past (some last) key = true ↔ last < key := decide_eq_true_iff

theorem past_of_past {cursor} {last key : K} (reached : past cursor last = true)
    (later : last < key) : past cursor key = true := by
  cases cursor with
  | none => rfl
  | some => exact past_some.mpr (lt_trans (past_some.mp reached) later)

variable (catalog : Catalog S R K)

/-- The rows past the cursor, in ascending order. -/
def remaining (state : S) (cursor : Option K) : List R :=
  inOrder catalog.key ((catalog.rows state).filter (fun row => past cursor (catalog.key row)))

theorem mem_remaining {state cursor row} : row ∈ catalog.remaining state cursor ↔
      row ∈ catalog.rows state ∧ past cursor (catalog.key row) = true :=
  mem_inOrder.trans mem_filter

theorem remaining_strict (state cursor) : (catalog.remaining state cursor).Pairwise
      (fun left right => catalog.key left < catalog.key right) :=
  inOrder_strict ((catalog.distinct state).sublist (filter_sublist.map catalog.key))

theorem nodup_of_strict {rows : List R}
    (strict : rows.Pairwise (fun first second => catalog.key first < catalog.key second)) : rows.Nodup := by
  refine strict.imp ?_
  intro first second below equal
  rw [equal] at below
  exact lt_irrefl _ below

theorem eq_of_strict {left right : List R}
    (leftStrict : left.Pairwise (fun first second => catalog.key first < catalog.key second))
    (rightStrict : right.Pairwise (fun first second => catalog.key first < catalog.key second))
    (same : ∀ row, row ∈ left ↔ row ∈ right) : left = right := by
  have perm : left.Perm right :=
    (perm_ext_iff_of_nodup (catalog.nodup_of_strict leftStrict) (catalog.nodup_of_strict rightStrict)).mpr same
  apply perm.eq_of_pairwise _ leftStrict rightStrict
  intro first second _ _ below above
  exact (lt_asymm below above).elim

end Cursors

variable (catalog : Catalog S R K)

/-- Read page after page, each request in its own state, from after the cursor.  The
walk is over at the first page that says that nothing remains; without a state for the
next request it is unfinished. -/
def walk (page : S -> Option K -> Page R) : Option K -> List S -> Option (List (Page R))
  | _, [] => none
  | cursor, state :: states =>
    if (page state cursor).more then
      match (page state cursor).items.getLast? with
      | none => none
      | some row =>
        (walk page (some (catalog.key row)) states).map (fun pages => page state cursor :: pages)
    else some [page state cursor]

def listing (pages : List (Page R)) : List R := pages.flatMap Page.items

/-- A page function whose pages are cut from what remains. -/
def Sound [LinearOrder K] (page : S -> Option K -> Page R) : Prop :=
  ∀ state cursor, (page state cursor).Cuts (catalog.remaining state cursor)

variable {catalog} {page : S -> Option K -> Page R}

/-- A finished walk is one last page, or a page with rows left and the walk from its
last row. -/
theorem walk_cases {cursor states pages} (walked : catalog.walk page cursor states = some pages) :
    (∃ state rest, states = state :: rest ∧ (page state cursor).more = false ∧ pages = [page state cursor]) ∨
    (∃ state rest row later, states = state :: rest ∧ (page state cursor).more = true ∧
      (page state cursor).items.getLast? = some row ∧
      catalog.walk page (some (catalog.key row)) rest = some later ∧
      pages = page state cursor :: later) := by
  cases states with
  | nil => cases walked
  | cons state rest =>
    rw [walk] at walked
    split at walked
    next more =>
      cases found : (page state cursor).items.getLast? with rw [found] at walked
      | none => cases walked
      | some row =>
        simp only [Option.map_eq_some_iff] at walked
        rcases walked with ⟨later, continued, same⟩
        exact .inr ⟨state, rest, row, later, rfl, more, found, continued, same.symm⟩
    next done =>
      rw [Bool.not_eq_true] at done
      exact .inl ⟨state, rest, rfl, done, (Option.some.inj walked).symm⟩

theorem walk_induction {motive : Option K -> List S -> List (Page R) -> Prop}
    (last : ∀ cursor state rest, (page state cursor).more = false ->
      motive cursor (state :: rest) [page state cursor])
    (next : ∀ cursor state rest row later, (page state cursor).more = true ->
      (page state cursor).items.getLast? = some row ->
      catalog.walk page (some (catalog.key row)) rest = some later ->
      motive (some (catalog.key row)) rest later ->
      motive cursor (state :: rest) (page state cursor :: later)) {cursor states pages}
    (walked : catalog.walk page cursor states = some pages) : motive cursor states pages := by
  induction states generalizing cursor pages with
  | nil => cases walked
  | cons first others ih =>
    rcases walk_cases walked with
      ⟨_, _, split, done, same⟩ | ⟨_, _, row, later, split, more, found, continued, same⟩
    · cases split
      cases same
      exact last cursor first others done
    · cases split
      cases same
      exact next cursor first others row later more found continued (ih continued)

section Promises

variable [LinearOrder K] (sound : catalog.Sound page)
include sound

variable {cursor : Option K} {row : R} {state : S} {pages : List (Page R)} {states : List S}

theorem key_past_of_mem (member : row ∈ (page state cursor).items) :
    row ∈ catalog.rows state ∧ past cursor (catalog.key row) = true :=
  catalog.mem_remaining.mp ((sound state cursor).starts.subset member)

theorem mem_items_or_past {last} (found : (page state cursor).items.getLast? = some last)
    (member : row ∈ catalog.rows state) (reached : past cursor (catalog.key row) = true) :
    row ∈ (page state cursor).items ∨ catalog.key last < catalog.key row := by
  rcases (sound state cursor).starts with ⟨_, split⟩
  have inRemaining : row ∈ catalog.remaining state cursor := catalog.mem_remaining.mpr ⟨member, reached⟩
  rw [← split, mem_append] at inRemaining
  apply inRemaining.imp_right
  intro inLeft
  have strict := catalog.remaining_strict state cursor
  rw [← split, pairwise_append] at strict
  exact strict.2.2 last (mem_of_getLast? found) row inLeft

theorem le_last_of_mem {last : R} (found : (page state cursor).items.getLast? = some last)
    (member : row ∈ (page state cursor).items) : catalog.key row ≤ catalog.key last := by
  have strict := (catalog.remaining_strict state cursor).sublist (sound state cursor).starts.sublist
  rcases getLast?_eq_some_iff.mp found with ⟨_, split⟩
  rw [split] at member strict
  rcases mem_append.mp member with early | final
  · exact le_of_lt ((pairwise_append.mp strict).2.2 row early last (mem_singleton_self last))
  · rw [mem_singleton.mp final]

section

variable (walked : catalog.walk page cursor states = some pages)
include walked

theorem walk_strict : (listing pages).Pairwise (fun left right => catalog.key left < catalog.key right) ∧
      ∀ row ∈ listing pages, past cursor (catalog.key row) = true := by
  refine walk_induction (motive := fun cursor _ pages =>
    (listing pages).Pairwise (fun left right => catalog.key left < catalog.key right) ∧
      ∀ row ∈ listing pages, past cursor (catalog.key row) = true) ?_ ?_ walked
  · intro cursor state rest done
    simp only [listing, flatMap_cons, flatMap_nil, append_nil]
    refine ⟨(catalog.remaining_strict state cursor).sublist (sound state cursor).starts.sublist, ?_⟩
    intro row member
    exact (key_past_of_mem sound member).2
  · intro cursor state rest last later more found continued ih
    have lastPast := (key_past_of_mem sound (mem_of_getLast? found)).2
    rw [listing, flatMap_cons, pairwise_append]
    refine ⟨⟨?_, ih.1, ?_⟩, ?_⟩
    · exact (catalog.remaining_strict state cursor).sublist (sound state cursor).starts.sublist
    · intro left inPage right inLater
      exact lt_of_le_of_lt (le_last_of_mem sound found inPage) (past_some.mp (ih.2 right inLater))
    · intro row member
      rcases mem_append.mp member with inPage | inLater
      · exact (key_past_of_mem sound inPage).2
      · exact past_of_past lastPast (past_some.mp (ih.2 row inLater))

theorem walk_nodup : (listing pages).Nodup := catalog.nodup_of_strict (walk_strict sound walked).1

theorem mem_rows_of_listed (listed : row ∈ listing pages) :
    ∃ state ∈ states.take pages.length, row ∈ catalog.rows state := by
  revert listed
  refine walk_induction (motive := fun _ states pages => row ∈ listing pages ->
    ∃ state ∈ states.take pages.length, row ∈ catalog.rows state) ?_ ?_ walked
  · intro cursor state rest done listed
    simp only [listing, flatMap_cons, flatMap_nil, append_nil] at listed
    exact ⟨state, mem_cons_self, (key_past_of_mem sound listed).1⟩
  · intro cursor state rest last later more found continued ih listed
    rcases mem_append.mp listed with inPage | inLater
    · exact ⟨state, mem_cons_self, (key_past_of_mem sound inPage).1⟩
    · rcases ih inLater with ⟨met, member, present⟩
      exact ⟨met, mem_cons_of_mem state member, present⟩

theorem listed_of_present (present : ∀ state ∈ states.take pages.length, row ∈ catalog.rows state)
    (reached : past cursor (catalog.key row) = true) : row ∈ listing pages := by
  revert present reached
  refine walk_induction (motive := fun cursor states pages =>
    (∀ state ∈ states.take pages.length, row ∈ catalog.rows state) ->
      past cursor (catalog.key row) = true -> row ∈ listing pages) ?_ ?_ walked
  · intro cursor state rest done present reached
    have whole : (page state cursor).items = catalog.remaining state cursor := by
      by_contra partly
      rw [(sound state cursor).truthful.mpr partly] at done
      cases done
    simp only [listing, flatMap_cons, flatMap_nil, append_nil, whole]
    exact catalog.mem_remaining.mpr ⟨present state mem_cons_self, reached⟩
  · intro cursor state rest last later more found continued ih present reached
    rw [listing, flatMap_cons, mem_append]
    rcases mem_items_or_past sound found (present state mem_cons_self) reached with inPage | beyond
    · exact .inl inPage
    · refine Or.inr (ih ?_ (past_some.mpr beyond))
      intro met member
      exact present met (mem_cons_of_mem state member)

/-- While nothing changes, a walk lists what remained at its start. -/
theorem listing_of_constant {fixed : S} (constant : ∀ state ∈ states.take pages.length, state = fixed) :
    listing pages = catalog.remaining fixed cursor := by
  have strict := walk_strict sound walked
  apply catalog.eq_of_strict strict.1 (catalog.remaining_strict fixed cursor)
  intro row
  rw [catalog.mem_remaining]
  constructor
  · intro listed
    rcases mem_rows_of_listed sound walked listed with ⟨state, member, present⟩
    exact ⟨constant state member ▸ present, strict.2 row listed⟩
  · rintro ⟨present, reached⟩
    apply listed_of_present sound walked _ reached
    intro state member
    exact (constant state member).symm ▸ present

end

theorem items_ne_nil_of_more (more : (page state cursor).more = true) : (page state cursor).items ≠ [] := by
  intro empty
  apply (sound state cursor).truthful.mp more
  by_cases nothing : catalog.remaining state cursor = []
  · rw [empty, nothing]
  · exact ((sound state cursor).progress nothing empty).elim

/-- A walk ends once it has had more requests than there are keys to read.  Each page
that is not the last uses up at least the key of its last row. -/
theorem walk_finishes (keys : Finset K) (cursor) (states : List S)
    (covered : ∀ state ∈ states, ∀ row ∈ catalog.rows state, catalog.key row ∈ keys)
    (enough : (keys.filter (fun key => past cursor key = true)).card < states.length) :
    ∃ pages, catalog.walk page cursor states = some pages := by
  induction states generalizing cursor with
  | nil => cases enough
  | cons state rest ih =>
    rw [walk]
    cases more : (page state cursor).more with
    | false => exact ⟨_, rfl⟩
    | true =>
      rcases getLast?_isSome.mpr (items_ne_nil_of_more sound more) |> Option.isSome_iff_exists.mp with ⟨last, found⟩
      have lastMember := key_past_of_mem sound (mem_of_getLast? found)
      have inKeys : catalog.key last ∈ keys := covered state mem_cons_self last lastMember.1
      have fewer : (keys.filter (fun key => past (some (catalog.key last)) key = true)).card <
          (keys.filter (fun key => past cursor key = true)).card := by
        apply Finset.card_lt_card
        refine ⟨?_, ?_⟩
        · intro key member
          rw [Finset.mem_filter] at member ⊢
          exact ⟨member.1, past_of_past lastMember.2 (past_some.mp member.2)⟩
        · intro reverse
          have again := reverse (Finset.mem_filter.mpr ⟨inKeys, lastMember.2⟩)
          rw [Finset.mem_filter] at again
          exact lt_irrefl _ (past_some.mp again.2)
      have coveredRest : ∀ met ∈ rest, ∀ row ∈ catalog.rows met, catalog.key row ∈ keys :=
        fun met member => covered met (mem_cons_of_mem state member)
      have enoughRest : (keys.filter (fun key => past (some (catalog.key last)) key = true)).card < rest.length := by
        rw [length_cons] at enough
        omega
      rcases ih (some (catalog.key last)) coveredRest enoughRest with ⟨_, walked⟩
      rw [found]
      simp only [walked, if_true]
      exact ⟨_, rfl⟩

end Promises

/-- What a client can rely on when it walks a catalog from the start. -/
structure Lossless [LinearOrder K] [DecidableEq R] (catalog : Catalog S R K)
    (page : S -> Option K -> Page R) : Prop where
  /-- A walk over a state that does not change ends. -/
  settles : ∀ fixed,
    ∃ pages, catalog.walk page none (List.replicate ((catalog.rows fixed).length + 1) fixed) = some pages
  /-- A walk over changing states ends once it has had more requests than there were keys. -/
  finishes : ∀ (keys : Finset K) (states : List S),
    (∀ state ∈ states, ∀ row ∈ catalog.rows state, catalog.key row ∈ keys) ->
      keys.card < states.length -> ∃ pages, catalog.walk page none states = some pages
  /-- No walk lists out of order, or anything twice. -/
  ascending : ∀ states pages, catalog.walk page none states = some pages ->
    (listing pages).Pairwise (fun left right => catalog.key left < catalog.key right)
  /-- A walk over a state that does not change lists that state's rows and nothing else. -/
  complete : ∀ fixed states pages, catalog.walk page none states = some pages ->
    (∀ state ∈ states.take pages.length, state = fixed) -> ∀ row, row ∈ listing pages ↔
      row ∈ catalog.rows fixed
  /-- Whatever else changes, a row that is there at every request is listed exactly once. -/
  stable : ∀ states pages row, catalog.walk page none states = some pages ->
    (∀ state ∈ states.take pages.length, row ∈ catalog.rows state) -> (listing pages).count row = 1

theorem Sound.lossless [LinearOrder K] [DecidableEq R] {catalog : Catalog S R K}
    {page : S -> Option K -> Page R} (sound : catalog.Sound page) : catalog.Lossless page where
  settles := by
    intro fixed
    apply walk_finishes sound ((catalog.rows fixed).map catalog.key).toFinset
    · intro state member row present
      rw [eq_of_mem_replicate member] at present
      exact mem_toFinset.mpr (mem_map_of_mem present)
    · rw [length_replicate]
      have fewer := Finset.card_filter_le ((catalog.rows fixed).map catalog.key).toFinset
        (fun key => past none key = true)
      have atMost := toFinset_card_le ((catalog.rows fixed).map catalog.key)
      rw [length_map] at atMost
      omega
  finishes := by
    intro keys states covered enough
    apply walk_finishes sound keys none states covered
    exact lt_of_le_of_lt (Finset.card_filter_le _ _) enough
  ascending := fun states pages walked => (walk_strict sound walked).1
  complete := by
    intro fixed states pages walked constant row
    rw [listing_of_constant sound walked constant, catalog.mem_remaining]
    exact and_iff_left rfl
  stable := by
    intro states pages row walked present
    exact count_eq_one_of_mem (walk_nodup sound walked) (listed_of_present sound walked present rfl)

end Catalog

end Starling
