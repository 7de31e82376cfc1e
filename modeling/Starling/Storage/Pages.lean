import Mathlib.Data.Prod.Lex
import Mathlib.Data.String.Basic
import Mathlib.Order.OrderDual
import Starling.Storage.Store

namespace Starling.Storage

open List Truth Catalog

/-!
# Pages of one Owner's rows

The three paged queries: `events::manifest_page`, `events::payloads_page` and
`media::hashes_page`.  Each is a `WHERE` clause with an optional cursor, an `ORDER BY`
and a cut.  Read through `Catalog`, the clause selects exactly the rows past the cursor
and the cut is a sound page.
-/

/-- A row of `served_events` as a query of one Owner sees it. -/
structure StoredEvent where
  id : String
  row : EventRow
  deriving DecidableEq

namespace Store

/-- `SELECT … FROM served_events WHERE pubkey = ?1`. -/
def eventsOf (store : Store) (pubkey : Bytes32) : List StoredEvent :=
  (store.eventRows.entries.filter (fun entry => entry.1.1 = pubkey)).map (fun entry => ⟨entry.1.2, entry.2⟩)

theorem mem_eventsOf {store : Store} {pubkey} {event : StoredEvent} :
    event ∈ store.eventsOf pubkey ↔ store.eventRows.lookup (pubkey, event.id) = some event.row := by
  rw [eventsOf, Table.mem_map_fst]
  constructor
  · rintro ⟨_, _, found, rfl⟩
    exact found
  · intro found
    exact ⟨_, _, found, rfl⟩

theorem eventsOf_ids_nodup (store : Store) (pubkey : Bytes32) : ((store.eventsOf pubkey).map StoredEvent.id).Nodup := by
  rw [eventsOf, map_map]
  exact store.eventRows.nodup_map_snd pubkey

end Store

/-! ## events::manifest_page -/

structure ManifestRow where
  id : String
  createdAt : Int
  deriving DecidableEq

namespace ManifestRow

/-- `(created_at, id)`.  The binary collation of text compares UTF-8 bytes, which is the
order of the characters. -/
def stamp (row : ManifestRow) : Lex (Int × String) := toLex (row.createdAt, row.id)

/-- `ORDER BY created_at DESC, id DESC`. -/
def newestFirst (row : ManifestRow) : OrderDual (Lex (Int × String)) := OrderDual.toDual row.stamp

end ManifestRow

/-- The condition of `manifest_page` besides the Owner. -/
def manifestWhere (since untilAt : Option Int) (untilId : Option String) (row : ManifestRow) : Truth :=
  Truth.and (Truth.or (Truth.isNull since) (Truth.compare (fun left right => left ≥ right) row.createdAt since))
    (Truth.or (Truth.isNull untilAt) (Truth.or (Truth.and (Truth.isNull untilId)
          (Truth.compare (fun left right => left ≤ right) row.createdAt untilAt))
        (Truth.or (Truth.compare (fun left right => left < right) row.createdAt untilAt)
          (Truth.and (Truth.compare (fun left right => left = right) row.createdAt untilAt)
            (Truth.compare (fun left right => left < right) row.id untilId)))))

namespace Store

def manifestRows (store : Store) (pubkey : Bytes32) : List ManifestRow :=
  (store.eventsOf pubkey).map (fun event => ⟨event.id, event.row.createdAt⟩)

def manifestPage (store : Store) (pubkey : Bytes32) (since untilAt : Option Int)
    (untilId : Option String) (limit : Nat) : List ManifestRow :=
  (inOrder ManifestRow.newestFirst ((store.manifestRows pubkey).filter
      (fun row => (manifestWhere since untilAt untilId row).holds))).take limit

end Store

theorem manifestRows_distinct (store : Store) (pubkey : Bytes32) :
    ((store.manifestRows pubkey).map ManifestRow.newestFirst).Nodup := by
  have ids := store.eventsOf_ids_nodup pubkey
  rw [List.Nodup, pairwise_map] at ids
  rw [Store.manifestRows, map_map, List.Nodup, pairwise_map]
  refine ids.imp ?_
  intro left right apart same
  exact apart (congrArg (fun key => (ofLex (OrderDual.ofDual key)).2) same)

def recent (since : Option Int) (createdAt : Int) : Bool :=
  match since with
  | none => true
  | some bound => decide (bound ≤ createdAt)

theorem recent_eq_holds (since : Option Int) (createdAt : Int) : (or (isNull since)
      (compare (fun left right => left ≥ right) createdAt since)).holds = recent since createdAt := by
  cases since with
  | none => rfl
  | some => simp [recent]

/-- The rows that a walk of `GET /manifest` is to list. -/
def manifestCatalog (pubkey : Bytes32) (since : Option Int) :
    Catalog Store ManifestRow (OrderDual (Lex (Int × String))) where
  rows store := (store.manifestRows pubkey).filter (fun row => recent since row.createdAt)
  key := ManifestRow.newestFirst
  distinct := fun store => (manifestRows_distinct store pubkey).sublist (filter_sublist.map _)

/-- Without a cursor the condition is the bound on `created_at`, and with both parts of
the cursor it is that bound and the strict order after the cursor. -/
theorem manifestWhere_holds (since cursor row) :
    (manifestWhere since (cursor.map (fun key => (ofLex (OrderDual.ofDual key)).1))
      (cursor.map (fun key => (ofLex (OrderDual.ofDual key)).2)) row).holds =
        (recent since row.createdAt && past cursor row.newestFirst) := by
  rw [manifestWhere, holds_and, recent_eq_holds]
  congr 1
  cases cursor with
  | none => rfl
  | some key =>
    have order : key < row.newestFirst ↔ row.createdAt < (ofLex (OrderDual.ofDual key)).1 ∨
        row.createdAt = (ofLex (OrderDual.ofDual key)).1 ∧ row.id < (ofLex (OrderDual.ofDual key)).2 :=
      Prod.Lex.toLex_lt_toLex
    simp [past, order]

theorem manifestPage_eq_take (store pubkey since cursor limit) :
    store.manifestPage pubkey since (cursor.map (fun key => (ofLex (OrderDual.ofDual key)).1))
      (cursor.map (fun key => (ofLex (OrderDual.ofDual key)).2)) limit =
        ((manifestCatalog pubkey since).remaining store cursor).take limit := by
  have selected : (store.manifestRows pubkey).filter (fun row =>
      (manifestWhere since (cursor.map (fun key => (ofLex (OrderDual.ofDual key)).1))
        (cursor.map (fun key => (ofLex (OrderDual.ofDual key)).2)) row).holds) =
      ((store.manifestRows pubkey).filter (fun row => recent since row.createdAt)).filter
        (fun row => past cursor row.newestFirst) := by
    rw [filter_filter]
    apply filter_congr
    intro row _
    rw [manifestWhere_holds, Bool.and_comm]
  rw [Store.manifestPage, selected]
  rfl

/-! ## events::payloads_page -/

namespace StoredEvent

/-- `ORDER BY created_at ASC, id ASC`. -/
def stamp (event : StoredEvent) : Lex (Int × String) := toLex (event.row.createdAt, event.id)

end StoredEvent

/-- The condition of `payloads_page` besides the Owner. -/
def payloadsWhere (since : Option Int) (sinceId : Option String) (event : StoredEvent) : Truth :=
  Truth.or (Truth.isNull since) (Truth.or (Truth.and (Truth.isNull sinceId)
        (Truth.compare (fun left right => left ≥ right) event.row.createdAt since))
      (Truth.or (Truth.compare (fun left right => left > right) event.row.createdAt since)
        (Truth.and (Truth.compare (fun left right => left = right) event.row.createdAt since)
          (Truth.compare (fun left right => left > right) event.id sinceId))))

/-- The loop over the ordered rows.  The first row always fits; a later one ends the page
when the page is full or would go over the budget. -/
def payloadsLoop (maxRows byteBudget : Int) : List StoredEvent -> List StoredEvent -> Int -> Page StoredEvent
  | [], items, _ => ⟨items, false⟩
  | event :: rest, items, bytes =>
    if items ≠ [] ∧ ((items.length : Int) ≥ maxRows ∨ bytes + event.row.size > byteBudget) then
      ⟨items, true⟩
    else payloadsLoop maxRows byteBudget rest (items ++ [event]) (bytes + event.row.size)

structure ServedPayload where
  itemType : String
  payload : Bytes
  deriving DecidableEq

structure EventsPage where
  items : List ServedPayload
  next : Option (Int × String)

def StoredEvent.served (event : StoredEvent) : ServedPayload := ⟨event.row.itemType, event.row.payload⟩

/-- What is served of the rows of a page: types and payloads, and the cursor of the last
row when the page was truncated. -/
def EventsPage.ofRows (page : Page StoredEvent) : EventsPage where
  items := page.items.map StoredEvent.served
  next := if page.more then page.items.getLast?.map (fun event => (event.row.createdAt, event.id)) else none

namespace Store

def payloadsRows (store : Store) (pubkey : Bytes32) (since : Option Int) (sinceId : Option String)
    (maxRows byteBudget : Int) : Page StoredEvent :=
  payloadsLoop maxRows byteBudget (inOrder StoredEvent.stamp
      ((store.eventsOf pubkey).filter (fun event => (payloadsWhere since sinceId event).holds))) [] 0

def payloadsPage (store : Store) (pubkey : Bytes32) (since : Option Int) (sinceId : Option String)
    (maxRows byteBudget : Int) : EventsPage :=
  EventsPage.ofRows (store.payloadsRows pubkey since sinceId maxRows byteBudget)

end Store

theorem payloadsLoop_splits (maxRows byteBudget rows items bytes) :
    ∃ taken left, rows = taken ++ left ∧
      (payloadsLoop maxRows byteBudget rows items bytes).items = items ++ taken ∧
      ((payloadsLoop maxRows byteBudget rows items bytes).more = true ↔ left ≠ []) ∧
      (items = [] -> rows ≠ [] -> taken ≠ []) := by
  induction rows generalizing items bytes with
  | nil =>
    refine ⟨[], [], rfl, ?_, ?_, fun _ some => (some rfl).elim⟩
    · simp [payloadsLoop]
    · simp [payloadsLoop]
  | cons event rest ih =>
    rw [payloadsLoop]
    split
    next full =>
      refine ⟨[], event :: rest, rfl, ?_, ?_, fun empty _ => (full.1 empty).elim⟩
      · simp
      · simp
    · rcases ih (items ++ [event]) (bytes + event.row.size) with
        ⟨taken, left, split, taking, leaving, _⟩
      refine ⟨event :: taken, left, ?_, ?_, leaving, fun _ _ => cons_ne_nil _ _⟩
      · rw [split, cons_append]
      · rw [taking, append_assoc, singleton_append]

theorem payloadsLoop_cuts (maxRows byteBudget rows) : (payloadsLoop maxRows byteBudget rows [] 0).Cuts rows := by
  rcases payloadsLoop_splits maxRows byteBudget rows [] 0 with
    ⟨_, left, split, taking, leaving, progress⟩
  rw [nil_append] at taking
  refine ⟨?_, ?_, ?_⟩
  · rw [taking]
    exact ⟨left, split.symm⟩
  · rw [taking]
    exact progress rfl
  · rw [leaving, taking, split]
    constructor
    · intro some same
      exact some (append_right_eq_self.mp same.symm)
    · intro apart none
      exact apart (by rw [none, append_nil])

/-- A page keeps to both limits, except that one row may go over the budget. -/
structure Bounded (maxRows byteBudget : Int) (items : List StoredEvent) : Prop where
  rows : (items.length : Int) ≤ maxRows
  bytes : items.length ≤ 1 ∨ (items.map (fun event => event.row.size)).sum ≤ byteBudget

theorem payloadsLoop_bounded {maxRows byteBudget} (positive : 1 ≤ maxRows) (rows items : List StoredEvent)
    (bytes : Int) (summed : bytes = (items.map (fun event => event.row.size)).sum)
    (bounded : Bounded maxRows byteBudget items) :
    Bounded maxRows byteBudget (payloadsLoop maxRows byteBudget rows items bytes).items := by
  induction rows generalizing items bytes with
  | nil => exact bounded
  | cons event rest ih =>
    rw [payloadsLoop]
    split
    · exact bounded
    next fits =>
      apply ih
      · rw [summed, map_append, sum_append, map_singleton, sum_singleton]
      · cases items with
        | nil =>
          refine ⟨?_, .inl (Nat.le_refl 1)⟩
          simpa using positive
        | cons first others =>
          have room : ¬ (((first :: others).length : Int) ≥ maxRows ∨ bytes + event.row.size > byteBudget) := by
            intro full
            exact fits ⟨cons_ne_nil _ _, full⟩
          rw [not_or, not_lt] at room
          refine ⟨?_, .inr ?_⟩
          · rw [length_append, length_singleton]
            omega
          · rw [map_append, sum_append, map_singleton, sum_singleton, ← summed]
            exact room.2

/-- The rows that a walk of `GET /events` is to deliver. -/
def eventCatalog (pubkey : Bytes32) : Catalog Store StoredEvent (Lex (Int × String)) where
  rows store := store.eventsOf pubkey
  key := StoredEvent.stamp
  distinct := by
    intro store
    have ids := store.eventsOf_ids_nodup pubkey
    rw [List.Nodup, pairwise_map] at ids ⊢
    refine ids.imp ?_
    intro left right apart same
    exact apart (congrArg (fun key => (ofLex key).2) same)

theorem payloadsWhere_holds (cursor event) :
    (payloadsWhere (cursor.map (fun key => (ofLex key).1)) (cursor.map (fun key => (ofLex key).2))
      event).holds = past cursor event.stamp := by
  cases cursor with
  | none => rfl
  | some key =>
    have order : key < event.stamp ↔ (ofLex key).1 < event.row.createdAt ∨
        (ofLex key).1 = event.row.createdAt ∧ (ofLex key).2 < event.id :=
      Prod.Lex.toLex_lt_toLex
    rw [@eq_comm _ (ofLex key).1] at order
    simp [payloadsWhere, past, order]

theorem payloadsRows_eq_loop (store pubkey cursor maxRows byteBudget) :
    store.payloadsRows pubkey (cursor.map (fun key => (ofLex key).1))
      (cursor.map (fun key => (ofLex key).2)) maxRows byteBudget =
        payloadsLoop maxRows byteBudget ((eventCatalog pubkey).remaining store cursor) [] 0 := by
  have selected : (store.eventsOf pubkey).filter (fun event =>
      (payloadsWhere (cursor.map (fun key => (ofLex key).1)) (cursor.map (fun key => (ofLex key).2)) event).holds) =
      (store.eventsOf pubkey).filter (fun event => past cursor event.stamp) := by
    apply filter_congr
    intro event _
    exact payloadsWhere_holds cursor event
  rw [Store.payloadsRows, selected]
  rfl

/-! ## media::hashes_page -/

namespace Store

def hashesOf (store : Store) (pubkey : Bytes32) : List String :=
  (store.db.servedMedia.entries.filter (fun entry => entry.1.1 = pubkey)).map (fun entry => entry.1.2)

def hashesPage (store : Store) (pubkey : Bytes32) (after : Option String) (limit : Nat) : List String :=
  (inOrder id ((store.hashesOf pubkey).filter (fun hash =>
    (Truth.or (Truth.isNull after) (Truth.compare (fun left right => left > right) hash after)).holds))).take limit

theorem hashesOf_nodup (store : Store) (pubkey : Bytes32) : (store.hashesOf pubkey).Nodup :=
  store.db.servedMedia.nodup_map_snd pubkey

end Store

/-- The hashes that a walk of `GET /media-manifest` is to list. -/
def mediaCatalog (pubkey : Bytes32) : Catalog Store String String where
  rows store := store.hashesOf pubkey
  key := id
  distinct := by
    intro store
    rw [map_id]
    exact store.hashesOf_nodup pubkey

theorem hashesPage_eq_take (store pubkey cursor limit) :
    store.hashesPage pubkey cursor limit = ((mediaCatalog pubkey).remaining store cursor).take limit := by
  have selected : (store.hashesOf pubkey).filter (fun hash =>
      (or (isNull cursor) (compare (fun left right => left > right) hash cursor)).holds) =
      (store.hashesOf pubkey).filter (fun hash => past cursor hash) := by
    apply filter_congr
    intro hash _
    cases cursor with
    | none => rfl
    | some => simp [past]
  rw [Store.hashesPage, selected]
  rfl

end Starling.Storage
