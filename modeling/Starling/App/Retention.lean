import Starling.App.Records
import Starling.Foundation.Run

namespace Starling.App

open Table AList

/-!
# Deleted posts and retention

A post is deleted by a tombstone of its author, which is a row like any other.  The lists of posts
leave out what a stored tombstone names, and the retention pass evicts old rows, tombstones too.

An id is the hash of what is signed, and nothing is stored under another id.  So an id stands for the
columns that were signed, and a row holds the three that were not.
-/

structure SignedColumns where
  pubkey : Pubkey
  createdAt : Int
  kind : Nat
  ref : Option String

structure RetainedRow where
  isOwn : Bool
  isSaved : Bool
  lastViewed : Option Int

/-- `event_entries`. -/
abbrev EventTable := Table String RetainedRow

namespace EventTable

variable (columns : String -> SignedColumns)

section

variable (events : EventTable)

/-- `upsertEvent`, which leaves the flags of a row that is there. -/
def upsertEvent (id : String) (isOwn : Bool) : EventTable :=
  match events.lookup id with
  | none => events.insert id ⟨isOwn, false, none⟩
  | some row => events.insert id { row with isOwn := isOwn }

def update (id : String) (change : RetainedRow -> RetainedRow) : EventTable :=
  match events.lookup id with
  | none => events
  | some row => events.insert id (change row)

def setEventSaved (id : String) (saved : Bool) : EventTable :=
  update events id (fun row => { row with isSaved := saved })

def setLastViewed (id : String) (timestamp : Int) : EventTable :=
  update events id (fun row => { row with lastViewed := some timestamp })

/-- The test of `evictOldEvents`. -/
def evicts (maxAgeSeconds graceLastViewedSeconds now : Int) (id : String) (row : RetainedRow) : Bool :=
  !row.isOwn && !row.isSaved && decide ((columns id).createdAt < now - maxAgeSeconds) &&
    match row.lastViewed with
    | none => true
    | some viewed => decide (viewed < now - graceLastViewedSeconds)

def evictOldEvents (maxAgeSeconds graceLastViewedSeconds now : Int) : EventTable :=
  events.retain (fun id row => !evicts columns maxAgeSeconds graceLastViewedSeconds now id row)

def names (id tombstone : String) : Bool :=
  decide ((columns tombstone).kind = 6) && decide ((columns tombstone).pubkey = (columns id).pubkey) &&
    decide ((columns tombstone).ref = some id)

/-- `_notTombstoned`. -/
def notTombstoned (id : String) : Bool := !events.keys.any (names columns id)

/-- `getFeedEvents`, for the pubkeys of the identity and the active follows, before the limit. -/
def getFeedEvents (allPubkeys : List Pubkey) (since : Option Int) : List String :=
  events.keys.filter (fun id => decide ((columns id).pubkey ∈ allPubkeys) && decide ((columns id).kind = 1) &&
    notTombstoned columns events id && atLeast since (columns id).createdAt)

/-- `getProfilePosts`, before the limit. -/
def getProfilePosts (pubkey : Pubkey) : List String :=
  events.keys.filter (fun id => decide ((columns id).pubkey = pubkey) && decide ((columns id).kind = 1) &&
    notTombstoned columns events id)

/-- Whatever is stored, by a pull, a push or the owner, is `store`. -/
inductive Act where
  | store (id : String) (isOwn : Bool)
  | save (id : String) (saved : Bool)
  | view (id : String) (timestamp : Int)
  | retain (maxAgeSeconds graceLastViewedSeconds now : Int)

def step : Act -> Except Empty EventTable
  | .store id isOwn => .ok (upsertEvent events id isOwn)
  | .save id saved => .ok (setEventSaved events id saved)
  | .view id timestamp => .ok (setLastViewed events id timestamp)
  | .retain maxAge grace now => .ok (evictOldEvents columns events maxAge grace now)

def sparesTombstones : Act -> Bool
  | .retain maxAge grace now => events.keys.all (fun id => decide ((columns id).kind ≠ 6) ||
      (events.lookup id).all (fun row => !evicts columns maxAge grace now id row))
  | _ => true

end

variable {columns} {events next : EventTable} {id : String}

theorem mem_update {change other} (member : other ∈ events) : other ∈ update events id change := by
  unfold update
  split
  · exact member
  · exact (mem_insert _).mpr (.inr member)

theorem step_keeps_tombstone {act tombstone} (kind : (columns tombstone).kind = 6)
    (member : tombstone ∈ events) (spares : sparesTombstones columns events act = true)
    (stepped : step columns events act = .ok next) : tombstone ∈ next := by
  cases act with cases stepped
  | store =>
    unfold upsertEvent
    split <;> exact (mem_insert _).mpr (.inr member)
  | save | view => exact mem_update member
  | retain =>
    rcases mem_iff_lookup.mp member with ⟨row, found⟩
    have spared := List.all_eq_true.mp spares tombstone (mem_keys.mp member)
    simp only [kind, ne_eq, not_true_eq_false, decide_false, found, Option.all_some] at spared
    exact mem_iff_lookup.mpr ⟨row, lookup_retain_eq_some.mpr ⟨found, spared⟩⟩

theorem hidden {tombstone} (names : names columns id tombstone = true) (member : tombstone ∈ events)
    (allPubkeys since pubkey) :
    id ∉ getFeedEvents columns events allPubkeys since ∧ id ∉ getProfilePosts columns events pubkey := by
  have tombstoned : notTombstoned columns events id = false := by
    rw [notTombstoned, List.any_eq_true.mpr ⟨tombstone, mem_keys.mp member, names⟩, Bool.not_true]
  constructor
  · simp [getFeedEvents, tombstoned]
  · simp [getProfilePosts, tombstoned]

/-- As long as no retention pass evicts a tombstone, what a stored tombstone hides is never shown again,
whether its row stays, goes or comes back. -/
theorem deleted_stays_hidden {start final : EventTable} {acts : List Act}
    (spares : Along (step columns) (fun events act => sparesTombstones columns events act = true) start acts)
    (reached : run (step columns) start acts = .ok final) (deleted : notTombstoned columns start id = false)
    (allPubkeys : List Pubkey) (since : Option Int) (pubkey : Pubkey) :
    id ∉ getFeedEvents columns final allPubkeys since ∧ id ∉ getProfilePosts columns final pubkey := by
  rw [notTombstoned, Bool.not_eq_false', List.any_eq_true] at deleted
  rcases deleted with ⟨tombstone, member, named⟩
  have kind : (columns tombstone).kind = 6 := by
    simp only [names, Bool.and_eq_true, decide_eq_true_eq] at named
    exact named.1.1
  have kept : tombstone ∈ final := run_invariant
    (fun _ _ _ member spared stepped => step_keeps_tombstone kind member spared stepped)
    (mem_keys.mpr member) spares reached
  exact hidden named kept allPubkeys since pubkey

def smallColumns (id : String) : SignedColumns :=
  if id = "post" then ⟨"author", 100, 1, none⟩ else ⟨"author", 200, 6, some "post"⟩

def deletedPost : EventTable := upsertEvent (upsertEvent ∅ "post" false) "tombstone" false

/-- The pass comes before the tombstone is old. -/
theorem deleted_stays_hidden_early :
    (run (step smallColumns) deletedPost [.retain 150 10 300, .store "post" false]).toBool = true ∧
      "post" ∉ getProfilePosts smallColumns (finalState (step smallColumns) deletedPost
        [.retain 150 10 300, .store "post" false]) "author" :=
  ⟨rfl, (deleted_stays_hidden (Along.checked rfl) (run_finalState rfl) rfl [] none "author").2⟩

/-- A post that was viewed lately survives its tombstone. -/
theorem deleted_post_comes_back : notTombstoned smallColumns (finalState (step smallColumns) ∅
      [.store "post" false, .view "post" 290, .store "tombstone" false]) "post" = false ∧
    getProfilePosts smallColumns (finalState (step smallColumns) ∅
      [.store "post" false, .view "post" 290, .store "tombstone" false, .retain 50 20 300]) "author" = ["post"] := by
  decide +kernel

end EventTable

end Starling.App
