import Starling.App.Rotations

namespace Starling.App

open List Option Table Jobs AuthorTask Jobs.All Jobs.Idle

/-!
# Every message key is used once

The sequence number of a message comes from a copy of the identity row, and the row learns
of it when the copy is written back.  `Copies` says that one call at a time has a copy to
write, and that the copy still agrees with the row.  `Counted` says that the numbers used
under the stored key lie below a mark, which is the stored counter, or what the one call
that is not done owes the row.
-/

namespace Author

/-! ## When the counter is kept -/

section

variable (author : Author)

def agrees (identity : Identity) : Bool :=
  author.row.any (fun stored =>
    decide (stored.feedKey = identity.feedKey ∧ stored.msgSeqCounter = identity.msgSeqCounter))

def alone (id : Nat) : Bool := author.tasks.every (fun other task => decide (other = id) || task.copy.isNone)

def unreferenced (hash : String) : Bool :=
  author.events.entries.all (fun entry =>
    entry.2.encryptedPayload.isNone || decide (hash ∉ entry.2.media))

/-- A call that gets the lock starts from the stored key and counter while no call has used
a number that is not stored yet, a `GET /events` encrypts only as the one call that has a
copy to write, from the stored key and counter, a photo does not replace a file that an own
event refers to, and the process does not end while a used number is not stored. -/
def keepsCounter : AuthorInput -> Bool
  | .acquire id =>
    match author.tasks.get id with
    | some (.publish what .waiting) =>
      author.settled && (author.lookupIdentity what).all author.agrees
    | some (.rotate _ .waiting) => author.settled
    | _ => true
  | .storeCompressed _ hash => author.unreferenced hash
  | .storeOriginal _ hash => author.unreferenced hash
  | .turn id =>
    match author.tasks.get id with
    | some (.encode identity (event :: _) _) =>
      author.ships identity event || (author.alone id && author.agrees identity)
    | _ => true
  | .crash => author.settled
  | _ => true

end

/-! ## One copy at a time -/

def Agrees (stored identity : Identity) : Prop :=
  identity.feedKey = stored.feedKey ∧ identity.msgSeqCounter = stored.msgSeqCounter

theorem agrees_stored {author : Author} {stored identity : Identity} (row : author.row = some stored)
    (same : author.agrees identity = true) : Agrees stored identity := by
  rw [agrees, row, any_some, decide_eq_true_eq] at same
  exact ⟨same.1.symm, same.2.symm⟩

def Alone (id : Nat) (tasks : Jobs AuthorTask) : Prop := tasks.All (fun other task => other ≠ id -> task.copy = none)

variable {id : Nat} {tasks : Jobs AuthorTask}

theorem alone_of_test {author : Author} (test : author.alone id = true) : Alone id author.tasks := by
  intro other task found apart
  have passed : (decide (other = id) || task.copy.isNone) = true := every_iff.mp test other task found
  rw [Bool.or_eq_true, decide_eq_true_eq, isNone_iff_eq_none] at passed
  exact passed.resolve_left apart

structure Copies (stored : Identity) (tasks : Jobs AuthorTask) : Prop where
  fits : tasks.All (fun _ task => ∀ identity, task.copy = some identity -> Agrees stored identity)
  single : tasks.All (fun id task => task.copy ≠ none -> Alone id tasks)

namespace Copies

variable {stored after : Identity} {tasks : Jobs AuthorTask} {id : Nat} {old task : AuthorTask}

theorem start (copies : Copies stored tasks) (nothing : task.copy = none) : Copies stored (tasks.start task) where
  fits := copies.fits.start_view nothing
  single := by
    apply Jobs.All.start
    · intro other job found copied
      exact Jobs.All.start (copies.single other job found copied) (fun _ => nothing)
    · intro copied
      exact (copied nothing).elim

theorem finish (copies : Copies stored tasks) (id) : Copies stored (tasks.finish id) where
  fits := copies.fits.finish id
  single := by
    apply Jobs.All.finish
    intro other job found copied
    exact (copies.single other job found copied).finish id

theorem advance (copies : Copies stored tasks) (found : tasks.get id = some old)
    (same : task.copy = old.copy ∨ task.copy = none) : Copies stored (tasks.update id task) where
  fits := copies.fits.update_view found same
  single := by
    have onward : ∀ other, Alone other tasks -> Alone other (tasks.update id task) := by
      intro other alone
      apply update alone found
      intro apart
      rcases same with kept | gone
      · rw [kept]
        exact alone id old found apart
      · exact gone
    apply Jobs.All.update
    · intro other job atOther copied
      exact onward other (copies.single other job atOther copied)
    · exact found
    · intro copied
      rcases same with kept | gone
      · exact onward id (copies.single id old found (kept ▸ copied))
      · exact (copied gone).elim

theorem only (alone : Alone id tasks) (found : tasks.get id = some old)
    (fits : ∀ identity, task.copy = some identity -> Agrees after identity) :
    Copies after (tasks.update id task) := by
  have others : Alone id (tasks.update id task) := update alone found (fun apart => (apart rfl).elim)
  constructor
  · refine all_update found ?_ fits
    intro other job atOther apart identity copied
    rw [alone other job atOther apart] at copied
    cases copied
  · intro other job atOther copied
    by_cases same : other = id
    · exact same ▸ others
    · exact (copied (others other job atOther same)).elim

theorem none_left (alone : Alone id tasks) (after) : Copies after (tasks.finish id) := by
  have empty : (tasks.finish id).All (fun _ job => job.copy = none) := all_finish alone
  constructor
  · intro other job atOther identity copied
    rw [empty other job atOther] at copied
    cases copied
  · intro other job atOther copied
    exact (copied (empty other job atOther)).elim

end Copies

/-! ## The mark above the used numbers -/

def Debtless (id : Nat) (tasks : Jobs AuthorTask) : Prop :=
  tasks.All (fun other task => other ≠ id -> task.owes = none)

theorem Alone.debtless (alone : Alone id tasks) : Debtless id tasks := by
  intro other task found apart
  by_contra owing
  exact copy_of_owes owing (alone other task found apart)

structure Counted (stored : Identity) (top : Nat) (tasks : Jobs AuthorTask)
    (used : List (String × Sealing)) : Prop where
  below : ∀ entry ∈ used, entry.2.feedKey = stored.feedKey -> entry.2.msgSeq < top
  owed : tasks.All (fun _ task => ∀ seq, task.owes = some seq -> seq = top)
  settled : tasks.All (fun _ task => task.owes = none) -> stored.msgSeqCounter = top
  reach : stored.msgSeqCounter ≤ top
  distinct : ∀ left right, left ∈ used -> right ∈ used -> left.2 = right.2 -> left.1 = right.1

namespace Counted

variable {stored after : Identity} {top : Nat} {tasks : Jobs AuthorTask}
  {used : List (String × Sealing)} {id : Nat} {old task : AuthorTask}

section

variable (counted : Counted stored top tasks used)
include counted

theorem start (nothing : task.owes = none) : Counted stored top (tasks.start task) used :=
  { counted with
    owed := counted.owed.start_view nothing
    settled := by
      intro all
      apply counted.settled
      intro other job found
      exact all other job (get_start_running found task) }

theorem finish (found : tasks.get id = some old) (nothing : old.owes = none) :
    Counted stored top (tasks.finish id) used :=
  { counted with
    owed := counted.owed.finish id
    settled := fun all => counted.settled (all.of_finish found nothing) }

theorem advance (found : tasks.get id = some old) (same : task.owes = old.owes) :
    Counted stored top (tasks.update id task) used :=
  { counted with
    owed := counted.owed.update_view found (.inl same)
    settled := fun all => counted.settled (all.of_update found same.symm.trans) }

theorem use (debtless : Debtless id tasks) (found : tasks.get id = some old)
    (owes : task.owes = some (top + 1)) (eventId) :
    Counted stored (top + 1) (tasks.update id task) (used ++ [(eventId, ⟨stored.feedKey, top⟩)]) where
  below := by
    intro entry member sameKey
    rcases mem_append.mp member with old | new
    · exact Nat.lt_succ_of_lt (counted.below entry old sameKey)
    · rw [mem_singleton.mp new]
      exact Nat.lt_succ_self top
  owed := by
    refine all_update found ?_ ?_
    · intro other job atOther apart seq owing
      rw [debtless other job atOther apart] at owing
      cases owing
    · intro seq owing
      rw [owes, some.injEq] at owing
      exact owing.symm
  settled := by
    intro all
    have nothing : task.owes = none := all id task (by rw [get_update found, if_pos rfl])
    rw [owes] at nothing
    cases nothing
  reach := Nat.le_succ_of_le counted.reach
  distinct := by
    have unused : ∀ entry ∈ used, entry.2 ≠ ⟨stored.feedKey, top⟩ := by
      intro entry member same
      have less := counted.below entry member (congrArg Sealing.feedKey same)
      rw [same] at less
      exact lt_irrefl top less
    intro left right inLeft inRight same
    rcases mem_append.mp inLeft with oldLeft | newLeft
    · rcases mem_append.mp inRight with oldRight | newRight
      · exact counted.distinct left right oldLeft oldRight same
      · rw [mem_singleton.mp newRight] at same
        exact (unused left oldLeft same).elim
    · rcases mem_append.mp inRight with oldRight | newRight
      · rw [mem_singleton.mp newLeft] at same
        exact (unused right oldRight same.symm).elim
      · rw [mem_singleton.mp newLeft, mem_singleton.mp newRight]

theorem store {remaining} (debtless : remaining.All (fun _ job => job.owes = none))
    (sameKey : after.feedKey = stored.feedKey) (mark : after.msgSeqCounter = top) :
    Counted after top remaining used where
  below := by
    intro entry member atKey
    exact counted.below entry member (atKey.trans sameKey)
  owed := by
    intro other job found seq owes
    rw [debtless other job found] at owes
    cases owes
  settled := fun _ => mark
  reach := le_of_eq mark
  distinct := counted.distinct

theorem restart {remaining} (debtless : remaining.All (fun _ job => job.owes = none))
    (unused : ∀ entry ∈ used, entry.2.feedKey ≠ after.feedKey)
    (zero : after.msgSeqCounter = 0) : Counted after 0 remaining used where
  below := by
    intro entry member atKey
    exact (unused entry member atKey).elim
  owed := by
    intro other job found seq owes
    rw [debtless other job found] at owes
    cases owes
  settled := fun _ => zero
  reach := le_of_eq zero
  distinct := counted.distinct

theorem mark (debtless : Debtless id tasks) (found : tasks.get id = some old) (nothing : old.owes = none) :
    stored.msgSeqCounter = top := by
  exact counted.settled (All.of_finish (all_finish debtless) found nothing)

end

end Counted

theorem Debtless.finish (debtless : Debtless id tasks) :
    (tasks.finish id).All (fun _ job => job.owes = none) := all_finish debtless

theorem Debtless.update {old task} (debtless : Debtless id tasks) (found : tasks.get id = some old)
    (nothing : task.owes = none) : (tasks.update id task).All (fun _ job => job.owes = none) :=
  all_update found debtless nothing

end Author

/-! ## The cache and the media files -/

namespace AuthorTask

def renews : AuthorTask -> Option FeedKey
  | .rotate _ (.renewed newKey _) => some newKey
  | _ => none

def file : AuthorTask -> Option (String × Sealing)
  | .publish _ (.compressed identity hash) => some (hash, ⟨identity.feedKey, identity.msgSeqCounter⟩)
  | .publish _ (.mediaStored identity hash) => some (hash, ⟨identity.feedKey, identity.msgSeqCounter⟩)
  | _ => none

theorem inside_of_renews {task : AuthorTask} (renewing : task.renews ≠ none) : task.inside = true := by
  unfold renews at renewing
  split at renewing
  · rfl
  · exact (renewing rfl).elim

theorem inside_of_file {task : AuthorTask} (written : task.file ≠ none) : task.inside = true := by
  unfold file at written
  split at written
  · rfl
  · rfl
  · exact (written rfl).elim

end AuthorTask

namespace Author

structure CacheFollows (stored : FeedKey) (cache : Option (FeedKey × Nat)) (tasks : Jobs AuthorTask) : Prop where
  renewing : tasks.All (fun _ task => ∀ newKey, task.renews = some newKey -> newKey = stored)
  cached : cache.map Prod.fst = some stored ∨ ∃ id task, tasks.get id = some task ∧ task.renews ≠ none

namespace CacheFollows

variable {stored : FeedKey} {cache : Option (FeedKey × Nat)} {tasks : Jobs AuthorTask} {id : Nat}
  {old task : AuthorTask}

section

variable (follows : CacheFollows stored cache tasks)
include follows

theorem start (nothing : task.renews = none) : CacheFollows stored cache (tasks.start task) where
  renewing := follows.renewing.start_view nothing
  cached := by
    rcases follows.cached with here | ⟨id, job, found, renews⟩
    · exact .inl here
    · exact .inr ⟨id, job, get_start_running found task, renews⟩

theorem finish (found : tasks.get id = some old) (nothing : old.renews = none) :
    CacheFollows stored cache (tasks.finish id) where
  renewing := follows.renewing.finish id
  cached := by
    refine follows.cached.imp_right (fun busy => exists_iff_not_all.mpr ?_)
    exact fun all => exists_iff_not_all.mp busy (all.of_finish found nothing)

theorem advance (found : tasks.get id = some old) (same : task.renews = old.renews) :
    CacheFollows stored cache (tasks.update id task) where
  renewing := follows.renewing.update_view found (.inl same)
  cached := by
    refine follows.cached.imp_right (fun busy => exists_iff_not_all.mpr ?_)
    exact fun all => exists_iff_not_all.mp busy (all.of_update found same.symm.trans)

theorem key_of_inside {lock : Mutex} (guarded : Guarded inside lock tasks)
    (found : tasks.get id = some old) (inside : old.inside = true) (nothing : old.renews = none) :
    cache.map Prod.fst = some stored := by
  rcases follows.cached with here | ⟨_, _, atOther, renews⟩
  · exact here
  · have same := guarded.unique atOther found (inside_of_renews renews) inside
    rw [same, found, some.injEq] at atOther
    exact (renews (atOther ▸ nothing)).elim

end

end CacheFollows

structure FilesMatch (events : Table String EventRow) (blobs : Table String Sealing)
    (tasks : Jobs AuthorTask) : Prop where
  written : tasks.All (fun _ task => ∀ hash sealing, task.file = some (hash, sealing) ->
    blobs.lookup hash = some sealing)
  stored : ∀ id event payload hash, events.lookup id = some event ->
    event.encryptedPayload = some payload -> hash ∈ event.media ->
    blobs.lookup hash = some payload.sealing

namespace FilesMatch

variable {events : Table String EventRow} {blobs : Table String Sealing} {tasks : Jobs AuthorTask}
  {id : Nat} {old task : AuthorTask}

section

variable (files : FilesMatch events blobs tasks)
include files

theorem start (nothing : task.file = none) : FilesMatch events blobs (tasks.start task) where
  written := by
    apply Jobs.All.start files.written
    intro hash sealing file
    rw [nothing] at file
    cases file
  stored := files.stored

theorem finish (id) : FilesMatch events blobs (tasks.finish id) where
  written := files.written.finish id
  stored := files.stored

theorem advance (found : tasks.get id = some old) (same : task.file = old.file ∨ task.file = none) :
    FilesMatch events blobs (tasks.update id task) where
  written := by
    apply files.written.update found
    intro hash sealing file
    rcases same with kept | gone
    · exact files.written id old found hash sealing (kept ▸ file)
    · rw [gone] at file
      cases file
  stored := files.stored

end

theorem unreferenced {author : Author} {hash} (test : author.unreferenced hash = true)
    {id event} {payload : EncryptedEvent} (found : author.events.lookup id = some event)
    (wire : event.encryptedPayload = some payload) : hash ∉ event.media := by
  rw [Author.unreferenced, List.all_eq_true] at test
  have passed := test ⟨id, event⟩ (Table.lookup_eq_some_iff.mp found)
  rw [Bool.or_eq_true, decide_eq_true_eq] at passed
  rcases passed with missing | absent
  · rw [wire] at missing
    cases missing
  · exact absent

theorem write {lock} (files : FilesMatch events blobs tasks) (guarded : Guarded inside lock tasks)
    (found : tasks.get id = some old) (inside : old.inside = true) {hash} {sealing : Sealing}
    (free : ∀ id event payload, events.lookup id = some event ->
      event.encryptedPayload = some payload -> hash ∉ event.media)
    (own : ∀ name content, task.file = some (name, content) ->
      (blobs.insert hash sealing).lookup name = some content) :
    FilesMatch events (blobs.insert hash sealing) (tasks.update id task) where
  written := by
    refine all_update found ?_ own
    intro other job atOther apart name content file
    have alsoInside : job.inside = true := inside_of_file (by rw [file]; exact nofun)
    exact (apart (guarded.unique atOther found alsoInside inside)).elim
  stored := by
    intro eventId event payload name atEvent wire member
    rw [lookup_insert_eq, if_neg]
    · exact files.stored eventId event payload name atEvent wire member
    · rintro rfl
      exact free eventId event payload atEvent wire member

theorem save (files : FilesMatch events blobs tasks) (eventId) {event}
    (references : ∀ payload hash, event.encryptedPayload = some payload -> hash ∈ event.media ->
      blobs.lookup hash = some payload.sealing) : FilesMatch (events.insert eventId event) blobs tasks where
  written := files.written
  stored := by
    intro id other payload hash found wire member
    rw [lookup_insert_eq] at found
    split at found
    · cases found
      exact references payload hash wire member
    · exact files.stored id other payload hash found wire member

end FilesMatch

/-! ## The invariant of the device -/

structure Ledger (author : Author) (stored : Identity) (top : Nat) : Prop where
  row : author.row = some stored
  guarded : Guarded AuthorTask.inside author.lock author.tasks
  copies : Copies stored author.tasks
  counted : Counted stored top author.tasks author.sealed
  cache : CacheFollows stored.feedKey author.cache author.tasks
  files : FilesMatch author.events author.blobs author.tasks
  known : stored.feedKey ∈ author.keys
  past : ∀ entry ∈ author.sealed, entry.2.feedKey ∈ author.keys

namespace Ledger

variable {author next : Author} {stored : Identity} {top : Nat} {id : Nat} {old task : AuthorTask}
  {input : AuthorInput}

variable {lock : Mutex} {identity : Identity}

section

variable (ledger : Ledger author stored top)
include ledger

theorem start (guarded : Guarded inside lock (author.tasks.start task)) (copy : task.copy = none)
    (owes : task.owes = none) (renews : task.renews = none) (file : task.file = none) :
    Ledger { author with lock := lock, tasks := author.tasks.start task } stored top :=
  { ledger with
    guarded := guarded
    copies := ledger.copies.start copy
    counted := ledger.counted.start owes
    cache := ledger.cache.start renews
    files := ledger.files.start file }

theorem finish (guarded : Guarded inside lock (author.tasks.finish id))
    (found : author.tasks.get id = some old) (owes : old.owes = none) (renews : old.renews = none) :
    Ledger { author with lock := lock, tasks := author.tasks.finish id } stored top :=
  { ledger with
    guarded := guarded
    copies := ledger.copies.finish id
    counted := ledger.counted.finish found owes
    cache := ledger.cache.finish found renews
    files := ledger.files.finish id }

theorem advance (guarded : Guarded inside author.lock (author.tasks.update id task))
    (found : author.tasks.get id = some old) (copy : task.copy = old.copy ∨ task.copy = none)
    (owes : task.owes = old.owes) (renews : task.renews = old.renews)
    (file : task.file = old.file ∨ task.file = none) : Ledger (author.setTask id task) stored top :=
  { ledger with
    guarded := guarded
    copies := ledger.copies.advance found copy
    counted := ledger.counted.advance found owes
    cache := ledger.cache.advance found renews
    files := ledger.files.advance found file }

theorem alone_of_settled (settled : author.settled = true) (held : author.lock.holder = some id) :
    Alone id author.tasks := by
  intro other job atOther apart
  cases copied : job.copy with
  | none => rfl
  | some =>
    exfalso
    rcases inside_or_owes copied with inside | owes
    · have holds := ledger.guarded other job atOther inside
      rw [held, some.injEq] at holds
      exact apart holds.symm
    · exact owes (isNone_iff_eq_none.mp (every_iff.mp settled other job atOther))

theorem take (guarded : Guarded inside author.lock (author.tasks.update id task))
    (found : author.tasks.get id = some old) (settled : author.settled = true)
    (held : author.lock.holder = some id) (agrees : Agrees stored identity)
    (copy : task.copy = some identity) (owes : task.owes = old.owes) (renews : task.renews = old.renews)
    (file : task.file = none) : Ledger (author.setTask id task) stored top :=
  { ledger with
    guarded := guarded
    copies := by
      apply Copies.only (ledger.alone_of_settled settled held) found
      intro other copied
      rw [copy, some.injEq] at copied
      exact copied ▸ agrees
    counted := ledger.counted.advance found owes
    cache := ledger.cache.advance found renews
    files := ledger.files.advance found (.inr file) }

theorem write {hash : String} {sealing : Sealing} (guarded : Guarded inside author.lock (author.tasks.update id task))
    (found : author.tasks.get id = some old) (inside : old.inside = true)
    (free : author.unreferenced hash = true) (copy : task.copy = old.copy) (owes : task.owes = old.owes)
    (renews : task.renews = old.renews) (own : ∀ name content, task.file = some (name, content) ->
      (author.blobs.insert hash sealing).lookup name = some content) :
    Ledger ({ author with blobs := author.blobs.insert hash sealing }.setTask id task) stored top :=
  { ledger with
    guarded := guarded
    copies := ledger.copies.advance found (.inl copy)
    counted := ledger.counted.advance found owes
    cache := ledger.cache.advance found renews
    files := ledger.files.write ledger.guarded found inside
      (fun _ _ _ atEvent wire => FilesMatch.unreferenced free atEvent wire) own }

theorem past_append (eventId seq) :
    ∀ entry, entry ∈ author.sealed ++ [(eventId, Sealing.mk stored.feedKey seq)] ->
      entry.2.feedKey ∈ author.keys := by
  exact forall_mem_append.mpr ⟨ledger.past, forall_mem_singleton.mpr ledger.known⟩

theorem saveEvent {what event eventId media payload key epoch}
    (guarded : Guarded inside author.lock (author.tasks.update id (.publish what (.saved identity))))
    (found : author.tasks.get id = some old) (copied : old.copy = some identity) (inside : old.inside = true)
    (renews : old.renews = none) (owes : old.owes = none) (cached : author.cache = some (key, epoch))
    (wire : event.encryptedPayload = some payload) (sealing : payload.sealing = ⟨key, identity.msgSeqCounter⟩)
    (references : event.media = media)
    (written : ∀ hash ∈ media, old.file = some (hash, ⟨identity.feedKey, identity.msgSeqCounter⟩)) :
    Ledger ({ author with
      events := author.events.insert eventId event
      sealed := author.sealed ++ [(eventId, Sealing.mk key identity.msgSeqCounter)] }.setTask
      id (.publish what (.saved identity))) stored (top + 1) := by
  have agrees := ledger.copies.fits id old found identity copied
  have alone : Alone id author.tasks := ledger.copies.single id old found (by rw [copied]; exact some_ne_none identity)
  have current : key = stored.feedKey := by
    have inCache := ledger.cache.key_of_inside ledger.guarded found inside renews
    rw [cached, map_some, some.injEq] at inCache
    exact inCache
  have mark : identity.msgSeqCounter = top := agrees.2.trans (ledger.counted.mark alone.debtless found owes)
  refine ⟨ledger.row, guarded, ?_, ?_, ?_, ?_, ledger.known, ?_⟩
  · exact ledger.copies.advance found (.inl copied.symm)
  · rw [current, mark]
    apply ledger.counted.use alone.debtless found
    rw [AuthorTask.owes, mark]
  · exact ledger.cache.advance found renews.symm
  · apply FilesMatch.advance _ found (.inr rfl)
    apply ledger.files.save eventId
    intro other hash wired member
    rw [wire, some.injEq] at wired
    rw [← wired, sealing, current, ← agrees.1]
    exact ledger.files.written id old found hash _ (written hash (references ▸ member))
  · rw [current]
    exact ledger.past_append eventId identity.msgSeqCounter

theorem store {remaining} (guarded : Guarded inside lock remaining)
    (copies : Copies identity remaining) (debtless : remaining.All (fun _ job => job.owes = none))
    (cache : CacheFollows stored.feedKey author.cache remaining)
    (files : FilesMatch author.events author.blobs remaining) (sameKey : identity.feedKey = stored.feedKey)
    (mark : identity.msgSeqCounter = top) :
    Ledger ({ author with lock := lock, tasks := remaining }.saveIdentity identity) identity top where
  row := rfl
  guarded := guarded
  copies := copies
  counted := ledger.counted.store debtless sameKey mark
  cache := sameKey ▸ cache
  files := files
  known := sameKey ▸ ledger.known
  past := ledger.past

theorem reseal {event left nextSeq} (guarded : Guarded inside author.lock (author.tasks.update id (.encode identity left
      (nextSeq + 1)))) (found : author.tasks.get id = some (.encode identity (event :: left) nextSeq))
    (alone : Alone id author.tasks) (agrees : Agrees stored identity) : Ledger ({ author with
      sealed := author.sealed ++ [(event.id, Sealing.mk identity.feedKey nextSeq)] }.setTask
      id (.encode identity left (nextSeq + 1))) stored (top + 1) := by
  -- Before its first encryption the call finds the mark in its copy; after it, it owes the mark.
  have mark : nextSeq = top := by
    by_cases clean : nextSeq = identity.msgSeqCounter
    · rw [clean, agrees.2]
      exact ledger.counted.mark alone.debtless found (if_pos clean)
    · exact ledger.counted.owed id _ found nextSeq (if_neg clean)
  have ahead : nextSeq + 1 ≠ identity.msgSeqCounter := by
    have reach := ledger.counted.reach
    rw [← agrees.2] at reach
    omega
  refine ⟨ledger.row, guarded, ?_, ?_, ?_, ?_, ledger.known, ?_⟩
  · apply Copies.only alone found
    intro other copied
    rw [copy, if_neg ahead, some.injEq] at copied
    exact copied ▸ agrees
  · rw [agrees.1, mark]
    apply ledger.counted.use alone.debtless found
    rw [owes, if_neg (mark ▸ ahead)]
  · exact ledger.cache.advance found rfl
  · exact ledger.files.advance found (.inl rfl)
  · rw [agrees.1]
    exact ledger.past_append event.id nextSeq

theorem renew {newKey removedPubkey} {now : Int}
    (guarded : Guarded inside author.lock (author.tasks.update id (.rotate removedPubkey (.renewed newKey now))))
    (found : author.tasks.get id = some (.rotate removedPubkey (.retired identity now)))
    (fresh : newKey ∉ author.keys) :
    Ledger ((author.saveRenewed identity newKey now).setTask id (.rotate removedPubkey (.renewed newKey now)))
      (identity.renewed newKey now) 0 := by
  have alone : Alone id author.tasks := ledger.copies.single id _ found nofun
  refine ⟨rfl, guarded, ?_, ?_, ?_, ?_, ?_, ?_⟩
  · exact Copies.only alone found nofun
  · apply ledger.counted.restart (alone.debtless.update found rfl)
    · intro entry member same
      have again : entry.2.feedKey = newKey := same
      exact fresh (again ▸ ledger.past entry member)
    · rfl
  · constructor
    · refine all_update found ?_ ?_
      · intro other job atOther apart key renews
        have inside : job.inside = true := inside_of_renews (by rw [renews]; exact nofun)
        exact (apart (ledger.guarded.unique atOther found inside rfl)).elim
      · rintro _ ⟨⟩
        rfl
    · refine Or.inr ⟨id, .rotate removedPubkey (.renewed newKey now), ?_, nofun⟩
      change (author.tasks.update id _).get id = _
      rw [get_update found, if_pos rfl]
  · exact ledger.files.advance found (.inl rfl)
  · exact mem_append_right _ (mem_singleton_self newKey)
  · intro entry member
    exact mem_append_left _ (ledger.past entry member)

theorem distribute {newKey : FeedKey} {removedPubkey} {now : Int}
    (guarded : Guarded inside author.lock (author.tasks.update id (.rotate removedPubkey .queued)))
    (found : author.tasks.get id = some (.rotate removedPubkey (.renewed newKey now))) :
    Ledger ({ author with cache := some (newKey, 0) }.setTask id (.rotate removedPubkey .queued)) stored top :=
  { ledger with
    guarded := guarded
    copies := ledger.copies.advance found (.inl rfl)
    counted := ledger.counted.advance found rfl
    cache := by
      constructor
      · exact ledger.cache.renewing.update found nofun
      · left
        change some newKey = some stored.feedKey
        rw [ledger.cache.renewing id _ found newKey rfl]
    files := ledger.files.advance found (.inl rfl) }

theorem crash (settled : author.settled = true) : Ledger author.crash stored top :=
  { ledger with
    guarded := Guarded.clear inside author.tasks
    copies := ⟨author.tasks.idle_clear.all, author.tasks.idle_clear.all⟩
    counted := by
      apply ledger.counted.store author.tasks.idle_clear.all rfl
      apply ledger.counted.settled
      intro other job found
      exact isNone_iff_eq_none.mp (every_iff.mp settled other job found)
    cache := by
      constructor
      · exact author.tasks.idle_clear.all
      · left
        rw [Author.crash, ledger.row]
        rfl
    files := ⟨author.tasks.idle_clear.all, ledger.files.stored⟩ }

theorem move (allowed : author.keepsCounter input = true) (fresh : author.drawsFresh input = true)
    (moved : AuthorMove author input next) : ∃ after mark, Ledger next after mark := by
  have guarded := guarded_move ledger.guarded moved
  cases moved with
  | stay => exact ⟨stored, top, ledger⟩
  | take _ _ _ found held looked =>
    rw [keepsCounter, found] at allowed
    dsimp only at allowed
    rw [looked, Bool.and_eq_true] at allowed
    have agrees := agrees_stored ledger.row allowed.2
    exact ⟨stored, top, ledger.take guarded found allowed.1 held agrees rfl rfl rfl rfl⟩
  | read _ _ _ found held row =>
    rw [keepsCounter, found] at allowed
    rw [ledger.row, some.injEq] at row
    exact ⟨stored, top, ledger.take guarded found allowed held ⟨by rw [row], by rw [row]⟩ rfl rfl rfl rfl⟩
  | quit _ _ task found _ settled spread =>
    have idle : task.renews = none := by
      unfold renews
      split
      · exact (spread _ _ _ rfl).elim
      · rfl
    exact ⟨stored, top, ledger.finish guarded found settled idle⟩
  | compressed _ _ _ _ found =>
    refine ⟨stored, top, ledger.write guarded found rfl allowed rfl rfl rfl ?_⟩
    rintro _ _ ⟨⟩
    rw [AList.lookup_insert]
  | original id _ compressedHash _ _ found =>
    refine ⟨stored, top, ledger.write guarded found rfl allowed rfl rfl rfl ?_⟩
    rintro _ _ ⟨⟩
    rw [lookup_insert_eq]
    split
    · rfl
    · exact ledger.files.written id _ found compressedHash _ rfl
  | saveEvent _ _ _ _ _ _ _ _ _ _ found ready cached =>
    rcases ready with ⟨rfl, rfl⟩ | ⟨_, rfl, rfl⟩
    · exact ⟨stored, top + 1, ledger.saveEvent guarded found rfl rfl rfl rfl cached rfl rfl rfl (forall_mem_nil _)⟩
    · refine ⟨stored, top + 1, ledger.saveEvent guarded found rfl rfl rfl rfl cached rfl rfl rfl ?_⟩
      intro other member
      rw [mem_singleton.mp member]
      rfl
  | bump id _ identity found =>
    have alone : Alone id author.tasks := ledger.copies.single id _ found (some_ne_none _)
    have agrees := ledger.copies.fits id _ found identity rfl
    exact ⟨_, top, ledger.store guarded (Copies.only alone found (by rintro _ ⟨⟩))
      (alone.debtless.update found rfl) (ledger.cache.advance found rfl)
      (ledger.files.advance found (.inl rfl)) agrees.1
      (ledger.counted.owed id _ found _ rfl)⟩
  | refuse _ row =>
    rw [ledger.row] at row
    cases row
  | list _ _ _ _ found =>
    exact ⟨stored, top, ledger.advance guarded found (.inr (if_pos rfl)) (if_pos rfl) rfl (.inr rfl)⟩
  | ship _ _ _ _ _ found =>
    exact ⟨stored, top, ledger.advance guarded found (.inl rfl) rfl rfl (.inl rfl)⟩
  | reseal _ _ _ _ _ found missing =>
    rw [keepsCounter, found] at allowed
    dsimp only at allowed
    rw [missing, Bool.false_or, Bool.and_eq_true] at allowed
    exact ⟨stored, top + 1,
      ledger.reseal guarded found (alone_of_test allowed.1) (agrees_stored ledger.row allowed.2)⟩
  | answer _ _ found => exact ⟨stored, top, ledger.finish guarded found (if_pos rfl) rfl⟩
  | answerSaving id identity nextSeq found moved =>
    have copied : (encode identity [] nextSeq).copy = some identity := if_neg moved
    have alone : Alone id author.tasks := ledger.copies.single id _ found (by rw [copied]; exact some_ne_none identity)
    have agrees := ledger.copies.fits id _ found identity copied
    exact ⟨_, top, ledger.store guarded (Copies.none_left alone _) alone.debtless.finish
      (ledger.cache.finish found rfl) (ledger.files.finish id) agrees.1
      (ledger.counted.owed id _ found nextSeq (if_neg moved))⟩
  | retire _ _ _ _ found =>
    have onward := ledger.advance guarded found (.inl rfl) rfl rfl (.inl rfl)
    exact ⟨stored, top, { onward with }⟩
  | renew _ _ _ _ _ found =>
    rw [drawsFresh, decide_eq_true_eq] at fresh
    exact ⟨_, 0, ledger.renew guarded found fresh⟩
  | distribute _ _ _ _ found =>
    exact ⟨stored, top, ledger.distribute guarded found⟩
  | receive event => exact ⟨stored, top, { ledger with files := ledger.files.save event.id (by rintro _ _ ⟨⟩) }⟩
  | crash => exact ⟨stored, top, ledger.crash allowed⟩
  | _ => exact ⟨stored, top, ledger.start guarded rfl rfl rfl rfl⟩

end

theorem boot (identity events) (legacy : ∀ id event, events.lookup id = some event -> event.encryptedPayload = none) :
    Ledger (boot identity events) identity identity.msgSeqCounter where
  row := rfl
  guarded := Guarded.empty inside
  copies := ⟨all (fun _ => rfl), all (fun _ => rfl)⟩
  counted := ⟨nofun, all (fun _ => rfl), fun _ => rfl, le_refl _, nofun⟩
  cache := ⟨all (fun _ => rfl), .inl rfl⟩
  files := by
    refine ⟨all (fun _ => rfl), ?_⟩
    intro id event payload hash found wire
    rw [legacy id event found] at wire
    cases wire
  known := mem_singleton_self _
  past := nofun

end Ledger

/-- If every call starts from the stored key and counter, one at a time, and no used number
is lost, then two events never have the same key and sequence number, and the media files
of an own event are encrypted under the message key of the event. -/
theorem message_keys_unique {MessageKey : Type} (deriveMsgKey : FeedKey -> Nat -> MessageKey)
    (identity : Identity) (events : Table String EventRow)
    (legacy : ∀ id event, events.lookup id = some event -> event.encryptedPayload = none)
    {inputs : List AuthorInput} {final : Author}
    (fresh : Along step (fun author input => author.drawsFresh input = true) (Author.boot identity events) inputs)
    (keeps : Along step (fun author input => author.keepsCounter input = true) (Author.boot identity events) inputs)
    (reached : run step (Author.boot identity events) inputs = .ok final) :
    (∀ left right, left ∈ final.sealed -> right ∈ final.sealed -> left.2 = right.2 -> left.1 = right.1) ∧
    ∀ id event payload hash, final.events.lookup id = some event ->
      event.encryptedPayload = some payload -> hash ∈ event.media ->
      ∃ file, final.blobs.lookup hash = some file ∧ deriveMsgKey file.feedKey file.msgSeq =
          deriveMsgKey payload.sealing.feedKey payload.sealing.msgSeq := by
  have preserved : ∀ author input next, (∃ stored top, Ledger author stored top) ->
      (author.drawsFresh input = true ∧ author.keepsCounter input = true) ->
      author.step input = .ok next -> ∃ stored top, Ledger next stored top := by
    rintro _ _ _ ⟨_, _, ledger⟩ ⟨drawn, allowed⟩ stepped
    exact ledger.move allowed drawn (step_move ledger.guarded stepped)
  have initial : ∃ stored top, Ledger (boot identity events) stored top :=
    ⟨identity, identity.msgSeqCounter, Ledger.boot identity events legacy⟩
  rcases run_invariant preserved initial (fresh.and keeps) reached with ⟨stored, _, ledger⟩
  constructor
  · exact ledger.counted.distinct
  · intro id event payload hash found wire member
    exact ⟨payload.sealing, ledger.files.stored id event payload hash found wire member, rfl⟩

/-! ## Runs on a small device -/

def likeSteps (id : Nat) (eventId target : String) (createdAt : Int) : List AuthorInput :=
  [.acquire id, .saveEvent id eventId createdAt (some target), .bump id, .release id]

def carefulDay : List AuthorInput :=
  (.publish .createPost :: postSteps 0 "post" "photo" 2) ++ (.publish .like :: likeSteps 1 "like" "other" 3) ++
    [.receive exampleComment, .get none, .list 2, .turn 2, .turn 2, .turn 2, .answer 2] ++
    (.rotate "REMOVED" :: rotateSteps 3 10 (exampleKey 2)) ++
    (.crash :: .publish .createPost :: postSteps 4 "second" "sunset" 12)

theorem message_keys_unique_carefulDay : (authorAfter carefulDay).sealed =
      [("post", ⟨exampleKey 1, 0⟩), ("like", ⟨exampleKey 1, 1⟩), ("comment", ⟨exampleKey 1, 2⟩),
        ("second", ⟨exampleKey 2, 0⟩)] ∧
    ∀ left right, left ∈ (authorAfter carefulDay).sealed ->
      right ∈ (authorAfter carefulDay).sealed -> left.2 = right.2 ->
      left.1 = right.1 := by
  have checks : checkAlong step (fun author input => author.drawsFresh input)
        (boot exampleIdentity ∅) carefulDay = true ∧
      checkAlong step (fun author input => author.keepsCounter input) (boot exampleIdentity ∅) carefulDay = true ∧
      (run step (boot exampleIdentity ∅) carefulDay).toBool = true := by
    decide +kernel
  refine ⟨by decide +kernel, ?_⟩
  exact (message_keys_unique Sealing.mk exampleIdentity ∅ nofun (Along.checked checks.1)
    (Along.checked checks.2.1) (run_finalState checks.2.2)).1

def twoPosts : List AuthorInput :=
  (.publish .createPost :: postSteps 0 "post" "photo" 2) ++ (.publish .createPost :: postSteps 1 "second" "sunset" 3)

def lostCounter : List AuthorInput :=
  [.publish .like, .acquire 0, .saveEvent 0 "like" 2 (some "other"), .crash] ++
    (.publish .like :: likeSteps 1 "second" "another" 3)

/-- The number 0 of the first key serves two events in both runs, and a post after a
rotation has its body under the new key and its photo under the old one. -/
theorem message_keys_collide : (authorAfter twoPosts).sealed =
      [("post", ⟨exampleKey 1, 0⟩), ("second", ⟨exampleKey 1, 0⟩)] ∧
    (authorAfter lostCounter).sealed =
      [("like", ⟨exampleKey 1, 0⟩), ("second", ⟨exampleKey 1, 0⟩)] ∧
    ((authorAfter postAfterRotation).events.lookup "post").map EventRow.encryptedPayload =
      some (some ⟨"AUTHOR", 12, 0, ⟨exampleKey 2, 0⟩⟩) ∧
    ((authorAfter postAfterRotation).events.lookup "post").map EventRow.media = some ["photo"] ∧
    (authorAfter postAfterRotation).blobs.lookup "photo" = some ⟨exampleKey 1, 0⟩ := by
  decide +kernel

end Author

end Starling.App
