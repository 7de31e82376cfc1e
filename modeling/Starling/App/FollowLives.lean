import Starling.App.FollowRows
import Starling.Foundation.Log

namespace Starling.App

open List Option Table AList FollowEvent Follow

/-!
# The life of a follow row

From the accept that makes it to the `unfollow` that removes it, a follow row moves forward
only, its key is the one of the newest rotation that was applied, and it does not come back
afterwards, if the calls for one peer do not overlap, no accept makes a row where there is one,
and the clock does not go back.  While a pass runs, the columns of its copy are then those of
the stored row.
-/

/-! ## What the log says -/

namespace FollowEvent

def pubkey : FollowEvent -> Pubkey
  | .ingesting pubkey => pubkey
  | .created pubkey _ => pubkey
  | .applied pubkey _ _ => pubkey
  | .unfollowed pubkey => pubkey

def departs (pubkey : Pubkey) : FollowEvent -> Option Bool
  | .unfollowed other => if other = pubkey then some true else none
  | .ingesting other => if other = pubkey then some false else none
  | _ => none

/-- The newest rotation of a peer, with its second; the key of the accept counts as one of
second 0. -/
def newer (pubkey : Pubkey) (newest : Option (FeedKey × Int)) : FollowEvent -> Option (FeedKey × Int)
  | .created other feedKey => if other = pubkey then some (feedKey, 0) else newest
  | .applied other createdAt feedKey =>
    if other = pubkey then
      newest.map (fun held => if held.2 ≤ createdAt then (feedKey, createdAt) else held)
    else newest
  | _ => newest

end FollowEvent

/-- `unfollow` of the peer has returned, and no accept of theirs has come in since. -/
def departed (pubkey : Pubkey) (log : List FollowEvent) : Bool := lastWord false (FollowEvent.departs pubkey) log

def newestKey (pubkey : Pubkey) (log : List FollowEvent) : Option (FeedKey × Int) :=
  log.foldl (FollowEvent.newer pubkey) none

section Log

variable {pubkey : Pubkey} {log : List FollowEvent} {event : FollowEvent}

section

variable (pubkey : Pubkey) (log : List FollowEvent)

theorem departed_concat (event) :
    departed pubkey (log ++ [event]) = (event.departs pubkey).getD (departed pubkey log) :=
  lastWord_concat false (departs pubkey) log event

theorem newestKey_concat (event) : newestKey pubkey (log ++ [event]) = event.newer pubkey (newestKey pubkey log) := by
  rw [newestKey, foldl_append]
  rfl

end

theorem departed_other (apart : event.pubkey ≠ pubkey) :
    departed pubkey (log ++ [event]) = departed pubkey log := by
  have silent : event.departs pubkey = none := by
    cases event with
    | ingesting | unfollowed => exact if_neg apart
    | created | applied => rfl
  rw [departed_concat, silent, getD_none]

theorem newestKey_other (apart : event.pubkey ≠ pubkey) :
    newestKey pubkey (log ++ [event]) = newestKey pubkey log := by
  rw [newestKey_concat]
  cases event with
  | ingesting | unfollowed => rfl
  | created | applied => exact if_neg apart

end Log

structure Standing where
  feedKey : FeedKey
  lastSyncedAt : Int
  lastFullSyncAt : Int
  lastReceivedRotationAt : Int
  lastReceivedCardAt : Int

def Follow.standing (follow : Follow) : Standing :=
  ⟨follow.feedKey, follow.lastSyncedAt, follow.lastFullSyncAt, follow.lastReceivedRotationAt,
    follow.lastReceivedCardAt⟩

structure Follow.Advances (old new : Follow) : Prop where
  rotation : old.lastReceivedRotationAt ≤ new.lastReceivedRotationAt
  card : old.lastReceivedCardAt ≤ new.lastReceivedCardAt
  synced : old.lastSyncedAt ≤ new.lastSyncedAt
  full : old.lastFullSyncAt ≤ new.lastFullSyncAt

namespace Follow.Advances

theorem refl (follow : Follow) : follow.Advances follow := ⟨le_refl _, le_refl _, le_refl _, le_refl _⟩

theorem trans {first second third : Follow} (before : first.Advances second)
    (after : second.Advances third) : first.Advances third :=
  ⟨before.rotation.trans after.rotation, before.card.trans after.card, before.synced.trans after.synced,
    before.full.trans after.full⟩

end Follow.Advances

namespace FollowStore

variable {store next : FollowStore} {input : FollowInput} {id : Nat} {old task : FollowTask}
  {pubkey : Pubkey}

def free (store : FollowStore) (pubkey : Pubkey) : Bool := store.tasks.every (fun _ task => task.pubkey ≠ pubkey)

/-- Passes, accepts and `unfollow` of a peer begin while no other call for the peer is
running, an accept makes a row where there is none, and the clock does not go back. -/
def oneAtATime (store : FollowStore) : FollowInput -> Bool
  | .syncNow => store.tasks.every (fun _ task => (store.follows.lookup task.pubkey).isNone)
  | .syncOnePeerByPubkey pubkey => store.free pubkey
  | .ingest pubkey => store.free pubkey
  | .unfollow pubkey => store.free pubkey
  | .saveFollow id =>
    match store.tasks.get id with
    | some (.opened pubkey _ _ _) => (store.follows.lookup pubkey).isNone
    | _ => true
  | .setClock now => decide (store.clock ≤ now)
  | _ => true

/-- What a call relies on: `held` is the stored row of its peer, and `gone` says whether the
peer was left. -/
def Fits (held : Option Standing) (gone : Bool) : FollowTask -> Prop
  | .pass follow .started => held = some follow.standing
  | .pass follow (.fetched _ _) => held = some follow.standing
  | .pass follow (.archived _ _ _ createdAt) =>
    held = some follow.standing ∧ follow.lastReceivedRotationAt ≤ createdAt
  | .pass follow (.keyed current _ _) =>
    held = some current.standing ∧ current.pubkey = follow.pubkey ∧ current.lastSyncedAt = follow.lastSyncedAt
  | .pass follow (.carded _ _) => held.map Standing.lastSyncedAt = some follow.lastSyncedAt
  | .pass _ (.advanced _) => True
  | .reading _ => gone = false
  | .opened _ _ _ _ => gone = false
  | .leaving _ => held = none

structure RowFits (clock : Int) (log : List FollowEvent) (pubkey : Pubkey) (row : Follow) : Prop where
  named : row.pubkey = pubkey
  newest : newestKey pubkey log = some (row.feedKey, row.lastReceivedRotationAt)
  stamped : row.lastFullSyncAt ≤ clock
  present : departed pubkey log = false

def standingIn (follows : Table Pubkey Follow) (pubkey : Pubkey) : Option Standing :=
  (follows.lookup pubkey).map Follow.standing

structure Orderly (store : FollowStore) : Prop where
  begun : 0 ≤ store.clock
  exclusive : Jobs.Exclusive (fun task => some (FollowTask.pubkey task)) store.tasks
  tasks : store.tasks.All (fun _ task =>
    Fits (standingIn store.follows task.pubkey) (departed task.pubkey store.log) task)
  rows : ∀ pubkey row, store.follows.lookup pubkey = some row -> RowFits store.clock store.log pubkey row

structure OnlyAt (store : FollowStore) (pubkey : Pubkey) (follows : Table Pubkey Follow)
    (log : List FollowEvent) : Prop where
  rows : ∀ other, other ≠ pubkey -> follows.lookup other = store.follows.lookup other
  newest : ∀ other, other ≠ pubkey -> newestKey other log = newestKey other store.log
  departed : ∀ other, other ≠ pubkey -> departed other log = departed other store.log

namespace OnlyAt

theorem insert (store pubkey follow) : OnlyAt store pubkey (store.follows.insert pubkey follow) store.log where
  rows := by
    intro other apart
    rw [lookup_insert_ne apart]
  newest := fun _ _ => rfl
  departed := fun _ _ => rfl

theorem updateRow (store pubkey change) : OnlyAt store pubkey (updateRow store.follows pubkey change) store.log where
  rows := by
    intro other apart
    rw [lookup_updateRow, if_neg apart]
  newest := fun _ _ => rfl
  departed := fun _ _ => rfl

theorem unchanged (store pubkey) : OnlyAt store pubkey store.follows store.log :=
  ⟨fun _ _ => rfl, fun _ _ => rfl, fun _ _ => rfl⟩

theorem concat {follows} (only : OnlyAt store pubkey follows store.log) {event} (mine : event.pubkey = pubkey) :
    OnlyAt store pubkey follows (store.log ++ [event]) where
  rows := only.rows
  newest := fun _ apart => newestKey_other (fun same => apart (same.symm.trans mine))
  departed := fun _ apart => departed_other (fun same => apart (same.symm.trans mine))

end OnlyAt

namespace Orderly

variable {follows : Table Pubkey Follow} {log : List FollowEvent}

section

variable (kept : Orderly store)
include kept

theorem elsewhere (found : store.tasks.get id = some old) {other job}
    (atOther : store.tasks.get other = some job) (apart : other ≠ id) : job.pubkey ≠ old.pubkey := by
  intro same
  exact apart (kept.exclusive other id job old old.pubkey atOther found (congrArg some same) rfl)

theorem rows_after (only : OnlyAt store pubkey follows log)
    (row : ∀ row, follows.lookup pubkey = some row -> RowFits store.clock log pubkey row) (target stored)
    (found : follows.lookup target = some stored) : RowFits store.clock log target stored := by
  by_cases here : target = pubkey
  · rw [here] at found ⊢
    exact row stored found
  · rw [only.rows target here] at found
    have before := kept.rows target stored found
    exact { before with
      newest := (only.newest target here).trans before.newest
      present := (only.departed target here).trans before.present }

theorem fits_after (only : OnlyAt store pubkey follows log) {other job}
    (atOther : store.tasks.get other = some job) (away : job.pubkey ≠ pubkey) :
    Fits (standingIn follows job.pubkey) (departed job.pubkey log) job := by
  rw [standingIn, only.rows job.pubkey away, only.departed job.pubkey away]
  exact kept.tasks other job atOther

theorem write (found : store.tasks.get id = some old) (only : OnlyAt store old.pubkey follows log)
    (row : ∀ row, follows.lookup old.pubkey = some row -> RowFits store.clock log old.pubkey row)
    (same : task.pubkey = old.pubkey)
    (fits : Fits (standingIn follows old.pubkey) (departed old.pubkey log) task) :
    Orderly ({ store with follows := follows, log := log }.setTask id task) where
  begun := kept.begun
  exclusive := kept.exclusive.update found (.inl (congrArg some same))
  tasks := by
    refine Jobs.all_update found ?_ ?_
    · intro other job atOther apart
      exact kept.fits_after only atOther (kept.elsewhere found atOther apart)
    · rw [same]
      exact fits
  rows := kept.rows_after only row

theorem writeLast (found : store.tasks.get id = some old) (only : OnlyAt store old.pubkey follows log)
    (row : ∀ row, follows.lookup old.pubkey = some row -> RowFits store.clock log old.pubkey row) :
    Orderly ({ store with follows := follows, log := log }.finish id) where
  begun := kept.begun
  exclusive := kept.exclusive.finish id
  tasks := by
    refine Jobs.all_finish ?_
    intro other job atOther apart
    exact kept.fits_after only atOther (kept.elsewhere found atOther apart)
  rows := kept.rows_after only row

theorem begin (task) (only : OnlyAt store task.pubkey follows log)
    (free : store.tasks.All (fun _ job => job.pubkey ≠ task.pubkey))
    (row : ∀ row, follows.lookup task.pubkey = some row -> RowFits store.clock log task.pubkey row)
    (fits : Fits (standingIn follows task.pubkey) (departed task.pubkey log) task) :
    Orderly ({ store with follows := follows, log := log }.start task) where
  begun := kept.begun
  exclusive := by
    apply kept.exclusive.startClaim
    intro other held thing atOther claimed alsoClaimed
    apply free other held atOther
    exact some.inj (alsoClaimed.trans claimed.symm)
  tasks := by
    refine Jobs.All.start ?_ ?_
    · intro other job atOther
      exact kept.fits_after only atOther (free other job atOther)
    · exact fits
  rows := kept.rows_after only row

theorem advance (found : store.tasks.get id = some old) (same : task.pubkey = old.pubkey)
    (fits : Fits (standingIn store.follows old.pubkey) (departed old.pubkey store.log) task) :
    Orderly (store.setTask id task) :=
  kept.write found (OnlyAt.unchanged store old.pubkey) (kept.rows old.pubkey) same fits

theorem finish (id) : Orderly (store.finish id) :=
  { kept with exclusive := kept.exclusive.finish id, tasks := kept.tasks.finish id }

end

variable {follow : Follow}

section

variable (kept : Orderly store)
include kept

theorem startPass (row : store.follows.lookup follow.pubkey = some follow)
    (free : store.tasks.All (fun _ job => job.pubkey ≠ follow.pubkey)) :
    Orderly (store.start (.pass follow .started)) :=
  kept.begin (.pass follow .started) (OnlyAt.unchanged store follow.pubkey) free (kept.rows follow.pubkey)
    (congrArg (Option.map standing) row)

theorem startAll {rows} (stored : ∀ row ∈ rows, store.follows.lookup row.pubkey = some row)
    (distinct : (rows.map Follow.pubkey).Nodup)
    (free : ∀ row ∈ rows, store.tasks.All (fun _ job => job.pubkey ≠ row.pubkey)) :
    Orderly (store.startAll rows) := by
  induction rows generalizing store with
  | nil => exact kept
  | cons follow rest ih =>
    have parts := nodup_cons.mp distinct
    apply ih
    · exact kept.startPass (stored follow mem_cons_self) (free follow mem_cons_self)
    · intro row member
      exact stored row (mem_cons_of_mem follow member)
    · exact parts.2
    · intro row member
      apply Jobs.All.start (free row (mem_cons_of_mem follow member))
      intro same
      exact parts.1 (mem_map.mpr ⟨row, member, same.symm⟩)

theorem distinct_rows : ((store.follows.entries.map Sigma.snd).map Follow.pubkey).Nodup := by
  have keys : (store.follows.entries.map Sigma.snd).map Follow.pubkey = store.follows.keys := by
    rw [List.map_map]
    apply map_congr_left
    rintro ⟨pubkey, row⟩ member
    exact (kept.rows pubkey row (Table.lookup_eq_some_iff.mpr member)).named
  rw [keys]
  exact store.follows.keys_nodup

theorem syncNow (allowed : store.oneAtATime .syncNow = true) :
    Orderly (store.startAll (store.follows.entries.map Sigma.snd)) := by
  have stored : ∀ row ∈ store.follows.entries.map Sigma.snd, store.follows.lookup row.pubkey = some row := by
    intro row member
    rcases mem_map.mp member with ⟨⟨pubkey, follow⟩, inside, rfl⟩
    have found := Table.lookup_eq_some_iff.mpr inside
    rw [(kept.rows pubkey follow found).named]
    exact found
  apply kept.startAll stored kept.distinct_rows
  intro row member id task found same
  rw [oneAtATime, Jobs.every_iff] at allowed
  have missing := isNone_iff_eq_none.mp (allowed id task found)
  rw [same, stored row member] at missing
  cases missing

end

theorem stored_row {standing} (held : standingIn store.follows pubkey = some standing) :
    ∃ row, store.follows.lookup pubkey = some row ∧ row.standing = standing :=
  map_eq_some_iff.mp held

theorem rowFits_of_standing {clock log row other}
    (fits : RowFits clock log pubkey row) (same : row.standing = other.standing)
    (named : other.pubkey = pubkey) : RowFits clock log pubkey other where
  named := named
  newest := by
    rw [fits.newest]
    exact congrArg (fun standing => some (standing.feedKey, standing.lastReceivedRotationAt)) same
  stamped := (congrArg Standing.lastFullSyncAt same).symm.trans_le fits.stamped
  present := fits.present

theorem saveKey (kept : Orderly store) {diff ranFull newKey createdAt}
    (found : store.tasks.get id = some (.pass follow (.archived diff ranFull newKey createdAt))) :
    Orderly (((store.upsert (follow.withKey newKey createdAt)).record (.applied follow.pubkey createdAt newKey)).setTask
      id (.pass follow (.keyed (follow.withKey newKey createdAt) diff ranFull))) := by
  have relies := kept.tasks id _ found
  rcases stored_row relies.1 with ⟨row, atRow, same⟩
  have before := rowFits_of_standing (kept.rows follow.pubkey row atRow) same rfl
  have only : OnlyAt store follow.pubkey (store.follows.insert follow.pubkey (follow.withKey newKey createdAt))
      (store.log ++ [.applied follow.pubkey createdAt newKey]) :=
    (OnlyAt.insert store follow.pubkey (follow.withKey newKey createdAt)).concat rfl
  apply kept.write found only
  · intro saved atSaved
    cases (lookup_insert store.follows).symm.trans atSaved
    refine ⟨rfl, ?_, before.stamped, (departed_concat _ _ _).trans before.present⟩
    refine (newestKey_concat follow.pubkey _ _).trans ?_
    rw [before.newest, newer, if_pos rfl, map_some, if_pos relies.2]
    rfl
  · rfl
  · exact ⟨congrArg (Option.map standing) (lookup_insert store.follows), rfl, rfl⟩

theorem saveCard (kept : Orderly store) {current diff ranFull} (card createdAt)
    (found : store.tasks.get id = some (.pass follow (.keyed current diff ranFull))) :
    Orderly ((store.upsert (current.withCard card createdAt)).setTask id (.pass follow (.carded diff ranFull))) := by
  rcases kept.tasks id _ found with ⟨held, named, cursor⟩
  rcases stored_row held with ⟨row, atRow, same⟩
  have before := rowFits_of_standing (kept.rows follow.pubkey row atRow) same named
  change Orderly ({ store with
    follows := store.follows.insert current.pubkey (current.withCard card createdAt) }.setTask id _)
  rw [named]
  apply kept.write found (OnlyAt.insert store follow.pubkey (current.withCard card createdAt))
  · intro saved atSaved
    cases (lookup_insert store.follows).symm.trans atSaved
    exact { before with }
  · rfl
  · change (standingIn (store.follows.insert follow.pubkey (current.withCard card createdAt))
      follow.pubkey).map Standing.lastSyncedAt = some follow.lastSyncedAt
    rw [standingIn, lookup_insert]
    exact congrArg some cursor

theorem column_fits {change} (fits : ∀ row, store.follows.lookup pubkey = some row ->
      RowFits store.clock store.log pubkey (change row)) (row)
    (found : (updateRow store.follows pubkey change).lookup pubkey = some row) :
    RowFits store.clock store.log pubkey row := by
  rw [lookup_updateRow, if_pos rfl, map_eq_some_iff] at found
  rcases found with ⟨before, atBefore, rfl⟩
  exact fits before atBefore

section

variable (kept : Orderly store)
include kept

theorem note (pubkey : Pubkey) (failure : Option Int) : Orderly { store with
      follows := updateRow store.follows pubkey (fun row => { row with lastDecryptFailureAt := failure }) } := by
  have same : ∀ target, standingIn (updateRow store.follows pubkey
      (fun row => { row with lastDecryptFailureAt := failure })) target = standingIn store.follows target := by
    intro target
    rw [standingIn, lookup_updateRow]
    split
    · rw [Option.map_map]
      rfl
    · rfl
  refine { kept with tasks := ?_, rows := ?_ }
  · intro id task found
    rw [same]
    exact kept.tasks id task found
  · apply kept.rows_after (OnlyAt.updateRow store pubkey _)
    apply column_fits
    intro row found
    have before := kept.rows pubkey row found
    exact { before with }

theorem ingest (free : store.tasks.All (fun _ job => job.pubkey ≠ pubkey)) :
    Orderly ((store.start (.reading pubkey)).record (.ingesting pubkey)) := by
  have here : departed pubkey (store.log ++ [.ingesting pubkey]) = false := by
    rw [departed_concat, departs, if_pos rfl, getD_some]
  have only : OnlyAt store pubkey store.follows (store.log ++ [.ingesting pubkey]) :=
    (OnlyAt.unchanged store pubkey).concat rfl
  refine kept.begin (.reading pubkey) only free ?_ here
  intro row found
  have before := kept.rows pubkey row found
  exact { before with newest := (newestKey_concat _ _ _).trans before.newest, present := here }

theorem saveFollow {card feedKey epoch} (found : store.tasks.get id = some (.opened pubkey card feedKey epoch)) :
    Orderly (((store.upsert (newFollow pubkey card feedKey epoch)).record (.created pubkey feedKey)).finish id) := by
  have only : OnlyAt store pubkey (store.follows.insert pubkey (newFollow pubkey card feedKey epoch))
      (store.log ++ [.created pubkey feedKey]) :=
    (OnlyAt.insert store pubkey (newFollow pubkey card feedKey epoch)).concat rfl
  apply kept.writeLast found only
  intro saved atSaved
  cases (lookup_insert store.follows).symm.trans atSaved
  refine ⟨rfl, ?_, kept.begun, ?_⟩
  · exact (newestKey_concat _ _ _).trans (if_pos rfl)
  · exact (departed_concat _ _ _).trans (kept.tasks id _ found)

theorem unfollow (free : store.tasks.All (fun _ job => job.pubkey ≠ pubkey)) :
    Orderly ({ store with follows := store.follows.erase pubkey }.start (.leaving pubkey)) := by
  have erased : (store.follows.erase pubkey).lookup pubkey = none := by
    rw [lookup_erase]
  have only : OnlyAt store pubkey (store.follows.erase pubkey) store.log := by
    refine ⟨?_, fun _ _ => rfl, fun _ _ => rfl⟩
    intro other apart
    rw [lookup_erase_ne apart]
  refine kept.begin (.leaving pubkey) only free ?_ ?_
  · intro row found
    cases erased.symm.trans found
  · exact congrArg (Option.map standing) erased

theorem returned (found : store.tasks.get id = some (.leaving pubkey)) :
    Orderly ((store.finish id).record (.unfollowed pubkey)) := by
  have only : OnlyAt store pubkey store.follows (store.log ++ [.unfollowed pubkey]) :=
    (OnlyAt.unchanged store pubkey).concat rfl
  refine kept.writeLast found only ?_
  intro row atRow
  cases (map_eq_none_iff.mp (kept.tasks id _ found)).symm.trans atRow

end

theorem free_of_test {store : FollowStore} {pubkey : Pubkey} (test : store.free pubkey = true) :
    store.tasks.All (fun _ job => job.pubkey ≠ pubkey) := by
  intro id job found
  rw [free, Jobs.every_iff] at test
  exact of_decide_eq_true (test id job found)

theorem move (kept : Orderly store) (allowed : store.oneAtATime input = true)
    (moved : FollowMove store input next) : Orderly next := by
  cases moved with
  | stay => exact kept
  | drop _ id => exact kept.finish id
  | syncNow => exact kept.syncNow allowed
  | syncOne pubkey follow row =>
    have named := (kept.rows pubkey follow row).named
    apply kept.startPass
    · rw [named]
      exact row
    · rw [named]
      exact free_of_test allowed
  | fetch id _ _ _ _ found | openKey id _ _ _ _ found =>
    exact kept.advance found rfl (kept.tasks id _ found)
  | skipKey id _ _ _ _ found =>
    exact kept.advance found rfl ⟨kept.tasks id _ found, rfl, rfl⟩
  | archive id _ follow diff ranFull newKey createdAt found fresh =>
    have onward : Orderly (store.setTask id (.pass follow (.archived diff ranFull newKey createdAt))) :=
      kept.advance found rfl ⟨kept.tasks id _ found, fresh⟩
    exact { onward with }
  | saveKey _ _ _ _ _ _ found => exact kept.saveKey found
  | skipCard id _ _ _ _ _ found =>
    rcases kept.tasks id _ found with ⟨held, _, cursor⟩
    refine kept.advance found rfl ?_
    exact (congrArg (Option.map Standing.lastSyncedAt) held).trans (congrArg some cursor)
  | saveCard _ _ _ _ _ _ card createdAt found =>
    exact kept.saveCard card createdAt found
  | skipCursor _ _ _ _ found => exact kept.advance found rfl trivial
  | advance _ follow _ _ _ found =>
    refine kept.write found (OnlyAt.updateRow store follow.pubkey _) ?_ rfl trivial
    apply column_fits
    intro row atRow
    have before := kept.rows follow.pubkey row atRow
    exact { before with }
  | stampFull _ follow found =>
    apply kept.writeLast found (OnlyAt.updateRow store follow.pubkey _)
    apply column_fits
    intro row atRow
    have before := kept.rows follow.pubkey row atRow
    exact { before with stamped := le_refl _ }
  | note pubkey failure => exact kept.note pubkey failure
  | ingest => exact kept.ingest (free_of_test allowed)
  | saveFollow _ _ _ _ _ found => exact kept.saveFollow found
  | unfollow => exact kept.unfollow (free_of_test allowed)
  | returned _ _ found => exact kept.returned found
  | setClock now =>
    have later : store.clock ≤ now := of_decide_eq_true allowed
    refine { kept with begun := kept.begun.trans later, rows := ?_ }
    intro pubkey row found
    have before := kept.rows pubkey row found
    exact { before with stamped := before.stamped.trans later }

theorem boot (now) : Orderly (boot now) where
  begun := Int.natCast_nonneg now
  exclusive := Jobs.Exclusive.of_idle (fun _ => rfl)
  tasks := Jobs.Idle.all (fun _ => rfl)
  rows := nofun

end Orderly

/-! ## Rows move forward -/

theorem follows_startAll (store : FollowStore) (rows : List Follow) :
    (store.startAll rows).follows = store.follows := by
  induction rows generalizing store with
  | nil => rfl
  | cons follow rest ih => exact ih (store.start (.pass follow .started))

def Continues (follows : Table Pubkey Follow) (pubkey : Pubkey) (new : Follow) : Prop :=
  ∃ old, follows.lookup pubkey = some old ∧ old.Advances new

namespace Continues

variable {follows : Table Pubkey Follow} {new : Follow}

theorem same (present : follows.lookup pubkey = some new) :
    Continues follows pubkey new := ⟨new, present, .refl new⟩

theorem insert {target row} (later : Continues follows target row)
    (present : (follows.insert target row).lookup pubkey = some new) : Continues follows pubkey new :=
  of_lookup_insert (fun _ _ => same) later pubkey new present

theorem updateRow {target change} (later : ∀ row, follows.lookup target = some row -> row.Advances (change row))
    (present : (updateRow follows target change).lookup pubkey = some new) :
    Continues follows pubkey new := by
  rw [lookup_updateRow] at present
  split at present
  next here =>
    rcases map_eq_some_iff.mp present with ⟨row, found, rfl⟩
    exact ⟨row, found, later row (here ▸ found)⟩
  · exact same present

end Continues

theorem advances_of_standing {row copy new : Follow} (same : row.standing = copy.standing)
    (later : copy.Advances new) : row.Advances new where
  rotation := (congrArg Standing.lastReceivedRotationAt same).trans_le later.rotation
  card := (congrArg Standing.lastReceivedCardAt same).trans_le later.card
  synced := (congrArg Standing.lastSyncedAt same).trans_le later.synced
  full := (congrArg Standing.lastFullSyncAt same).trans_le later.full

theorem move_continues (kept : Orderly store) (allowed : store.oneAtATime input = true)
    (moved : FollowMove store input next) (alive : pubkey ∈ store.follows) {new : Follow}
    (present : next.follows.lookup pubkey = some new) : Continues store.follows pubkey new := by
  cases moved with
  | syncNow =>
    rw [follows_startAll store _] at present
    exact .same present
  | saveKey id follow _ _ newKey createdAt found =>
    have relies := kept.tasks id _ found
    rcases Orderly.stored_row relies.1 with ⟨row, atRow, same⟩
    have later : follow.Advances (follow.withKey newKey createdAt) := ⟨relies.2, le_refl _, le_refl _, le_refl _⟩
    have continued : Continues store.follows follow.pubkey (follow.withKey newKey createdAt) :=
      ⟨row, atRow, advances_of_standing same later⟩
    exact continued.insert present
  | saveCard id _ _ current _ _ card createdAt found fresh =>
    rcases kept.tasks id _ found with ⟨held, named, _⟩
    rcases Orderly.stored_row held with ⟨row, atRow, same⟩
    have later : current.Advances (current.withCard card createdAt) := ⟨le_refl _, fresh, le_refl _, le_refl _⟩
    have continued : Continues store.follows current.pubkey (current.withCard card createdAt) :=
      ⟨row, named ▸ atRow, advances_of_standing same later⟩
    exact continued.insert present
  | advance id follow _ _ _ found above =>
    apply Continues.updateRow _ present
    intro row atRow
    have held : (standingIn store.follows follow.pubkey).map Standing.lastSyncedAt =
      some follow.lastSyncedAt := kept.tasks id _ found
    rw [standingIn, atRow, map_some, map_some, some.injEq] at held
    have cursor : row.lastSyncedAt = follow.lastSyncedAt := held
    exact ⟨le_refl _, le_refl _, cursor ▸ above.le, le_refl _⟩
  | stampFull _ follow =>
    apply Continues.updateRow _ present
    intro row atRow
    exact ⟨le_refl _, le_refl _, le_refl _, (kept.rows follow.pubkey row atRow).stamped⟩
  | note =>
    apply Continues.updateRow _ present
    intro row _
    exact ⟨le_refl _, le_refl _, le_refl _, le_refl _⟩
  | saveFollow _ other card feedKey epoch found =>
    change (store.follows.insert other (newFollow other card feedKey epoch)).lookup pubkey = _ at present
    rw [lookup_insert_eq] at present
    split at present
    next here =>
      rw [oneAtATime, found, ← here, isNone_iff_eq_none] at allowed
      exact (lookup_eq_none.mp allowed alive).elim
    · exact .same present
  | unfollow other =>
    change (store.follows.erase other).lookup pubkey = some new at present
    exact .same (of_lookup_erase present)
  | _ => exact .same present

structure Since (middle : FollowStore) (pubkey : Pubkey) (store : FollowStore) : Prop where
  orderly : Orderly store
  rows : ∀ new, store.follows.lookup pubkey = some new -> Continues middle.follows pubkey new

theorem Since.move {middle : FollowStore} (since : Since middle pubkey store)
    (allowed : store.oneAtATime input = true) (alive : pubkey ∈ store.follows)
    (moved : FollowMove store input next) : Since middle pubkey next where
  orderly := since.orderly.move allowed moved
  rows := by
    intro new present
    rcases move_continues since.orderly allowed moved alive present with ⟨row, atRow, advances⟩
    rcases since.rows row atRow with ⟨old, atOld, before⟩
    exact ⟨old, atOld, before.trans advances⟩

/-- If at most one pass, accept or `unfollow` of a peer runs at a time, no accept makes a row
where there is one, and the clock does not go back, then between any two states of a run the
columns of a follow row have not gone back as long as the row was there, its key is that of the
newest rotation that was applied, and a peer that was left has no row until an accept of theirs
comes in. -/
theorem follow_rows_advance (now : Nat) {earlier inputs : List FollowInput} {middle final : FollowStore}
    (orderly : Along step (fun store input => store.oneAtATime input = true) (FollowStore.boot now)
      (earlier ++ inputs)) (first : run step (FollowStore.boot now) earlier = .ok middle)
    (second : run step middle inputs = .ok final) : (∀ pubkey new,
      Along step (fun store _ => pubkey ∈ store.follows) middle inputs -> final.follows.lookup pubkey = some new ->
      ∃ old, middle.follows.lookup pubkey = some old ∧ old.Advances new) ∧
    (∀ pubkey row, final.follows.lookup pubkey = some row ->
      (newestKey pubkey final.log).map Prod.fst = some row.feedKey) ∧
    ∀ pubkey, departed pubkey final.log = true -> final.follows.lookup pubkey = none := by
  have begun : Orderly middle :=
    run_invariant (fun _ _ _ holds allowed stepped => holds.move allowed (step_move stepped))
      (Orderly.boot now) orderly.left first
  have ended : Orderly final :=
    run_invariant (fun _ _ _ holds allowed stepped => holds.move allowed (step_move stepped))
      begun (orderly.right first) second
  refine ⟨?_, ?_, ?_⟩
  · intro pubkey new alive
    have since : Since middle pubkey final :=
      run_invariant (fun _ _ _ holds both stepped => holds.move both.1 both.2 (step_move stepped))
        ⟨begun, fun _ => .same⟩ ((orderly.right first).and alive) second
    exact since.rows new
  · intro pubkey row found
    rw [(ended.rows pubkey row found).newest, map_some]
  · intro pubkey gone
    cases found : final.follows.lookup pubkey with
    | none => rfl
    | some row =>
      rw [(ended.rows pubkey row found).present] at gone
      cases gone

/-! ## Passes for one peer -/

def exampleFollowCard : ConnectionCard := ⟨"PEER", [], []⟩

def followed : List FollowInput := [.ingest "PEER", .openKey 0 exampleFollowCard [1] 0, .saveFollow 0]

def passSteps (id : Nat) (rotation : Option (Int × FeedKey)) (maxCreatedAt : Int) : List FollowInput :=
  [.fetch id ⟨rotation.map (fun delivery => ⟨delivery.1, some delivery.2⟩), none, some maxCreatedAt⟩ false,
    .applyKey id true, .saveKey id, .applyCard id true, .advance id, .stampFull id]

def oneSync : List FollowInput := followed ++ .syncNow :: passSteps 1 (some (40, [2])) 50

abbrev synced : FollowStore := finalState step (boot 100) oneSync

def anotherSync : List FollowInput := .syncOnePeerByPubkey "PEER" :: passSteps 2 (some (60, [3])) 70

theorem follow_rows_advance_twoSyncs :
    (synced.follows.lookup "PEER").isSome = true ∧ ∀ new,
        (finalState step synced anotherSync).follows.lookup "PEER" = some new ->
        ∃ old, synced.follows.lookup "PEER" = some old ∧ old.Advances new := by
  have checks : checkAlong step (fun store input => store.oneAtATime input) (boot 100)
      (oneSync ++ anotherSync) = true ∧
      (run step (boot 100) oneSync).toBool = true ∧
      (run step synced anotherSync).toBool = true ∧
      checkAlong step (fun store _ => decide ("PEER" ∈ store.follows)) synced
        anotherSync = true := by
    decide +kernel
  rcases checks with ⟨alone, first, second, alive⟩
  refine ⟨by decide +kernel, fun new present => ?_⟩
  exact (follow_rows_advance 100 (Along.checked alone)
    (run_finalState first) (run_finalState second)).1 "PEER" new
    (Along.of_check (fun _ _ => of_decide_eq_true) alive) present

def rowAfter (inputs : List FollowInput) : Option (FeedKey × Int × Int × Int) :=
  ((finalState step (boot 100) (followed ++ inputs)).follows.lookup "PEER").map
    (fun row => (row.feedKey, row.lastReceivedRotationAt, row.lastSyncedAt, row.lastFullSyncAt))

/-- Two passes begin, and the first one runs to its end.  The other one has its manifest from
before, with an older rotation, and then saves its copy: key, rotation, cursor and stamp go
back.  A pass that saves its copy after `unfollow` has returned brings the row back.  And a
full pass after the clock has gone back takes the stamp back. -/
theorem follow_row_goes_back :
    (rowAfter (.syncNow :: .syncNow :: passSteps 1 (some (40, [3])) 50) = some ([3], 40, 50, 100) ∧
      rowAfter ((.syncNow :: .syncNow :: passSteps 1 (some (40, [3])) 50) ++
        [.fetch 2 ⟨some ⟨30, some [2]⟩, none, none⟩ false, .applyKey 2 true, .saveKey 2]) =
        some ([2], 30, 0, 0)) ∧
    (rowAfter [.syncNow, .fetch 1 ⟨some ⟨30, some [2]⟩, none, none⟩ false, .applyKey 1 true,
        .unfollow "PEER", .returned 2] = none ∧
      rowAfter [.syncNow, .fetch 1 ⟨some ⟨30, some [2]⟩, none, none⟩ false, .applyKey 1 true,
        .unfollow "PEER", .returned 2, .saveKey 1] = some ([2], 30, 0, 0)) ∧
    rowAfter ((.syncNow :: passSteps 1 none 50) ++
      (.setClock 90 :: .syncNow :: .fetch 2 ⟨none, none, none⟩ true :: [.applyKey 2 true, .applyCard 2 true,
        .advance 2, .stampFull 2])) = some ([1], 0, 50, 90) := by
  decide +kernel

end FollowStore

end Starling.App
