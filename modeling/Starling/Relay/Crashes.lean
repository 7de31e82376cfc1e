import Starling.Relay.Gc

namespace Starling

/-!
# Operations cut short

The media routes run step by step as in `World`; here the directories of the media tree
and the unpairing of an Owner are added.  Every operation may be cut short between two of
its steps, and a restart forgets all of them and sweeps.  Whatever has happened, rows,
files and directories are where the relay puts them, so the sweep repairs.
-/

open Storage Http List AList World

/-- An `unpair_owner` under way, before or after the deletion of the row. -/
structure Removal where
  owner : Bytes32
  rowGone : Bool

structure Keeper where
  world : World
  dirs : Table String Unit
  unpairing : Option Removal

/-- The next step of some operation.  `cut` ends a media request and `endUnpair` an
unpairing, wherever it stands. -/
inductive KeeperInput where
  | media (input : MediaInput)
  | makeDirs (id count : Nat)
  | cut (id : Nat)
  | unpair (owner : Bytes32)
  | deleteOwner
  | removeEntry (path : String)
  | endUnpair
  | pair (owner : Bytes32) (row : PairedOwner)
  | restart (listing : Listing)

/-- The first directories that `create_dir_all` makes for a push. -/
def makeDirs (push : Push) (count : Nat) (dirs : Table String Unit) : Table String Unit :=
  ((shardDirs push.owner push.hash).take count).foldl (fun dirs dir => dirs.insert dir ()) dirs

namespace Keeper

section

variable (keeper : Keeper)

def vault : Vault := ⟨keeper.world.db, keeper.world.files, keeper.dirs⟩

/-- The directories after a step of a media request.  A push makes its directories before
it writes its temporary file. -/
def opened : MediaInput -> Table String Unit
  | .advance id _ fault =>
    match keeper.world.jobs.get id with
    | some (.push push .checked) =>
      if fault = .failed then keeper.dirs else Starling.makeDirs push 3 keeper.dirs
    | _ => keeper.dirs
  | _ => keeper.dirs

/-- `create_dir_all` of a push that does not get further. -/
def makeDirs (id count : Nat) : Keeper :=
  match keeper.world.jobs.get id with
  | some (.push push .checked) => { keeper with dirs := Starling.makeDirs push count keeper.dirs }
  | _ => keeper

/-- A request is cut short; its transaction is rolled back. -/
def cut (id : Nat) : Keeper :=
  { keeper with
    world :=
      { keeper.world with
        jobs := keeper.world.jobs.finish id
        writer := if keeper.world.writer = some id then none else keeper.world.writer } }

/-- `owners::delete`, which waits for the write lock. -/
def deleteOwner : Keeper :=
  match keeper.unpairing with
  | some ⟨owner, false⟩ =>
    if keeper.world.writer.isSome then keeper
    else
      { keeper with
        world := keeper.world.withRows (Owners.delete keeper.world.db owner)
        unpairing := some ⟨owner, true⟩ }
  | _ => keeper

/-- `remove_dir_all` of the Owner's directory takes one entry away: a file, or a directory
that is empty. -/
def removeEntry (path : String) : Keeper :=
  match keeper.unpairing with
  | some ⟨owner, true⟩ =>
    if path ∈ keeper.world.files then
      if below (ownerDir owner) path then
        { keeper with world := keeper.world.withFiles (keeper.world.files.erase path) }
      else keeper
    else if (decide (path = ownerDir owner) || below (ownerDir owner) path) &&
        (keeper.world.files.keys ++ keeper.dirs.keys).all (fun other =>
          decide (parentOf other ≠ path)) then
      { keeper with dirs := keeper.dirs.erase path }
    else keeper
  | _ => keeper

/-- `owners::insert` of a pairing, which takes the pair lock and the write lock. -/
def pair (owner : Bytes32) (row : PairedOwner) : Keeper :=
  if keeper.unpairing.isSome || keeper.world.writer.isSome then keeper
  else
    match Owners.insert keeper.world.db owner row with
    | none => keeper
    | some db => { keeper with world := keeper.world.withRows db }

/-- The process starts again: nothing is under way, and the sweep comes first. -/
def restart (listing : Listing) : Except Unit Keeper :=
  match keeper.vault.sweep listing with
  | none => .error ()
  | some (vault, _) => .ok ⟨World.rest vault.db vault.files, vault.dirs, none⟩

end

def step (site : Site) (keeper : Keeper) : KeeperInput -> Except Unit Keeper
  | .media input =>
    match keeper.world.step site input with
    | .ok world => .ok { keeper with world := world, dirs := keeper.opened input }
    | .error never => nomatch never
  | .makeDirs id count => .ok (keeper.makeDirs id count)
  | .cut id => .ok (keeper.cut id)
  | .unpair owner =>
    if keeper.unpairing = none then .ok { keeper with unpairing := some ⟨owner, false⟩ }
    else .ok keeper
  | .deleteOwner => .ok keeper.deleteOwner
  | .removeEntry path => .ok (keeper.removeEntry path)
  | .endUnpair => .ok { keeper with unpairing := none }
  | .pair owner row => .ok (keeper.pair owner row)
  | .restart listing => keeper.restart listing

def empty : Keeper := ⟨World.rest Database.empty ∅, ∅, none⟩

end Keeper

inductive Change (vault : Vault) : Vault -> Prop where
  | makeDir (owner : Bytes32) (dir : String) (shard : BlobDir owner dir)
      (parent : parentOf dir = "" ∨ parentOf dir ∈ vault.dirs) :
      Change vault { vault with dirs := vault.dirs.insert dir () }
  | write (push : Push) (content : Bytes) (parent : secondDir push.owner push.hash ∈ vault.dirs) :
      Change vault { vault with files := vault.files.insert (tmpPath push.path) content }
  | rename (push : Push) (content : Bytes) (found : tmpPath push.path ∈ vault.files) : Change vault
        { vault with files := (vault.files.erase (tmpPath push.path)).insert push.path content }
  | unlink (path) : Change vault { vault with files := vault.files.erase path }
  | rows (db : Database) (filed : Filed vault.db -> Filed db) : Change vault { vault with db := db }
  | removeDir (dir) (vacant : ∀ path, path ∈ vault.files ∨ path ∈ vault.dirs -> parentOf path ≠ dir) :
      Change vault { vault with dirs := vault.dirs.erase dir }

def Changes : Vault -> Vault -> Prop := Relation.ReflTransGen Change

variable {after before : Vault}

theorem Change.one (change : Change before after) : Changes before after := Relation.ReflTransGen.single change

theorem Vault.Shaped.insertFile {vault : Vault} (shaped : vault.Shaped) {files owner} {new : String}
    (blob : BlobPath owner new) (parent : parentOf new ∈ vault.dirs)
    (member : ∀ path ∈ files, path = new ∨ path ∈ vault.files) :
    Vault.Shaped { vault with files := files } where
  filed := shaped.filed
  files := by
    intro path file
    rcases member path file with rfl | old
    · exact ⟨owner, blob⟩
    · exact shaped.files path old
  dirs := shaped.dirs
  rooted := by
    intro path present
    rcases present with file | dir
    · rcases member path file with rfl | old
      · exact .inr parent
      · exact shaped.rooted path (.inl old)
    · exact shaped.rooted path (.inr dir)

theorem Vault.Shaped.change (shaped : before.Shaped) (change : Change before after) : after.Shaped := by
  cases change with
  | makeDir owner _ shard parent =>
    constructor
    · exact shaped.filed
    · exact shaped.files
    · intro path member
      rcases (mem_insert _).mp member with rfl | old
      · exact ⟨owner, shard⟩
      · exact shaped.dirs path old
    · intro path present
      have earlier : parentOf path = "" ∨ parentOf path ∈ before.dirs := by
        rcases present with file | member
        · exact shaped.rooted path (.inl file)
        · rcases (mem_insert _).mp member with rfl | old
          · exact parent
          · exact shaped.rooted path (.inr old)
      exact earlier.imp_right (fun inside => (mem_insert _).mpr (.inr inside))
  | write push _ parent =>
    refine shaped.insertFile (⟨push.hash, push.valid, .inr rfl⟩ : BlobPath push.owner (tmpPath push.path)) ?_ ?_
    · rw [Push.path, parentOf_tmpPath push.owner push.valid]
      exact parent
    · intro path file
      exact (mem_insert _).mp file
  | rename push _ found =>
    refine shaped.insertFile (⟨push.hash, push.valid, .inl rfl⟩ : BlobPath push.owner push.path) ?_ ?_
    · -- The temporary file is there, and so is its directory.
      rcases shaped.rooted _ (.inl found) with top | inside
      · rw [Push.path, parentOf_tmpPath push.owner push.valid] at top
        exact (below_ne_empty (below_secondDir push.owner push.hash) top).elim
      · rw [Push.path, parentOf_tmpPath push.owner push.valid] at inside
        rw [Push.path, parentOf_ownerShardPath push.owner push.valid]
        exact inside
    · intro path file
      rcases (mem_insert _).mp file with same | rest
      · exact .inl same
      · exact .inr (mem_erase.mp rest).2
  | unlink path =>
    have fewer : ∀ other ∈ before.files.erase path, other ∈ before.files :=
      fun other member => (mem_erase.mp member).2
    exact ⟨shaped.filed, fun other file => shaped.files other (fewer other file), shaped.dirs,
      fun other present => shaped.rooted other (present.imp_left (fewer other))⟩
  | rows _ filed => exact ⟨filed shaped.filed, shaped.files, shaped.dirs, shaped.rooted⟩
  | removeDir dir vacant =>
    have fewer : ∀ other ∈ before.dirs.erase dir, other ∈ before.dirs :=
      fun other member => (mem_erase.mp member).2
    refine ⟨shaped.filed, shaped.files, fun path member => shaped.dirs path (fewer path member), ?_⟩
    intro path present
    have earlier := present.imp_right (fewer path)
    rcases shaped.rooted path earlier with top | inside
    · exact .inl top
    · exact .inr (mem_erase.mpr ⟨vacant path earlier, inside⟩)

theorem Vault.Shaped.changes (shaped : before.Shaped) (changes : Changes before after) : after.Shaped := by
  induction changes with
  | refl => exact shaped
  | tail _ change ih => exact ih.change change

theorem makeDirs_changes (vault) (push : Push) (count : Nat) :
    Changes vault { vault with dirs := makeDirs push count vault.dirs } := by
  have shard : ∀ dir ∈ shardDirs push.owner push.hash, BlobDir push.owner dir :=
    fun dir member => ⟨push.hash, push.valid, member⟩
  have first : Change vault { vault with dirs := makeDirs push 1 vault.dirs } :=
    Change.makeDir push.owner (ownerDir push.owner) (shard _ (by simp [shardDirs]))
      (.inl (parentOf_ownerDir push.owner))
  have second : Change { vault with dirs := makeDirs push 1 vault.dirs }
      { vault with dirs := makeDirs push 2 vault.dirs } := by
    refine Change.makeDir push.owner (firstDir push.owner push.hash) (shard _ (by simp [shardDirs])) (.inr ?_)
    rw [parentOf_firstDir push.owner push.valid]
    exact (mem_insert _).mpr (.inl rfl)
  have third : Change { vault with dirs := makeDirs push 2 vault.dirs }
      { vault with dirs := makeDirs push 3 vault.dirs } := by
    refine Change.makeDir push.owner (secondDir push.owner push.hash) (shard _ (by simp [shardDirs])) (.inr ?_)
    rw [parentOf_secondDir push.owner push.valid]
    exact (mem_insert _).mpr (.inl rfl)
  rcases count with _ | _ | _ | more
  · exact Relation.ReflTransGen.refl
  · exact first.one
  · exact first.one.tail second
  · have all : makeDirs push (more + 3) vault.dirs = makeDirs push 3 vault.dirs := by
      simp [makeDirs, shardDirs, take_succ_cons, take_nil]
    rw [all]
    exact (first.one.tail second).tail third

theorem mem_makeDirs (push dirs) : secondDir push.owner push.hash ∈ makeDirs push 3 dirs :=
  (mem_insert _).mpr (.inl rfl)

namespace Keeper

theorem changes_of_same {before after : World} (dirs : Table String Unit) (db : after.db = before.db)
    (files : after.files = before.files) :
    Changes ⟨before.db, before.files, dirs⟩ ⟨after.db, after.files, dirs⟩ := by
  rw [db, files]
  exact Relation.ReflTransGen.refl

theorem changes_advancePush (site : Site) (world : World) (id now fault push)
    (phase : PushPhase) (dirs : Table String Unit) : Changes ⟨world.db, world.files, dirs⟩
      ⟨(world.advancePush site id now fault push phase).db, (world.advancePush site id now fault push phase).files,
        if phase = .checked ∧ fault ≠ .failed then Starling.makeDirs push 3 dirs else dirs⟩ := by
  have made := makeDirs_changes ⟨world.db, world.files, dirs⟩ push 3
  cases phase with
  | queued =>
    rw [advancePush]
    split
    · exact changes_of_same dirs rfl rfl
    · split
      · exact changes_of_same dirs rfl rfl
      · split
        · exact changes_of_same dirs rfl rfl
        · split <;> exact changes_of_same dirs rfl rfl
  | checked =>
    cases fault with
    | fine => exact made.tail (Change.write push push.body (mem_makeDirs push dirs))
    | failed => exact changes_of_same dirs rfl rfl
    | torn written =>
      exact made.tail (Change.write push (push.body.take written) (mem_makeDirs push dirs))
  | written =>
    rw [advancePush]
    split
    · exact changes_of_same dirs rfl rfl
    · split
      · exact changes_of_same dirs rfl rfl
      next content found => exact (Change.rename push content (Table.mem_iff_lookup.mpr ⟨content, found⟩)).one
  | renamed =>
    rw [advancePush]
    split
    · exact changes_of_same dirs rfl rfl
    · split
      · exact changes_of_same dirs rfl rfl
      next db stored => exact (Change.rows db (fun filed => filed_upsert filed rfl stored)).one

theorem changes_media (site : Site) (keeper : Keeper) (input : MediaInput) (world : World)
    (stepped : keeper.world.step site input = .ok world) :
    Changes keeper.vault ⟨world.db, world.files, keeper.opened input⟩ := by
  cases input with cases stepped
  | push =>
    unfold receivePush
    split
    · split <;> exact changes_of_same keeper.dirs rfl rfl
    · exact changes_of_same keeper.dirs rfl rfl
  | delete =>
    unfold receiveDelete
    split
    · exact changes_of_same keeper.dirs rfl rfl
    · split
      · exact changes_of_same keeper.dirs rfl rfl
      · split <;> exact changes_of_same keeper.dirs rfl rfl
  | advance id now fault =>
    cases found : keeper.world.jobs.get id with
    | none =>
      simp only [advance, opened, found]
      exact changes_of_same keeper.dirs rfl rfl
    | some job =>
      cases job with
      | push push phase =>
        have dirs : keeper.opened (.advance id now fault) =
            if phase = .checked ∧ fault ≠ .failed then Starling.makeDirs push 3 keeper.dirs
            else keeper.dirs := by
          cases phase <;> simp [opened, found]
        rw [dirs]
        simp only [advance, found]
        exact changes_advancePush site keeper.world id now fault push phase keeper.dirs
      | delete owner hashes =>
        simp only [advance, opened, found, advanceDelete]
        split
        · exact changes_of_same keeper.dirs rfl rfl
        · split
          · exact changes_of_same keeper.dirs rfl rfl
          · exact (Change.rows _ (fun filed => filed_deleteRows filed owner hashes)).one
      | unlink paths =>
        simp only [advance, opened, found]
        cases paths with
        | nil => exact changes_of_same keeper.dirs rfl rfl
        | cons path =>
          rw [advanceUnlink]
          split
          · exact (Change.unlink path).one
          · exact changes_of_same keeper.dirs rfl rfl

theorem filed_deleteOwner {db} (owner : Bytes32) (filed : Filed db) : Filed (Owners.delete db owner) := by
  intro key row found
  exact filed key row (Table.lookup_retain_eq_some.mp found).1

theorem filed_insertOwner {db after owner row}
    (inserted : Owners.insert db owner row = some after) (filed : Filed db) : Filed after := by
  intro key media found
  rw [(Owners.insert_eq_some inserted).2.2.2.2] at found
  exact filed key media found

theorem changes_removeEntry (keeper : Keeper) (path : String) :
    Changes keeper.vault (keeper.removeEntry path).vault := by
  unfold removeEntry
  split
  · split
    · split
      · exact (Change.unlink path).one
      · exact Relation.ReflTransGen.refl
    · split
      next removable =>
        rw [Bool.and_eq_true] at removable
        refine (Change.removeDir path ?_).one
        intro other present
        have member := mem_append.mpr (present.imp AList.mem_keys.mp AList.mem_keys.mp)
        exact of_decide_eq_true (all_eq_true.mp removable.2 other member)
      · exact Relation.ReflTransGen.refl
  · exact Relation.ReflTransGen.refl

theorem shaped_step (site : Site) {keeper next : Keeper} {input : KeeperInput} (shaped : keeper.vault.Shaped)
    (stepped : keeper.step site input = .ok next) : next.vault.Shaped := by
  cases input with
  | media input =>
    rw [step] at stepped
    split at stepped
    next world reached =>
      cases stepped
      exact shaped.changes (changes_media site keeper input world reached)
    next never => exact nomatch never
  | makeDirs _ count =>
    cases stepped
    unfold makeDirs
    split
    next push _ => exact shaped.changes (makeDirs_changes keeper.vault push count)
    · exact shaped
  | cut | endUnpair =>
    cases stepped
    exact shaped
  | unpair =>
    rw [step] at stepped
    split at stepped
    · cases stepped
      exact shaped
    · cases stepped
      exact shaped
  | deleteOwner =>
    cases stepped
    unfold deleteOwner
    split
    next owner _ =>
      split
      · exact shaped
      · exact shaped.change (Change.rows _ (filed_deleteOwner owner))
    · exact shaped
  | removeEntry path =>
    cases stepped
    exact shaped.changes (changes_removeEntry keeper path)
  | pair =>
    cases stepped
    unfold pair
    split
    · exact shaped
    · split
      · exact shaped
      next db inserted => exact shaped.change (Change.rows db (filed_insertOwner inserted))
  | restart listing =>
    rw [step, restart] at stepped
    rcases shaped.sweep listing with ⟨_, _, swept, shapedAfter, _⟩
    rw [swept] at stepped
    cases stepped
    exact shapedAfter

theorem shaped_empty : empty.vault.Shaped where
  filed := nofun
  files := nofun
  dirs := nofun
  rooted := by
    rintro path (member | member)
    · cases member
    · cases member

/-- In every state that pushes, deletes, unpairings, pairings and restarts lead to, each of
them cut short or not, the sweep returns and repairs, and the next sweep does nothing. -/
theorem sweep_repairs_every_crash (site : Site) {keeper : Keeper}
    (reached : Reaches (Keeper.step site) Keeper.empty keeper) (listing again : Listing) :
    ∃ after stats, keeper.vault.sweep listing = some (after, stats) ∧
      Vault.Repaired keeper.vault after ∧ after.sweep again = some (after, ⟨0, 0, 0⟩) := by
  have shaped : keeper.vault.Shaped := Reaches.invariant
    (fun _ _ _ holds stepped => shaped_step site holds stepped) reached shaped_empty
  rcases shaped.sweep listing with ⟨after, stats, swept, _, repaired, quiet⟩
  exact ⟨after, stats, swept, repaired, quiet again⟩

/-! ## A run with two cuts -/

def asStored : Listing := ⟨id, fun names => List.Perm.refl names⟩

/-- A delete ends before it unlinks its file, and the next push before it renames its own. -/
def crashingRun : List KeeperInput :=
  .pair phoneKey ⟨none, 0, "phone.onion", 17000, none⟩ ::
    (World.pushBlob :: World.proceed 0 4 ++ World.deleteBlob :: World.proceed 1 1).map .media ++
    .cut 1 :: (World.pushBlob :: World.proceed 2 2).map .media ++ [.cut 2]

abbrev crashed : Keeper := finalState (Keeper.step World.openSite) Keeper.empty crashingRun

/-- Two files are left without a row, and a sweep is done with them. -/
theorem sweep_repairs_every_crash_twice_cut :
    crashed.world.files.keys.length = 2 ∧
    crashed.world.db.servedMedia.keys = [] ∧
    ∃ after stats, crashed.vault.sweep asStored = some (after, stats) ∧
      Vault.Repaired crashed.vault after ∧
      after.sweep asStored = some (after, ⟨0, 0, 0⟩) := by
  have returns : (run (step openSite) empty crashingRun).toBool = true := by
    decide +kernel
  exact ⟨by decide +kernel, by decide +kernel,
    sweep_repairs_every_crash openSite (Reaches.finalState returns) asStored asStored⟩

end Keeper

end Starling
