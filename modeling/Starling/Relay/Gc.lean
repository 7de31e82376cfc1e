import Starling.Foundation.Walk
import Starling.Http.Folders
import Starling.Http.Host

namespace Starling

/-!
# The sweep at startup

`gc.rs` reconciles the rows of `served_media` with the files on disk, before anything is
served.  Its three legs remove the directories of unknown Owners, the files without a row
and the rows without a file.  The file system and the database answer every call here; in
the source an error on a single entry is logged and the entry is skipped.

The media directory is a set of files and a set of directories.  A vault is shaped if
rows, files and directories are where the relay puts them and nothing lies outside of a
directory.
-/

open Storage Http List Table

structure Vault where
  db : Database
  files : Table String Bytes
  dirs : Table String Unit

structure Listing where
  arrange : List String -> List String
  perm : ∀ names, (arrange names).Perm names

structure GcStats where
  unknownOwnerDirsRemoved : Nat
  orphanFilesRemoved : Nat
  phantomRowsRemoved : Nat

/-- `owners::list`. -/
def ownersList (db : Database) : List Bytes32 :=
  (inOrder (fun row : Sigma (fun _ : Bytes32 => PairedOwner) => row.2.pairedAt)
    db.pairedOwners.entries).map (fun row => row.1)

/-- `media::rows_for_owner`. -/
def rowsForOwner (db : Database) (owner : Bytes32) : List (String × ServedMedia) :=
  (db.servedMedia.entries.filter (fun row => row.1.1 = owner)).map (fun row => (row.1.2, row.2))

namespace Vault

section

variable (listing : Listing) (vault : Vault)

/-- `read_dir_or_empty`. -/
def readDirOrEmpty (dir : String) : List String :=
  if dir = "" ∨ dir ∈ vault.dirs then
    listing.arrange ((vault.files.keys ++ vault.dirs.keys).filter (fun path =>
      decide (parentOf path = dir)))
  else []

/-- `std::fs::remove_dir_all`. -/
def removeDirAll (vault : Vault) (dir : String) : Vault :=
  { vault with
    files := vault.files.retain (fun path _ => !below dir path)
    dirs := vault.dirs.retain (fun path _ => decide (path ≠ dir) && !below dir path) }

/-- `std::fs::remove_file`. -/
def removeFile (vault : Vault) (path : String) : Vault :=
  { vault with files := vault.files.erase path }

/-- `walk_files`: all regular files under a directory. -/
def walkFiles (dir : String) : Option (List String) :=
  walk (fun dir => (vault.readDirOrEmpty listing dir).filter (fun path => path ∈ vault.dirs))
    (fun dir => (vault.readDirOrEmpty listing dir).filter (fun path => path ∉ vault.dirs))
    (vault.dirs.keys.length + 1) [dir] []

def removeUnknown (known : List String) (state : Vault × Nat) (name : String) : Vault × Nat :=
  if name ∈ known then state
  else if name ∈ state.1.dirs then (state.1.removeDirAll name, state.2 + 1)
  else state

def unlinkOrphan (expected : List String) (state : Vault × Nat) (file : String) : Vault × Nat :=
  if file ∈ expected then state
  else if file ∈ state.1.files then (state.1.removeFile file, state.2 + 1)
  else state

def dropPhantom (owner : Bytes32) (state : Vault × Nat) (row : String × ServedMedia) : Vault × Nat :=
  if row.2.path ∈ state.1.files ∨ row.2.path ∈ state.1.dirs then state
  else ({ state.1 with db := (Media.delete state.1.db owner row.1).1 }, state.2 + 1)

def sweepOwner (state : Vault × GcStats) (owner : Bytes32) : Option (Vault × GcStats) :=
  let rows := rowsForOwner state.1.db owner
  let expected := rows.map (fun row => row.2.path)
  match state.1.walkFiles listing (ownerDir owner) with
  | none => none
  | some found =>
    let swept := found.foldl (unlinkOrphan expected) (state.1, state.2.orphanFilesRemoved)
    let dropped := rows.foldl (dropPhantom owner) (swept.1, state.2.phantomRowsRemoved)
    some (dropped.1, { state.2 with orphanFilesRemoved := swept.2, phantomRowsRemoved := dropped.2 })

def sweep : Option (Vault × GcStats) :=
  let owners := ownersList vault.db
  let swept := (vault.readDirOrEmpty listing "").foldl (removeUnknown (owners.map ownerDir)) (vault, 0)
  owners.foldlM (sweepOwner listing) (swept.1, ⟨swept.2, 0, 0⟩)

end

/-- Rows, files and directories are where the relay puts them, and each file or directory
lies in a directory that exists. -/
structure Shaped (vault : Vault) : Prop where
  filed : Filed vault.db
  files : ∀ path ∈ vault.files, ∃ owner, BlobPath owner path
  dirs : ∀ path ∈ vault.dirs, ∃ owner, BlobDir owner path
  rooted : ∀ path, path ∈ vault.files ∨ path ∈ vault.dirs -> parentOf path = "" ∨ parentOf path ∈ vault.dirs

variable {path dir : String} {vault after before : Vault}

section

variable (shaped : Shaped vault)
include shaped

theorem Shaped.not_dir (file : path ∈ vault.files) : path ∉ vault.dirs := by
  intro dir
  rcases shaped.files path file with ⟨_, blob⟩
  rcases shaped.dirs path dir with ⟨_, blobDir⟩
  exact blob.not_dir blobDir

theorem Shaped.dir_ne_empty (member : dir ∈ vault.dirs) : dir ≠ "" := by
  rcases shaped.dirs dir member with ⟨_, blob⟩
  intro empty
  have length := (length_blobDir blob).1
  rw [empty] at length
  exact absurd length (by decide)

theorem Shaped.top (member : dir ∈ vault.dirs) (top : parentOf dir = "") : ∃ owner, dir = ownerDir owner := by
  rcases shaped.dirs dir member with ⟨owner, blob⟩
  rcases blob.cases with same | ⟨deeper, _⟩
  · exact ⟨owner, same⟩
  · exact (deeper top).elim

theorem Shaped.parent_mem (present : path ∈ vault.files ∨ path ∈ vault.dirs) (parent : parentOf path = dir)
    (filled : dir ≠ "") : dir ∈ vault.dirs := by
  rcases shaped.rooted path present with top | inside
  · exact (filled (parent.symm.trans top)).elim
  · exact parent ▸ inside

end

variable {hash : String} {owner : Bytes32} {db : Database}

section

variable (shaped : Shaped vault)
include shaped

theorem Shaped.ownerDir_of_first (valid : isValidHash hash = true)
    (first : firstDir owner hash ∈ vault.dirs) : ownerDir owner ∈ vault.dirs :=
  shaped.parent_mem (.inr first) (parentOf_firstDir owner valid) (ownerDir_ne_empty owner)

theorem Shaped.first_of_second (valid : isValidHash hash = true)
    (second : secondDir owner hash ∈ vault.dirs) : firstDir owner hash ∈ vault.dirs :=
  shaped.parent_mem (.inr second) (parentOf_secondDir owner valid) (below_ne_empty (below_firstDir owner hash))

theorem Shaped.chain (file : path ∈ vault.files) (blob : BlobPath owner path) :
    ∃ hash, isValidHash hash = true ∧ parentOf path = secondDir owner hash ∧
      secondDir owner hash ∈ vault.dirs ∧ firstDir owner hash ∈ vault.dirs ∧
      ownerDir owner ∈ vault.dirs := by
  rcases blob.parent with ⟨hash, valid, parent⟩
  have second := shaped.parent_mem (.inl file) parent (below_ne_empty (below_secondDir owner hash))
  have first := shaped.first_of_second valid second
  exact ⟨hash, valid, parent, second, first, shaped.ownerDir_of_first valid first⟩

theorem Shaped.ownerDir_mem (present : path ∈ vault.files ∨ path ∈ vault.dirs) :
    ∃ owner, ownerDir owner ∈ vault.dirs ∧ OwnedDir owner path := by
  rcases present with file | dir
  · rcases shaped.files path file with ⟨owner, blob⟩
    rcases shaped.chain file blob with ⟨_, _, _, _, _, above⟩
    exact ⟨owner, above, .inr blob.below⟩
  · rcases shaped.dirs path dir with ⟨owner, hash, valid, member⟩
    refine ⟨owner, ?_⟩
    rw [shardDirs, mem_cons, mem_cons, mem_singleton] at member
    rcases member with rfl | rfl | rfl
    · exact ⟨dir, .inl rfl⟩
    · exact ⟨shaped.ownerDir_of_first valid dir, .inr (below_firstDir owner hash)⟩
    · exact ⟨shaped.ownerDir_of_first valid (shaped.first_of_second valid dir),
        Or.inr (below_secondDir owner hash)⟩

end

theorem mem_readDirOrEmpty {listing} : path ∈ vault.readDirOrEmpty listing dir ↔
      (dir = "" ∨ dir ∈ vault.dirs) ∧ (path ∈ vault.files ∨ path ∈ vault.dirs) ∧ parentOf path = dir := by
  unfold readDirOrEmpty
  split
  next present =>
    rw [(listing.perm _).mem_iff, mem_filter, mem_append, decide_eq_true_eq]
    exact ⟨fun both => ⟨present, both⟩, fun both => both.2⟩
  next absent =>
    constructor
    · exact nofun
    · intro both
      exact (absent both.1).elim

theorem Shaped.arboreal (shaped : Shaped vault) (listing) :
    Arboreal (fun dir => (vault.readDirOrEmpty listing dir).filter (fun path =>
      decide (path ∈ vault.dirs))) vault.dirs.keys (fun path => path.toList.length) where
  listed := by
    intro dir child member
    exact AList.mem_keys.mp (of_decide_eq_true (mem_filter.mp member).2)
  distinct := by
    intro dir
    apply List.Nodup.filter
    unfold readDirOrEmpty
    split
    · rw [(listing.perm _).nodup_iff]
      apply List.Nodup.filter
      rw [nodup_append]
      refine ⟨vault.files.keys_nodup, vault.dirs.keys_nodup, ?_⟩
      rintro _ isFile _ isDir rfl
      exact shaped.not_dir (AList.mem_keys.mpr isFile) (AList.mem_keys.mpr isDir)
    · exact nodup_nil
  parent := by
    intro left right child atLeft atRight
    have leftParent := (mem_readDirOrEmpty.mp (mem_filter.mp atLeft).1).2.2
    have rightParent := (mem_readDirOrEmpty.mp (mem_filter.mp atRight).1).2.2
    exact leftParent.symm.trans rightParent
  deeper := by
    intro dir child member
    have listed := mem_readDirOrEmpty.mp (mem_filter.mp member).1
    have isDir : child ∈ vault.dirs := of_decide_eq_true (mem_filter.mp member).2
    rw [← listed.2.2]
    exact length_parentOf (shaped.dir_ne_empty isDir)

theorem Shaped.walkFiles (shaped : Shaped vault) (listing owner) :
    ∃ found, vault.walkFiles listing (ownerDir owner) = some found ∧
      ∀ path, path ∈ found ↔ path ∈ vault.files ∧ below (ownerDir owner) path = true := by
  rcases walk_returns (shaped.arboreal listing) (fun dir => (vault.readDirOrEmpty listing dir).filter
    (fun path => path ∉ vault.dirs)) (ownerDir owner) with ⟨found, done, collected⟩
  refine ⟨found, done, ?_⟩
  intro path
  rw [collected]
  constructor
  · rintro ⟨dir, descends, emitted⟩
    have listed := mem_readDirOrEmpty.mp (mem_filter.mp emitted).1
    have notDir : path ∉ vault.dirs := of_decide_eq_true (mem_filter.mp emitted).2
    -- Every directory that the walk gets to is the Owner's or lies in it.
    have inside : OwnedDir owner dir := by
      clear emitted listed
      induction descends with
      | refl => exact .inl rfl
      | tail _ step ih =>
        have child := mem_readDirOrEmpty.mp (mem_filter.mp step).1
        exact .inr (OwnedDir.child (child.2.2 ▸ ih))
    exact ⟨listed.2.1.resolve_right notDir, OwnedDir.child (listed.2.2 ▸ inside)⟩
  · rintro ⟨file, inside⟩
    rcases shaped.files path file with ⟨other, blob⟩
    have same : other = owner := owner_of_below blob.below inside
    subst same
    rcases shaped.chain file blob with ⟨hash, valid, parent, second, first, owned⟩
    have isDir : ∀ {dir child}, child ∈ vault.dirs -> dir ∈ vault.dirs -> parentOf child = dir ->
        child ∈ (vault.readDirOrEmpty listing dir).filter (fun path => path ∈ vault.dirs) :=
      fun child dir parent => mem_filter.mpr
        ⟨mem_readDirOrEmpty.mpr ⟨.inr dir, .inr child, parent⟩, decide_eq_true child⟩
    refine ⟨secondDir other hash, ?_, ?_⟩
    · exact (Relation.ReflTransGen.single (isDir first owned (parentOf_firstDir other valid))).tail
        (isDir second first (parentOf_secondDir other valid))
    · exact mem_filter.mpr ⟨mem_readDirOrEmpty.mpr ⟨.inr second, .inl file, parent⟩,
        decide_eq_true (shaped.not_dir file)⟩

/-! ## What a sweep may do -/

/-- Files and rows are only taken away, and never a row that has its file nor that file. -/
structure Repairs (before after : Vault) : Prop where
  owners : after.db.pairedOwners = before.db.pairedOwners
  files : ∀ path, after.files.lookup path = none ∨ after.files.lookup path = before.files.lookup path
  rows : ∀ key, after.db.servedMedia.lookup key = none ∨
    after.db.servedMedia.lookup key = before.db.servedMedia.lookup key
  kept : ∀ key row content, before.db.servedMedia.lookup key = some row ->
    before.files.lookup row.path = some content ->
      after.db.servedMedia.lookup key = some row ∧ after.files.lookup row.path = some content

theorem Repairs.refl (vault) : Repairs vault vault where
  owners := rfl
  files := fun _ => Or.inr rfl
  rows := fun _ => Or.inr rfl
  kept := fun _ _ _ found stored => ⟨found, stored⟩

theorem Repairs.trans {middle} (first : Repairs before middle) (second : Repairs middle after) :
    Repairs before after where
  owners := second.owners.trans first.owners
  files := by
    intro path
    rcases second.files path with gone | same
    · exact .inl gone
    · rw [same]
      exact first.files path
  rows := by
    intro key
    rcases second.rows key with gone | same
    · exact .inl gone
    · rw [same]
      exact first.rows key
  kept := by
    intro key row content found stored
    have middle := first.kept key row content found stored
    exact second.kept key row content middle.1 middle.2

theorem Repairs.file (repairs : Repairs before after) (file : path ∈ after.files) : path ∈ before.files := by
  rcases mem_iff_lookup.mp file with ⟨content, found⟩
  rcases repairs.files path with gone | same
  · rw [gone] at found
    cases found
  · rw [same] at found
    exact mem_iff_lookup.mpr ⟨content, found⟩

theorem Repairs.row (repairs : Repairs before after) {key row}
    (found : after.db.servedMedia.lookup key = some row) : before.db.servedMedia.lookup key = some row := by
  rcases repairs.rows key with gone | same
  · rw [gone] at found
    cases found
  · rw [same] at found
    exact found

theorem Shaped.of_repairs (shaped : Shaped before) (repairs : Repairs before after)
    (dirs : ∀ path ∈ after.dirs, path ∈ before.dirs)
    (rooted : ∀ path, path ∈ after.files ∨ path ∈ after.dirs -> parentOf path ∈ before.dirs ->
      parentOf path ∈ after.dirs) : Shaped after where
  filed := fun key row found => shaped.filed key row (repairs.row found)
  files := fun path file => shaped.files path (repairs.file file)
  dirs := fun path dir => shaped.dirs path (dirs path dir)
  rooted := by
    intro path present
    have earlier : path ∈ before.files ∨ path ∈ before.dirs := by
      rcases present with file | dir
      · exact .inl (repairs.file file)
      · exact .inr (dirs path dir)
    rcases shaped.rooted path earlier with top | inside
    · exact .inl top
    · exact .inr (rooted path present inside)

structure Clean (vault : Vault) (owner : Bytes32) : Prop where
  listed : ∀ path ∈ vault.files, below (ownerDir owner) path = true ->
    ∃ hash row, vault.db.servedMedia.lookup (owner, hash) = some row ∧ row.path = path
  stored : ∀ hash row, vault.db.servedMedia.lookup (owner, hash) = some row -> row.path ∈ vault.files

theorem Clean.of_repairs (clean : Clean before owner) (repairs : Repairs before after) : Clean after owner where
  listed := by
    intro path file inside
    rcases clean.listed path (repairs.file file) inside with ⟨hash, row, found, same⟩
    rcases mem_iff_lookup.mp (clean.stored hash row found) with ⟨content, stored⟩
    exact ⟨hash, row, (repairs.kept _ row content found stored).1, same⟩
  stored := by
    intro hash row found
    have earlier := repairs.row found
    rcases mem_iff_lookup.mp (clean.stored hash row earlier) with ⟨content, stored⟩
    exact mem_iff_lookup.mpr ⟨content, (repairs.kept _ row content earlier stored).2⟩

/-! ## Unknown directories -/

theorem mem_ownersList : owner ∈ ownersList db ↔ owner ∈ db.pairedOwners := by
  rw [ownersList, mem_map, mem_iff_lookup]
  constructor
  · rintro ⟨⟨_, row⟩, member, rfl⟩
    exact ⟨row, lookup_eq_some_iff.mpr (mem_inOrder.mp member)⟩
  · rintro ⟨row, found⟩
    exact ⟨⟨owner, row⟩, mem_inOrder.mpr (lookup_eq_some_iff.mp found), rfl⟩

theorem mem_removeDirAll_dirs : path ∈ (vault.removeDirAll dir).dirs ↔
      path ∈ vault.dirs ∧ path ≠ dir ∧ below dir path = false := by
  rw [mem_iff_lookup, mem_iff_lookup]
  constructor
  · rintro ⟨mark, found⟩
    rcases lookup_retain_eq_some.mp found with ⟨earlier, kept⟩
    rw [Bool.and_eq_true, decide_eq_true_eq, Bool.not_eq_true'] at kept
    exact ⟨⟨mark, earlier⟩, kept⟩
  · rintro ⟨⟨mark, earlier⟩, kept⟩
    refine ⟨mark, lookup_retain_eq_some.mpr ⟨earlier, ?_⟩⟩
    rw [Bool.and_eq_true, decide_eq_true_eq, Bool.not_eq_true']
    exact kept

theorem lookup_removeDirAll_files {content} : (vault.removeDirAll dir).files.lookup path = some content ↔
      vault.files.lookup path = some content ∧ below dir path = false := by
  refine lookup_retain_eq_some.trans ?_
  rw [Bool.not_eq_true']

theorem Shaped.removeDirAll (shaped : Shaped vault) (unknown : owner ∉ vault.db.pairedOwners) :
    Repairs vault (vault.removeDirAll (ownerDir owner)) ∧ Shaped (vault.removeDirAll (ownerDir owner)) := by
  have repairs : Repairs vault (vault.removeDirAll (ownerDir owner)) := by
    constructor
    · rfl
    · intro path
      cases found : (vault.removeDirAll (ownerDir owner)).files.lookup path with
      | none => exact .inl rfl
      | some => exact .inr (lookup_removeDirAll_files.mp found).1.symm
    · exact fun key => Or.inr rfl
    · intro key row content found stored
      refine ⟨found, lookup_removeDirAll_files.mpr ⟨stored, ?_⟩⟩
      -- The file lies with the Owner of its row, who is paired.
      have filed := shaped.filed key row found
      have mine : below (ownerDir key.1) row.path = true := BlobPath.below ⟨key.2, filed.1, .inl filed.2⟩
      apply Bool.eq_false_iff.mpr
      intro inside
      apply unknown
      rw [← owner_of_below mine inside]
      exact vault.db.mediaOwned key (mem_iff_lookup.mpr ⟨row, found⟩)
  refine ⟨repairs, shaped.of_repairs repairs (fun path dir => (mem_removeDirAll_dirs.mp dir).1) ?_⟩
  intro path present inside
  have outside : below (ownerDir owner) path = false := by
    rcases present with file | dir
    · rcases mem_iff_lookup.mp file with ⟨_, found⟩
      exact (lookup_removeDirAll_files.mp found).2
    · exact (mem_removeDirAll_dirs.mp dir).2.2
  have foreign : ¬ OwnedDir owner (parentOf path) := by
    intro owned
    rw [owned.child] at outside
    cases outside
  refine mem_removeDirAll_dirs.mpr ⟨inside, fun same => foreign (.inl same), ?_⟩
  apply Bool.eq_false_iff.mpr
  exact fun deeper => foreign (.inr deeper)

theorem Shaped.removeUnknown (shaped : Shaped vault) (names : List String)
    (top : ∀ name ∈ names, parentOf name = "") (count : Nat) : ∃ after total,
      names.foldl (removeUnknown ((ownersList vault.db).map ownerDir)) (vault, count) = (after, total) ∧
      Shaped after ∧ Repairs vault after ∧ after.db = vault.db ∧
      (∀ path ∈ after.dirs, path ∈ vault.dirs) ∧
      ∀ owner, ownerDir owner ∈ names -> owner ∉ vault.db.pairedOwners -> ownerDir owner ∉ after.dirs := by
  induction names generalizing vault count with
  | nil =>
    exact ⟨vault, count, rfl, shaped, Repairs.refl vault, rfl, fun path dir => dir, nofun⟩
  | cons name rest ih =>
    have later : ∀ other ∈ rest, parentOf other = "" :=
      fun other member => top other (mem_cons_of_mem name member)
    rw [foldl_cons, removeUnknown]
    split
    next known =>
      rcases ih shaped later count with
        ⟨after, total, done, shapedAfter, repairs, same, fewer, gone⟩
      refine ⟨after, total, done, shapedAfter, repairs, same, fewer, ?_⟩
      intro owner member unpaired
      rcases mem_cons.mp member with first | second
      · rcases mem_map.mp known with ⟨_, listed, named⟩
        rw [ownerDir_injective (first.trans named.symm)] at unpaired
        exact (unpaired (mem_ownersList.mp listed)).elim
      · exact gone owner second unpaired
    next unknown =>
      split
      next isDir =>
        rcases shaped.top isDir (top name mem_cons_self) with ⟨removed, rfl⟩
        have unpaired : removed ∉ vault.db.pairedOwners := by
          intro paired
          exact unknown (mem_map.mpr ⟨removed, mem_ownersList.mpr paired, rfl⟩)
        have cut := shaped.removeDirAll unpaired
        rcases ih cut.2 later (count + 1) with
          ⟨after, total, done, shapedAfter, repairs, same, fewer, gone⟩
        refine ⟨after, total, done, shapedAfter, cut.1.trans repairs, same,
          fun path dir => (mem_removeDirAll_dirs.mp (fewer path dir)).1, ?_⟩
        intro owner member absent
        rcases mem_cons.mp member with first | second
        · intro present
          exact (mem_removeDirAll_dirs.mp (fewer _ present)).2.1 first
        · exact gone owner second absent
      next notDir =>
        rcases ih shaped later count with
          ⟨after, total, done, shapedAfter, repairs, same, fewer, gone⟩
        refine ⟨after, total, done, shapedAfter, repairs, same, fewer, ?_⟩
        intro owner member absent
        rcases mem_cons.mp member with first | second
        · intro present
          exact notDir (first ▸ fewer _ present)
        · exact gone owner second absent

theorem removeUnknown_quiet {known names : List String}
    (quiet : ∀ name ∈ names, name ∈ vault.dirs -> name ∈ known) (count : Nat) :
    names.foldl (removeUnknown known) (vault, count) = (vault, count) := by
  refine foldlRecOn (motive := (· = (vault, count))) names _ rfl ?_
  rintro _ rfl name member
  rw [removeUnknown]
  split
  · rfl
  next unknown => exact if_neg (fun isDir => unknown (quiet name member isDir))

theorem unlinkOrphans_spec (expected found : List String) (vault) (count : Nat) :
    ∃ files total, found.foldl (unlinkOrphan expected) (vault, count) = ({ vault with files := files }, total) ∧
      ∀ path, files.lookup path =
        if path ∈ found ∧ path ∉ expected then none else vault.files.lookup path := by
  induction found generalizing vault count with
  | nil =>
    refine ⟨vault.files, count, rfl, ?_⟩
    intro path
    rw [if_neg (fun both => not_mem_nil both.1)]
  | cons file rest ih =>
    rw [foldl_cons]
    -- Whichever branch is taken, the file is gone unless it is expected.
    have first : ∃ files total, unlinkOrphan expected (vault, count) file =
        ({ vault with files := files }, total) ∧ ∀ path, files.lookup path =
            if path = file ∧ file ∉ expected then none else vault.files.lookup path := by
      unfold unlinkOrphan
      split
      next listed =>
        refine ⟨vault.files, count, rfl, ?_⟩
        intro path
        rw [if_neg (fun both => both.2 listed)]
      next orphan =>
        split
        · refine ⟨vault.files.erase file, count + 1, rfl, ?_⟩
          intro path
          rw [lookup_erase_eq]
          simp [orphan]
        next absent =>
          refine ⟨vault.files, count, rfl, ?_⟩
          intro path
          split
          next both =>
            rw [both.1]
            exact AList.lookup_eq_none.mpr absent
          · rfl
    rcases first with ⟨middle, total, stepped, lookups⟩
    rcases ih { vault with files := middle } total with ⟨files, all, done, rest⟩
    refine ⟨files, all, by rw [stepped, done], ?_⟩
    intro path
    rw [rest path]
    split
    next both => rw [if_pos ⟨mem_cons_of_mem file both.1, both.2⟩]
    next neither =>
      rw [lookups path]
      by_cases same : path = file
      · subst same
        simp
      · simp only [mem_cons, same, false_or, false_and, if_false]
        rw [if_neg neither]

theorem unlinkOrphans_quiet {expected found : List String} (quiet : ∀ file ∈ found, file ∈ expected)
    (vault) (count : Nat) : found.foldl (unlinkOrphan expected) (vault, count) = (vault, count) := by
  refine foldlRecOn (motive := (· = (vault, count))) found _ rfl ?_
  rintro _ rfl file member
  exact if_pos (quiet file member)

theorem mem_rowsForOwner {row} :
    (hash, row) ∈ rowsForOwner db owner ↔ db.servedMedia.lookup (owner, hash) = some row := by
  rw [rowsForOwner, mem_map_fst]
  simp

def Missing (vault : Vault) (path : String) : Prop := path ∉ vault.files ∧ path ∉ vault.dirs

theorem dropPhantoms_spec (owner : Bytes32) (rows : List (String × ServedMedia)) (vault : Vault) (count : Nat) :
    ∃ db total, rows.foldl (dropPhantom owner) (vault, count) = ({ vault with db := db }, total) ∧
      db.pairedOwners = vault.db.pairedOwners ∧
      (∀ key, db.servedMedia.lookup key = none ∨ db.servedMedia.lookup key = vault.db.servedMedia.lookup key) ∧
      (∀ hash row, (hash, row) ∈ rows -> Missing vault row.path -> db.servedMedia.lookup (owner, hash) = none) ∧
      ∀ key, (key.1 = owner -> ∀ row, (key.2, row) ∈ rows -> ¬ Missing vault row.path) ->
        db.servedMedia.lookup key = vault.db.servedMedia.lookup key := by
  induction rows generalizing vault count with
  | nil =>
    exact ⟨vault.db, count, rfl, rfl, fun key => Or.inr rfl, nofun, fun key _ => rfl⟩
  | cons entry rest ih =>
    rw [foldl_cons, dropPhantom]
    by_cases present : entry.2.path ∈ vault.files ∨ entry.2.path ∈ vault.dirs
    · rw [if_pos present]
      rcases ih vault count with ⟨db, total, done, owners, fewer, gone, kept⟩
      refine ⟨db, total, done, owners, fewer, ?_, ?_⟩
      · intro hash row member missing
        rcases mem_cons.mp member with same | later
        · rw [← same] at present
          rcases present with file | dir
          · exact (missing.1 file).elim
          · exact (missing.2 dir).elim
        · exact gone hash row later missing
      · intro key stored
        exact kept key (fun mine row member => stored mine row (mem_cons_of_mem entry member))
    · rw [if_neg present]
      rcases ih { vault with db := (Media.delete vault.db owner entry.1).1 }
        (count + 1) with ⟨db, total, done, owners, fewer, gone, kept⟩
      have deleted := fun key => World.lookup_mediaDelete vault.db owner entry.1 key
      refine ⟨db, total, done, owners.trans (mediaDelete_frame vault.db owner entry.1).owners, ?_, ?_, ?_⟩
      · intro key
        rcases fewer key with none | same
        · exact .inl none
        · rw [same, deleted key]
          split
          · exact .inl rfl
          · exact .inr rfl
      · intro hash row member missing
        rcases mem_cons.mp member with same | later
        · rcases fewer (owner, hash) with none | unchanged
          · exact none
          · rw [unchanged, deleted, ← same, if_pos rfl]
        · exact gone hash row later missing
      · intro key stored
        rw [kept key (fun mine row member => stored mine row (mem_cons_of_mem entry member)), deleted key, if_neg]
        rintro rfl
        apply stored rfl entry.2 mem_cons_self
        exact ⟨fun file => present (.inl file), fun dir => present (.inr dir)⟩

theorem dropPhantoms_quiet {rows : List (String × ServedMedia)}
    (quiet : ∀ entry ∈ rows, entry.2.path ∈ vault.files) (count : Nat) :
    rows.foldl (dropPhantom owner) (vault, count) = (vault, count) := by
  refine foldlRecOn (motive := (· = (vault, count))) rows _ rfl ?_
  rintro _ rfl entry member
  exact if_pos (.inl (quiet entry member))

theorem mem_expected : path ∈ (rowsForOwner db owner).map (fun row => row.2.path) ↔
      ∃ hash row, db.servedMedia.lookup (owner, hash) = some row ∧ row.path = path := by
  rw [mem_map]
  constructor
  · rintro ⟨⟨hash, row⟩, member, same⟩
    exact ⟨hash, row, mem_rowsForOwner.mp member, same⟩
  · rintro ⟨hash, row, found, same⟩
    exact ⟨(hash, row), mem_rowsForOwner.mpr found, same⟩

theorem Shaped.blob (shaped : Shaped vault) {key : Bytes32 × String} {row}
    (found : vault.db.servedMedia.lookup key = some row) : BlobPath key.1 row.path := by
  have filed := shaped.filed key row found
  exact ⟨key.2, filed.1, .inl filed.2⟩

theorem Shaped.sweepOwner (shaped : Shaped vault) (listing : Listing) (stats : GcStats) (owner : Bytes32) :
    ∃ after total, Vault.sweepOwner listing (vault, stats) owner = some (after, total) ∧
      Shaped after ∧ Repairs vault after ∧ after.dirs = vault.dirs ∧ Clean after owner := by
  rcases shaped.walkFiles listing owner with ⟨found, walked, collected⟩
  rcases unlinkOrphans_spec ((rowsForOwner vault.db owner).map (fun row => row.2.path)) found vault
    stats.orphanFilesRemoved with ⟨files, orphans, unlinked, lookups⟩
  rcases dropPhantoms_spec owner (rowsForOwner vault.db owner) { vault with files := files }
    stats.phantomRowsRemoved with ⟨db, phantoms, dropped, owners, fewer, gone, kept⟩
  have result : Vault.sweepOwner listing (vault, stats) owner = some (⟨db, files, vault.dirs⟩,
        { stats with orphanFilesRemoved := orphans, phantomRowsRemoved := phantoms }) := by
    rw [Vault.sweepOwner]
    simp [walked, unlinked, dropped]
  -- A file that has a row is expected by the Owner it lies with.
  have spared : ∀ key row, vault.db.servedMedia.lookup key = some row ->
      files.lookup row.path = vault.files.lookup row.path := by
    intro key row held
    rw [lookups, if_neg]
    rintro ⟨member, orphan⟩
    have mine : key.1 = owner := owner_of_below (shaped.blob held).below ((collected row.path).mp member).2
    apply orphan
    apply mem_expected.mpr
    refine ⟨key.2, row, ?_, rfl⟩
    rw [← mine]
    exact held
  have repairs : Repairs vault ⟨db, files, vault.dirs⟩ := by
    constructor
    · exact owners
    · intro path
      rw [lookups path]
      split
      · exact .inl rfl
      · exact .inr rfl
    · exact fewer
    · intro key row content held stored
      have file : files.lookup row.path = some content := (spared key row held).trans stored
      refine ⟨(kept key ?_).trans held, file⟩
      intro mine other member missing
      have same := mem_rowsForOwner.mp member
      rw [← mine] at same
      rw [Option.some.inj (same.symm.trans held)] at missing
      exact missing.1 (mem_iff_lookup.mpr ⟨content, file⟩)
  refine ⟨_, _, result, shaped.of_repairs repairs (fun path dir => dir) (fun path _ inside => inside),
    repairs, rfl, ?_, ?_⟩
  · intro path file inside
    rcases mem_iff_lookup.mp file with ⟨content, stored⟩
    have earlier := repairs.file file
    have expected : path ∈ (rowsForOwner vault.db owner).map (fun row => row.2.path) := by
      by_contra orphan
      have taken := lookups path
      rw [if_pos ⟨(collected path).mpr ⟨earlier, inside⟩, orphan⟩] at taken
      rw [taken] at stored
      cases stored
    rcases mem_expected.mp expected with ⟨hash, row, held, rfl⟩
    have before := (spared _ row held).symm.trans stored
    exact ⟨hash, row, (repairs.kept _ row content held before).1, rfl⟩
  · intro hash row held
    have earlier := repairs.row held
    by_contra absent
    have missing : Missing { vault with files := files } row.path := by
      refine ⟨absent, ?_⟩
      intro dir
      rcases shaped.dirs row.path dir with ⟨_, blobDir⟩
      exact (shaped.blob earlier).not_dir blobDir
    have lost := gone hash row (mem_rowsForOwner.mpr earlier) missing
    rw [lost] at held
    cases held

theorem Shaped.sweepOwner_quiet (shaped : Shaped vault) (listing : Listing) (stats : GcStats)
    (clean : Clean vault owner) : Vault.sweepOwner listing (vault, stats) owner = some (vault, stats) := by
  rcases shaped.walkFiles listing owner with ⟨found, walked, collected⟩
  have expected : ∀ file ∈ found, file ∈ (rowsForOwner vault.db owner).map (fun row => row.2.path) := by
    intro file member
    rcases (collected file).mp member with ⟨present, inside⟩
    exact mem_expected.mpr (clean.listed file present inside)
  have stored : ∀ entry ∈ rowsForOwner vault.db owner, entry.2.path ∈ vault.files :=
    fun entry member => clean.stored entry.1 entry.2 (mem_rowsForOwner.mp member)
  rw [Vault.sweepOwner]
  simp [walked, unlinkOrphans_quiet expected, dropPhantoms_quiet stored]

theorem Shaped.sweepOwners (shaped : Shaped vault) (listing : Listing) (owners : List Bytes32) (stats : GcStats) :
    ∃ after total, owners.foldlM (Vault.sweepOwner listing) (vault, stats) = some (after, total) ∧
      Shaped after ∧ Repairs vault after ∧ after.dirs = vault.dirs ∧
      ∀ owner ∈ owners, Clean after owner := by
  induction owners generalizing vault stats with
  | nil =>
    exact ⟨vault, stats, rfl, shaped, Repairs.refl vault, rfl, nofun⟩
  | cons owner rest ih =>
    rcases shaped.sweepOwner listing stats owner with
      ⟨_, counted, swept, shapedMiddle, first, sameDirs, clean⟩
    rcases ih shapedMiddle counted with
      ⟨after, total, done, shapedAfter, second, laterDirs, others⟩
    refine ⟨after, total, ?_, shapedAfter, first.trans second, laterDirs.trans sameDirs, ?_⟩
    · rw [foldlM_cons, swept]
      exact done
    · exact forall_mem_cons.mpr ⟨clean.of_repairs second, others⟩

theorem Shaped.sweepOwners_quiet (shaped : Shaped vault) (listing : Listing) {owners : List Bytes32}
    (clean : ∀ owner ∈ owners, Clean vault owner) (stats : GcStats) :
    owners.foldlM (Vault.sweepOwner listing) (vault, stats) = some (vault, stats) := by
  induction owners with
  | nil => rfl
  | cons owner rest ih =>
    rw [foldlM_cons, shaped.sweepOwner_quiet listing stats (clean owner mem_cons_self)]
    exact ih (fun other member => clean other (mem_cons_of_mem owner member))

structure Repaired (before after : Vault) : Prop where
  owners : after.db.pairedOwners = before.db.pairedOwners
  stored : ∀ path, path ∈ after.files ↔ ∃ key row, after.db.servedMedia.lookup key = some row ∧
    row.path = path
  unpaired : ∀ owner, owner ∉ after.db.pairedOwners -> ownerDir owner ∉ after.dirs ∧
    ∀ path, path ∈ after.files ∨ path ∈ after.dirs -> below (ownerDir owner) path = false
  rowsKept : ∀ key row, before.db.servedMedia.lookup key = some row ->
    row.path ∈ before.files -> after.db.servedMedia.lookup key = some row
  filesKept : ∀ key row content, before.db.servedMedia.lookup key = some row ->
    before.files.lookup row.path = some content -> after.files.lookup row.path = some content

theorem Shaped.sweep (shaped : Shaped vault) (listing : Listing) :
    ∃ after stats, vault.sweep listing = some (after, stats) ∧ Shaped after ∧
      Repaired vault after ∧ ∀ again, after.sweep again = some (after, ⟨0, 0, 0⟩) := by
  have top : ∀ name ∈ vault.readDirOrEmpty listing "", parentOf name = "" :=
    fun name member => (mem_readDirOrEmpty.mp member).2.2
  rcases shaped.removeUnknown _ top 0 with
    ⟨_, removed, firstLeg, shapedMiddle, first, _, fewer, gone⟩
  rcases shapedMiddle.sweepOwners listing (ownersList vault.db) ⟨removed, 0, 0⟩ with
    ⟨after, stats, otherLegs, shapedAfter, second, sameDirs, clean⟩
  have repairs := first.trans second
  have paired : ∀ owner, ownerDir owner ∈ after.dirs -> owner ∈ after.db.pairedOwners := by
    intro owner present
    rw [sameDirs] at present
    by_contra absent
    rw [repairs.owners] at absent
    apply gone owner _ absent present
    exact mem_readDirOrEmpty.mpr ⟨.inl rfl, .inr (fewer _ present), parentOf_ownerDir owner⟩
  have cleaned : ∀ owner ∈ after.db.pairedOwners, Clean after owner := by
    intro owner member
    rw [repairs.owners] at member
    exact clean owner (mem_ownersList.mpr member)
  refine ⟨after, stats, ?_, shapedAfter, ⟨repairs.owners, ?_, ?_, ?_, ?_⟩, ?_⟩
  · rw [Vault.sweep]
    simp only [firstLeg]
    exact otherLegs
  · intro path
    constructor
    · intro file
      rcases shapedAfter.files path file with ⟨owner, blob⟩
      rcases shapedAfter.chain file blob with ⟨_, _, _, _, _, dir⟩
      rcases (cleaned owner (paired owner dir)).listed path file blob.below with
        ⟨hash, row, found, same⟩
      exact ⟨(owner, hash), row, found, same⟩
    · rintro ⟨⟨owner, hash⟩, row, found, rfl⟩
      have member := after.db.mediaOwned (owner, hash) (mem_iff_lookup.mpr ⟨row, found⟩)
      exact (cleaned owner member).stored hash row found
  · intro owner absent
    refine ⟨fun present => absent (paired owner present), ?_⟩
    intro path present
    rcases shapedAfter.ownerDir_mem present with ⟨_, dir, inside⟩
    apply Bool.eq_false_iff.mpr
    intro foreign
    rw [inside.owner_of_below foreign] at dir
    exact absent (paired owner dir)
  · intro key row found file
    rcases mem_iff_lookup.mp file with ⟨content, stored⟩
    exact (repairs.kept key row content found stored).1
  · intro key row content found stored
    exact (repairs.kept key row content found stored).2
  · intro again
    have quiet : ∀ name ∈ after.readDirOrEmpty again "", name ∈ after.dirs ->
        name ∈ (ownersList after.db).map ownerDir := by
      intro name member dir
      rcases shapedAfter.top dir (mem_readDirOrEmpty.mp member).2.2 with ⟨owner, rfl⟩
      exact mem_map.mpr ⟨owner, mem_ownersList.mpr (paired owner dir), rfl⟩
    rw [Vault.sweep]
    simp only [removeUnknown_quiet quiet]
    exact shapedAfter.sweepOwners_quiet again (fun owner member => cleaned owner (mem_ownersList.mp member))
      ⟨0, 0, 0⟩

end Vault

end Starling
