import Starling.Http.Media

namespace Starling.Http

open List

/-!
# The directories of the media tree

Blobs lie three directories deep: `<hex(pubkey)>/<hex[0:2]>/<hex[0:4]>/<hash>`, with a
temporary file beside the final one.  Paths are relative to the media directory, whose
own path is empty.
-/

/-- `Path::parent`: the path without its last component. -/
def parentOf (path : String) : String :=
  String.ofList ((path.toList.reverse.dropWhile (fun char => char ≠ '/')).drop 1).reverse

def below (dir path : String) : Bool := (dir ++ "/").toList.isPrefixOf path.toList

def Plain (name : String) : Prop := '/' ∉ name.toList

variable {dir path name hash : String} {left right owner : Bytes32}

theorem below_iff : below dir path = true ↔ ∃ rest, path = dir ++ "/" ++ rest := by
  rw [below, isPrefixOf_iff_prefix]
  constructor
  · rintro ⟨rest, same⟩
    refine ⟨String.ofList rest, ?_⟩
    apply String.toList_inj.mp
    rw [String.toList_append, String.toList_ofList]
    exact same.symm
  · rintro ⟨rest, rfl⟩
    exact ⟨rest.toList, (String.toList_append (s := dir ++ "/") (t := rest)).symm⟩

theorem below_trans {first second} (upper : below first second = true)
    (lower : below second path = true) : below first path = true := by
  rcases below_iff.mp upper with ⟨middle, rfl⟩
  rcases below_iff.mp lower with ⟨rest, rfl⟩
  apply below_iff.mpr
  refine ⟨middle ++ "/" ++ rest, ?_⟩
  simp [String.append_assoc]

theorem below_child (dir name) : below dir (dir ++ "/" ++ name) = true := below_iff.mpr ⟨name, rfl⟩

theorem below_ne_empty (inside : below dir path = true) : path ≠ "" := by
  rcases below_iff.mp inside with ⟨_, rfl⟩
  intro empty
  have lengths := congrArg (fun path => path.toList.length) empty
  simp at lengths

theorem dropWhile_plain (plain : Plain name) (rest) :
    (name.toList.reverse ++ rest).dropWhile (fun char => char ≠ '/') = rest.dropWhile (fun char => char ≠ '/') := by
  apply dropWhile_append_of_pos
  intro char member
  apply decide_eq_true
  rintro rfl
  exact plain (mem_reverse.mp member)

theorem parentOf_child (dir) (plain : Plain name) : parentOf (dir ++ "/" ++ name) = dir := by
  have reversed : (dir ++ "/" ++ name).toList.reverse = name.toList.reverse ++ '/' :: dir.toList.reverse := by
    simp [reverse_append, reverse_cons]
  rw [parentOf, reversed, dropWhile_plain plain]
  simp

theorem parentOf_plain (plain : Plain name) : parentOf name = "" := by
  have dropped := dropWhile_plain plain []
  rw [append_nil] at dropped
  rw [parentOf, dropped]
  rfl

theorem below_parentOf (inside : parentOf path ≠ "") : below (parentOf path) path = true := by
  cases cut : path.toList.reverse.dropWhile (fun char => char ≠ '/') with
  | nil =>
    apply (inside _).elim
    rw [parentOf, cut]
    rfl
  | cons slash rest =>
    have whole := takeWhile_append_dropWhile (p := fun char => decide (char ≠ '/')) (l := path.toList.reverse)
    have isSlash : slash = '/' := by
      have stopped := List.head?_dropWhile_not (fun char => char ≠ '/') path.toList.reverse
      rw [cut] at stopped
      simpa using stopped
    rw [cut, isSlash] at whole
    apply below_iff.mpr
    refine ⟨String.ofList (path.toList.reverse.takeWhile (fun char => char ≠ '/')).reverse, ?_⟩
    apply String.toList_inj.mp
    have parent : (parentOf path).toList = rest.reverse := by
      rw [parentOf, cut, String.toList_ofList]
      rfl
    rw [String.toList_append, String.toList_append, parent]
    have unreversed := congrArg List.reverse whole
    rw [reverse_reverse, reverse_append, reverse_cons] at unreversed
    exact unreversed.symm.trans (congrArg (fun name => rest.reverse ++ ['/'] ++ name) String.toList_ofList.symm)

theorem length_parentOf (filled : path ≠ "") : (parentOf path).toList.length < path.toList.length := by
  have positive : 0 < path.toList.length := by
    apply length_pos_iff.mpr
    intro empty
    exact filled (String.toList_inj.mp empty)
  have shorter : (path.toList.reverse.dropWhile (fun char => char ≠ '/')).length ≤
      path.toList.length := by
    have reversed : path.toList.reverse.length = path.toList.length := length_reverse
    rw [← reversed]
    exact (dropWhile_suffix _).length_le
  rw [parentOf, String.toList_ofList, length_reverse, length_drop]
  omega

/-! ## The directories of an Owner -/

section

variable (owner : Bytes32)

def ownerDir : String := hexEncode owner.val

section

variable (hash : String)

def firstDir : String := ownerDir owner ++ "/" ++ String.ofList (hash.toList.take 2)

def secondDir : String := firstDir owner hash ++ "/" ++ String.ofList (hash.toList.take 4)

/-- What `create_dir_all` makes for a blob, from the top down. -/
def shardDirs : List String := [ownerDir owner, firstDir owner hash, secondDir owner hash]

theorem ownerShardPath_eq : ownerShardPath owner hash = secondDir owner hash ++ "/" ++ hash := by
  simp [ownerShardPath, shardPath, secondDir, firstDir, ownerDir, String.append_assoc]

theorem tmpPath_eq : tmpPath (ownerShardPath owner hash) = secondDir owner hash ++ "/" ++ (hash ++ ".tmp") := by
  rw [tmpPath, ownerShardPath_eq, String.append_assoc]

end

section

variable (valid : isValidHash hash = true)
include valid

theorem plain_of_valid : Plain hash := by
  rw [isValidHash, Bool.and_eq_true] at valid
  intro slash
  have digit := all_eq_true.mp valid.2 '/' slash
  exact absurd digit (by decide)

theorem plain_take (count) : Plain (String.ofList (hash.toList.take count)) := by
  intro slash
  rw [String.toList_ofList] at slash
  exact plain_of_valid valid (mem_of_mem_take slash)

theorem plain_tmp : Plain (hash ++ ".tmp") := by
  intro slash
  rw [String.toList_append, mem_append] at slash
  rcases slash with inHash | inExtension
  · exact plain_of_valid valid inHash
  · exact absurd inExtension (by decide)

end

theorem plain_ownerDir : Plain (ownerDir owner) := by
  have digit : ∀ value : Fin 16, Nat.digitChar value ≠ '/' := by decide
  intro slash
  rw [ownerDir, hexEncode, String.toList_ofList, mem_flatMap] at slash
  rcases slash with ⟨byte, _, member⟩
  have bound := byte.toNat_lt
  rw [hexDigits, mem_cons, mem_singleton] at member
  rcases member with high | low
  · exact digit ⟨byte.toNat / 16, by omega⟩ high.symm
  · exact digit ⟨byte.toNat % 16, by omega⟩ low.symm

theorem length_ownerDir : (ownerDir owner).toList.length = 64 := by
  rw [ownerDir, hexEncode, String.toList_ofList, hexDigits_length, owner.property]

theorem ownerDir_injective (same : ownerDir left = ownerDir right) : left = right := by
  have lists := congrArg String.toList same
  rw [ownerDir, ownerDir, hexEncode, hexEncode, String.toList_ofList, String.toList_ofList] at lists
  exact Subtype.ext (hexDigits_injective lists)

theorem ownerDir_ne_empty : ownerDir owner ≠ "" := by
  intro empty
  have length := length_ownerDir owner
  rw [empty] at length
  cases length

end

theorem owner_of_below (inLeft : below (ownerDir left) path = true)
    (inRight : below (ownerDir right) path = true) : left = right := by
  rcases below_iff.mp inLeft with ⟨_, fromLeft⟩
  rcases below_iff.mp inRight with ⟨_, fromRight⟩
  have lists := congrArg String.toList (fromLeft.symm.trans fromRight)
  simp only [String.append_assoc, String.toList_append] at lists
  have lengths := (length_ownerDir left).trans (length_ownerDir right).symm
  exact ownerDir_injective (String.toList_inj.mp (append_inj lists lengths).1)

section Shards

variable (owner : Bytes32) {hash : String} (valid : isValidHash hash = true)
include valid

theorem parentOf_ownerShardPath : parentOf (ownerShardPath owner hash) = secondDir owner hash := by
  rw [ownerShardPath_eq, parentOf_child _ (plain_of_valid valid)]

theorem parentOf_tmpPath : parentOf (tmpPath (ownerShardPath owner hash)) = secondDir owner hash := by
  rw [tmpPath_eq, parentOf_child _ (plain_tmp valid)]

theorem parentOf_secondDir : parentOf (secondDir owner hash) = firstDir owner hash :=
  parentOf_child _ (plain_take valid 4)

theorem parentOf_firstDir : parentOf (firstDir owner hash) = ownerDir owner := parentOf_child _ (plain_take valid 2)

end Shards

section

variable (owner : Bytes32) (hash : String)

theorem parentOf_ownerDir : parentOf (ownerDir owner) = "" := parentOf_plain (plain_ownerDir owner)

theorem below_firstDir : below (ownerDir owner) (firstDir owner hash) = true := below_child _ _

theorem below_secondDir : below (ownerDir owner) (secondDir owner hash) = true :=
  below_trans (below_firstDir owner hash) (below_child _ _)

theorem below_ownerShardPath : below (ownerDir owner) (ownerShardPath owner hash) = true := by
  rw [ownerShardPath_eq]
  exact below_trans (below_secondDir owner hash) (below_child _ _)

def OwnedDir (dir : String) : Prop := dir = ownerDir owner ∨ below (ownerDir owner) dir = true

end

theorem OwnedDir.owner_of_below (inside : OwnedDir left dir) (foreign : below (ownerDir right) dir = true) :
    left = right := by
  rcases inside with rfl | deeper
  · rcases below_iff.mp foreign with ⟨_, same⟩
    -- A directory at the top is a single component.
    apply (plain_ownerDir left _).elim
    rw [same]
    simp
  · exact Http.owner_of_below deeper foreign

theorem OwnedDir.child (inside : OwnedDir owner (parentOf path)) : below (ownerDir owner) path = true := by
  have filled : parentOf path ≠ "" := by
    rcases inside with same | deeper
    · rw [same]
      exact ownerDir_ne_empty owner
    · exact below_ne_empty deeper
  have last := below_parentOf filled
  rcases inside with same | deeper
  · rw [same] at last
    exact last
  · exact below_trans deeper last

/-! ## What may lie in the media directory -/

def BlobPath (owner : Bytes32) (path : String) : Prop :=
  ∃ hash, isValidHash hash = true ∧
    (path = ownerShardPath owner hash ∨ path = tmpPath (ownerShardPath owner hash))

def BlobDir (owner : Bytes32) (dir : String) : Prop :=
  ∃ hash, isValidHash hash = true ∧ dir ∈ shardDirs owner hash

theorem BlobPath.parent (blob : BlobPath owner path) :
    ∃ hash, isValidHash hash = true ∧ parentOf path = secondDir owner hash := by
  rcases blob with ⟨hash, valid, rfl | rfl⟩
  · exact ⟨hash, valid, parentOf_ownerShardPath owner valid⟩
  · exact ⟨hash, valid, parentOf_tmpPath owner valid⟩

theorem BlobPath.below (blob : BlobPath owner path) : below (ownerDir owner) path = true := by
  rcases blob with ⟨hash, _, rfl | rfl⟩
  · exact below_ownerShardPath owner hash
  · rw [tmpPath_eq]
    exact below_trans (below_secondDir owner hash) (below_child _ _)

theorem BlobDir.cases (blob : BlobDir owner dir) :
    dir = ownerDir owner ∨ parentOf dir ≠ "" ∧ below (ownerDir owner) dir = true := by
  rcases blob with ⟨hash, valid, member⟩
  rw [shardDirs, mem_cons, mem_cons, mem_singleton] at member
  rcases member with rfl | rfl | rfl
  · exact .inl rfl
  · refine Or.inr ⟨?_, below_firstDir owner hash⟩
    rw [parentOf_firstDir owner valid]
    exact ownerDir_ne_empty owner
  · refine Or.inr ⟨?_, below_secondDir owner hash⟩
    rw [parentOf_secondDir owner valid]
    exact below_ne_empty (below_firstDir owner hash)

theorem length_blobPath (blob : BlobPath owner path) : 137 ≤ path.toList.length := by
  rcases blob with ⟨_, valid, rfl | rfl⟩
  · rw [ownerShardPath_length valid]
  · rw [tmpPath, String.toList_append, length_append, ownerShardPath_length valid]
    exact Nat.le_add_right _ _

theorem length_blobDir (blob : BlobDir owner dir) : 0 < dir.toList.length ∧ dir.toList.length ≤ 72 := by
  rcases blob with ⟨hash, _, member⟩
  have owned := length_ownerDir owner
  have first : (hash.toList.take 2).length ≤ 2 := length_take_le 2 _
  have second : (hash.toList.take 4).length ≤ 4 := length_take_le 4 _
  rw [shardDirs, mem_cons, mem_cons, mem_singleton] at member
  rcases member with rfl | rfl | rfl
  · omega
  · simp only [firstDir, String.toList_append, length_append, String.toList_ofList, owned,
      String.reduceToList, length_cons, length_nil]
    omega
  · simp only [secondDir, firstDir, String.toList_append, length_append, String.toList_ofList,
      owned, String.reduceToList, length_cons, length_nil]
    omega

theorem BlobPath.not_dir {fileOwner dirOwner} (file : BlobPath fileOwner path) : ¬ BlobDir dirOwner path := by
  intro dir
  have long := length_blobPath file
  have short := length_blobDir dir
  omega

end Starling.Http
