import Starling.App.MessageKeys

namespace Starling.App

/-!
# Published media stays decryptable

A media file has the hash of the photo as its name and the message key of an event as its
key.  `Gallery` is the author's device with the copies that followers and relays keep.  A copy
is never fetched again, so it has to be right the first time.
-/

structure Gallery where
  author : Author
  copies : Table (Pubkey × String) Sealing

/-- `fetch` asks the author's device, or a relay of the author; in `fetchOther` the author of
another event serves a file of this name. -/
inductive GalleryInput where
  | publish (input : AuthorInput)
  | fetch (reader : Pubkey) (relay : Option Pubkey) (hash : String)
  | fetchOther (reader : Pubkey) (hash : String) (file : Sealing)
  | evict (reader : Pubkey) (hash : String)

section Keys

variable {MessageKey : Type} [DecidableEq MessageKey] (deriveMsgKey : FeedKey -> Nat -> MessageKey)

/-- `_tryDecryptWithAny`: the first chain root whose message key opens the file. -/
def tryDecryptWithAny (chainRoots : List FeedKey) (msgSeq : Nat) (file : Sealing) : Option FeedKey :=
  chainRoots.find? (fun root => deriveMsgKey root msgSeq = deriveMsgKey file.feedKey file.msgSeq)

def Opens (sealing : Sealing) (file : Option Sealing) : Prop :=
  ∃ found, file = some found ∧ ∀ chainRoots, sealing.feedKey ∈ chainRoots ->
    (tryDecryptWithAny deriveMsgKey chainRoots sealing.msgSeq found).isSome = true

theorem opens_own (sealing) : Opens deriveMsgKey sealing (some sealing) := by
  refine ⟨sealing, rfl, ?_⟩
  intro chainRoots member
  rw [tryDecryptWithAny, List.find?_isSome]
  exact ⟨sealing.feedKey, member, by simp⟩

end Keys

namespace Gallery

open Author (exampleIdentity exampleKey postSteps)

variable {gallery next : Gallery} {reader : Pubkey} {hash : String}

def boot (identity : Identity) (events : Table String EventRow) : Gallery := ⟨Author.boot identity events, ∅⟩

section

variable (gallery : Gallery)

/-- `GET /media/{hash}` at the author's device or at a relay. -/
def serve (hash : String) : Option Pubkey -> Option Sealing
  | none => gallery.author.blobs.lookup hash
  | some relay => gallery.copies.lookup (relay, hash)

/-- `RemoteMediaFetcher.fetch`: a file on disk is not fetched again. -/
def fetch (reader : Pubkey) (hash : String) (served : Option Sealing) : Gallery :=
  match gallery.copies.lookup (reader, hash), served with
  | none, some file => { gallery with copies := gallery.copies.insert (reader, hash) file }
  | _, _ => gallery

def step (gallery : Gallery) : GalleryInput -> Except Empty Gallery
  | .publish input => do
    let author <- gallery.author.step input
    .ok { gallery with author }
  | .fetch reader relay hash => .ok (gallery.fetch reader hash (gallery.serve hash relay))
  | .fetchOther reader hash file => .ok (gallery.fetch reader hash (some file))
  | .evict reader hash => .ok { gallery with copies := gallery.copies.erase (reader, hash) }

def readerFile (reader : Pubkey) (hash : String) : Option Sealing :=
  (gallery.fetch reader hash (gallery.serve hash none)).copies.lookup (reader, hash)

def uncopied (hash : String) : Bool := gallery.copies.entries.all (fun entry => entry.1.2 != hash)

/-- The author's counter is kept, no photo is stored under a name that somebody has a copy of,
and nobody fetches a file of a name of the author's from another author. -/
def keepsFiles : GalleryInput -> Bool
  | .publish input =>
    gallery.author.drawsFresh input && gallery.author.keepsCounter input &&
      match input with
      | .storeCompressed _ hash => gallery.uncopied hash
      | .storeOriginal _ hash => gallery.uncopied hash
      | _ => true
  | .fetchOther _ hash _ => (gallery.author.blobs.lookup hash).isNone
  | _ => true

def Current : Prop :=
  ∀ reader hash copy file, gallery.copies.lookup (reader, hash) = some copy ->
    gallery.author.blobs.lookup hash = some file -> copy = file

end

theorem Current.store (current : Current gallery) {author file} (fresh : gallery.uncopied hash = true)
    (blobs : author.blobs = gallery.author.blobs.insert hash file) : Current { gallery with author } := by
  intro reader target copy found copied stored
  rw [blobs, Table.lookup_insert_eq] at stored
  split at stored
  next same =>
    have other := List.all_eq_true.mp fresh _ (Table.lookup_eq_some_iff.mp copied)
    simp [same] at other
  · exact current reader target copy found copied stored

theorem Current.move (current : Current gallery) {author input} (allowed : gallery.keepsFiles (.publish input) = true)
    (moved : AuthorMove gallery.author input author) : Current { gallery with author } := by
  have fresh := (Bool.and_eq_true_iff.mp allowed).2
  cases moved with
  | compressed | original => exact current.store fresh rfl
  | _ => exact current

def Kept (gallery : Gallery) : Prop := (∃ stored top, Author.Ledger gallery.author stored top) ∧ Current gallery

namespace Kept

theorem fetch (kept : Kept gallery) {served}
    (right : ∀ copy file, served = some copy -> gallery.author.blobs.lookup hash = some file -> copy = file) :
    Kept (gallery.fetch reader hash served) := by
  unfold Gallery.fetch
  split
  · refine ⟨kept.1, ?_⟩
    intro other target copy file copied stored
    rw [Table.lookup_insert_eq] at copied
    split at copied
    next same =>
      cases same
      exact right copy file copied stored
    · exact kept.2 other target copy file copied stored
  · exact kept

theorem step {input} (kept : Kept gallery) (allowed : gallery.keepsFiles input = true)
    (stepped : gallery.step input = .ok next) : Kept next := by
  cases input with
  | publish input =>
    rcases kept with ⟨⟨_, _, ledger⟩, current⟩
    cases result : gallery.author.step input with
    | error stop => cases stop
    | ok =>
      rw [Gallery.step, result] at stepped
      cases stepped
      have moved := Author.step_move ledger.guarded result
      have careful := Bool.and_eq_true_iff.mp (Bool.and_eq_true_iff.mp allowed).1
      exact ⟨ledger.move careful.2 careful.1 moved, current.move allowed moved⟩
  | fetch _ relay hash =>
    cases stepped
    apply kept.fetch
    intro copy file served found
    cases relay with
    | none => exact Option.some.inj (served.symm.trans found)
    | some relay => exact kept.2 relay hash copy file served found
  | fetchOther =>
    cases stepped
    apply kept.fetch
    intro copy own _ found
    simp [keepsFiles, found] at allowed
  | evict =>
    cases stepped
    refine ⟨kept.1, ?_⟩
    intro other target copy file copied found
    exact kept.2 other target copy file (Table.of_lookup_erase copied) found

theorem readerFile (kept : Kept gallery) {file} (stored : gallery.author.blobs.lookup hash = some file)
    (reader) : gallery.readerFile reader hash = some file := by
  unfold Gallery.readerFile Gallery.fetch serve
  rw [stored]
  cases copied : gallery.copies.lookup (reader, hash) with
  | none => exact AList.lookup_insert _
  | some copy => rw [← kept.2 reader hash copy file copied stored]; exact copied

end Kept

/-- If no photo is stored under a name that an own event refers to or that somebody has a copy
of, then the files of every own event open under the key of the event, on the device and for
every reader. -/
theorem media_stays_decryptable {MessageKey : Type} [DecidableEq MessageKey]
    (deriveMsgKey : FeedKey -> Nat -> MessageKey) (identity : Identity) (events : Table String EventRow)
    (legacy : ∀ id event, events.lookup id = some event -> event.encryptedPayload = none)
    {inputs : List GalleryInput} {final : Gallery}
    (keeps : Along step (fun gallery input => gallery.keepsFiles input = true)
      (boot identity events) inputs) (reached : run step (boot identity events) inputs = .ok final) :
    ∀ id event payload hash, final.author.events.lookup id = some event ->
      event.encryptedPayload = some payload -> hash ∈ event.media ->
      Opens deriveMsgKey payload.sealing (final.author.blobs.lookup hash) ∧
      ∀ reader, Opens deriveMsgKey payload.sealing (final.readerFile reader hash) := by
  have initial : Kept (boot identity events) :=
    ⟨⟨identity, identity.msgSeqCounter, Author.Ledger.boot identity events legacy⟩, nofun⟩
  have kept := run_invariant (fun _ _ _ => Kept.step) initial keeps reached
  rcases kept.1 with ⟨stored, _, ledger⟩
  intro id event payload hash found wire member
  have file := ledger.files.stored id event payload hash found wire member
  constructor
  · rw [file]
    exact opens_own deriveMsgKey payload.sealing
  · intro reader
    rw [kept.readerFile file reader]
    exact opens_own deriveMsgKey payload.sealing

def onePhoto : List GalleryInput :=
  (.publish .createPost :: postSteps 0 "post" "photo" 2).map .publish ++ [.fetch "READER" none "photo"]

theorem media_stays_decryptable_onePhoto :
    (((finalState step (boot exampleIdentity ∅) onePhoto).author.events.lookup "post").bind
        EventRow.encryptedPayload).map EncryptedEvent.sealing = some ⟨exampleKey 1, 0⟩ ∧
      Opens Sealing.mk ⟨exampleKey 1, 0⟩
        ((finalState step (boot exampleIdentity ∅) onePhoto).readerFile "READER" "photo") := by
  have checks : checkAlong step keepsFiles (boot exampleIdentity ∅) onePhoto = true ∧
      (run step (boot exampleIdentity ∅) onePhoto).toBool = true ∧
      (finalState step (boot exampleIdentity ∅) onePhoto).author.events.lookup "post" =
        some ⟨"post", "AUTHOR", 2, Publication.createPost.kind, none, ["photo"],
          some ⟨"AUTHOR", 2, 0, ⟨exampleKey 1, 0⟩⟩⟩ := by
    decide +kernel
  refine ⟨by rw [checks.2.2]; rfl, ?_⟩
  exact (media_stays_decryptable Sealing.mk exampleIdentity ∅ nofun
    (Along.checked checks.1) (run_finalState checks.2.1)
    "post" _ _ "photo" checks.2.2 rfl (List.mem_singleton_self _)).2 "READER"

def samePhoto : List GalleryInput :=
  onePhoto ++ (.crash :: .publish .createPost :: postSteps 1 "second" "photo" 5).map .publish

/-- The author's file is under the new number then, and the first post needs the old one; the
reader's copy is under the old number, and the second post needs the new one. -/
theorem photo_posted_twice : let final := finalState step (boot exampleIdentity ∅) samePhoto
    ["post", "second"].map (fun id => (final.author.events.lookup id).map (fun event =>
      (event.media, event.encryptedPayload.map EncryptedEvent.sealing))) =
      [some (["photo"], some ⟨exampleKey 1, 0⟩), some (["photo"], some ⟨exampleKey 1, 1⟩)] ∧
    final.author.blobs.lookup "photo" = some ⟨exampleKey 1, 1⟩ ∧
    final.readerFile "READER" "photo" = some ⟨exampleKey 1, 0⟩ ∧
    tryDecryptWithAny Sealing.mk [exampleKey 1] 0 ⟨exampleKey 1, 1⟩ = none ∧
    tryDecryptWithAny Sealing.mk [exampleKey 1] 1 ⟨exampleKey 1, 0⟩ = none := by
  decide +kernel

end Gallery

end Starling.App
