import Starling.Foundation.Run
import Starling.Foundation.Shelf
import Starling.Http.Media

namespace Starling.Http

/-!
# Rows and files of the media store

The media table is a catalogue of the files in the media directory.  Each piece of
work of a handler is one or two steps of a `Shelf`, provided that no push renames its
file into place while a committed delete has that path still to unlink.  Along runs
that meet this condition every row has its file.
-/

open Storage List Option Table AList Jobs Shelf.Step Media

/-- The file that a push has put in place and not yet recorded. -/
def Job.claims : Job -> Set String
  | .push stored .renamed => {stored.path}
  | _ => ∅

/-- The files that a committed delete has still to unlink. -/
def Job.condemns : Job -> Set String
  | .unlink paths _ _ => {path | path ∈ paths}
  | _ => ∅

def Filed (db : Database) : Prop :=
  ∀ key row, db.servedMedia.lookup key = some row -> isValidHash key.2 = true ∧
    row.path = ownerShardPath key.1 key.2

theorem filed_upsert {db after : Database} {push : Push} {media : ServedMedia} (filed : Filed db)
    (path : media.path = push.path) (stored : Media.upsert db push.owner push.hash media = some after) :
    Filed after := by
  rw [Filed, Media.upsert_eq_some stored]
  exact Table.of_lookup_insert filed ⟨push.valid, path⟩

namespace World

def shelf (world : World) : Shelf String where
  listed := {path | ∃ key row, world.db.servedMedia.lookup key = some row ∧ row.path = path}
  placed := {path | path ∈ world.files}
  claimed := world.jobs.gather Job.claims
  condemned := world.jobs.gather Job.condemns

structure Orderly (world : World) : Prop where
  filed : Filed world.db
  locked : ∀ id push phase, world.jobs.get id = some (.push push phase) -> phase.locked = true ->
    world.writer = some id

/-- A change that keeps the order and amounts to steps of the shelf. -/
def Works (before after : World) : Prop := after.Orderly ∧ Relation.ReflTransGen Shelf.Step before.shelf after.shelf

section Frames

variable {before after : World} {id : Nat} {old job : Job}

section

variable (orderly : before.Orderly)
include orderly

theorem Orderly.of_finish (filed : Filed after.db) (jobs : after.jobs = before.jobs.finish id)
    (writer : after.writer = before.writer ∨ before.writer = some id) : after.Orderly := by
  refine ⟨filed, ?_⟩
  intro other push phase found held
  rw [jobs] at found
  have ⟨running, apart⟩ := of_get_finish found
  have holder := orderly.locked other push phase running held
  rcases writer with same | mine
  · rw [same]
    exact holder
  · rw [mine, some.injEq] at holder
    exact (apart holder.symm).elim

theorem Orderly.of_update (filed : Filed after.db) (found : before.jobs.get id = some old)
    (jobs : after.jobs = before.jobs.update id job)
    (writer : before.writer = none ∨ after.writer = before.writer)
    (holds : ∀ push phase, job = .push push phase -> phase.locked = true -> after.writer = some id) :
    after.Orderly := by
  refine ⟨filed, ?_⟩
  intro other push phase atOther held
  rw [jobs, get_update found] at atOther
  by_cases same : other = id
  · rw [if_pos same, some.injEq] at atOther
    rw [same]
    exact holds push phase atOther held
  · rw [if_neg same] at atOther
    have holder := orderly.locked other push phase atOther held
    rcases writer with free | kept
    · rw [free] at holder
      cases holder
    · rw [kept]
      exact holder

theorem works_finish (rows : after.db = before.db) (found : before.jobs.get id = some job)
    (jobs : after.jobs = before.jobs.finish id) (noClaim : job.claims = ∅) (noneDue : job.condemns = ∅)
    (writer : after.writer = before.writer ∨ before.writer = some id)
    (kept : before.shelf.listed ∪ before.shelf.claimed ⊆ after.shelf.placed) : Works before after := by
  refine ⟨orderly.of_finish (rows ▸ orderly.filed) jobs writer, ?_⟩
  have same : after.shelf = { before.shelf with placed := after.shelf.placed } := by
    simp [shelf, rows, jobs, gather_finish found noClaim, gather_finish found noneDue]
  rw [same]
  exact .single (.tidy _ kept)

theorem works_update (rows : after.db = before.db) (found : before.jobs.get id = some old)
    (jobs : after.jobs = before.jobs.update id job) (sameClaim : job.claims = old.claims)
    (sameDue : job.condemns = old.condemns) (writer : before.writer = none ∨ after.writer = before.writer)
    (holds : ∀ push phase, job = .push push phase -> phase.locked = true -> after.writer = some id)
    (kept : before.shelf.listed ∪ before.shelf.claimed ⊆ after.shelf.placed) : Works before after := by
  refine ⟨orderly.of_update (rows ▸ orderly.filed) found jobs writer holds, ?_⟩
  have same : after.shelf = { before.shelf with placed := after.shelf.placed } := by
    simp [shelf, rows, jobs, gather_update_same found sameClaim, gather_update_same found sameDue]
  rw [same]
  exact .single (.tidy _ kept)

end

end Frames

section Work

variable {world : World} {id : Nat} {push : Push}

theorem Works.refl (orderly : world.Orderly) : Works world world := ⟨orderly, .refl⟩

theorem Job.claims_of_ne {phase} (early : phase ≠ .renamed) : (Job.push push phase).claims = ∅ := by
  cases phase with
  | renamed => exact (early rfl).elim
  | _ => rfl

section

variable (orderly : world.Orderly)
include orderly

theorem Orderly.path_of_mem {path} (member : path ∈ world.shelf.listed ∪ world.shelf.claimed) :
    ∃ owner hash, isValidHash hash = true ∧ path = ownerShardPath owner hash := by
  rcases member with ⟨key, row, found, rfl⟩ | ⟨_, job, _, claimed⟩
  · have filed := orderly.filed key row found
    exact ⟨key.1, key.2, filed.1, filed.2⟩
  · cases job with
    | push stored phase =>
      by_cases renamed : phase = .renamed
      · subst renamed
        exact ⟨stored.owner, stored.hash, stored.valid, claimed⟩
      · rw [Job.claims_of_ne renamed] at claimed
        exact False.elim claimed
    | delete | unlink => exact False.elim claimed

theorem Orderly.ne_tmp {path} (member : path ∈ world.shelf.listed ∪ world.shelf.claimed) :
    path ≠ tmpPath push.path := by
  rcases orderly.path_of_mem member with ⟨_, _, valid, rfl⟩
  exact (tmpPath_ne push.valid valid).symm

theorem works_fail (sound : world.shelf.Sound) {phase}
    (found : world.jobs.get id = some (.push push phase)) (early : phase ≠ .renamed)
    (held : phase.locked = true) (answer) : Works world (world.close id answer).unlock :=
  works_finish orderly rfl found rfl (Job.claims_of_ne early) rfl
    (.inr (orderly.locked id push phase found held)) sound.placed

theorem works_close (sound : world.shelf.Sound) {job} (found : world.jobs.get id = some job)
    (noClaim : job.claims = ∅) (noneDue : job.condemns = ∅) (answer) : Works world (world.close id answer) :=
  works_finish orderly rfl found rfl noClaim noneDue (.inl rfl) sound.placed

end

theorem works_queued (site) (orderly : world.Orderly) (sound : world.shelf.Sound)
    (found : world.jobs.get id = some (.push push .queued)) (now fault) :
    Works world (world.advancePush site id now fault push .queued) := by
  have answered := works_close orderly sound found rfl rfl
  rw [advancePush]
  split
  · exact answered _
  · split
    · exact Works.refl orderly
    next free =>
      split
      · exact answered _
      · split
        · refine works_update orderly ?_ found rfl ?_ ?_ ?_ ?_ ?_
          · rfl
          · rfl
          · rfl
          · exact .inl (not_isSome_iff_eq_none.mp free)
          · intro _ _ _ _
            rfl
          · exact sound.placed
        · exact answered _
        · exact answered _

theorem works_checked (site) (orderly : world.Orderly) (sound : world.shelf.Sound)
    (found : world.jobs.get id = some (.push push .checked)) (now fault) :
    Works world (world.advancePush site id now fault push .checked) := by
  have holder := orderly.locked id push .checked found rfl
  have kept : ∀ content, world.shelf.listed ∪ world.shelf.claimed ⊆
      {path | path ∈ world.files.insert (tmpPath push.path) content} :=
    fun content path member => (mem_insert _).mpr (.inr (sound.placed member))
  cases fault with
  | fine =>
    refine works_update orderly ?_ found rfl ?_ ?_ ?_ ?_ ?_
    · rfl
    · rfl
    · rfl
    · exact .inr rfl
    · intro _ _ _ _
      exact holder
    · exact kept _
  | failed => exact works_fail orderly sound found (by decide) rfl _
  | torn =>
    refine works_finish orderly ?_ found rfl ?_ ?_ ?_ ?_
    · rfl
    · rfl
    · rfl
    · exact .inr holder
    · exact kept _

theorem works_written (site) (orderly : world.Orderly) (sound : world.shelf.Sound)
    (found : world.jobs.get id = some (.push push .written)) (now fault)
    (clear : push.path ∉ world.shelf.condemned) :
    Works world (world.advancePush site id now fault push .written) := by
  have holder := orderly.locked id push .written found rfl
  rw [advancePush]
  split
  · exact works_fail orderly sound found (by decide) rfl _
  · cases content : world.files.lookup (tmpPath push.path) with
    | none => exact works_fail orderly sound found (by decide) rfl _
    | some =>
      refine ⟨orderly.of_update orderly.filed found rfl (.inr rfl) (fun _ _ _ _ => holder), ?_⟩
      let tidied : Shelf String :=
        { world.shelf with placed := {path | path ∈ world.files.erase (tmpPath push.path)} }
      have cleared : Shelf.Step world.shelf tidied := by
        apply tidy
        intro path member
        exact mem_erase.mpr ⟨orderly.ne_tmp member, sound.placed member⟩
      have placed : Shelf.Step tidied _ := place push.path clear
      refine (Relation.ReflTransGen.single cleared).tail ?_
      convert placed using 1
      simp only [shelf, setJob, withFiles, tidied, Shelf.mk.injEq, true_and]
      refine ⟨?_, ?_, ?_⟩
      · ext path
        exact mem_insert _
      · rw [gather_update found, gather_finish found rfl]
        rfl
      · exact gather_update_same found rfl

theorem listed_upsert {before after : Database} (filed : Filed before) {media}
    (rows : after.servedMedia = before.servedMedia.insert (push.owner, push.hash) media)
    (path : media.path = push.path) (name : String) :
    (∃ key row, after.servedMedia.lookup key = some row ∧ row.path = name) ↔
      name = push.path ∨ ∃ key row, before.servedMedia.lookup key = some row ∧ row.path = name := by
  rw [rows]
  constructor
  · rintro ⟨key, row, atKey, rfl⟩
    rw [lookup_insert_eq] at atKey
    split at atKey
    · cases atKey
      exact .inl path
    · exact .inr ⟨key, row, atKey, rfl⟩
  · rintro (same | ⟨key, row, atKey, atPath⟩)
    · exact ⟨(push.owner, push.hash), media, lookup_insert _, path.trans same.symm⟩
    · by_cases same : key = (push.owner, push.hash)
      · -- The old row of this key was filed under the same path.
        refine ⟨key, media, ?_, ?_⟩
        · rw [lookup_insert_eq, if_pos same]
        · rw [path, ← atPath, (filed key row atKey).2, same]
          rfl
      · refine ⟨key, row, ?_, atPath⟩
        rw [lookup_insert_ne same]
        exact atKey

variable {db : Database}

theorem works_commit (orderly : world.Orderly) (found : world.jobs.get id = some (.push push .renamed))
    {media : ServedMedia} (path : media.path = push.path)
    (stored : upsert world.db push.owner push.hash media = some db) (answer : Answer) :
    Works world ((world.withRows db).close id answer).unlock := by
  have rows := upsert_eq_some stored
  have filed := filed_upsert orderly.filed path stored
  refine ⟨orderly.of_finish filed rfl (.inr (orderly.locked id push .renamed found rfl)), ?_⟩
  have claimed : push.path ∈ world.shelf.claimed := ⟨id, _, found, rfl⟩
  have listed : Shelf.Step world.shelf _ := list push.path claimed
    ((world.jobs.finish id).gather Job.claims) (gather_finish_subset _ _)
  refine .single ?_
  convert listed using 1
  simp only [shelf, unlock, close, withRows, Shelf.mk.injEq, true_and]
  refine ⟨?_, gather_finish found rfl⟩
  ext name
  exact listed_upsert orderly.filed rows path name

theorem works_renamed (site) (orderly : world.Orderly)
    (found : world.jobs.get id = some (.push push .renamed)) (now fault) :
    Works world (world.advancePush site id now fault push .renamed) := by
  have failed : Works world (world.close id internalError).unlock := by
    refine ⟨orderly.of_finish orderly.filed rfl (.inr (orderly.locked id push .renamed found rfl)), .single ?_⟩
    have abandoned : Shelf.Step world.shelf _ := abandon
      ((world.jobs.finish id).gather Job.claims) (gather_finish_subset _ _)
    convert abandoned using 1
    simp only [shelf, unlock, close, Shelf.mk.injEq, true_and]
    exact gather_finish found rfl
  rw [advancePush]
  split
  · exact failed
  · split
    · exact failed
    next stored => exact works_commit orderly found rfl stored _

theorem lookup_mediaDelete (db owner hash key) : (delete db owner hash).1.servedMedia.lookup key =
      if key = (owner, hash) then none else db.servedMedia.lookup key := by
  unfold delete
  cases found : get db owner hash with
  | some => exact lookup_erase_eq _ _ _
  | none =>
    by_cases same : key = (owner, hash)
    · rw [if_pos same, same]
      exact found
    · rw [if_neg same]

theorem lookup_deleteRows (owner hashes db key) : (deleteRows owner hashes db).1.servedMedia.lookup key =
      if key.1 = owner ∧ key.2 ∈ hashes then none else db.servedMedia.lookup key := by
  induction hashes generalizing db with
  | nil => rw [deleteRows, if_neg (fun named => not_mem_nil named.2)]
  | cons hash rest ih =>
    rw [deleteRows, ih, lookup_mediaDelete]
    by_cases later : key.1 = owner ∧ key.2 ∈ rest
    · rw [if_pos later, if_pos ⟨later.1, mem_cons_of_mem _ later.2⟩]
    · rw [if_neg later]
      by_cases first : key = (owner, hash)
      · rw [if_pos first, if_pos]
        rw [first]
        exact ⟨rfl, mem_cons_self⟩
      · rw [if_neg first, if_neg]
        rintro ⟨sameOwner, named⟩
        rcases mem_cons.mp named with sameHash | inRest
        · exact first (Prod.ext sameOwner sameHash)
        · exact later ⟨sameOwner, inRest⟩

theorem mem_deleteRows (owner hashes db path) : path ∈ (deleteRows owner hashes db).2 ↔
      ∃ hash row, hash ∈ hashes ∧ db.servedMedia.lookup (owner, hash) = some row ∧ row.path = path := by
  induction hashes generalizing db with
  | nil =>
    constructor
    · exact nofun
    · rintro ⟨_, _, named, _⟩
      cases named
  | cons hash rest ih =>
    have removed : (delete db owner hash).2 = get db owner hash := by
      unfold delete
      cases get db owner hash <;> rfl
    rw [deleteRows, mem_append, ih, removed, mem_toList, map_eq_some_iff]
    constructor
    · rintro (⟨row, found, atPath⟩ | ⟨other, row, named, found, atPath⟩)
      · exact ⟨hash, row, mem_cons_self, found, atPath⟩
      · rw [lookup_mediaDelete] at found
        split at found
        · cases found
        · exact ⟨other, row, mem_cons_of_mem _ named, found, atPath⟩
    · rintro ⟨other, row, named, found, atPath⟩
      by_cases same : other = hash
      · subst same
        exact .inl ⟨row, found, atPath⟩
      · refine Or.inr ⟨other, row, mem_of_ne_of_mem same named, ?_, atPath⟩
        rw [lookup_mediaDelete, if_neg (fun equal => same (Prod.mk.inj equal).2)]
        exact found

theorem filed_deleteRows (filed : Filed db) (owner hashes) : Filed (deleteRows owner hashes db).1 := by
  intro key row atKey
  rw [lookup_deleteRows] at atKey
  split at atKey
  · cases atKey
  · exact filed key row atKey

theorem listed_deleteRows (filed : Filed db) (owner hashes path) :
    (∃ key row, (deleteRows owner hashes db).1.servedMedia.lookup key = some row ∧ row.path = path) ↔
      (∃ key row, db.servedMedia.lookup key = some row ∧ row.path = path) ∧
        path ∉ (deleteRows owner hashes db).2 := by
  constructor
  · rintro ⟨key, row, atKey, rfl⟩
    rw [lookup_deleteRows] at atKey
    split at atKey
    · cases atKey
    next kept =>
      refine ⟨⟨key, row, atKey, rfl⟩, ?_⟩
      intro struck
      rcases (mem_deleteRows owner hashes db row.path).mp struck with
        ⟨hash, other, named, atOther, samePath⟩
      have mine := filed key row atKey
      have theirs := filed (owner, hash) other atOther
      rw [mine.2, theirs.2] at samePath
      have same := ownerShardPath_injective theirs.1 mine.1 samePath
      exact kept ⟨same.1.symm, same.2 ▸ named⟩
  · rintro ⟨⟨key, row, atKey, rfl⟩, kept⟩
    refine ⟨key, row, ?_, rfl⟩
    rw [lookup_deleteRows, if_neg]
    · exact atKey
    · rintro ⟨rfl, named⟩
      exact kept ((mem_deleteRows _ hashes db row.path).mpr ⟨key.2, row, named, atKey, rfl⟩)

theorem Orderly.claimed_of_unlocked (orderly : world.Orderly) (unlocked : world.writer = none) :
    world.shelf.claimed = ∅ := by
  apply Set.eq_empty_of_forall_notMem
  rintro _ ⟨other, job, atOther, claimed⟩
  cases job with
  | push stored phase =>
    cases phase with
    | renamed =>
      have holder := orderly.locked other stored .renamed atOther rfl
      rw [unlocked] at holder
      cases holder
    | _ => exact claimed
  | _ => exact claimed

theorem works_delete (orderly : world.Orderly) (sound : world.shelf.Sound) {owner hashes}
    (found : world.jobs.get id = some (.delete owner hashes)) (fault) :
    Works world (world.advanceDelete id fault owner hashes) := by
  unfold advanceDelete
  split
  · exact works_close orderly sound found rfl rfl _
  · split
    · exact Works.refl orderly
    next free =>
      have unlocked := not_isSome_iff_eq_none.mp free
      have filed := filed_deleteRows orderly.filed owner hashes
      refine ⟨orderly.of_update filed found rfl (.inl unlocked) (fun _ _ never => by
        cases never), .single ?_⟩
      have known : {path | path ∈ (deleteRows owner hashes world.db).2} ⊆ world.shelf.listed := by
        intro path member
        rcases (mem_deleteRows owner hashes world.db path).mp member with
          ⟨hash, row, _, atKey, atPath⟩
        exact ⟨(owner, hash), row, atKey, atPath⟩
      have condemned : Shelf.Step world.shelf _ := condemn _ known (orderly.claimed_of_unlocked unlocked)
      convert condemned using 1
      simp only [shelf, setJob, withRows, Shelf.mk.injEq, true_and]
      refine ⟨?_, ?_, ?_⟩
      · ext path
        exact listed_deleteRows orderly.filed owner hashes path
      · exact gather_update_same found rfl
      · rw [gather_update found, gather_finish found rfl, Set.union_comm]
        rfl

theorem works_unlink (orderly : world.Orderly) (sound : world.shelf.Sound) {paths deleted missing}
    (found : world.jobs.get id = some (.unlink paths deleted missing)) (fault) :
    Works world (world.advanceUnlink id fault deleted missing paths) := by
  cases paths with
  | nil =>
    have noneDue : (Job.unlink [] deleted missing).condemns = ∅ :=
      Set.eq_empty_of_forall_notMem (fun _ member => not_mem_nil member)
    exact works_close orderly sound found rfl noneDue _
  | cons path rest =>
    refine ⟨orderly.of_update orderly.filed found rfl (.inr rfl) (fun _ _ never => by
      cases never), .single ?_⟩
    let left := (world.jobs.update id (.unlink rest deleted missing)).gather Job.condemns
    have fewer : left ⊆ world.shelf.condemned := by
      intro name member
      rcases (gather_update found).subset member with later | other
      · exact ⟨id, _, found, mem_cons_of_mem _ later⟩
      · exact gather_finish_subset _ _ other
    have claims : (world.jobs.update id (.unlink rest deleted missing)).gather Job.claims =
        world.jobs.gather Job.claims := gather_update_same found rfl
    rw [advanceUnlink]
    split
    · have due : path ∈ world.shelf.condemned := ⟨id, _, found, mem_cons_self⟩
      have removed : Shelf.Step world.shelf _ := remove path due left fewer
      convert removed using 1
      simp only [shelf, setJob, withFiles, Shelf.mk.injEq, true_and]
      refine ⟨?_, claims, rfl⟩
      ext name
      rw [Set.mem_sdiff, and_comm]
      exact mem_erase
    · have spared : Shelf.Step world.shelf _ := spare left fewer
      convert spared using 1
      simp only [shelf, setJob, withFiles, Shelf.mk.injEq, true_and]
      exact ⟨claims, rfl⟩

theorem works_refuse (orderly : world.Orderly) (answer) : Works world (world.refuse answer) :=
  ⟨⟨orderly.filed, orderly.locked⟩, .refl⟩

theorem works_start (orderly : world.Orderly) {job}
    (queued : ∀ push phase, job = .push push phase -> phase = .queued) (noClaim : job.claims = ∅)
    (noneDue : job.condemns = ∅) : Works world { world with jobs := world.jobs.start job } := by
  constructor
  · refine ⟨orderly.filed, ?_⟩
    intro other push phase atOther held
    rw [get_start] at atOther
    split at atOther
    · rw [some.injEq] at atOther
      rw [queued push phase atOther] at held
      cases held
    · exact orderly.locked other push phase atOther held
  · simp only [shelf, gather_start noClaim, gather_start noneDue]
    exact .refl

theorem works_receivePush (site) (orderly : world.Orderly) (now owner hash headers body) :
    Works world (world.receivePush site now owner hash headers body) := by
  unfold receivePush
  split
  · split
    · exact works_refuse orderly _
    · refine works_start orderly ?_ rfl rfl
      rintro _ _ same
      cases same
      rfl
  · exact works_refuse orderly _

theorem works_receiveDelete (site) (orderly : world.Orderly) (now owner headers body) :
    Works world (world.receiveDelete site now owner headers body) := by
  unfold receiveDelete
  split
  · exact works_refuse orderly _
  · split
    · exact works_refuse orderly _
    · split
      · refine works_start orderly ?_ rfl rfl
        exact nofun
      · exact works_refuse orderly _

end Work

/-- No push renames its file into place while a committed delete has the path still
to unlink. -/
def Clear (world : World) (input : MediaInput) : Prop :=
  ∀ id now fault push, input = .advance id now fault -> world.jobs.get id = some (.push push .written) ->
      ∀ other paths deleted missing, world.jobs.get other = some (.unlink paths deleted missing) ->
        push.path ∉ paths

variable {world : World}

theorem Clear.notMem {id now fault push} (clear : world.Clear (.advance id now fault))
    (found : world.jobs.get id = some (.push push .written)) : push.path ∉ world.shelf.condemned := by
  rintro ⟨other, job, atOther, condemned⟩
  cases job with
  | unlink paths deleted missing =>
    exact clear id now fault push rfl found other paths deleted missing atOther condemned
  | _ => exact condemned

theorem works_step (site) {next input} (orderly : world.Orderly) (sound : world.shelf.Sound)
    (clear : world.Clear input) (stepped : world.step site input = .ok next) : Works world next := by
  cases input with cases stepped
  | push now owner hash headers body => exact works_receivePush site orderly now owner hash headers body
  | delete now owner headers body => exact works_receiveDelete site orderly now owner headers body
  | advance id now fault =>
    unfold advance
    cases found : world.jobs.get id with
    | none => exact Works.refl orderly
    | some job =>
      cases job with
      | push _ phase =>
        cases phase with
        | queued => exact works_queued site orderly sound found now fault
        | checked => exact works_checked site orderly sound found now fault
        | written => exact works_written site orderly sound found now fault (clear.notMem found)
        | renamed => exact works_renamed site orderly found now fault
      | delete => exact works_delete orderly sound found fault
      | unlink => exact works_unlink orderly sound found fault

structure Stocked (world : World) : Prop where
  idle : world.jobs.Idle
  filed : Filed world.db
  present : ∀ key row, world.db.servedMedia.lookup key = some row -> row.path ∈ world.files

theorem Stocked.orderly (stocked : world.Stocked) : world.Orderly := by
  refine ⟨stocked.filed, ?_⟩
  intro id push phase found
  rw [stocked.idle id] at found
  cases found

theorem Stocked.sound (stocked : world.Stocked) : world.shelf.Sound := by
  have nothing : ∀ (hold : Job -> Set String) name, name ∉ world.jobs.gather hold := by
    rintro _ _ ⟨id, _, found, _⟩
    rw [stocked.idle id] at found
    cases found
  constructor
  · rintro name (⟨key, row, found, rfl⟩ | claimed)
    · exact stocked.present key row found
    · exact (nothing _ name claimed).elim
  · intro name _ condemned
    exact nothing _ name condemned

/-- From a store at rest, along every run in which no push renames its file into place
while a committed delete has that path still to unlink, every row has its file and is
served. -/
theorem every_row_is_served (site : Site) {start final : World} {inputs : List MediaInput}
    (stocked : start.Stocked) (along : Along (step site) Clear start inputs)
    (reached : run (step site) start inputs = .ok final) {owner : Bytes32} {hash : String}
    {row : ServedMedia} (found : Media.get final.db owner hash = some row) :
    ∃ content, final.files.lookup row.path = some content ∧
      final.getHandler owner hash = .blob content.length content := by
  have preserved : ∀ (world : World) (input : MediaInput) (next : World),
      world.Orderly ∧ world.shelf.Sound -> world.Clear input ->
        world.step site input = .ok next -> next.Orderly ∧ next.shelf.Sound := by
    rintro _ _ _ ⟨orderly, sound⟩ clear stepped
    have works := works_step site orderly sound clear stepped
    exact ⟨works.1, Shelf.sound_of_steps works.2 sound⟩
  have kept := run_invariant preserved ⟨stocked.orderly, stocked.sound⟩ along reached
  have placed : row.path ∈ final.files := kept.2.placed (.inl ⟨(owner, hash), row, found, rfl⟩)
  rcases mem_iff_lookup.mp placed with ⟨content, atPath⟩
  refine ⟨content, atPath, ?_⟩
  have valid := (kept.1.filed (owner, hash) row found).1
  simp [getHandler, valid, found, atPath]

/-! ### Two orders of a push and a delete -/

/-- A test for `Clear`. -/
def clearCheck (world : World) : MediaInput -> Bool
  | .advance id _ _ =>
    match world.jobs.get id with
    | some (.push push .written) =>
      world.jobs.running.entries.all (fun entry =>
        match entry.2 with
        | .unlink paths _ _ => decide (push.path ∉ paths)
        | _ => true)
    | _ => true
  | _ => true

theorem clear_of_check (world : World) (input : MediaInput)
    (checked : world.clearCheck input = true) : world.Clear input := by
  rintro _ _ _ _ rfl found other _ _ _ atOther
  simp only [clearCheck, found, List.all_eq_true] at checked
  exact of_decide_eq_true (checked ⟨other, _⟩ (Table.lookup_eq_some_iff.mp atOther))

def blobHash : String := String.ofList (List.replicate 64 'a')

/-- A relay without caps whose requests are all signed and whose deletes name one blob. -/
def openSite : Site where
  K := ⟨lengthDigest, fun _ _ _ => true⟩
  parseDelete := fun _ => some [blobHash]
  perOwnerDefault := 0
  diskCap := 0

def emptyStore : World where
  db := (Owners.insert Database.empty phoneKey ⟨none, 0, "phone.onion", 17000, none⟩).getD Database.empty
  files := ∅
  writer := none
  jobs := Jobs.empty
  answers := []

abbrev storeAfter (inputs : List MediaInput) : World := finalState (step openSite) emptyStore inputs

theorem emptyStore_stocked : emptyStore.Stocked where
  idle := fun _ => rfl
  filed := nofun
  present := nofun

def pushBlob : MediaInput := .push 0 phoneKey blobHash capturedHeaders [1, 2, 3]

def deleteBlob : MediaInput := .delete 0 phoneKey capturedHeaders []

def proceed (id count : Nat) : List MediaInput := List.replicate count (.advance id 0 .fine)

/-- The delete unlinks its file before the second push begins. -/
def deleteThenPush : List MediaInput := pushBlob :: proceed 0 4 ++ deleteBlob :: proceed 1 3 ++ pushBlob :: proceed 2 4

theorem every_row_is_served_after_delete :
    ∃ content, (storeAfter deleteThenPush).files.lookup
        (ownerShardPath phoneKey blobHash) = some content ∧
      (storeAfter deleteThenPush).getHandler phoneKey blobHash = .blob content.length content := by
  have along : Along (step openSite) Clear emptyStore deleteThenPush :=
    Along.of_check clear_of_check (by decide +kernel)
  have returns : (run (step openSite) emptyStore deleteThenPush).toBool = true := by decide +kernel
  have found : get (storeAfter deleteThenPush).db phoneKey blobHash =
      some ⟨3, 0, ownerShardPath phoneKey blobHash⟩ := by decide +kernel
  have served := every_row_is_served openSite emptyStore_stocked along (run_finalState returns) found
  exact served

/-- The second push runs between the delete's commit and its unlink. -/
def pushBeforeUnlink : List MediaInput :=
  pushBlob :: proceed 0 4 ++ deleteBlob :: proceed 1 1 ++ pushBlob :: proceed 2 4 ++ proceed 1 2

/-- Both pushes are accepted and nothing is in progress, yet the row of the second one
points at nothing and the blob is not found. -/
theorem accepted_push_is_unlinked : emptyStore.Stocked ∧ run (step openSite) emptyStore pushBeforeUnlink =
        .ok (storeAfter pushBeforeUnlink) ∧
      (storeAfter pushBeforeUnlink).jobs.running.entries = [] ∧
      (storeAfter pushBeforeUnlink).answers =
        [(0, .text 202 ""), (2, .text 202 ""), (1, .receipt 1 0)] ∧
      Media.get (storeAfter pushBeforeUnlink).db phoneKey blobHash =
        some ⟨3, 0, ownerShardPath phoneKey blobHash⟩ ∧
      (storeAfter pushBeforeUnlink).files.lookup (ownerShardPath phoneKey blobHash) = none ∧
      (storeAfter pushBeforeUnlink).getHandler phoneKey blobHash = .text 404 "not found" := by
  refine ⟨emptyStore_stocked, run_finalState ?_, ?_, ?_⟩
  · decide +kernel
  · decide +kernel
  -- One evaluation of the run serves all that is said about its end.
  · decide +kernel

end World

end Starling.Http
