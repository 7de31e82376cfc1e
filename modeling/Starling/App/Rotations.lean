import Starling.App.Author

namespace Starling.App

open List Option AuthorTask

/-!
# Rotations are not undone

A call that writes the identity row back carries the feed key of the copy it started from.
So a key that a rotation has retired comes back if a copy from before the rotation is
written after it.  Two kinds of copies outlive a rotation.  The provider's copy is never
renewed, and `GET /events` does not take the publish lock.
-/

namespace Author

section

variable (author : Author)

def sameKey (identity : Identity) : Bool := author.row.any (fun stored => stored.feedKey = identity.feedKey)

theorem sameKey_stored {author : Author} {stored identity : Identity} (row : author.row = some stored)
    (same : author.sameKey identity = true) : identity.feedKey = stored.feedKey := by
  rw [sameKey, row, any_some, decide_eq_true_eq] at same
  exact same.symm

def settled : Bool := author.tasks.every (fun _ task => task.owes.isNone)

/-- A publish call that gets the lock looks up an identity with the stored feed key, a
`GET /events` that encrypts an event has a copy with the stored feed key, and a rotation
stores its new key while no `GET /events` has a counter to save. -/
def keepsKey : AuthorInput -> Bool
  | .acquire id =>
    match author.tasks.get id with
    | some (.publish what .waiting) => (author.lookupIdentity what).all author.sameKey
    | _ => true
  | .turn id =>
    match author.tasks.get id with
    | some (.encode identity (event :: _) _) =>
      author.ships identity event || author.sameKey identity
    | _ => true
  | .renew _ _ => author.settled
  | _ => true

def drawsFresh : AuthorInput -> Bool
  | .renew _ newKey => decide (newKey ∉ author.keys)
  | _ => true

end

def CopiesKeep (key : FeedKey) (tasks : Jobs AuthorTask) : Prop :=
  tasks.All (fun _ task => ∀ identity, task.copy = some identity -> identity.feedKey = key)

structure RowKept (author : Author) (stored : Identity) : Prop where
  row : author.row = some stored
  guarded : Guarded AuthorTask.inside author.lock author.tasks
  copies : CopiesKeep stored.feedKey author.tasks

inductive KeyChange (author : Author) (stored : Identity) (input : AuthorInput) (next : Author)
    (after : Identity) : Prop where
  | same (key : after.feedKey = stored.feedKey) (retired : next.retired = author.retired)
      (keys : next.keys = author.keys)
  | renewed (id : Nat) (renews : input = .renew id after.feedKey)
      (retired : next.retired = author.retired ++ [stored.feedKey])
      (keys : next.keys = author.keys ++ [after.feedKey])

namespace RowKept

variable {author next : Author} {stored : Identity} {input : AuthorInput}

variable {id : Nat} {old task : AuthorTask} {tasks : Jobs AuthorTask}

theorem update_copies {key} (copies : CopiesKeep key tasks) (found : tasks.get id = some old)
    (same : task.copy = old.copy ∨ task.copy = none) : CopiesKeep key (tasks.update id task) :=
  Jobs.All.update_view copies found same

theorem take_copies {key} (copies : CopiesKeep key tasks) (found : tasks.get id = some old)
    (agrees : ∀ identity, task.copy = some identity -> identity.feedKey = key) :
    CopiesKeep key (tasks.update id task) := Jobs.All.update copies found agrees

theorem save {lock identity} (same : identity.feedKey = stored.feedKey)
    (guarded : Guarded inside lock tasks) (copies : CopiesKeep stored.feedKey tasks) :
    RowKept ({ author with lock := lock, tasks := tasks }.saveIdentity identity) identity where
  row := rfl
  guarded := guarded
  copies := by rw [same]; exact copies

theorem renew_alone (kept : RowKept author stored) (found : author.tasks.get id = some task)
    (inside : task.inside = true) (settled : author.settled = true) {other : Nat} {job}
    (atOther : author.tasks.get other = some job) (apart : other ≠ id) : job.copy = none := by
  cases copied : job.copy with
  | none => rfl
  | some =>
    exfalso
    rcases inside_or_owes copied with alsoInside | owes
    · exact apart (kept.guarded.unique atOther found alsoInside inside)
    · have nothing := Jobs.every_iff.mp settled other job atOther
      exact owes (isNone_iff_eq_none.mp nothing)

theorem renew_copies (kept : RowKept author stored) (key : FeedKey) (found : author.tasks.get id = some old)
    (inside : old.inside = true) (settled : author.settled = true) (nothing : task.copy = none) :
    CopiesKeep key (author.tasks.update id task) := by
  refine Jobs.all_update found ?_ ?_
  · intro other job atOther apart copy copied
    rw [kept.renew_alone found inside settled atOther apart] at copied
    cases copied
  · intro copy copied
    rw [nothing] at copied
    cases copied

theorem move (kept : RowKept author stored) (allowed : author.keepsKey input = true)
    (moved : AuthorMove author input next) :
    ∃ after, RowKept next after ∧ KeyChange author stored input next after := by
  have guarded := guarded_move kept.guarded moved
  have keeps (row : next.row = author.row) (retired : next.retired = author.retired) (keys : next.keys = author.keys)
      (copies : CopiesKeep stored.feedKey next.tasks) :
      ∃ after, RowKept next after ∧ KeyChange author stored input next after :=
    ⟨stored, ⟨row.trans kept.row, guarded, copies⟩, .same rfl retired keys⟩
  cases moved with
  | stay => exact ⟨stored, kept, .same rfl rfl rfl⟩
  | take _ _ _ found _ looked =>
    refine keeps rfl rfl rfl ?_
    apply take_copies kept.copies found
    rintro _ ⟨⟩
    rw [keepsKey, found] at allowed
    dsimp only at allowed
    rw [looked] at allowed
    exact sameKey_stored kept.row allowed
  | read _ _ _ found _ row =>
    refine keeps rfl rfl rfl ?_
    apply take_copies kept.copies found
    rintro _ ⟨⟩
    rw [kept.row, some.injEq] at row
    rw [row]
  | quit _ id | answer id => exact keeps rfl rfl rfl (kept.copies.finish id)
  | compressed _ _ _ _ found | original _ _ _ _ _ found | ship _ _ _ _ _ found
  | retire _ _ _ _ found | distribute _ _ _ _ found =>
    exact keeps rfl rfl rfl (update_copies kept.copies found (.inl rfl))
  | saveEvent _ _ _ _ _ _ _ _ _ _ found ready =>
    refine keeps rfl rfl rfl ?_
    rcases ready with ⟨rfl, _⟩ | ⟨_, rfl, _⟩ <;> exact update_copies kept.copies found (.inl rfl)
  | bump id _ identity found =>
    have current := kept.copies id _ found identity rfl
    exact ⟨_, save current guarded (update_copies kept.copies found (.inr rfl)), .same current rfl rfl⟩
  | refuse => exact keeps rfl rfl rfl kept.copies
  | list _ _ _ _ found =>
    refine keeps rfl rfl rfl ?_
    apply update_copies kept.copies found
    exact .inr (if_pos rfl)
  | reseal _ _ _ _ _ found missing =>
    refine keeps rfl rfl rfl ?_
    apply take_copies kept.copies found
    intro copy copied
    rw [AuthorTask.copy] at copied
    split at copied
    · cases copied
    · cases copied
      rw [keepsKey, found] at allowed
      dsimp only at allowed
      rw [missing] at allowed
      exact sameKey_stored kept.row allowed
  | answerSaving id identity _ found moved =>
    have current := kept.copies id _ found identity (if_neg moved)
    exact ⟨_, save current guarded (kept.copies.finish id), .same current rfl rfl⟩
  | renew id newKey _ identity now found =>
    have current := kept.copies id _ found identity rfl
    refine ⟨(identity.renewed newKey now), ⟨rfl, guarded, ?_⟩, .renewed id rfl ?_ rfl⟩
    · exact kept.renew_copies newKey found rfl allowed rfl
    · rw [← current]
      rfl
  | receive => exact keeps rfl rfl rfl kept.copies
  | crash => exact keeps rfl rfl rfl author.tasks.idle_clear.all
  | _ =>
    refine keeps rfl rfl rfl ?_
    apply Jobs.All.start kept.copies
    rintro _ ⟨⟩

theorem boot (identity events) : RowKept (boot identity events) identity where
  row := rfl
  guarded := Guarded.empty inside
  copies := Jobs.Idle.all (fun _ => rfl)

end RowKept

structure KeyKept (author : Author) (stored : Identity) : Prop where
  row : author.row = some stored
  guarded : Guarded AuthorTask.inside author.lock author.tasks
  copies : CopiesKeep stored.feedKey author.tasks
  unretired : stored.feedKey ∉ author.retired
  known : stored.feedKey ∈ author.keys
  past : ∀ key ∈ author.retired, key ∈ author.keys

namespace KeyKept

variable {author next : Author} {stored : Identity} {input : AuthorInput}

theorem move (kept : KeyKept author stored) (allowed : author.keepsKey input = true)
    (fresh : author.drawsFresh input = true) (moved : AuthorMove author input next) :
    ∃ after, KeyKept next after := by
  have rowKept : RowKept author stored := ⟨kept.row, kept.guarded, kept.copies⟩
  rcases rowKept.move allowed moved with ⟨after, held, change⟩
  refine ⟨after, held.row, held.guarded, held.copies, ?_, ?_, ?_⟩
  · cases change with
    | same key retired =>
      rw [key, retired]
      exact kept.unretired
    | renewed _ renews retired =>
      rw [renews, drawsFresh, decide_eq_true_eq] at fresh
      rw [retired]
      intro member
      rcases mem_append.mp member with old | new
      · exact fresh (kept.past _ old)
      · exact fresh (mem_singleton.mp new ▸ kept.known)
  · cases change with
    | same key _ keys =>
      rw [key, keys]
      exact kept.known
    | renewed _ _ _ keys =>
      rw [keys]
      exact mem_append_right _ (mem_singleton_self _)
  · intro key member
    cases change with
    | same _ retired keys =>
      rw [keys]
      rw [retired] at member
      exact kept.past key member
    | renewed _ _ retired keys =>
      rw [keys]
      rw [retired] at member
      rcases mem_append.mp member with old | new
      · exact mem_append_left _ (kept.past key old)
      · exact mem_append_left _ (mem_singleton.mp new ▸ kept.known)

theorem boot (identity events) : KeyKept (boot identity events) identity where
  row := rfl
  guarded := Guarded.empty inside
  copies := Jobs.Idle.all (fun _ => rfl)
  unretired := not_mem_nil
  known := mem_singleton_self _
  past := nofun

end KeyKept

/-- However the calls interleave, the stored feed key is not one that a rotation has
retired, if every call that writes the row starts from a copy with the stored key. -/
theorem rotation_not_undone (identity : Identity) (events : Table String EventRow)
    {inputs : List AuthorInput} {final : Author} {current : Identity}
    (fresh : Along step (fun author input => author.drawsFresh input = true) (Author.boot identity events) inputs)
    (keeps : Along step (fun author input => author.keepsKey input = true) (Author.boot identity events) inputs)
    (reached : run step (Author.boot identity events) inputs = .ok final)
    (row : final.row = some current) : current.feedKey ∉ final.retired := by
  have preserved : ∀ author input next, (∃ stored, KeyKept author stored) ->
      (author.drawsFresh input = true ∧ author.keepsKey input = true) ->
      author.step input = .ok next -> ∃ stored, KeyKept next stored := by
    rintro _ _ _ ⟨_, kept⟩ ⟨drawn, allowed⟩ stepped
    exact kept.move allowed drawn (step_move kept.guarded stepped)
  rcases run_invariant preserved ⟨identity, KeyKept.boot identity events⟩ (fresh.and keeps) reached with
    ⟨_, kept⟩
  rw [kept.row, some.injEq] at row
  exact row ▸ kept.unretired

/-! ## Runs on a small device -/

def exampleKey (byte : UInt8) : FeedKey := List.replicate 32 byte

def exampleIdentity : Identity where
  pubkey := "AUTHOR"
  feedKey := exampleKey 1
  feedKeyEpoch := 0
  feedKeyValidFrom := 0
  msgSeqCounter := 0
  recoveryPhrase := none
  createdAt := 1

abbrev authorAfter (inputs : List AuthorInput) : Author := finalState step (boot exampleIdentity ∅) inputs

/-- An event of a friend that refers to the own event `post`. -/
def exampleComment : EventRow := ⟨"comment", "FRIEND", 3, 4, some "post", [], none⟩

/-- The steps of one call of `rotate`. -/
def rotateSteps (id : Nat) (now : Int) (newKey : FeedKey) : List AuthorInput :=
  [.acquire id, .retire id now true, .renew id newKey, .distribute id, .sweep id]

/-- The steps of one call of `createPost`. -/
def postSteps (id : Nat) (eventId photo : String) (createdAt : Int) : List AuthorInput :=
  [.acquire id, .storeCompressed id photo, .storeOriginal id (photo ++ "-original"),
    .saveEvent id eventId createdAt none, .bump id, .release id]

def orderlyDay : List AuthorInput :=
  (.publish .createPost :: postSteps 0 "post" "photo" 2) ++
    [.receive exampleComment, .get none, .list 1, .turn 1, .turn 1, .answer 1] ++
    (.rotate "REMOVED" :: rotateSteps 2 10 (exampleKey 2)) ++
    (.crash :: .publish .createPost :: postSteps 3 "second" "other" 12)

theorem rotation_not_undone_orderlyDay :
    (authorAfter orderlyDay).retired = [exampleKey 1] ∧
      ∀ current, (authorAfter orderlyDay).row = some current ->
        current.feedKey ∉ (authorAfter orderlyDay).retired := by
  have checks : checkAlong step (fun author input => author.drawsFresh input)
        (boot exampleIdentity ∅) orderlyDay = true ∧
      checkAlong step (fun author input => author.keepsKey input) (boot exampleIdentity ∅) orderlyDay = true ∧
      (run step (boot exampleIdentity ∅) orderlyDay).toBool = true := by
    decide +kernel
  refine ⟨by decide +kernel, fun current row => ?_⟩
  exact rotation_not_undone exampleIdentity ∅ (Along.checked checks.1)
    (Along.checked checks.2.1) (run_finalState checks.2.2) row

def postAfterRotation : List AuthorInput :=
  (.rotate "REMOVED" :: rotateSteps 0 10 (exampleKey 2)) ++ (.publish .createPost :: postSteps 1 "post" "photo" 12)

/-- A `GET /events` that looks its identity up before the rotation and answers after it. -/
def servedDuringRotation : List AuthorInput :=
  (.publish .createPost :: postSteps 0 "post" "photo" 2) ++
    [.receive exampleComment, .get none, .list 1, .turn 1, .turn 1] ++
    (.rotate "REMOVED" :: rotateSteps 2 10 (exampleKey 2)) ++ [.answer 1]

/-- Either way the retired key is the stored one again. -/
theorem retired_key_returns :
    ((authorAfter postAfterRotation).row.map Identity.feedKey = some (exampleKey 1) ∧
      (authorAfter postAfterRotation).retired = [exampleKey 1]) ∧
    ((authorAfter servedDuringRotation).row.map Identity.feedKey = some (exampleKey 1) ∧
      (authorAfter servedDuringRotation).retired = [exampleKey 1]) := by
  decide +kernel

end Author

end Starling.App
