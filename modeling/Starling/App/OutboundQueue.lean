import Mathlib.Data.List.Nodup
import Starling.App.Records
import Starling.Foundation.Run

namespace Starling.App

open List

/-!
# The outbound queue

Comments, reactions and room items wait in one table together with follow accepts.  The sync engine
drains it peer by peer in `outbound_drain.dart`, and the retry pass of `follow_service.dart` posts the
accepts.  Both work on rows that they have read before, and every storage call is an await point: drains,
passes and new entries may come in any order, and the app may stop anywhere.
-/

structure QueuedEvent where
  id : Nat
  targetPubkey : Pubkey
  eventBlob : Bytes
  createdAt : Int
  retryCount : Nat
  itemType : Option String

inductive BlobField where
  | text (value : String)
  | bytes (value : Bytes)
  | ints (value : List Int)
  | other

/-- What decoding makes of a blob: a map with its `url` and `body`, or something else. -/
inductive Blob where
  | map (url body : BlobField)
  | other

/-- `decode` is `cbor.decode`, which may fail. -/
def isFollowAcceptQueueEntry (decode : Bytes -> Option Blob) (blob : Bytes) : Bool :=
  match decode blob with
  | some (.map (.text _) (.bytes _)) | some (.map (.text _) (.ints _)) => true
  | _ => false

def QueuedEvent.wraps (decode : Bytes -> Option Blob) (entry : QueuedEvent) : Bool :=
  isFollowAcceptQueueEntry decode entry.eventBlob

def kOutboundMaxRetries : Nat := 3

/-- The end of `pushEnvelope`; a failure has the status code of a `NetworkException`. -/
inductive PushAnswer where
  | accepted
  | failed (statusCode : Option Nat)
  deriving DecidableEq

def PushAnswer.rejected : PushAnswer -> Bool
  | .failed (some status) => 400 ≤ status && status < 500
  | _ => false

/-- The end of `postFollowAccept`. -/
inductive PostAnswer where
  | status (code : Nat)
  | notReady
  | failed

/-- A storage call that is still to be made.  `incrementRetry` reads the row and then writes it. -/
inductive Chore where
  | remove (id : Nat)
  | increment (id : Nat)
  | write (id retryCount : Nat)

def Chore.id : Chore -> Nat
  | .remove id | .increment id | .write id _ => id

def Chore.counts (id : Nat) : Chore -> Bool
  | .remove _ => false
  | .increment other | .write other _ => other = id

theorem Chore.id_of_counts {id} {chore : Chore} (counts : chore.counts id = true) : chore.id = id := by
  cases chore with
  | remove => cases counts
  | increment | write => exact of_decide_eq_true counts

structure OutboundDrainResult where
  pushed : Nat
  dropped : Nat
  retried : Nat

/-- What `drainOutboundQueueForPeer` does after the answer, and what it returns. -/
def drained (queued : List QueuedEvent) (answer : PushAnswer) : List Chore × OutboundDrainResult :=
  let spent (entry : QueuedEvent) : Bool := kOutboundMaxRetries ≤ entry.retryCount + 1
  if answer = .accepted then (queued.map (fun entry => .remove entry.id), ⟨queued.length, 0, 0⟩)
  else if answer.rejected then
    (queued.map (fun entry => if spent entry then .remove entry.id else .increment entry.id),
      ⟨0, queued.countP spent, queued.countP (fun entry => !spent entry)⟩)
  else ([], ⟨0, 0, queued.length⟩)

theorem drained_ids (queued answer) : (drained queued answer).1.map Chore.id <+ queued.map QueuedEvent.id := by
  unfold drained
  dsimp only
  split
  · rw [map_map]
    exact Sublist.refl _
  · split
    · rw [map_map, map_congr_left]
      intro entry _
      dsimp only [Function.comp_apply]
      split <;> rfl
    · exact nil_sublist _

theorem mem_drained {queued answer chore} (member : chore ∈ (drained queued answer).1) :
    ∃ entry ∈ queued, chore = .remove entry.id ∧
        (answer = .accepted ∨ answer.rejected = true ∧ kOutboundMaxRetries ≤ entry.retryCount + 1) ∨
      chore = .increment entry.id ∧ answer.rejected = true := by
  unfold drained at member
  dsimp only at member
  split at member
  next accepted =>
    rcases mem_map.mp member with ⟨entry, inside, rfl⟩
    exact ⟨entry, inside, .inl ⟨rfl, .inl accepted⟩⟩
  · split at member
    next rejected =>
      rcases mem_map.mp member with ⟨entry, inside, rfl⟩
      refine ⟨entry, inside, ?_⟩
      split
      next spent => exact .inl ⟨rfl, .inr ⟨rejected, of_decide_eq_true spent⟩⟩
      · exact .inr ⟨rfl, rejected⟩
    · cases member

/-- What a call does once its chores are done. -/
inductive QueueStage where
  | idle
  | pushing (peer : Pubkey) (queued : List QueuedEvent)
  /-- The loop of a retry pass over the entries of one request. -/
  | visiting (pubkey : Pubkey) (left : List QueuedEvent)
  | posting (pubkey : Pubkey) (entry : QueuedEvent) (left : List QueuedEvent)
  /-- `_removeAcceptEntriesFor`. -/
  | clearing (pubkey : Pubkey)

structure QueueJob where
  chores : List Chore
  stage : QueueStage

def QueueJob.owes (id : Nat) (job : QueueJob) : Bool := job.chores.any (Chore.counts id)

/-- An envelope that was answered. -/
structure Push where
  peer : Pubkey
  queued : List QueuedEvent
  answer : PushAnswer

namespace Push

variable (push : Push)

/-- The items of the envelope: type and payload. -/
def items : List (String × Bytes) := push.queued.map (fun entry => (entry.itemType.getD "event", entry.eventBlob))

def holds (id : Nat) : Bool := push.queued.any (fun entry => entry.id = id)

theorem holds_of_mem {entry} (member : entry ∈ push.queued) : push.holds entry.id = true :=
  any_eq_true.mpr ⟨entry, member, decide_eq_true rfl⟩

/-- A call that owes an increment has just been rejected. -/
theorem owes_drained {id} (owes : QueueJob.owes id ⟨(drained push.queued push.answer).1, .idle⟩ = true) :
    (push.answer.rejected && push.holds id) = true := by
  have ⟨chore, member, counts⟩ := any_eq_true.mp owes
  rcases mem_drained member with ⟨entry, inside, ⟨rfl, _⟩ | ⟨rfl, refused⟩⟩
  · cases counts
  · rw [refused, ← of_decide_eq_true counts, push.holds_of_mem inside]
    rfl

end Push

/-- The table and the calls that work on it, with what was ever put in and what was answered. -/
structure OutboundQueue where
  rows : List QueuedEvent
  jobs : List QueueJob
  enqueued : List QueuedEvent
  pushes : List Push
  /-- Whose accepts were answered with 202. -/
  acknowledged : List Pubkey

inductive QueueInput where
  | enqueue (targetPubkey : Pubkey) (eventBlob : Bytes) (createdAt : Int) (itemType : Option String)
  | drain (peer : Pubkey)
  | answer (index : Nat) (answer : PushAnswer)
  | retry (pubkey : Pubkey)
  | reply (index : Nat) (answer : PostAnswer)
  /-- The next storage call or turn of a loop.  An accept whose backoff is running is not `due`. -/
  | proceed (index : Nat) (due : Bool)
  | restart

namespace OutboundQueue

variable (decode : Bytes -> Option Blob) (queue : OutboundQueue)

def new : OutboundQueue := ⟨[], [], [], [], []⟩

/-- The identifiers count up and are never given out twice. -/
def enqueue (targetPubkey : Pubkey) (eventBlob : Bytes) (createdAt : Int) (itemType : Option String) : OutboundQueue :=
  let event : QueuedEvent := ⟨queue.enqueued.length, targetPubkey, eventBlob, createdAt, 0, itemType⟩
  { queue with rows := queue.rows ++ [event], enqueued := queue.enqueued ++ [event] }

def dequeue (targetPubkey : Pubkey) : List QueuedEvent :=
  queue.rows.filter (fun row => row.targetPubkey = targetPubkey)

def start (job : QueueJob) : OutboundQueue := { queue with jobs := queue.jobs ++ [job] }

def removeFromQueue (id : Nat) : OutboundQueue := { queue with rows := queue.rows.filter (fun row => row.id ≠ id) }

def writeRetryCount (id retryCount : Nat) : OutboundQueue :=
  { queue with rows := queue.rows.map (fun row => if row.id = id then { row with retryCount } else row) }

def setJob (index : Nat) (job : QueueJob) : OutboundQueue := { queue with jobs := queue.jobs.set index job }

def drain (peer : Pubkey) : OutboundQueue :=
  let queued := (queue.dequeue peer).filter (fun row => !row.wraps decode)
  if queued.isEmpty then queue else queue.start ⟨[], .pushing peer queued⟩

def work (index : Nat) (rest : QueueJob) : Chore -> OutboundQueue
  | .remove id => (queue.removeFromQueue id).setJob index rest
  | .increment id =>
    match queue.rows.find? (fun row => row.id = id) with
    | none => queue.setJob index rest
    | some row => queue.setJob index ⟨.write id (row.retryCount + 1) :: rest.chores, rest.stage⟩
  | .write id retryCount => (queue.writeRetryCount id retryCount).setJob index rest

def turn (index : Nat) (due : Bool) : QueueStage -> OutboundQueue
  | .visiting pubkey (entry :: left) =>
    if entry.wraps decode && due then queue.setJob index ⟨[], .posting pubkey entry left⟩
    else queue.setJob index ⟨[], .visiting pubkey left⟩
  | .clearing pubkey =>
    let accepts := (queue.dequeue pubkey).filter (fun row => row.wraps decode)
    queue.setJob index ⟨accepts.map (fun row => .remove row.id), .idle⟩
  | _ => queue

def proceed (index : Nat) (due : Bool) : QueueJob -> OutboundQueue
  | ⟨chore :: rest, stage⟩ => queue.work index ⟨rest, stage⟩ chore
  | ⟨[], stage⟩ => queue.turn decode index due stage

def answer (index : Nat) (answer : PushAnswer) : QueueJob -> OutboundQueue
  | ⟨[], .pushing peer queued⟩ =>
    let logged : OutboundQueue := { queue with pushes := queue.pushes ++ [⟨peer, queued, answer⟩] }
    logged.setJob index ⟨(drained queued answer).1, .idle⟩
  | _ => queue

/-- After a 202 the loop is left, and the other accepts of the request are dropped. -/
def reply (index : Nat) (answer : PostAnswer) : QueueJob -> OutboundQueue
  | ⟨[], .posting pubkey entry left⟩ =>
    match answer with
    | .status 202 =>
      let logged : OutboundQueue := { queue with acknowledged := queue.acknowledged ++ [pubkey] }
      logged.setJob index ⟨[.remove entry.id], .clearing pubkey⟩
    | .notReady => queue.setJob index ⟨[], .visiting pubkey left⟩
    | _ => queue.setJob index ⟨[.increment entry.id], .visiting pubkey left⟩
  | _ => queue

def withJob (index : Nat) (next : QueueJob -> OutboundQueue) : OutboundQueue := (queue.jobs[index]?.map next).getD queue

def step (input : QueueInput) : Except Empty OutboundQueue :=
  .ok (match input with
    | .enqueue targetPubkey eventBlob createdAt itemType => queue.enqueue targetPubkey eventBlob createdAt itemType
    | .drain peer => queue.drain decode peer
    | .answer index answer => queue.withJob index (queue.answer index answer)
    | .retry pubkey => queue.start ⟨[], .visiting pubkey (queue.dequeue pubkey)⟩
    | .reply index answer => queue.withJob index (queue.reply index answer)
    | .proceed index due => queue.withJob index (queue.proceed decode index due)
    | .restart => { queue with jobs := [] })

/-! ## What a missing entry has been through -/

def rejections (id : Nat) : Nat := queue.pushes.countP (fun push => push.answer.rejected && push.holds id)

/-- How many increments of the row are on their way. -/
def pending (id : Nat) : Nat := queue.jobs.countP (QueueJob.owes id)

/-- The entry may be gone: an envelope with it was accepted, or three were rejected; for an accept, some
accept for the same key was answered with 202. -/
def Excused (event : QueuedEvent) : Prop :=
  if event.wraps decode then event.targetPubkey ∈ queue.acknowledged
  else (∃ push ∈ queue.pushes, push.answer = .accepted ∧ push.holds event.id) ∨
    kOutboundMaxRetries ≤ queue.rejections event.id

def Genuine (event : QueuedEvent) : Prop := { event with retryCount := 0 } ∈ queue.enqueued

/-- A read of the table for one key. -/
def Read (pubkey : Pubkey) (event : QueuedEvent) : Prop := queue.Genuine event ∧ event.targetPubkey = pubkey

def Addressed (push : Push) : Prop :=
  ∀ event ∈ push.queued, queue.Read push.peer event ∧ event.wraps decode = false

def ChoreFits : Chore -> Prop
  | .remove id => ∃ event ∈ queue.enqueued, event.id = id ∧ queue.Excused decode event
  | .increment id => ∃ event ∈ queue.enqueued, event.id = id
  | .write id retryCount => ∃ event ∈ queue.enqueued, event.id = id ∧
      (event.wraps decode = false ->
        retryCount + queue.pending id ≤ queue.rejections id + 1)

def StageFits : QueueStage -> Prop
  | .idle => True
  | .pushing peer queued => (queued.map QueuedEvent.id).Nodup ∧ ∀ event ∈ queued, queue.Read peer event ∧
      event.wraps decode = false ∧ event.retryCount ≤ queue.rejections event.id
  | .visiting pubkey left => ∀ event ∈ left, queue.Read pubkey event
  | .posting pubkey entry left => entry.wraps decode = true ∧
      ∀ event ∈ entry :: left, queue.Read pubkey event
  | .clearing pubkey => pubkey ∈ queue.acknowledged

structure Fits (job : QueueJob) : Prop where
  distinct : (job.chores.map Chore.id).Nodup
  chores : ∀ chore ∈ job.chores, queue.ChoreFits decode chore
  stage : queue.StageFits decode job.stage

/-- The rows, and what became of the others.  An increment that is on its way has its rejection behind it. -/
structure Sound : Prop where
  numbered : ∀ event ∈ queue.enqueued, event.id < queue.enqueued.length
  unique : ∀ first ∈ queue.enqueued, ∀ second ∈ queue.enqueued, first.id = second.id -> first = second
  genuine : ∀ row ∈ queue.rows, queue.Genuine row
  distinct : (queue.rows.map QueuedEvent.id).Nodup
  kept : ∀ event ∈ queue.enqueued, (∃ row ∈ queue.rows, row.id = event.id) ∨ queue.Excused decode event
  covered : ∀ row ∈ queue.rows, row.wraps decode = false ->
    row.retryCount + queue.pending row.id ≤ queue.rejections row.id
  pushed : ∀ push ∈ queue.pushes, queue.Addressed decode push
  jobs : ∀ job ∈ queue.jobs, queue.Fits decode job

/-- What is in the books stays there, and only a rejection makes room for one more increment. -/
structure Later (next : OutboundQueue) : Prop where
  enqueued : queue.enqueued ⊆ next.enqueued
  pushes : queue.pushes ⊆ next.pushes
  acknowledged : queue.acknowledged ⊆ next.acknowledged
  rejections : ∀ id, queue.rejections id ≤ next.rejections id
  pending : ∀ event ∈ queue.enqueued, event.wraps decode = false ->
    next.pending event.id + queue.rejections event.id ≤ queue.pending event.id + next.rejections event.id

variable {decode} {queue} {next : OutboundQueue} {index : Nat} {old job : QueueJob}

theorem excused_of_wraps {event} (wrapped : event.wraps decode = true)
    (known : event.targetPubkey ∈ queue.acknowledged) :
    queue.Excused decode event := by
  rw [Excused, if_pos wrapped]
  exact known

theorem excused_of_plain {event} (plain : event.wraps decode = false)
    (reason : (∃ push ∈ queue.pushes, push.answer = .accepted ∧ push.holds event.id) ∨
      kOutboundMaxRetries ≤ queue.rejections event.id) : queue.Excused decode event := by
  rw [Excused, if_neg (Bool.eq_false_iff.mp plain)]
  exact reason

theorem ChoreFits.known {chore} (fits : queue.ChoreFits decode chore) :
    ∃ event ∈ queue.enqueued, event.id = chore.id := by
  cases chore with
  | increment => exact fits
  | remove | write =>
    rcases fits with ⟨event, known, same, _⟩
    exact ⟨event, known, same⟩

namespace Later

variable (later : Later decode queue next)
include later

theorem excused {event} (excused : queue.Excused decode event) : next.Excused decode event := by
  unfold Excused at excused ⊢
  by_cases wrapped : event.wraps decode
  · rw [if_pos wrapped] at excused ⊢
    exact later.acknowledged excused
  · rw [if_neg wrapped] at excused ⊢
    rcases excused with ⟨push, member, accepted⟩ | rejected
    · exact .inl ⟨push, later.pushes member, accepted⟩
    · exact .inr (rejected.trans (later.rejections _))

theorem read {pubkey event} (read : queue.Read pubkey event) : next.Read pubkey event :=
  ⟨later.enqueued read.1, read.2⟩

theorem addressed {push} (addressed : queue.Addressed decode push) : next.Addressed decode push :=
  fun event inside => ⟨later.read (addressed event inside).1, (addressed event inside).2⟩

theorem fits (fits : queue.Fits decode job) : next.Fits decode job where
  distinct := fits.distinct
  chores := by
    intro chore member
    have fit := fits.chores chore member
    cases chore with
    | remove id =>
      rcases fit with ⟨event, known, same, excused⟩
      exact ⟨event, later.enqueued known, same, later.excused excused⟩
    | increment id =>
      rcases fit with ⟨event, known, same⟩
      exact ⟨event, later.enqueued known, same⟩
    | write id retryCount =>
      rcases fit with ⟨event, known, rfl, bound⟩
      refine ⟨event, later.enqueued known, rfl, fun plain => ?_⟩
      have room := later.pending event known plain
      have bounded := bound plain
      omega
  stage := by
    have fit := fits.stage
    cases stage : job.stage with rw [stage] at fit
    | idle => trivial
    | pushing peer queued =>
      refine ⟨fit.1, fun event member => ?_⟩
      have ⟨read, plain, counted⟩ := fit.2 event member
      exact ⟨later.read read, plain, counted.trans (later.rejections _)⟩
    | visiting pubkey left => exact fun event member => later.read (fit event member)
    | posting pubkey entry left => exact ⟨fit.1, fun event member => later.read (fit.2 event member)⟩
    | clearing pubkey => exact later.acknowledged fit

theorem covered (sound : queue.Sound decode) {row} (member : row ∈ queue.rows) (plain : row.wraps decode = false) :
    row.retryCount + next.pending row.id ≤ next.rejections row.id := by
  have bound := sound.covered row member plain
  have room := later.pending _ (sound.genuine row member) plain
  dsimp only at room
  omega

/-- Rows may go that are excused, and new jobs have to fit. -/
theorem sound (sound : queue.Sound decode) (same : next.enqueued = queue.enqueued)
    (genuine : ∀ row ∈ next.rows, queue.Genuine row) (distinct : (next.rows.map QueuedEvent.id).Nodup)
    (kept : ∀ row ∈ queue.rows, (∃ other ∈ next.rows, other.id = row.id) ∨
      ∃ event ∈ queue.enqueued, event.id = row.id ∧ next.Excused decode event)
    (covered : ∀ row ∈ next.rows, row.wraps decode = false ->
      row.retryCount + next.pending row.id ≤ next.rejections row.id)
    (pushed : ∀ push ∈ next.pushes, push ∈ queue.pushes ∨ queue.Addressed decode push)
    (jobs : ∀ job ∈ next.jobs, job ∈ queue.jobs ∨ next.Fits decode job) : next.Sound decode where
  numbered := same ▸ sound.numbered
  unique := same ▸ sound.unique
  genuine := fun row member => later.enqueued (genuine row member)
  distinct := distinct
  kept := by
    intro event known
    rw [same] at known
    rcases sound.kept event known with ⟨row, member, here⟩ | excused
    · rcases kept row member with ⟨other, stays, alike⟩ | ⟨gone, listed, alike, excused⟩
      · exact .inl ⟨other, stays, alike.trans here⟩
      · exact .inr (sound.unique gone listed event known (alike.trans here) ▸ excused)
    · exact .inr (later.excused excused)
  covered := covered
  pushed := by
    intro push member
    rcases pushed push member with before | new
    · exact later.addressed (sound.pushed push before)
    · exact later.addressed new
  jobs := by
    intro job member
    rcases jobs job member with before | fits
    · exact later.fits (sound.jobs job before)
    · exact fits

theorem sound_of_rows (sound : queue.Sound decode) (same : next.enqueued = queue.enqueued)
    (rows : next.rows = queue.rows)
    (pushed : ∀ push ∈ next.pushes, push ∈ queue.pushes ∨ queue.Addressed decode push)
    (jobs : ∀ job ∈ next.jobs, job ∈ queue.jobs ∨ next.Fits decode job) : next.Sound decode := by
  refine later.sound sound same (rows ▸ sound.genuine) (rows ▸ sound.distinct) ?_ ?_ pushed jobs
  · exact fun row member => .inl ⟨row, rows ▸ member, rfl⟩
  · exact fun row member => later.covered sound (rows ▸ member)

end Later

theorem pending_setJob (found : queue.jobs[index]? = some old) (job id) :
    (queue.setJob index job).pending id + (if old.owes id then 1 else 0) =
      queue.pending id + if job.owes id then 1 else 0 := by
  have ⟨inside, here⟩ := List.getElem?_eq_some_iff.mp found
  have counted : (if old.owes id then 1 else 0) ≤ queue.pending id := by
    split
    next owed => exact countP_pos_iff.mpr ⟨old, mem_of_getElem? found, owed⟩
    · exact Nat.zero_le _
  unfold pending setJob
  rw [countP_set inside, here]
  unfold pending at counted
  omega

/-- A call goes on, and only what was answered is new beside it. -/
theorem Later.put {base : OutboundQueue} (later : Later decode queue (base.setJob index job))
    (sound : queue.Sound decode)
    (same : base.enqueued = queue.enqueued ∧ base.rows = queue.rows ∧ base.jobs = queue.jobs)
    (pushed : ∀ push ∈ base.pushes, push ∈ queue.pushes ∨ queue.Addressed decode push)
    (fits : (base.setJob index job).Fits decode job) : (base.setJob index job).Sound decode := by
  refine later.sound_of_rows sound same.1 same.2.1 pushed ?_
  intro other member
  rcases mem_or_eq_of_mem_set member with before | rfl
  · exact .inl (same.2.2 ▸ before)
  · exact .inr fits

theorem pending_start (empty : job.chores = []) (id) : (queue.start job).pending id = queue.pending id := by
  simp [pending, start, QueueJob.owes, empty]

theorem owes_cons {chore rest stage id} (owes : QueueJob.owes id ⟨rest, stage⟩ = true) :
    QueueJob.owes id ⟨chore :: rest, stage⟩ = true := by
  rw [QueueJob.owes, any_cons, Bool.or_eq_true]
  exact .inr owes

/-- Nobody was answered, so only the increments on their way matter. -/
theorem later_of_unanswered (enqueued : queue.enqueued ⊆ next.enqueued) (same : next.pushes = queue.pushes)
    (acknowledged : queue.acknowledged ⊆ next.acknowledged)
    (fewer : ∀ event ∈ queue.enqueued, event.wraps decode = false ->
      next.pending event.id ≤ queue.pending event.id) :
    Later decode queue next := by
  have rejected : ∀ id, next.rejections id = queue.rejections id := by
    intro id
    rw [rejections, same, rejections]
  refine ⟨enqueued, same ▸ Subset.refl _, acknowledged, fun id => (rejected id).ge, ?_⟩
  intro event known plain
  rw [rejected]
  exact Nat.add_le_add_right (fewer event known plain) _

theorem later_setJob (found : queue.jobs[index]? = some old) (less : ∀ id, job.owes id = true -> old.owes id = true) :
    Later decode queue (queue.setJob index job) := by
  refine later_of_unanswered (Subset.refl _) rfl (Subset.refl _) ?_
  intro event _ _
  have counted := pending_setJob found job event.id
  have fewer := less event.id
  grind

theorem later_start (empty : job.chores = []) : Later decode queue (queue.start job) :=
  later_of_unanswered (Subset.refl _) rfl (Subset.refl _) (fun _ _ _ => (pending_start empty _).le)

namespace Sound

variable (sound : queue.Sound decode)
include sound

theorem fits (found : queue.jobs[index]? = some old) : queue.Fits decode old := sound.jobs _ (mem_of_getElem? found)

theorem setJob (found : queue.jobs[index]? = some old) (less : ∀ id, job.owes id = true -> old.owes id = true)
    (fits : (queue.setJob index job).Fits decode job) : (queue.setJob index job).Sound decode :=
  (later_setJob found less).put sound ⟨rfl, rfl, rfl⟩ (fun _ => .inl) fits

theorem start (empty : job.chores = []) (fits : queue.StageFits decode job.stage) :
    (queue.start job).Sound decode := by
  have later : Later decode queue (queue.start job) := later_start empty
  refine later.sound_of_rows sound rfl rfl (fun _ => .inl) ?_
  intro other member
  rcases mem_append.mp member with before | new
  · exact .inl before
  · refine .inr (later.fits ?_)
    rw [mem_singleton.mp new]
    constructor
    · rw [empty]
      exact nodup_nil
    · rw [empty]
      exact forall_mem_nil _
    · exact fits

theorem read {pubkey event} (member : event ∈ queue.dequeue pubkey) : queue.Read pubkey event := by
  have ⟨here, target⟩ := mem_filter.mp member
  exact ⟨sound.genuine event here, of_decide_eq_true target⟩

theorem enqueue (targetPubkey eventBlob createdAt itemType) :
    (queue.enqueue targetPubkey eventBlob createdAt itemType).Sound decode := by
  have later : Later decode queue (queue.enqueue targetPubkey eventBlob createdAt itemType) :=
    later_of_unanswered (subset_append_left _ _) rfl (Subset.refl _) (fun _ _ _ => le_rfl)
  have unowed : queue.pending queue.enqueued.length = 0 := by
    refine countP_eq_zero.mpr ?_
    intro job member owed
    have ⟨chore, inside, counts⟩ := any_eq_true.mp owed
    have ⟨event, known, same⟩ := ((sound.jobs job member).chores chore inside).known
    have small := sound.numbered event known
    rw [same, Chore.id_of_counts counts] at small
    exact lt_irrefl _ small
  constructor
  · simp only [OutboundQueue.enqueue, mem_append, mem_singleton, length_append, length_singleton]
    rintro event (before | rfl)
    · exact Nat.lt_succ_of_lt (sound.numbered event before)
    · exact Nat.lt_succ_self _
  · simp only [OutboundQueue.enqueue, mem_append, mem_singleton]
    rintro first (before | rfl) second (earlier | rfl) same
    · exact sound.unique first before second earlier same
    · exact absurd same (sound.numbered first before).ne
    · exact absurd same (sound.numbered second earlier).ne'
    · rfl
  · simp only [OutboundQueue.enqueue, mem_append, mem_singleton]
    rintro row (before | rfl)
    · exact later.enqueued (sound.genuine row before)
    · exact mem_append_right _ (mem_singleton_self _)
  · simp only [OutboundQueue.enqueue, map_append, map_cons, map_nil]
    refine nodup_append.mpr ⟨sound.distinct, nodup_singleton _, ?_⟩
    intro id member other here
    rcases mem_map.mp member with ⟨row, inside, rfl⟩
    rw [mem_singleton.mp here]
    exact (sound.numbered _ (sound.genuine row inside)).ne
  · simp only [OutboundQueue.enqueue, mem_append, mem_singleton]
    rintro event (before | rfl)
    · rcases sound.kept event before with ⟨row, here, same⟩ | excused
      · exact .inl ⟨row, .inl here, same⟩
      · exact .inr (later.excused excused)
    · exact .inl ⟨_, .inr rfl, rfl⟩
  · simp only [OutboundQueue.enqueue, mem_append, mem_singleton]
    rintro row (before | rfl) plain
    · exact sound.covered row before plain
    · exact (Nat.zero_add _).trans_le (unowed.trans_le (Nat.zero_le _))
  · exact fun push member => later.addressed (sound.pushed push member)
  · exact fun job member => later.fits (sound.jobs job member)

theorem drain (peer) : (queue.drain decode peer).Sound decode := by
  unfold OutboundQueue.drain
  dsimp only
  split
  · exact sound
  · refine sound.start rfl ⟨?_, ?_⟩
    · exact sound.distinct.sublist ((filter_sublist.trans filter_sublist).map _)
    · intro event member
      have ⟨inside, plain⟩ := mem_filter.mp member
      have unwrapped : event.wraps decode = false := by simpa using plain
      have bound := sound.covered event (mem_filter.mp inside).1 unwrapped
      exact ⟨sound.read inside, unwrapped, (Nat.le_add_right _ _).trans bound⟩

theorem answer (found : queue.jobs[index]? = some old) (answer) : (queue.answer index answer old).Sound decode := by
  rcases old with ⟨_ | ⟨chore, rest⟩, _ | ⟨peer, queued⟩ | _ | _ | _⟩
  case nil.pushing =>
    have ⟨distinct, reads⟩ := (sound.fits found).stage
    let push : Push := ⟨peer, queued, answer⟩
    let logged : OutboundQueue := { queue with pushes := queue.pushes ++ [push] }
    let job : QueueJob := ⟨(drained queued answer).1, .idle⟩
    have rejected : ∀ id, logged.rejections id =
        queue.rejections id + if answer.rejected && push.holds id then 1 else 0 := by
      intro id
      simp [rejections, logged, push, countP_singleton]
    have later : Later decode queue (logged.setJob index job) := by
      refine ⟨Subset.refl _, subset_append_left _ _, Subset.refl _, ?_, ?_⟩
      · exact fun id => (Nat.le_add_right _ _).trans_eq (rejected id).symm
      · intro event _ _
        have counted := @pending_setJob logged _ _ found job event.id
        have more := rejected event.id
        have same : logged.pending event.id = queue.pending event.id := rfl
        have still : (logged.setJob index job).rejections event.id = logged.rejections event.id := rfl
        have owing := @push.owes_drained event.id
        grind
    refine later.put sound ⟨rfl, rfl, rfl⟩ ?_ ⟨distinct.sublist (drained_ids queued answer), ?_, trivial⟩
    · intro other member
      rcases mem_append.mp member with before | new
      · exact .inl before
      · rw [mem_singleton.mp new]
        exact .inr (fun event inside => ⟨(reads event inside).1, (reads event inside).2.1⟩)
    · intro chore inside
      rcases mem_drained inside with ⟨entry, here, ⟨rfl, reason⟩ | ⟨rfl, _⟩⟩
      · have ⟨read, plain, counted⟩ := reads entry here
        have holds := push.holds_of_mem here
        refine ⟨_, read.1, rfl, excused_of_plain plain ?_⟩
        rcases reason with accepted | ⟨refused, spent⟩
        · exact .inl ⟨push, mem_append_right _ (mem_singleton_self _), accepted, holds⟩
        · have more := rejected entry.id
          rw [refused, holds, Bool.and_self, if_pos rfl] at more
          exact .inr (spent.trans ((Nat.succ_le_succ counted).trans_eq more.symm))
      · exact ⟨_, (reads entry here).1.1, rfl⟩
  all_goals exact sound

theorem reply (found : queue.jobs[index]? = some old) (answer) : (queue.reply index answer old).Sound decode := by
  rcases old with ⟨_ | ⟨chore, rest⟩, _ | _ | _ | ⟨pubkey, entry, left⟩ | _⟩
  case nil.posting =>
    have ⟨wrapped, reads⟩ := (sound.fits found).stage
    have ⟨read, others⟩ := forall_mem_cons.mp reads
    unfold OutboundQueue.reply
    split
    next shape =>
      cases shape
      split
      · let logged : OutboundQueue := { queue with acknowledged := queue.acknowledged ++ [pubkey] }
        let job : QueueJob := ⟨[.remove entry.id], .clearing pubkey⟩
        have known : pubkey ∈ logged.acknowledged := mem_append_right _ (mem_singleton_self _)
        have later : Later decode queue (logged.setJob index job) := by
          refine later_of_unanswered (Subset.refl _) rfl (subset_append_left _ _) ?_
          exact fun event _ _ => Nat.le.intro (@pending_setJob logged _ _ found job event.id)
        refine later.put sound ⟨rfl, rfl, rfl⟩ (fun _ => .inl)
          ⟨nodup_singleton _, forall_mem_singleton.mpr ?_, known⟩
        exact ⟨_, read.1, rfl, excused_of_wraps wrapped (read.2 ▸ known)⟩
      · refine sound.setJob found (fun _ => id) ⟨nodup_nil, forall_mem_nil _, others⟩
      · -- Only an accept is counted here, and its count decides nothing.
        let job : QueueJob := ⟨[.increment entry.id], .visiting pubkey left⟩
        have later : Later decode queue (queue.setJob index job) := by
          refine later_of_unanswered (Subset.refl _) rfl (Subset.refl _) ?_
          intro event known plain
          have counted := pending_setJob found job event.id
          have free : job.owes event.id = false := by
            refine Bool.eq_false_iff.mpr (fun owes => ?_)
            have same : entry.id = event.id := by simpa [job, QueueJob.owes, Chore.counts] using owes
            rw [← sound.unique _ read.1 event known same] at plain
            cases wrapped.symm.trans plain
          rw [free] at counted
          exact Nat.le.intro counted
        exact later.put sound ⟨rfl, rfl, rfl⟩ (fun _ => .inl)
          ⟨nodup_singleton _, forall_mem_singleton.mpr ⟨_, read.1, rfl⟩, others⟩
    next other => exact absurd rfl (other pubkey entry left)
  all_goals exact sound

theorem turn {stage due} (found : queue.jobs[index]? = some ⟨[], stage⟩) :
    (queue.turn decode index due stage).Sound decode := by
  have fit := (sound.fits found).stage
  unfold OutboundQueue.turn
  split
  next pubkey entry left =>
    have ⟨read, others⟩ := forall_mem_cons.mp fit
    split
    next wrapped =>
      exact sound.setJob found (fun _ => id)
        ⟨nodup_nil, forall_mem_nil _, (Bool.and_eq_true _ _ ▸ wrapped).1, fit⟩
    · exact sound.setJob found (fun _ => id) ⟨nodup_nil, forall_mem_nil _, others⟩
  next pubkey =>
    refine sound.setJob found ?_ ⟨?_, ?_, trivial⟩
    · intro id owes
      have ⟨chore, member, counts⟩ := any_eq_true.mp owes
      rcases mem_map.mp member with ⟨row, _, rfl⟩
      cases counts
    · rw [map_map]
      exact sound.distinct.sublist ((filter_sublist.trans filter_sublist).map _)
    · intro chore member
      rcases mem_map.mp member with ⟨row, inside, rfl⟩
      have ⟨here, wrapped⟩ := mem_filter.mp inside
      have read := sound.read here
      exact ⟨_, read.1, rfl, excused_of_wraps wrapped (read.2 ▸ fit)⟩
  · exact sound

section Work

variable {chore : Chore} {rest : List Chore} {stage : QueueStage}

theorem rest_fits (found : queue.jobs[index]? = some ⟨chore :: rest, stage⟩) :
    queue.Fits decode ⟨rest, stage⟩ := by
  have fits := sound.fits found
  exact ⟨(nodup_cons.mp fits.distinct).2, (forall_mem_cons.mp fits.chores).2, fits.stage⟩

/-- A chore is done, and the table is another one. -/
theorem done {rows} (found : queue.jobs[index]? = some ⟨chore :: rest, stage⟩)
    (genuine : ∀ row ∈ rows, queue.Genuine row)
    (distinct : (rows.map QueuedEvent.id).Nodup)
    (kept : ∀ row ∈ queue.rows, (∃ other ∈ rows, other.id = row.id) ∨
      ∃ event ∈ queue.enqueued, event.id = row.id ∧ queue.Excused decode event)
    (covered : ∀ row ∈ rows, row ∈ queue.rows ∨ (row.wraps decode = false ->
      row.retryCount + (queue.setJob index ⟨rest, stage⟩).pending row.id ≤ queue.rejections row.id)) :
    (OutboundQueue.setJob { queue with rows } index ⟨rest, stage⟩).Sound decode := by
  have ahead : Later decode queue (queue.setJob index ⟨rest, stage⟩) := later_setJob found (fun _ => owes_cons)
  have later : Later decode queue (OutboundQueue.setJob { queue with rows } index ⟨rest, stage⟩) :=
    ⟨ahead.enqueued, ahead.pushes, ahead.acknowledged, ahead.rejections, ahead.pending⟩
  refine later.sound sound rfl genuine distinct ?_ ?_ (fun _ => .inl) ?_
  · intro row member
    refine (kept row member).imp_right ?_
    rintro ⟨event, known, same, excused⟩
    exact ⟨event, known, same, later.excused excused⟩
  · intro row member
    rcases covered row member with before | bound
    · exact later.covered sound before
    · exact bound
  · intro job member
    rcases mem_or_eq_of_mem_set member with before | rfl
    · exact .inl before
    · exact .inr (later.fits (sound.rest_fits found))

theorem remove {id} (found : queue.jobs[index]? = some ⟨.remove id :: rest, stage⟩) :
    ((queue.removeFromQueue id).setJob index ⟨rest, stage⟩).Sound decode := by
  have ⟨event, known, same, excused⟩ := (sound.fits found).chores _ mem_cons_self
  refine sound.done found ?_ ?_ ?_ ?_
  · exact fun row member => sound.genuine row (mem_filter.mp member).1
  · exact sound.distinct.sublist (filter_sublist.map _)
  · intro row member
    by_cases gone : row.id = id
    · exact .inr ⟨event, known, same.trans gone.symm, excused⟩
    · exact .inl ⟨row, mem_filter.mpr ⟨member, decide_eq_true gone⟩, rfl⟩
  · exact fun row member => .inl (mem_filter.mp member).1

theorem increment {id} (found : queue.jobs[index]? = some ⟨.increment id :: rest, stage⟩) :
    (queue.work index ⟨rest, stage⟩ (.increment id)).Sound decode := by
  have fits := sound.rest_fits found
  unfold OutboundQueue.work
  dsimp only
  split
  · have later : Later decode queue _ := later_setJob found (fun _ => owes_cons)
    exact sound.setJob found (fun _ => owes_cons) (later.fits fits)
  next row located =>
    have here := mem_of_find?_eq_some located
    have same : row.id = id := by simpa using find?_some located
    have written : ∀ other, QueueJob.owes other ⟨.write id (row.retryCount + 1) :: rest, stage⟩ = true ->
        QueueJob.owes other ⟨.increment id :: rest, stage⟩ = true := fun _ owes => owes
    have later : Later decode queue _ := later_setJob found written
    have before := sound.fits found
    refine sound.setJob found written
      ⟨before.distinct, forall_mem_cons.mpr ⟨?_, (later.fits fits).chores⟩, (later.fits fits).stage⟩
    refine ⟨_, sound.genuine row here, same, fun plain => ?_⟩
    have bound := later.covered sound here plain
    subst same
    omega

theorem write {id retryCount} (found : queue.jobs[index]? = some ⟨.write id retryCount :: rest, stage⟩) :
    ((queue.writeRetryCount id retryCount).setJob index ⟨rest, stage⟩).Sound decode := by
  have fits := sound.fits found
  have ⟨event, known, alike, bound⟩ := fits.chores _ mem_cons_self
  refine sound.done found ?_ ?_ ?_ ?_
  · intro row member
    rcases mem_map.mp member with ⟨before, here, rfl⟩
    split <;> exact sound.genuine before here
  · rw [map_map, map_congr_left]
    · exact sound.distinct
    · intro row _
      dsimp only [Function.comp_apply]
      split <;> rfl
  · intro row member
    refine .inl ⟨_, mem_map.mpr ⟨row, member, rfl⟩, ?_⟩
    split <;> rfl
  · intro row member
    rcases mem_map.mp member with ⟨before, here, rfl⟩
    split
    next same =>
      refine .inr (fun plain => ?_)
      subst same
      have bounded := bound (sound.unique _ (sound.genuine before here) event known alike.symm ▸ plain)
      have counted := pending_setJob found ⟨rest, stage⟩ before.id
      have free : QueueJob.owes before.id ⟨rest, stage⟩ = false := by
        refine Bool.eq_false_iff.mpr (fun owes => (nodup_cons.mp fits.distinct).1 ?_)
        have ⟨chore, inside, counts⟩ := any_eq_true.mp owes
        exact mem_map.mpr ⟨chore, inside, Chore.id_of_counts counts⟩
      have owed : QueueJob.owes before.id ⟨.write before.id retryCount :: rest, stage⟩ = true := by
        simp [QueueJob.owes, Chore.counts]
      rw [free, owed, if_pos rfl, if_neg Bool.false_ne_true] at counted
      exact Nat.le_of_succ_le_succ ((congrArg (retryCount + ·) counted).trans_le bounded)
    · exact .inl here

end Work

end Sound

theorem Sound.step {input} (sound : queue.Sound decode) (stepped : queue.step decode input = .ok next) :
    next.Sound decode := by
  have going : ∀ (index) (change : QueueJob -> OutboundQueue),
      (∀ job, queue.jobs[index]? = some job -> (change job).Sound decode) ->
        (queue.withJob index change).Sound decode := by
    intro index change good
    unfold withJob
    cases found : queue.jobs[index]? with
    | none => exact sound
    | some job => exact good job found
  cases input with cases stepped
  | enqueue => exact sound.enqueue ..
  | drain => exact sound.drain _
  | answer => exact going _ _ (fun _ found => sound.answer found _)
  | retry => exact sound.start rfl (fun _ member => sound.read member)
  | reply => exact going _ _ (fun _ found => sound.reply found _)
  | proceed =>
    refine going _ _ (fun job found => ?_)
    rcases job with ⟨_ | ⟨_ | _ | _, _⟩, _⟩
    · exact sound.turn found
    · exact sound.remove found
    · exact sound.increment found
    · exact sound.write found
  | restart =>
    have later : Later decode queue { queue with jobs := [] } :=
      later_of_unanswered (Subset.refl _) rfl (Subset.refl _) (fun _ _ _ => Nat.zero_le _)
    exact later.sound_of_rows sound rfl rfl (fun _ => .inl) (forall_mem_nil _)

theorem sound_of_run {inputs} (reached : run (step decode) new inputs = .ok queue) : queue.Sound decode := by
  refine Reaches.invariant (fun _ _ _ => Sound.step) ⟨inputs, reached⟩ ?_
  exact ⟨forall_mem_nil _, forall_mem_nil _, forall_mem_nil _, nodup_nil, forall_mem_nil _, forall_mem_nil _,
    forall_mem_nil _, forall_mem_nil _⟩

/-- However drains, retry passes, new entries and restarts interleave, an entry stays in the queue until it is
excused. -/
theorem outbound_queue_keeps (decode : Bytes -> Option Blob) (inputs : List QueueInput) :
    Ensures (run (step decode) new inputs) (fun queue => ∀ event ∈ queue.enqueued,
      (∃ row ∈ queue.rows, { row with retryCount := 0 } = event) ∨ queue.Excused decode event) := by
  intro queue reached event known
  have sound := sound_of_run reached
  rcases sound.kept event known with ⟨row, member, same⟩ | excused
  · exact .inl ⟨row, member, sound.unique _ (sound.genuine row member) event known same⟩
  · exact .inr excused

/-- What is pushed to a peer was put in for that peer, and no accept is among it. -/
theorem envelopes_addressed (decode : Bytes -> Option Blob) (inputs : List QueueInput) :
    Ensures (run (step decode) new inputs) (fun queue => ∀ push ∈ queue.pushes, ∀ item ∈ push.items,
      isFollowAcceptQueueEntry decode item.2 = false ∧ ∃ event ∈ queue.enqueued,
        event.targetPubkey = push.peer ∧ item = (event.itemType.getD "event", event.eventBlob)) := by
  intro queue reached push member item inside
  rcases mem_map.mp inside with ⟨event, here, rfl⟩
  have ⟨⟨known, target⟩, plain⟩ := (sound_of_run reached).pushed push member event here
  exact ⟨plain, _, known, target, rfl⟩

end OutboundQueue
end Starling.App
