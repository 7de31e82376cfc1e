import Starling.App.Author
import Starling.App.Distributions
import Starling.App.Handshake

namespace Starling.App

/-!
# The circle of followers

The owner's side of following: requests that come in, `acceptFollowRequest`, the retry
passes over queued accepts, `removeFollower` with the rotation that it waits for, and the
sealed deliveries that followers fetch.  The device of `Author` is a part of the state, so
publishing and `GET /events` go on at the same time.

Calls are cut at their await points.  `attachPendingDeliveries`, `applyDeliveryAcks` and
`sealAndQueueForAcceptedFollowers` are one step each.  `log` records what happened, and
`received` the last feed key that each follower got by an accept; no call reads them.
-/

inductive InboundStatus where
  | pending
  | pendingSend
  | sendFailed
  | accepted
  deriving DecidableEq

/-- A row of `inbound_follow_requests`, with the body that came in. -/
structure InboundRequest where
  payload : RequestBody
  createdAt : Int
  requestTimestamp : Int
  status : InboundStatus
  deriving DecidableEq

/-- An entry of the outbound queue that wraps an accept.  The queue also holds comments and
reactions, which no call here touches. -/
structure QueueEntry where
  id : Nat
  target : Pubkey
  body : AcceptBody
  retryCount : Nat

inductive AcceptPhase where
  | started (identity : Identity)
  | dialing (identity : Identity) (card : ConnectionCard) (timestamp : Int)
  | awaiting (body : AcceptBody)
  | queueing (body : AcceptBody)
  | queued
  | acknowledged

/-- A pass over the rows whose accept is not delivered.  A row comes with the status that it
had when the pass began. -/
inductive PassPhase where
  | rows (left : List (Pubkey × InboundStatus))
  | entries (row : Pubkey × InboundStatus) (entry : QueueEntry) (rest : List QueueEntry)
      (left : List (Pubkey × InboundStatus))
  | posted (row : Pubkey × InboundStatus) (entry : QueueEntry) (rest : List QueueEntry)
      (left : List (Pubkey × InboundStatus))
  | delivered (row : Pubkey × InboundStatus) (left : List (Pubkey × InboundStatus))
  | failed (row : Pubkey × InboundStatus) (rest : List QueueEntry)
      (left : List (Pubkey × InboundStatus))
  /-- Other accepts for the row are looked for, and dropped one by one. -/
  | clearing (row : Pubkey × InboundStatus) (left : List (Pubkey × InboundStatus))
  | dropping (ids : List Nat) (left : List (Pubkey × InboundStatus))

inductive RemovePhase where
  | checking
  | removing
  | deleted
  | cleared
  | rotating (rotation : Nat)

inductive CircleTask where
  | ingest (body : RequestBody) (now : Int)
  | accept (requester : Pubkey) (phase : AcceptPhase)
  | pass (phase : PassPhase)
  | remove (follower : Pubkey) (phase : RemovePhase)

inductive CircleEvent where
  | accepting (requester : Pubkey)
  | sent (requester : Pubkey) (body : AcceptBody)
  | handed (follower : Pubkey) (feedKey : FeedKey)
  | marked (requester : Pubkey) (status : InboundStatus)
  | posted (eventId : String) (feedKey : FeedKey)
  /-- `removeFollower` has returned. -/
  | removed (follower : Pubkey)
  deriving DecidableEq

structure Circle where
  author : Author
  inbound : Table Pubkey InboundRequest
  queue : List QueueEntry
  nextEntry : Nat
  pending : Distributions
  tasks : Jobs CircleTask
  rotated : List Nat
  received : Table Pubkey FeedKey
  log : List CircleEvent

/-- The next step of some call.  `author` is a step of the device, `respond` and
`entryResponse` say whether the answer was 202, and `skipEntry` passes over an entry whose
backoff has not elapsed. -/
inductive CircleInput where
  | author (input : AuthorInput)
  | request (body : RequestBody) (now : Int)
  | saveRequest (id : Nat)
  | reject (requester : Pubkey)
  | accept (requester : Pubkey)
  | readRequest (id : Nat)
  | dial (id : Nat) (reachable : Bool) (nonce : Bytes)
  | respond (id : Nat) (delivered : Bool)
  | enqueue (id : Nat)
  | mark (id : Nat)
  | retry (onlyPubkey : Option Pubkey)
  | nextRow (id : Nat)
  | postEntry (id : Nat)
  | skipEntry (id : Nat)
  | entryResponse (id : Nat) (delivered : Bool)
  | markRow (id : Nat)
  | readDuplicates (id : Nat)
  | dropDuplicate (id : Nat)
  | unfollow (follower : Pubkey)
  | remove (follower : Pubkey)
  | check (id : Nat)
  | deleteRow (id : Nat)
  | clear (id : Nat)
  | rotate (id : Nat)
  | finishRemoval (id : Nat)
  | poll (follower : Pubkey) (ackRotationAt : Option Int)

namespace CircleTask

def works : CircleTask -> Option Pubkey
  | .accept requester _ => some requester
  | .pass (.entries row _ _ _) => some row.1
  | .pass (.posted row _ _ _) => some row.1
  | .pass (.delivered row _) => some row.1
  | .pass (.failed row _ _) => some row.1
  | .pass (.clearing row _) => some row.1
  | _ => none

/-- The rows that a call may still mark. -/
def marks : CircleTask -> List Pubkey
  | .accept requester _ => [requester]
  | .pass (.rows left) | .pass (.clearing _ left) | .pass (.dropping _ left) => left.map Prod.fst
  | .pass (.entries row _ _ left) | .pass (.posted row _ _ left) | .pass (.delivered row left)
  | .pass (.failed row _ left) => row.1 :: left.map Prod.fst
  | _ => []

def isPass : CircleTask -> Bool
  | .pass _ => true
  | _ => false

end CircleTask

namespace Circle

/-- What is not at hand: the decoder of a sealed card, and whom `attachPendingDeliveries` serves, by the status
of their request. -/
structure Outside where
  decodeInner : Bytes -> Option ConnectionCard
  attaches : Option InboundStatus -> Bool

variable (outside : Outside)

section

variable (circle : Circle) (pubkey : Pubkey)

def setTask (id : Nat) (task : CircleTask) : Circle :=
  { circle with tasks := circle.tasks.update id task }

def start (task : CircleTask) : Circle :=
  { circle with tasks := circle.tasks.start task }

def finish (id : Nat) : Circle :=
  { circle with tasks := circle.tasks.finish id }

def record (event : CircleEvent) : Circle :=
  { circle with log := circle.log ++ [event] }

def statusIn (inbound : Table Pubkey InboundRequest) (pubkey : Pubkey) : Option InboundStatus :=
  (inbound.lookup pubkey).map InboundRequest.status

def status : Option InboundStatus := statusIn circle.inbound pubkey

/-- `isAcceptedFollower`. -/
def isAccepted : Bool := decide (circle.status pubkey = some .accepted)

/-- `updateInboundRequestStatus`: nothing happens if there is no row. -/
def setStatus (inbound : Table Pubkey InboundRequest) (pubkey : Pubkey) (status : InboundStatus) :
    Table Pubkey InboundRequest :=
  match inbound.lookup pubkey with
  | none => inbound
  | some row => inbound.insert pubkey { row with status := status }

def markEvents (inbound : Table Pubkey InboundRequest) (pubkey : Pubkey) (status : InboundStatus) : List CircleEvent :=
  if (inbound.lookup pubkey).isSome then [.marked pubkey status] else []

def updateStatus (status : InboundStatus) : Circle :=
  { circle with
    inbound := setStatus circle.inbound pubkey status
    log := circle.log ++ markEvents circle.inbound pubkey status }

def receivedFrom (received : Table Pubkey FeedKey) (requester : Pubkey) (body : AcceptBody) : Table Pubkey FeedKey :=
  match body.encryptedFeedKey with
  | .noise _ => received
  | .box made =>
    if crockfordBase32Decode requester = some made.key.requester then
      received.insert requester made.content
    else received

def receive (requester : Pubkey) (body : AcceptBody) : Circle :=
  { circle with received := receivedFrom circle.received requester body }

end

section

variable (inbound : Table Pubkey InboundRequest)
include inbound

theorem statusIn_setStatus (pubkey target status) : statusIn (setStatus inbound pubkey status) target =
      if target = pubkey then (statusIn inbound target).map (fun _ => status)
      else statusIn inbound target := by
  rw [setStatus, statusIn, statusIn]
  cases found : inbound.lookup pubkey with
  | none =>
    dsimp only
    split
    next same =>
      rw [same, found]
      rfl
    · rfl
  | some =>
    rw [Table.lookup_insert_eq]
    split
    next same =>
      rw [same, found]
      rfl
    · rfl

theorem statusIn_erase (pubkey target) : statusIn (inbound.erase pubkey) target =
      if target = pubkey then none else statusIn inbound target := by
  rw [statusIn, Table.lookup_erase_eq]
  split <;> rfl

end

variable {inbound : Table Pubkey InboundRequest} {pubkey target : Pubkey} {circle : Circle}

theorem of_statusIn_erase {status} (found : statusIn (inbound.erase pubkey) target = some status) :
    statusIn inbound target = some status := by
  rw [statusIn_erase] at found
  split at found
  · cases found
  · exact found

theorem accepted_of_insert {row} (pending : row.status = .pending)
    (accepted : statusIn (inbound.insert pubkey row) target = some .accepted) :
    statusIn inbound target = some .accepted := by
  rw [statusIn, Table.lookup_insert_eq] at accepted
  split at accepted
  · rw [Option.map_some, pending] at accepted
    cases accepted
  · exact accepted

theorem mem_markEvents {status event}
    (member : event ∈ markEvents inbound pubkey status) : event = .marked pubkey status := by
  unfold markEvents at member
  split at member
  · exact List.mem_singleton.mp member
  · cases member

/-! ## Requests that come in -/

section

variable (circle : Circle) (id : Nat)

/-- `ingestFollowRequestBytes` reads the row: one that is actioned stays as it is. -/
def request (body : RequestBody) (now : Int) : Circle :=
  match circle.status body.requesterPubkey with
  | none => circle.start (.ingest body now)
  | some .pending => circle.start (.ingest body now)
  | some _ => circle

def saveRequest : Circle :=
  match circle.tasks.get id with
  | some (.ingest body now) =>
    { circle with
      inbound := circle.inbound.insert body.requesterPubkey ⟨body, now, body.timestamp, .pending⟩ }.finish
      id
  | _ => circle

/-- `rejectFollowRequest`. -/
def reject (requester : Pubkey) : Circle :=
  { circle with inbound := circle.inbound.erase requester }

/-! ## acceptFollowRequest -/

def accept (requester : Pubkey) : Circle :=
  match circle.author.row with
  | none => circle
  | some identity => (circle.start (.accept requester (.started identity))).record (.accepting requester)

/-- A missing row and a request that cannot be decrypted end the call. -/
def readRequest : Circle :=
  match circle.tasks.get id with
  | some (.accept requester (.started identity)) =>
    match circle.inbound.lookup requester with
    | none => circle.finish id
    | some inbound =>
      match decryptInner outside.decodeInner inbound.payload identity inbound.requestTimestamp with
      | none => circle.finish id
      | some card =>
        circle.setTask id (.accept requester (.dialing identity card inbound.requestTimestamp))
  | _ => circle

def dial (reachable : Bool) (nonce : Bytes) : Circle :=
  match circle.tasks.get id with
  | some (.accept requester (.dialing identity card timestamp)) =>
    match buildAcceptBody identity card timestamp nonce with
    | none => circle.finish id
    | some body =>
      if reachable then
        (circle.setTask id (.accept requester (.awaiting body))).record (.sent requester body)
      else circle.setTask id (.accept requester (.queueing body))
  | _ => circle

def respond (delivered : Bool) : Circle :=
  match circle.tasks.get id with
  | some (.accept requester (.awaiting body)) =>
    if delivered then (circle.receive requester body).setTask id (.accept requester .acknowledged)
    else circle.setTask id (.accept requester (.queueing body))
  | _ => circle

def enqueue : Circle :=
  match circle.tasks.get id with
  | some (.accept requester (.queueing body)) =>
    { circle with
      queue := circle.queue ++ [QueueEntry.mk circle.nextEntry requester body 0]
      nextEntry := circle.nextEntry + 1 }.setTask id (.accept requester .queued)
  | _ => circle

def mark : Circle :=
  match circle.tasks.get id with
  | some (.accept requester .acknowledged) => (circle.updateStatus requester .accepted).finish id
  | some (.accept requester .queued) => (circle.updateStatus requester .pendingSend).finish id
  | _ => circle

/-! ## retryQueuedAccepts -/

/-- The rows of a pass, those that wait before those that have failed. -/
def retryRows (onlyPubkey : Option Pubkey) : List (Pubkey × InboundStatus) :=
  let rows := circle.inbound.entries.map (fun entry => (entry.1, entry.2.status))
  (rows.filter (fun row => row.2 = .pendingSend) ++ rows.filter (fun row => row.2 = .sendFailed)).filter
    (fun row => onlyPubkey.isNone || decide (onlyPubkey = some row.1))

/-- A pass begins when no other pass is under way: `_retryChain`. -/
def retry (onlyPubkey : Option Pubkey) : Circle :=
  if circle.tasks.every (fun _ task => !task.isPass) then
    circle.start (.pass (.rows (circle.retryRows onlyPubkey)))
  else circle

/-- `dequeue`. -/
def entriesFor (target : Pubkey) : List QueueEntry := circle.queue.filter (fun entry => entry.target = target)

end

theorem mem_entriesFor {entry} :
    entry ∈ circle.entriesFor target ↔ entry ∈ circle.queue ∧ entry.target = target := by
  rw [entriesFor, List.mem_filter, decide_eq_true_eq]

def onward (row : Pubkey × InboundStatus) (left : List (Pubkey × InboundStatus)) : List QueueEntry -> PassPhase
  | [] => .rows left
  | entry :: rest => .entries row entry rest left

theorem works_onward (row left entries) : (CircleTask.pass (onward row left entries)).works = none ∨
      (CircleTask.pass (onward row left entries)).works = some row.1 := by
  cases entries with
  | nil => exact .inl rfl
  | cons => exact .inr rfl

theorem works_entriesFor {row left}
    (works : (CircleTask.pass (onward row left (circle.entriesFor row.1))).works = some pubkey) :
    ∃ entry ∈ circle.queue, entry.target = pubkey := by
  cases entries : circle.entriesFor row.1 with rw [entries] at works
  | nil => cases works
  | cons entry =>
    cases works
    exact ⟨entry, mem_entriesFor.mp (entries ▸ List.mem_cons_self)⟩

section

variable (circle : Circle) (id : Nat)

def nextRow : Circle :=
  match circle.tasks.get id with
  | some (.pass (.rows [])) => circle.finish id
  | some (.pass (.rows (row :: left))) =>
    circle.setTask id (.pass (onward row left (circle.entriesFor row.1)))
  | _ => circle

def postEntry : Circle :=
  match circle.tasks.get id with
  | some (.pass (.entries row entry rest left)) =>
    (circle.setTask id (.pass (.posted row entry rest left))).record (.sent row.1 entry.body)
  | _ => circle

def skipEntry : Circle :=
  match circle.tasks.get id with
  | some (.pass (.entries row _ rest left)) => circle.setTask id (.pass (onward row left rest))
  | _ => circle

def removeFromQueue : Circle :=
  { circle with queue := circle.queue.filter (fun entry => entry.id ≠ id) }

def incrementRetry : Circle :=
  { circle with
    queue := circle.queue.map (fun entry =>
      if entry.id = id then { entry with retryCount := entry.retryCount + 1 } else entry) }

end

theorem mem_incrementRetry {id entry} (member : entry ∈ (circle.incrementRetry id).queue) :
    ∃ before ∈ circle.queue, before.target = entry.target ∧ before.body = entry.body := by
  rcases List.mem_map.mp member with ⟨before, inQueue, same⟩
  refine ⟨before, inQueue, ?_⟩
  rw [← same]
  split <;> exact ⟨rfl, rfl⟩

section

variable (circle : Circle)

section

variable (id : Nat)

/-- A delivered entry leaves the queue; a failure is counted, and at the tenth one a row that
was `pending-send` is to be marked. -/
def entryResponse (delivered : Bool) : Circle :=
  match circle.tasks.get id with
  | some (.pass (.posted row entry rest left)) =>
    if delivered then
      ((circle.receive row.1 entry.body).removeFromQueue entry.id).setTask id (.pass (.delivered row left))
    else
      (circle.incrementRetry entry.id).setTask id (.pass
        (if 10 ≤ entry.retryCount + 1 ∧ row.2 = .pendingSend then .failed row rest left
          else onward row left rest))
  | _ => circle

def markRow : Circle :=
  match circle.tasks.get id with
  | some (.pass (.delivered row left)) =>
    (circle.updateStatus row.1 .accepted).setTask id (.pass (.clearing row left))
  | some (.pass (.failed row rest left)) =>
    (circle.updateStatus row.1 .sendFailed).setTask id (.pass (onward row left rest))
  | _ => circle

/-- `_removeAcceptEntriesFor` reads the entries and removes them one by one. -/
def readDuplicates : Circle :=
  match circle.tasks.get id with
  | some (.pass (.clearing row left)) =>
    circle.setTask id (.pass (.dropping ((circle.entriesFor row.1).map QueueEntry.id) left))
  | _ => circle

def dropDuplicate : Circle :=
  match circle.tasks.get id with
  | some (.pass (.dropping [] left)) => circle.setTask id (.pass (.rows left))
  | some (.pass (.dropping (entry :: ids) left)) =>
    (circle.removeFromQueue entry).setTask id (.pass (.dropping ids left))
  | _ => circle

/-! ## removeFollower -/

/-- `unfollow` goes on to `removeFollower` for an accepted follower only. -/
def unfollow (follower : Pubkey) : Circle :=
  if circle.isAccepted follower then circle.start (.remove follower .checking) else circle

def remove (follower : Pubkey) : Circle := circle.start (.remove follower .checking)

/-- Who is not an accepted follower counts as removed already. -/
def check : Circle :=
  match circle.tasks.get id with
  | some (.remove follower .checking) =>
    if circle.isAccepted follower then circle.setTask id (.remove follower .removing)
    else (circle.finish id).record (.removed follower)
  | _ => circle

def deleteRow : Circle :=
  match circle.tasks.get id with
  | some (.remove follower .removing) =>
    { circle with inbound := circle.inbound.erase follower }.setTask id (.remove follower .deleted)
  | _ => circle

def clear : Circle :=
  match circle.tasks.get id with
  | some (.remove follower .deleted) =>
    { circle with pending := circle.pending.clearFor follower }.setTask id (.remove follower .cleared)
  | _ => circle

def rotate (id : Nat) : Circle :=
  match circle.tasks.get id with
  | some (.remove follower .cleared) =>
    { circle with author := circle.author.queue (.rotate follower .waiting) }.setTask
      id (.remove follower (.rotating circle.author.tasks.next))
  | _ => circle

/-- The call returns when its rotation has run to the end, and throws when the rotation has. -/
def finishRemoval : Circle :=
  match circle.tasks.get id with
  | some (.remove follower (.rotating rotation)) =>
    if rotation ∈ circle.rotated then (circle.finish id).record (.removed follower)
    else if circle.author.tasks.get rotation = none then circle.finish id
    else circle
  | _ => circle

end

/-- `getAcceptedFollowerPubkeys`. -/
def acceptedFollowers : List Pubkey :=
  (circle.inbound.entries.filter (fun entry => entry.2.status = .accepted)).map Sigma.fst

/-- `sealAndQueueForAcceptedFollowers`. -/
def sealFor (pending : Distributions) (followers : List Pubkey) (createdAt : Int) (feedKey : FeedKey) :
    Distributions :=
  followers.foldl (fun table follower => table.add follower createdAt feedKey) pending

/-- The distributions after a step of the device: a rotation seals its key for all accepted
followers but the removed one, and sweeps the rows of that one in the end. -/
def pendingAfter : AuthorInput -> Distributions
  | .distribute id =>
    match circle.author.tasks.get id with
    | some (.rotate removedPubkey (.renewed newKey now)) =>
      sealFor circle.pending (circle.acceptedFollowers.filter (fun follower => follower ≠ removedPubkey)) now newKey
    | _ => circle.pending
  | .sweep id =>
    match circle.author.tasks.get id with
    | some (.rotate removedPubkey .queued) => circle.pending.clearFor removedPubkey
    | _ => circle.pending
  | _ => circle.pending

def rotatedAfter : AuthorInput -> List Nat
  | .sweep id =>
    match circle.author.tasks.get id with
    | some (.rotate _ .queued) => circle.rotated ++ [id]
    | _ => circle.rotated
  | _ => circle.rotated

def postsOf (before after : Author) : List CircleEvent :=
  (after.sealed.drop before.sealed.length).map (fun entry => .posted entry.1 entry.2.feedKey)

def device (input : AuthorInput) : Circle :=
  if input = .crash then circle
  else
    match circle.author.step input with
    | .error stop => nomatch stop
    | .ok next =>
      { circle with
        author := next
        pending := circle.pendingAfter input
        rotated := circle.rotatedAfter input
        log := circle.log ++ postsOf circle.author next }

/-- `GET /manifest`: the acknowledgement counts first, and then the newest waiting key is attached. -/
def poll (follower : Pubkey) (ackRotationAt : Option Int) : Circle :=
  let pending := match ackRotationAt with
    | none => circle.pending
    | some upTo => circle.pending.markDelivered follower upTo
  let acked := { circle with pending := pending }
  if outside.attaches (circle.status follower) then
    match pending.latestPendingFor follower with
    | none => acked
    | some row => acked.record (.handed follower row.feedKey)
  else acked

def step : CircleInput -> Except Empty Circle
  | .author input => .ok (circle.device input)
  | .request body now => .ok (circle.request body now)
  | .saveRequest id => .ok (circle.saveRequest id)
  | .reject requester => .ok (circle.reject requester)
  | .accept requester => .ok (circle.accept requester)
  | .readRequest id => .ok (circle.readRequest outside id)
  | .dial id reachable nonce => .ok (circle.dial id reachable nonce)
  | .respond id delivered => .ok (circle.respond id delivered)
  | .enqueue id => .ok (circle.enqueue id)
  | .mark id => .ok (circle.mark id)
  | .retry onlyPubkey => .ok (circle.retry onlyPubkey)
  | .nextRow id => .ok (circle.nextRow id)
  | .postEntry id => .ok (circle.postEntry id)
  | .skipEntry id => .ok (circle.skipEntry id)
  | .entryResponse id delivered => .ok (circle.entryResponse id delivered)
  | .markRow id => .ok (circle.markRow id)
  | .readDuplicates id => .ok (circle.readDuplicates id)
  | .dropDuplicate id => .ok (circle.dropDuplicate id)
  | .unfollow follower => .ok (circle.unfollow follower)
  | .remove follower => .ok (circle.remove follower)
  | .check id => .ok (circle.check id)
  | .deleteRow id => .ok (circle.deleteRow id)
  | .clear id => .ok (circle.clear id)
  | .rotate id => .ok (circle.rotate id)
  | .finishRemoval id => .ok (circle.finishRemoval id)
  | .poll follower ackRotationAt => .ok (circle.poll outside follower ackRotationAt)

end

def boot (identity : Identity) (events : Table String EventRow) : Circle where
  author := Author.boot identity events
  inbound := ∅
  queue := []
  nextEntry := 0
  pending := ∅
  tasks := Jobs.empty
  rotated := []
  received := ∅
  log := []

end Circle

/-! ## What a step can do -/

section

variable (outside : Circle.Outside) (circle : Circle)

/-- The steps that change something, with what they find and what they leave.  In `drop` a
call ends, or throws, without doing anything else. -/
inductive CircleMove : CircleInput -> Circle -> Prop where
  | stay (input) : CircleMove input circle
  | drop (input id) : CircleMove input (circle.finish id)
  | device (input after) (running : input ≠ .crash) (stepped : circle.author.step input = .ok after) :
      CircleMove (.author input)
        { circle with
          author := after
          pending := circle.pendingAfter input
          rotated := circle.rotatedAfter input
          log := circle.log ++ Circle.postsOf circle.author after }
  | request (body now) : CircleMove (.request body now) (circle.start (.ingest body now))
  | saveRequest (id body now) (found : circle.tasks.get id = some (.ingest body now)) :
      CircleMove (.saveRequest id) ({ circle with
          inbound := circle.inbound.insert body.requesterPubkey ⟨body, now, body.timestamp, .pending⟩ }.finish id)
  | reject (requester) : CircleMove (.reject requester)
        { circle with inbound := circle.inbound.erase requester }
  | accept (requester identity) (row : circle.author.row = some identity) :
      CircleMove (.accept requester)
        ((circle.start (.accept requester (.started identity))).record (.accepting requester))
  | readRequest (id requester identity inbound card)
      (found : circle.tasks.get id = some (.accept requester (.started identity)))
      (row : circle.inbound.lookup requester = some inbound)
      (decrypted : decryptInner outside.decodeInner inbound.payload identity inbound.requestTimestamp = some card) :
      CircleMove (.readRequest id)
        (circle.setTask id (.accept requester (.dialing identity card inbound.requestTimestamp)))
  | post (id nonce requester identity card timestamp body)
      (found : circle.tasks.get id = some (.accept requester (.dialing identity card timestamp)))
      (built : buildAcceptBody identity card timestamp nonce = some body) :
      CircleMove (.dial id true nonce)
        ((circle.setTask id (.accept requester (.awaiting body))).record (.sent requester body))
  | unreachable (id nonce requester identity card timestamp body)
      (found : circle.tasks.get id = some (.accept requester (.dialing identity card timestamp)))
      (built : buildAcceptBody identity card timestamp nonce = some body) :
      CircleMove (.dial id false nonce) (circle.setTask id (.accept requester (.queueing body)))
  | acknowledge (id requester body)
      (found : circle.tasks.get id = some (.accept requester (.awaiting body))) :
      CircleMove (.respond id true) ((circle.receive requester body).setTask id (.accept requester .acknowledged))
  | refuse (id requester body) (found : circle.tasks.get id = some (.accept requester (.awaiting body))) :
      CircleMove (.respond id false) (circle.setTask id (.accept requester (.queueing body)))
  | enqueue (id requester body) (found : circle.tasks.get id = some (.accept requester (.queueing body))) :
      CircleMove (.enqueue id) ({ circle with
          queue := circle.queue ++ [QueueEntry.mk circle.nextEntry requester body 0]
          nextEntry := circle.nextEntry + 1 }.setTask id (.accept requester .queued))
  | markAccepted (id requester) (found : circle.tasks.get id = some (.accept requester .acknowledged)) :
      CircleMove (.mark id) ((circle.updateStatus requester .accepted).finish id)
  | markQueued (id requester) (found : circle.tasks.get id = some (.accept requester .queued)) :
      CircleMove (.mark id) ((circle.updateStatus requester .pendingSend).finish id)
  | retry (onlyPubkey) : CircleMove (.retry onlyPubkey)
        (circle.start (.pass (.rows (circle.retryRows onlyPubkey))))
  | nextRow (id row left) (found : circle.tasks.get id = some (.pass (.rows (row :: left)))) :
      CircleMove (.nextRow id) (circle.setTask id (.pass (Circle.onward row left (circle.entriesFor row.1))))
  | postEntry (id row entry rest left)
      (found : circle.tasks.get id = some (.pass (.entries row entry rest left))) :
      CircleMove (.postEntry id)
        ((circle.setTask id (.pass (.posted row entry rest left))).record (.sent row.1 entry.body))
  | skipEntry (id row entry rest left)
      (found : circle.tasks.get id = some (.pass (.entries row entry rest left))) :
      CircleMove (.skipEntry id) (circle.setTask id (.pass (Circle.onward row left rest)))
  | entryDelivered (id row entry rest left)
      (found : circle.tasks.get id = some (.pass (.posted row entry rest left))) :
      CircleMove (.entryResponse id true) (((circle.receive row.1 entry.body).removeFromQueue entry.id).setTask
          id (.pass (.delivered row left)))
  | entryFailed (id row entry rest left phase)
      (found : circle.tasks.get id = some (.pass (.posted row entry rest left)))
      (onto : phase = .failed row rest left ∨ phase = Circle.onward row left rest) :
      CircleMove (.entryResponse id false) ((circle.incrementRetry entry.id).setTask id (.pass phase))
  | markRow (id row left) (found : circle.tasks.get id = some (.pass (.delivered row left))) :
      CircleMove (.markRow id) ((circle.updateStatus row.1 .accepted).setTask id (.pass (.clearing row left)))
  | markFailed (id row rest left) (found : circle.tasks.get id = some (.pass (.failed row rest left))) :
      CircleMove (.markRow id)
        ((circle.updateStatus row.1 .sendFailed).setTask id (.pass (Circle.onward row left rest)))
  | readDuplicates (id row left) (found : circle.tasks.get id = some (.pass (.clearing row left))) :
      CircleMove (.readDuplicates id)
        (circle.setTask id (.pass (.dropping ((circle.entriesFor row.1).map QueueEntry.id) left)))
  | dropped (id left) (found : circle.tasks.get id = some (.pass (.dropping [] left))) :
      CircleMove (.dropDuplicate id) (circle.setTask id (.pass (.rows left)))
  | dropDuplicate (id entry ids left)
      (found : circle.tasks.get id = some (.pass (.dropping (entry :: ids) left))) :
      CircleMove (.dropDuplicate id) ((circle.removeFromQueue entry).setTask id (.pass (.dropping ids left)))
  | remove (input follower) : CircleMove input (circle.start (.remove follower .checking))
  | checkAccepted (id follower) (found : circle.tasks.get id = some (.remove follower .checking))
      (accepted : circle.isAccepted follower = true) :
      CircleMove (.check id) (circle.setTask id (.remove follower .removing))
  | checkMissing (id follower) (found : circle.tasks.get id = some (.remove follower .checking))
      (missing : circle.isAccepted follower = false) :
      CircleMove (.check id) ((circle.finish id).record (.removed follower))
  | deleteRow (id follower) (found : circle.tasks.get id = some (.remove follower .removing)) :
      CircleMove (.deleteRow id)
        ({ circle with inbound := circle.inbound.erase follower }.setTask id (.remove follower .deleted))
  | clear (id follower) (found : circle.tasks.get id = some (.remove follower .deleted)) :
      CircleMove (.clear id)
        ({ circle with pending := circle.pending.clearFor follower }.setTask id (.remove follower .cleared))
  | rotate (id follower) (found : circle.tasks.get id = some (.remove follower .cleared)) :
      CircleMove (.rotate id) ({ circle with author := circle.author.queue (.rotate follower .waiting) }.setTask
          id (.remove follower (.rotating circle.author.tasks.next)))
  | finishRemoval (id follower rotation)
      (found : circle.tasks.get id = some (.remove follower (.rotating rotation)))
      (done : rotation ∈ circle.rotated) :
      CircleMove (.finishRemoval id) ((circle.finish id).record (.removed follower))
  | acknowledged (follower ackRotationAt pending)
      (marks : pending = circle.pending ∨
        ∃ upTo, ackRotationAt = some upTo ∧ pending = circle.pending.markDelivered follower upTo) :
      CircleMove (.poll follower ackRotationAt) { circle with pending := pending }
  | handed (follower ackRotationAt pending row)
      (marks : pending = circle.pending ∨
        ∃ upTo, ackRotationAt = some upTo ∧ pending = circle.pending.markDelivered follower upTo)
      (attached : outside.attaches (circle.status follower) = true)
      (latest : pending.latestPendingFor follower = some row) : CircleMove (.poll follower ackRotationAt)
        ({ circle with pending := pending }.record (.handed follower row.feedKey))

end

namespace Circle

section Moves

variable {outside : Outside} {circle next : Circle} {id : Nat}

theorem move_device (input) : CircleMove outside circle (.author input) (circle.device input) := by
  unfold device
  split
  · exact .stay _
  next running =>
    split
    next stop _ => exact nomatch stop
    next after stepped => exact .device input after running stepped

theorem move_request (body now) : CircleMove outside circle (.request body now) (circle.request body now) := by
  unfold request
  split
  · exact .request body now
  · exact .request body now
  · exact .stay _

theorem move_saveRequest : CircleMove outside circle (.saveRequest id) (circle.saveRequest id) := by
  unfold saveRequest
  split
  next body now found => exact .saveRequest id body now found
  · exact .stay _

theorem move_accept (requester) : CircleMove outside circle (.accept requester) (circle.accept requester) := by
  unfold accept
  split
  · exact .stay _
  next identity row => exact .accept requester identity row

theorem move_readRequest : CircleMove outside circle (.readRequest id) (circle.readRequest outside id) := by
  unfold readRequest
  split
  next requester identity found =>
    split
    · exact .drop _ id
    next inbound row =>
      split
      · exact .drop _ id
      next card decrypted => exact .readRequest id requester identity inbound card found row decrypted
  · exact .stay _

theorem move_dial (reachable nonce) :
    CircleMove outside circle (.dial id reachable nonce) (circle.dial id reachable nonce) := by
  unfold dial
  split
  next requester identity card timestamp found =>
    split
    · exact .drop _ id
    next body built =>
      cases reachable with
      | true => exact .post id nonce requester identity card timestamp body found built
      | false => exact .unreachable id nonce requester identity card timestamp body found built
  · exact .stay _

theorem move_respond (delivered) :
    CircleMove outside circle (.respond id delivered) (circle.respond id delivered) := by
  unfold respond
  split
  next requester body found =>
    cases delivered with
    | true => exact .acknowledge id requester body found
    | false => exact .refuse id requester body found
  · exact .stay _

theorem move_enqueue : CircleMove outside circle (.enqueue id) (circle.enqueue id) := by
  unfold enqueue
  split
  next requester body found => exact .enqueue id requester body found
  · exact .stay _

theorem move_mark : CircleMove outside circle (.mark id) (circle.mark id) := by
  unfold mark
  split
  next requester found => exact .markAccepted id requester found
  next requester found => exact .markQueued id requester found
  · exact .stay _

theorem move_retry (onlyPubkey) : CircleMove outside circle (.retry onlyPubkey) (circle.retry onlyPubkey) := by
  unfold retry
  split
  · exact .retry onlyPubkey
  · exact .stay _

theorem move_nextRow : CircleMove outside circle (.nextRow id) (circle.nextRow id) := by
  unfold nextRow
  split
  · exact .drop _ id
  next row left found => exact .nextRow id row left found
  · exact .stay _

theorem move_postEntry : CircleMove outside circle (.postEntry id) (circle.postEntry id) := by
  unfold postEntry
  split
  next row entry rest left found => exact .postEntry id row entry rest left found
  · exact .stay _

theorem move_skipEntry : CircleMove outside circle (.skipEntry id) (circle.skipEntry id) := by
  unfold skipEntry
  split
  next row entry rest left found => exact .skipEntry id row entry rest left found
  · exact .stay _

theorem move_entryResponse (delivered) :
    CircleMove outside circle (.entryResponse id delivered) (circle.entryResponse id delivered) := by
  unfold entryResponse
  split
  next row entry rest left found =>
    cases delivered with
    | true => exact .entryDelivered id row entry rest left found
    | false =>
      apply CircleMove.entryFailed id row entry rest left _ found
      split
      · exact .inl rfl
      · exact .inr rfl
  · exact .stay _

theorem move_markRow : CircleMove outside circle (.markRow id) (circle.markRow id) := by
  unfold markRow
  split
  next row left found => exact .markRow id row left found
  next row rest left found => exact .markFailed id row rest left found
  · exact .stay _

theorem move_readDuplicates : CircleMove outside circle (.readDuplicates id) (circle.readDuplicates id) := by
  unfold readDuplicates
  split
  next row left found => exact .readDuplicates id row left found
  · exact .stay _

theorem move_dropDuplicate : CircleMove outside circle (.dropDuplicate id) (circle.dropDuplicate id) := by
  unfold dropDuplicate
  split
  next left found => exact .dropped id left found
  next entry ids left found => exact .dropDuplicate id entry ids left found
  · exact .stay _

theorem move_unfollow (follower) : CircleMove outside circle (.unfollow follower) (circle.unfollow follower) := by
  unfold unfollow
  split
  · exact .remove _ follower
  · exact .stay _

theorem move_check : CircleMove outside circle (.check id) (circle.check id) := by
  unfold check
  split
  next follower found =>
    split
    next accepted => exact .checkAccepted id follower found accepted
    next missing => exact .checkMissing id follower found (Bool.not_eq_true _ ▸ missing)
  · exact .stay _

theorem move_deleteRow : CircleMove outside circle (.deleteRow id) (circle.deleteRow id) := by
  unfold deleteRow
  split
  next follower found => exact .deleteRow id follower found
  · exact .stay _

theorem move_clear : CircleMove outside circle (.clear id) (circle.clear id) := by
  unfold clear
  split
  next follower found => exact .clear id follower found
  · exact .stay _

theorem move_rotate : CircleMove outside circle (.rotate id) (circle.rotate id) := by
  unfold rotate
  split
  next follower found => exact .rotate id follower found
  · exact .stay _

theorem move_finishRemoval : CircleMove outside circle (.finishRemoval id) (circle.finishRemoval id) := by
  unfold finishRemoval
  split
  next follower rotation found =>
    split
    next done => exact .finishRemoval id follower rotation found done
    · split
      · exact .drop _ id
      · exact .stay _
  · exact .stay _

theorem move_poll (follower ackRotationAt) : CircleMove outside circle (.poll follower ackRotationAt)
      (circle.poll outside follower ackRotationAt) := by
  have marks : ∀ pending, pending = (match ackRotationAt with
        | none => circle.pending
        | some upTo => circle.pending.markDelivered follower upTo) ->
      pending = circle.pending ∨
        ∃ upTo, ackRotationAt = some upTo ∧ pending = circle.pending.markDelivered follower upTo := by
    rintro _ rfl
    cases ackRotationAt with
    | none => exact .inl rfl
    | some upTo => exact .inr ⟨upTo, rfl, rfl⟩
  unfold poll
  dsimp only
  split
  next attached =>
    split
    · exact .acknowledged follower ackRotationAt _ (marks _ rfl)
    next row latest => exact .handed follower ackRotationAt _ row (marks _ rfl) attached latest
  · exact .acknowledged follower ackRotationAt _ (marks _ rfl)

theorem step_move {input} (stepped : circle.step outside input = .ok next) :
    CircleMove outside circle input next := by
  cases input with cases stepped
  | author input => exact move_device input
  | request body now => exact move_request body now
  | saveRequest => exact move_saveRequest
  | reject requester => exact .reject requester
  | accept requester => exact move_accept requester
  | readRequest => exact move_readRequest
  | dial _ reachable nonce => exact move_dial reachable nonce
  | respond _ delivered => exact move_respond delivered
  | enqueue => exact move_enqueue
  | mark => exact move_mark
  | retry onlyPubkey => exact move_retry onlyPubkey
  | nextRow => exact move_nextRow
  | postEntry => exact move_postEntry
  | skipEntry => exact move_skipEntry
  | entryResponse _ delivered => exact move_entryResponse delivered
  | markRow => exact move_markRow
  | readDuplicates => exact move_readDuplicates
  | dropDuplicate => exact move_dropDuplicate
  | unfollow follower => exact move_unfollow follower
  | remove follower => exact .remove _ follower
  | check => exact move_check
  | deleteRow => exact move_deleteRow
  | clear => exact move_clear
  | rotate => exact move_rotate
  | finishRemoval => exact move_finishRemoval
  | poll follower ackRotationAt => exact move_poll follower ackRotationAt

theorem guarded_move {input} (guarded : Guarded AuthorTask.inside circle.author.lock circle.author.tasks)
    (moved : CircleMove outside circle input next) :
    Guarded AuthorTask.inside next.author.lock next.author.tasks := by
  cases moved with
  | device _ _ _ stepped =>
    exact Author.guarded_move guarded (Author.step_move guarded stepped)
  | rotate => exact guarded.enter rfl
  | _ => exact guarded

end Moves

end Circle

end Starling.App
