import Starling.App.Handshake
import Starling.Foundation.Jobs
import Starling.Foundation.Run

namespace Starling.App

open List Table List.Subset Ciphertext

/-!
# The requester's side of the follow handshake

`sendFollowRequest`, `retryQueuedRequests` and `POST /follow-accept`, cut at their await
points, on a network where an attacker sees every message and delivers what they like.
The request and the accept are encrypted under one key with nothing in them that says which
is which.  So an own request that comes back as an accept is opened, and what it holds
becomes the feed key of the follow.
-/

inductive OutboundStatus where
  | pending
  | pendingSend
  | sendFailed
  deriving DecidableEq

/-- A row of `outbound_follow_requests`.  `createdAt` has the same value. -/
structure OutboundRequest where
  card : ConnectionCard
  requestTimestamp : Int
  status : OutboundStatus

/-- An accept that somebody has built for a requester: `_buildAcceptBody`. -/
structure Grant where
  owner : Bytes
  requester : Bytes
  timestamp : Int
  nonce : Bytes
  feedKey : FeedKey
  deriving DecidableEq

def Grant.encryptedFeedKey (grant : Grant) : Sealed :=
  .box ⟨⟨grant.requester, grant.owner, grant.timestamp⟩, grant.nonce, grant.feedKey⟩

def Grant.inBody (grant : Grant) (body : AcceptBody) : Bool :=
  decide (crockfordBase32Decode body.ownerPubkey = some grant.owner ∧
    body.encryptedFeedKey = grant.encryptedFeedKey ∧ body.nonce = grant.nonce ∧
    body.timestamp = grant.timestamp)

/-- Our own device and the world around it.  `stolen` are the public keys whose secret keys
the attacker has, and `encodeInner` is the CBOR of a card and an epoch. -/
structure HandshakeWorld where
  identity : Identity
  encodeInner : ConnectionCard -> Nat -> Bytes
  stolen : Bytes -> Bool

namespace HandshakeWorld

variable (world : HandshakeWorld)

def known (key : SharedKey) : Bool := world.stolen key.requester || world.stolen key.responder

/-- The ciphertext of `_buildRequestBody`. -/
def encryptedReturnEndpoints (target : ConnectionCard) (ownEndpoints : List Endpoint)
    (timestamp : Int) (nonce : Bytes) : Option Sealed := do
  let sharedKey ← deriveSharedKey world.identity.pubkey target.pubkey timestamp
  let ownCard : ConnectionCard := ⟨world.identity.pubkey, ownEndpoints, ["pairwise-v1", "libp2p-direct-v1"]⟩
  some (.box ⟨sharedKey, nonce, world.encodeInner ownCard world.identity.feedKeyEpoch⟩)

end HandshakeWorld

inductive RequesterTask where
  /-- `sendFollowRequest` before its delivery attempt. -/
  | sending (target : ConnectionCard) (timestamp : Int)
  | posting (target : ConnectionCard) (timestamp : Int)
  | sent (target : ConnectionCard) (timestamp : Int) (delivered : Bool)
  /-- `retryQueuedRequests` before its next row. -/
  | retrying (ownEndpoints : List Endpoint) (left : List (Pubkey × OutboundRequest))
  | reposting (ownEndpoints : List Endpoint) (pubkey : Pubkey) (row : OutboundRequest)
      (left : List (Pubkey × OutboundRequest))
  /-- `ingestFollowAccept` before it reads the outbound request. -/
  | ingesting (body : AcceptBody)
  | unmatched (body : AcceptBody)
  | opened (body : AcceptBody) (outbound : OutboundRequest) (feedKey : FeedKey)
  | stored (body : AcceptBody) (feedKey : FeedKey)

structure SavedFollow where
  body : AcceptBody
  requestTimestamp : Int
  feedKey : FeedKey

/-- An answer, with the stored feed key of the owner at that moment and the feed keys of the
grants that the body carried. -/
structure AcceptAnswer where
  body : AcceptBody
  status : Nat
  held : Option FeedKey
  granted : List FeedKey

structure Requester where
  outbound : Table Pubkey OutboundRequest
  follows : Table Pubkey Follow
  retryCounts : Table Pubkey Nat
  tasks : Jobs RequesterTask
  requests : List Sealed
  grants : List Grant
  overheard : List Sealed
  saved : List SavedFollow
  answers : List AcceptAnswer

/-- The next step of some call.  `respond` is the answer to a request, `none` if there was
none; `deliver` brings an accept, `accept` builds one, and `overhear` is a message of a
handshake that somebody else has started. -/
inductive RequesterInput where
  | send (target : ConnectionCard) (now : Int)
  | attempt (id : Nat) (ownEndpoints : List Endpoint) (reachable : Bool) (nonce : Bytes)
  | respond (id : Nat) (status : Option Nat)
  | saveRequest (id : Nat)
  | retry (onlyPubkey : Option Pubkey) (ownEndpoints : List Endpoint)
  | skip (id : Nat)
  | deliver (body : AcceptBody)
  | readOutbound (id : Nat)
  | readFollow (id : Nat)
  | saveFollow (id : Nat)
  | deleteOutbound (id : Nat)
  | accept (grant : Grant)
  | overhear (ciphertext : Sealed)

namespace RequesterTask

def claims : RequesterTask -> Option Pubkey
  | .opened body _ _ => some body.ownerPubkey
  | .stored body _ => some body.ownerPubkey
  | _ => none

def body : RequesterTask -> Option AcceptBody
  | .ingesting body => some body
  | .unmatched body => some body
  | .opened body _ _ => some body
  | .stored body _ => some body
  | _ => none

def isRetry : RequesterTask -> Bool
  | .retrying _ _ => true
  | .reposting _ _ _ _ => true
  | _ => false

end RequesterTask

def hasOnion (endpoints : List Endpoint) : Bool := endpoints.any (fun endpoint => endpoint.type = "onion")

namespace Requester

variable (world : HandshakeWorld)

section

variable (state : Requester)

section

variable (id : Nat)

def setTask (task : RequesterTask) : Requester :=
  { state with tasks := state.tasks.update id task }

def finish (id : Nat) : Requester :=
  { state with tasks := state.tasks.finish id }

def updateOutboundStatus (pubkey : Pubkey) (status : OutboundStatus) : Requester :=
  match state.outbound.lookup pubkey with
  | none => state
  | some row => { state with outbound := state.outbound.insert pubkey { row with status := status } }

/-- `_onRequestFailure`: at the tenth failure in a row the row is marked. -/
def onRequestFailure (pubkey : Pubkey) (row : OutboundRequest) : Requester :=
  let count := (state.retryCounts.lookup pubkey).getD 0 + 1
  let counted := { state with retryCounts := state.retryCounts.insert pubkey count }
  if 10 ≤ count ∧ row.status = .pendingSend then counted.updateOutboundStatus pubkey .sendFailed
  else counted

/-- `_attemptRequestDelivery`, and the same part of a retry pass: without an onion of our
own or a reachable card nothing is sent.  A public key that cannot be decoded ends the call. -/
def attempt (ownEndpoints : List Endpoint) (reachable : Bool) (nonce : Bytes) : Requester :=
  match state.tasks.get id with
  | some (.sending target timestamp) =>
    if hasOnion ownEndpoints && reachable then
      match world.encryptedReturnEndpoints target ownEndpoints timestamp nonce with
      | none => state.finish id
      | some ciphertext =>
        { state with requests := state.requests ++ [ciphertext] }.setTask id (.posting target timestamp)
    else state.setTask id (.sent target timestamp false)
  | some (.retrying endpoints ((pubkey, row) :: left)) =>
    if reachable then
      match world.encryptedReturnEndpoints row.card endpoints row.requestTimestamp nonce with
      | none => state.finish id
      | some ciphertext =>
        { state with requests := state.requests ++ [ciphertext] }.setTask id (.reposting endpoints pubkey row left)
    else (state.setTask id (.retrying endpoints left)).onRequestFailure pubkey row
  | _ => state

def respond (status : Option Nat) : Requester :=
  match state.tasks.get id with
  | some (.posting target timestamp) =>
    state.setTask id (.sent target timestamp (decide (status = some 202)))
  | some (.reposting endpoints pubkey row left) =>
    let done := state.setTask id (.retrying endpoints left)
    if status = some 202 then
      { done with retryCounts := done.retryCounts.erase pubkey }.updateOutboundStatus pubkey .pending
    else done.onRequestFailure pubkey row
  | _ => state

/-- `saveOutboundRequest`, after the delivery attempt. -/
def saveRequest : Requester :=
  match state.tasks.get id with
  | some (.sent target timestamp delivered) =>
    { state with
      outbound := state.outbound.insert target.pubkey
        ⟨target, timestamp, if delivered then .pending else .pendingSend⟩ }.finish id
  | _ => state

def queuedRequests (onlyPubkey : Option Pubkey) : List (Pubkey × OutboundRequest) :=
  (state.outbound.entries.map (fun entry => (entry.1, entry.2))).filter (fun entry =>
    (decide (entry.2.status = .pendingSend) || decide (entry.2.status = .sendFailed)) &&
      (onlyPubkey.isNone || decide (onlyPubkey = some entry.1)))

def retry (onlyPubkey : Option Pubkey) (ownEndpoints : List Endpoint) : Requester :=
  if state.tasks.every (fun _ task => !task.isRetry) && hasOnion ownEndpoints then
    { state with
      tasks := state.tasks.start (.retrying ownEndpoints (state.queuedRequests onlyPubkey)) }
  else state

def skip : Requester :=
  match state.tasks.get id with
  | some (.retrying endpoints (_ :: left)) => state.setTask id (.retrying endpoints left)
  | some (.retrying _ []) => state.finish id
  | _ => state

/-! ## POST /follow-accept -/

def seen : List Sealed := state.requests ++ state.grants.map Grant.encryptedFeedKey ++ state.overheard

def deliver (body : AcceptBody) : Requester :=
  if body.encryptedFeedKey.canSend world.known state.seen then
    { state with tasks := state.tasks.start (.ingesting body) }
  else state

def granted (body : AcceptBody) : List FeedKey :=
  (state.grants.filter (fun grant =>
    grant.inBody body && decide (crockfordBase32Decode world.identity.pubkey = some grant.requester))).map
    Grant.feedKey

def answer (body : AcceptBody) (status : Nat) : Requester :=
  { state with
    answers := state.answers ++
      [AcceptAnswer.mk body status ((state.follows.lookup body.ownerPubkey).map Follow.feedKey)
        (state.granted world body)] }.finish id

/-- The outbound request decides: a missing one leads to the follow, another timestamp and
a ciphertext that does not open are answered with 400. -/
def readOutbound : Requester :=
  match state.tasks.get id with
  | some (.ingesting body) =>
    match state.outbound.lookup body.ownerPubkey with
    | none => state.setTask id (.unmatched body)
    | some outbound =>
      if outbound.requestTimestamp = body.timestamp then
        match deriveSharedKey world.identity.pubkey body.ownerPubkey body.timestamp with
        | none => state.answer world id body 500
        | some sharedKey =>
          match body.encryptedFeedKey.decrypt sharedKey body.nonce with
          | none => state.answer world id body 400
          | some feedKey => state.setTask id (.opened body outbound feedKey)
      else state.answer world id body 400
  | _ => state

/-- The idempotent shortcut: if there is a follow, the accept counts as ingested. -/
def readFollow : Requester :=
  match state.tasks.get id with
  | some (.unmatched body) =>
    match state.follows.lookup body.ownerPubkey with
    | none => state.answer world id body 404
    | some _ => state.answer world id body 202
  | _ => state

def newFollow (body : AcceptBody) (card : ConnectionCard) (feedKey : FeedKey) : Follow where
  pubkey := body.ownerPubkey
  connectionCard := card
  feedKey := feedKey
  feedKeyEpoch := body.epoch
  lastSyncedAt := 0
  lastFullSyncAt := 0
  lastReceivedRotationAt := 0
  lastReceivedCardAt := 0
  lastDecryptFailureAt := none

def saveFollow : Requester :=
  match state.tasks.get id with
  | some (.opened body outbound feedKey) =>
    { state with
      follows := state.follows.insert body.ownerPubkey (newFollow body outbound.card feedKey)
      saved := state.saved ++ [SavedFollow.mk body outbound.requestTimestamp feedKey] }.setTask
      id (.stored body feedKey)
  | _ => state

def deleteOutbound : Requester :=
  match state.tasks.get id with
  | some (.stored body _) =>
    { state with outbound := state.outbound.erase body.ownerPubkey }.answer world id body 202
  | _ => state

end

def overhear (ciphertext : Sealed) : Requester :=
  match ciphertext with
  | .noise _ => state
  | .box made =>
    if crockfordBase32Decode world.identity.pubkey = some made.key.requester then state
    else { state with overheard := state.overheard ++ [ciphertext] }

def step : RequesterInput -> Except Empty Requester
  | .send target now => .ok { state with tasks := state.tasks.start (.sending target now) }
  | .attempt id ownEndpoints reachable nonce =>
    .ok (state.attempt world id ownEndpoints reachable nonce)
  | .respond id status => .ok (state.respond id status)
  | .saveRequest id => .ok (state.saveRequest id)
  | .retry onlyPubkey ownEndpoints => .ok (state.retry onlyPubkey ownEndpoints)
  | .skip id => .ok (state.skip id)
  | .deliver body => .ok (state.deliver world body)
  | .readOutbound id => .ok (state.readOutbound world id)
  | .readFollow id => .ok (state.readFollow world id)
  | .saveFollow id => .ok (state.saveFollow id)
  | .deleteOutbound id => .ok (state.deleteOutbound world id)
  | .accept grant => .ok { state with grants := state.grants ++ [grant] }
  | .overhear ciphertext => .ok (state.overhear world ciphertext)

def boot : Requester where
  outbound := ∅
  follows := ∅
  retryCounts := ∅
  tasks := Jobs.empty
  requests := []
  grants := []
  overheard := []
  saved := []
  answers := []

/-! ## When the handshake authenticates -/

def lastSaved (saved : List SavedFollow) (owner : Pubkey) : Option SavedFollow :=
  (saved.filter (fun entry => entry.body.ownerPubkey = owner)).getLast?

theorem lastSaved_append (saved entry owner) : lastSaved (saved ++ [entry]) owner =
      if entry.body.ownerPubkey = owner then some entry else lastSaved saved owner := by
  rw [lastSaved, filter_append, filter_singleton]
  by_cases same : entry.body.ownerPubkey = owner
  · rw [if_pos same, decide_eq_true same, cond_true, getLast?_concat]
  · rw [if_neg same, decide_eq_false same, cond_false, append_nil, lastSaved]

/-- No own request is read as an accept, no two accepts of one owner are worked on at once
after their reading, and the shortcut answers a grant only if the follow was made from the
same ciphertext. -/
def authentic : RequesterInput -> Bool
  | .readOutbound id =>
    match state.tasks.get id with
    | some (.ingesting body) =>
      decide (body.encryptedFeedKey ∉ state.requests) &&
        state.tasks.every (fun _ task => task.claims ≠ some body.ownerPubkey)
    | _ => true
  | .readFollow id =>
    match state.tasks.get id with
    | some (.unmatched body) =>
      decide (state.granted world body = []) || (lastSaved state.saved body.ownerPubkey).any (fun entry =>
          decide (entry.body.encryptedFeedKey = body.encryptedFeedKey))
    | _ => true
  | _ => true

end

end Requester

namespace RequesterTask

def plain : RequesterTask -> Option (AcceptBody × FeedKey)
  | .opened body _ feedKey => some (body, feedKey)
  | .stored body feedKey => some (body, feedKey)
  | _ => none

theorem body_of_plain {task : RequesterTask} {body} {feedKey : FeedKey} (plain : task.plain = some (body, feedKey)) :
    task.body = some body ∧ task.claims = some body.ownerPubkey := by
  cases task with
  | opened | stored => cases plain; exact ⟨rfl, rfl⟩
  | _ => cases plain

theorem body_of_claims {task : RequesterTask} {owner : Pubkey} (claims : task.claims = some owner) :
    task.body ≠ none := by
  cases task with
  | opened | stored | ingesting | unmatched => exact nofun
  | _ => cases claims

end RequesterTask

def AcceptBody.Opens (world : HandshakeWorld) (body : AcceptBody) (feedKey : FeedKey) : Prop :=
  ∃ sharedKey, deriveSharedKey world.identity.pubkey body.ownerPubkey body.timestamp = some sharedKey ∧
    body.encryptedFeedKey = .box ⟨sharedKey, body.nonce, feedKey⟩

/-- If the attacker lacks the key of our handshake with the owner, the owner has made the
ciphertext for us. -/
def AcceptBody.Granted (world : HandshakeWorld) (grants : List Grant) (body : AcceptBody) : Prop :=
  ∀ sharedKey, deriveSharedKey world.identity.pubkey body.ownerPubkey body.timestamp = some sharedKey ->
    world.known sharedKey = false -> ∃ grant ∈ grants, grant.encryptedFeedKey = body.encryptedFeedKey

theorem AcceptBody.Granted.mono {world : HandshakeWorld} {grants} {body : AcceptBody}
    (granted : body.Granted world grants) (grant : Grant) : body.Granted world (grants ++ [grant]) := by
  intro sharedKey derived lacks
  rcases granted sharedKey derived lacks with ⟨found, member, same⟩
  exact ⟨found, mem_append_left _ member, same⟩

namespace Requester

variable {world : HandshakeWorld} {state next : Requester} {id : Nat} {body : AcceptBody}
  {feedKey : FeedKey} {input : RequesterInput}

theorem mem_seen {ciphertext : Sealed} : ciphertext ∈ state.seen ↔
    ciphertext ∈ state.requests ∨ (∃ grant ∈ state.grants, grant.encryptedFeedKey = ciphertext) ∨
      ciphertext ∈ state.overheard := by
  rw [seen, mem_append, mem_append, mem_map, or_assoc]

theorem seen_grows (requests : state.requests ⊆ next.requests) (grants : state.grants ⊆ next.grants)
    (overheard : state.overheard ⊆ next.overheard) : state.seen ⊆ next.seen := by
  intro ciphertext member
  rw [mem_seen] at member ⊢
  rcases member with own | ⟨grant, inGrants, same⟩ | other
  · exact .inl (requests own)
  · exact .inr (.inl ⟨grant, grants inGrants, same⟩)
  · exact .inr (.inr (overheard other))

structure Authentic (world : HandshakeWorld) (state : Requester) : Prop where
  sendable : state.tasks.All (fun _ task => ∀ body, task.body = some body ->
    body.encryptedFeedKey.canSend world.known state.seen = true)
  foreign : ∀ made, Ciphertext.box made ∈ state.overheard ->
    crockfordBase32Decode world.identity.pubkey ≠ some made.key.requester
  opened : state.tasks.All (fun _ task => ∀ body feedKey, task.plain = some (body, feedKey) ->
    body.Opens world feedKey ∧ body.Granted world state.grants)
  matched : state.tasks.All (fun _ task => ∀ body outbound feedKey,
    task = .opened body outbound feedKey -> outbound.requestTimestamp = body.timestamp)
  exclusive : state.tasks.Exclusive RequesterTask.claims
  stored : state.tasks.All (fun _ task => ∀ body feedKey, task = .stored body feedKey ->
    (state.follows.lookup body.ownerPubkey).map Follow.feedKey = some feedKey)
  saved : ∀ entry ∈ state.saved, entry.body.Opens world entry.feedKey ∧ entry.body.Granted world state.grants ∧
      entry.requestTimestamp = entry.body.timestamp
  latest : ∀ owner follow, state.follows.lookup owner = some follow ->
    ∃ entry, lastSaved state.saved owner = some entry ∧ entry.feedKey = follow.feedKey
  answered : ∀ answer ∈ state.answers, answer.status = 202 -> ∀ key ∈ answer.granted, answer.held = some key

namespace Authentic

section

variable (auth : Authentic world state)
include auth

theorem quiet (follows : next.follows = state.follows) (saved : next.saved = state.saved)
    (answers : next.answers = state.answers) (grants : next.grants = state.grants)
    (overheard : next.overheard = state.overheard) (requests : state.requests ⊆ next.requests)
    (tasks : ∀ id task, next.tasks.get id = some task -> state.tasks.get id = some task ∨ task.body = none) :
    Authentic world next := by
  have old : ∀ {id task body}, next.tasks.get id = some task -> task.body = some body ->
      state.tasks.get id = some task := by
    intro id task body found carries
    rcases tasks id task found with before | nothing
    · exact before
    · rw [nothing] at carries
      cases carries
  have claimed : ∀ {id task owner}, next.tasks.get id = some task -> task.claims = some owner ->
      state.tasks.get id = some task := by
    intro id task owner found claims
    rcases tasks id task found with before | nothing
    · exact before
    · exact (RequesterTask.body_of_claims claims nothing).elim
  refine ⟨?_, ?_, ?_, ?_, ?_, ?_, ?_, ?_, ?_⟩
  · intro id task found body carries
    apply canSend_mono _ (auth.sendable id task (old found carries) body carries)
    apply seen_grows requests
    · rw [grants]
      exact refl _
    · rw [overheard]
      exact refl _
  · rw [overheard]
    exact auth.foreign
  · intro id task found body key plain
    rw [grants]
    exact auth.opened id task (old found (RequesterTask.body_of_plain plain).1) body key plain
  · intro id task found body outbound key is
    exact auth.matched id task (old found (by rw [is]; rfl)) body outbound key is
  · intro first second left right owner atFirst atSecond leftClaims rightClaims
    exact auth.exclusive first second left right owner (claimed atFirst leftClaims)
      (claimed atSecond rightClaims) leftClaims rightClaims
  · intro id task found body key is
    rw [follows]
    exact auth.stored id task (old found (by rw [is]; rfl)) body key is
  · rw [saved, grants]
    exact auth.saved
  · rw [follows, saved]
    exact auth.latest
  · rw [answers]
    exact auth.answered

theorem quiet_finish (id) : Authentic world (state.finish id) := by
  refine auth.quiet rfl rfl rfl rfl rfl (refl _) (Jobs.all_finish ?_)
  exact fun _ _ found _ => .inl found

theorem quiet_update {old task} (found : state.tasks.get id = some old)
    (nothing : task.body = none) : Authentic world (state.setTask id task) := by
  refine auth.quiet rfl rfl rfl rfl rfl (refl _) (Jobs.all_update found ?_ (.inr nothing))
  exact fun _ _ atOther _ => .inl atOther

theorem quiet_start {task} (nothing : task.body = none) :
    Authentic world { state with tasks := state.tasks.start task } := by
  refine auth.quiet rfl rfl rfl rfl rfl (refl _) (Jobs.All.start ?_ (.inr nothing))
  exact fun _ _ atOther => .inl atOther

theorem updateOutboundStatus (pubkey status) : Authentic world (state.updateOutboundStatus pubkey status) := by
  unfold Requester.updateOutboundStatus
  split
  · exact auth
  · exact { auth with }

theorem onRequestFailure (pubkey row) : Authentic world (state.onRequestFailure pubkey row) := by
  have counted : Authentic world
      { state with
        retryCounts := state.retryCounts.insert pubkey ((state.retryCounts.lookup pubkey).getD 0 + 1) } :=
    { auth with }
  unfold Requester.onRequestFailure
  dsimp only
  split
  · exact counted.updateOutboundStatus pubkey .sendFailed
  · exact counted

theorem request (ciphertext : Sealed) : Authentic world { state with requests := state.requests ++ [ciphertext] } :=
  auth.quiet rfl rfl rfl rfl rfl (subset_append_left _ _) (fun _ _ found => Or.inl found)

theorem attempt (ownEndpoints reachable nonce) :
    Authentic world (state.attempt world id ownEndpoints reachable nonce) := by
  unfold Requester.attempt
  split
  next found =>
    split
    · split
      · exact auth.quiet_finish id
      next ciphertext _ => exact (auth.request ciphertext).quiet_update found rfl
    · exact auth.quiet_update found rfl
  next pubkey row _ found =>
    split
    · split
      · exact auth.quiet_finish id
      next ciphertext _ => exact (auth.request ciphertext).quiet_update found rfl
    · exact (auth.quiet_update found rfl).onRequestFailure pubkey row
  · exact auth

theorem respond (status) : Authentic world (state.respond id status) := by
  unfold Requester.respond
  split
  next found => exact auth.quiet_update found rfl
  next endpoints pubkey row left found =>
    have done : Authentic world (state.setTask id (.retrying endpoints left)) := auth.quiet_update found rfl
    split
    · have forgotten : Authentic world
          { state.setTask id (.retrying endpoints left) with
            retryCounts := (state.setTask id (.retrying endpoints left)).retryCounts.erase pubkey } :=
        { done with }
      exact forgotten.updateOutboundStatus pubkey .pending
    · exact done.onRequestFailure pubkey row
  · exact auth

theorem saveRequest : Authentic world (state.saveRequest id) := by
  unfold Requester.saveRequest
  split
  next target timestamp delivered _ =>
    have saved : Authentic world
        { state with
          outbound := state.outbound.insert target.pubkey
            ⟨target, timestamp, if delivered then .pending else .pendingSend⟩ } := { auth with }
    exact saved.quiet_finish id
  · exact auth

theorem retry (onlyPubkey ownEndpoints) : Authentic world (state.retry onlyPubkey ownEndpoints) := by
  unfold Requester.retry
  split
  · exact auth.quiet_start rfl
  · exact auth

theorem skip : Authentic world (state.skip id) := by
  unfold Requester.skip
  split
  next found => exact auth.quiet_update found rfl
  · exact auth.quiet_finish id
  · exact auth

theorem deliver (body) : Authentic world (state.deliver world body) := by
  unfold Requester.deliver
  split
  next sends =>
    refine { auth with sendable := ?_, opened := ?_, matched := ?_, exclusive := ?_, stored := ?_ }
    · apply Jobs.All.start auth.sendable
      rintro _ ⟨⟩
      exact sends
    · apply Jobs.All.start auth.opened
      rintro _ _ ⟨⟩
    · apply Jobs.All.start auth.matched
      rintro _ _ _ ⟨⟩
    · exact auth.exclusive.start rfl
    · apply Jobs.All.start auth.stored
      rintro _ _ ⟨⟩
  · exact auth

theorem answer (id body) (status : Nat) (holds : status = 202 -> ∀ key ∈ state.granted world body,
      (state.follows.lookup body.ownerPubkey).map Follow.feedKey = some key) :
    Authentic world (state.answer world id body status) := by
  have logged : Authentic world
      { state with
        answers := state.answers ++ [⟨body, status, (state.follows.lookup body.ownerPubkey).map Follow.feedKey,
            state.granted world body⟩] } := by
    refine { auth with answered := ?_ }
    exact forall_mem_append.mpr ⟨auth.answered, forall_mem_singleton.mpr holds⟩
  exact logged.quiet_finish id

end

theorem redelivered_opens {earlier : AcceptBody} {key : FeedKey} (member : key ∈ state.granted world body)
    (same : earlier.encryptedFeedKey = body.encryptedFeedKey) (opens : earlier.Opens world feedKey) :
    feedKey = key := by
  rw [granted, mem_map] at member
  rcases member with ⟨_, inGrants, sameKey⟩
  have passes := (mem_filter.mp inGrants).2
  rw [Bool.and_eq_true, Grant.inBody, decide_eq_true_eq] at passes
  rcases opens with ⟨_, _, content⟩
  rw [same, passes.1.2.1] at content
  injection content with made
  rw [← sameKey]
  exact (congrArg Box.content made).symm

section

variable (auth : Authentic world state)
include auth

theorem granted_of_opens (sends : body.encryptedFeedKey.canSend world.known state.seen = true)
    (notOwn : body.encryptedFeedKey ∉ state.requests) (opens : body.Opens world feedKey) :
    body.Granted world state.grants := by
  rcases opens with ⟨_, derived, content⟩
  intro other alsoDerived lacks
  rw [derived, Option.some.injEq] at alsoDerived
  subst alsoDerived
  have saw := seen_of_canSend sends lacks (decrypt_eq_some.mpr content)
  rcases mem_seen.mp saw with own | granted | other
  · exact (notOwn own).elim
  · exact granted
  · rw [content] at other
    exact (auth.foreign _ other (deriveSharedKey_eq_some.mp derived).1).elim

theorem readOutbound (allowed : state.authentic world (.readOutbound id) = true) :
    Authentic world (state.readOutbound world id) := by
  unfold Requester.readOutbound
  split
  next body found =>
    have sends := auth.sendable id _ found body rfl
    rw [authentic, found] at allowed
    rw [Bool.and_eq_true, decide_eq_true_eq, Jobs.every_iff] at allowed
    split
    · -- The shortcut: the call goes on with the same body.
      refine { auth with sendable := ?_, opened := ?_, matched := ?_, exclusive := ?_, stored := ?_ }
      · apply auth.sendable.update found
        rintro _ ⟨⟩
        exact sends
      · apply auth.opened.update found
        rintro _ _ ⟨⟩
      · apply auth.matched.update found
        rintro _ _ _ ⟨⟩
      · exact auth.exclusive.update found (.inr rfl)
      · apply auth.stored.update found
        rintro _ _ ⟨⟩
    next =>
      split
      next sameTime =>
        split
        · exact auth.answer id body 500 (by simp)
        next sharedKey derived =>
          split
          · exact auth.answer id body 400 (by simp)
          next feedKey decrypted =>
            have opens : body.Opens world feedKey := ⟨sharedKey, derived, decrypt_eq_some.mp decrypted⟩
            refine { auth with sendable := ?_, opened := ?_, matched := ?_, exclusive := ?_, stored := ?_ }
            · apply auth.sendable.update found
              rintro _ ⟨⟩
              exact sends
            · apply auth.opened.update found
              rintro _ _ ⟨⟩
              exact ⟨opens, auth.granted_of_opens sends allowed.1 opens⟩
            · apply auth.matched.update found
              rintro _ _ _ ⟨⟩
              exact sameTime
            · apply auth.exclusive.claim found
              rintro other job _ atOther _ ⟨⟩
              exact of_decide_eq_true (allowed.2 other job atOther)
            · apply auth.stored.update found
              rintro _ _ ⟨⟩
      · exact auth.answer id body 400 (by simp)
  · exact auth

theorem readFollow (allowed : state.authentic world (.readFollow id) = true) :
    Authentic world (state.readFollow world id) := by
  unfold Requester.readFollow
  split
  next body found =>
    rw [authentic, found] at allowed
    split
    · exact auth.answer id body 404 nofun
    next follow following =>
      apply auth.answer id body 202
      intro _ key member
      rw [Bool.or_eq_true, decide_eq_true_eq] at allowed
      rcases allowed with empty | redelivered
      · rw [empty] at member
        cases member
      · rcases auth.latest body.ownerPubkey follow following with ⟨entry, last, sameKey⟩
        rw [last, Option.any_some, decide_eq_true_eq] at redelivered
        have inSaved : entry ∈ state.saved := mem_of_mem_filter (mem_of_getLast? last)
        have opens := (auth.saved entry inSaved).1
        rw [following, Option.map_some, ← sameKey]
        exact congrArg some (redelivered_opens member redelivered opens)
  · exact auth

theorem saveFollow : Authentic world (state.saveFollow id) := by
  unfold Requester.saveFollow
  split
  next body outbound feedKey found =>
    have facts := auth.opened id _ found body feedKey rfl
    refine { auth with
      sendable := ?_, opened := ?_, matched := ?_, exclusive := ?_, stored := ?_, saved := ?_, latest := ?_ }
    · apply auth.sendable.update found
      rintro _ ⟨⟩
      exact auth.sendable id _ found body rfl
    · apply auth.opened.update found
      rintro _ _ ⟨⟩
      exact facts
    · exact auth.matched.update found nofun
    · exact auth.exclusive.update found (.inl rfl)
    · intro other job atOther otherBody otherKey is
      change (state.tasks.update id _).get other = some job at atOther
      rw [Jobs.get_update found] at atOther
      change ((state.follows.insert body.ownerPubkey _).lookup otherBody.ownerPubkey).map _ = _
      rw [lookup_insert_eq]
      split at atOther
      · cases atOther
        cases is
        rw [if_pos rfl]
        rfl
      next elsewhere =>
        rw [if_neg]
        · exact auth.stored other job atOther otherBody otherKey is
        · intro same
          apply elsewhere
          subst is
          exact auth.exclusive other id _ _ body.ownerPubkey atOther found (congrArg some same) rfl
    · refine forall_mem_append.mpr ⟨auth.saved, forall_mem_singleton.mpr ?_⟩
      exact ⟨facts.1, facts.2, auth.matched id _ found body outbound feedKey rfl⟩
    · intro owner follow following
      change (state.follows.insert body.ownerPubkey _).lookup owner = some follow at following
      rw [lookup_insert_eq] at following
      split at following
      next same =>
        cases following
        refine ⟨⟨body, outbound.requestTimestamp, feedKey⟩, ?_, rfl⟩
        exact (lastSaved_append _ _ owner).trans (if_pos same.symm)
      next apart =>
        rcases auth.latest owner follow following with ⟨entry, last, sameKey⟩
        refine ⟨entry, ?_, sameKey⟩
        refine (lastSaved_append _ _ owner).trans ?_
        rw [if_neg (fun same => apart same.symm)]
        exact last
  · exact auth

theorem deleteOutbound : Authentic world (state.deleteOutbound world id) := by
  unfold Requester.deleteOutbound
  split
  next body feedKey found =>
    have erased : Authentic world { state with outbound := state.outbound.erase body.ownerPubkey } :=
      { auth with }
    apply erased.answer id body 202
    intro _ key member
    have opens := (auth.opened id _ found body feedKey rfl).1
    rw [← redelivered_opens member rfl opens]
    exact auth.stored id _ found body feedKey rfl
  · exact auth

theorem accept (grant : Grant) : Authentic world { state with grants := state.grants ++ [grant] } :=
  { auth with
    sendable := by
      intro id task found body carries
      apply canSend_mono _ (auth.sendable id task found body carries)
      exact seen_grows (refl _) (subset_append_left _ _) (refl _)
    opened := by
      intro id task found body key plain
      have facts := auth.opened id task found body key plain
      exact ⟨facts.1, facts.2.mono grant⟩
    saved := by
      intro entry member
      have facts := auth.saved entry member
      exact ⟨facts.1, facts.2.1.mono grant, facts.2.2⟩ }

theorem overhear (ciphertext) : Authentic world (state.overhear world ciphertext) := by
  unfold Requester.overhear
  split
  · exact auth
  next =>
    split
    · exact auth
    next notOurs =>
      refine { auth with sendable := ?_, foreign := ?_ }
      · intro id task found body carries
        apply canSend_mono _ (auth.sendable id task found body carries)
        exact seen_grows (refl _) (refl _) (subset_append_left _ _)
      · intro other member
        rcases mem_append.mp member with before | new
        · exact auth.foreign other before
        · cases mem_singleton.mp new
          exact notOurs

theorem step (allowed : state.authentic world input = true) (stepped : state.step world input = .ok next) :
    Authentic world next := by
  cases input with cases stepped
  | send => exact auth.quiet_start rfl
  | attempt _ ownEndpoints reachable nonce => exact auth.attempt ownEndpoints reachable nonce
  | respond _ status => exact auth.respond status
  | saveRequest => exact auth.saveRequest
  | retry onlyPubkey ownEndpoints => exact auth.retry onlyPubkey ownEndpoints
  | skip => exact auth.skip
  | deliver body => exact auth.deliver body
  | readOutbound => exact auth.readOutbound allowed
  | readFollow => exact auth.readFollow allowed
  | saveFollow => exact auth.saveFollow
  | deleteOutbound => exact auth.deleteOutbound
  | accept grant => exact auth.accept grant
  | overhear ciphertext => exact auth.overhear ciphertext

end

theorem boot (world) : Authentic world boot where
  sendable := Jobs.Idle.all (fun _ => rfl)
  foreign := nofun
  opened := Jobs.Idle.all (fun _ => rfl)
  matched := Jobs.Idle.all (fun _ => rfl)
  exclusive := Jobs.Exclusive.of_idle (fun _ => rfl)
  stored := Jobs.Idle.all (fun _ => rfl)
  saved := nofun
  latest := nofun
  answered := nofun

end Authentic

/-- If the attacker has neither our secret key nor the owner's, every follow of the owner was
saved with a feed key that the owner has encrypted for us and for the time of our request,
the stored follow is one of these, and a grant that was answered with 202 left its feed key
in the row. -/
theorem follow_keys_authentic (world : HandshakeWorld) {owner : Pubkey} {ownerKey ownKey : Bytes}
    (decoded : crockfordBase32Decode owner = some ownerKey)
    (own : crockfordBase32Decode world.identity.pubkey = some ownKey)
    (ownerSafe : world.stolen ownerKey = false) (ownSafe : world.stolen ownKey = false)
    {inputs : List RequesterInput} {final : Requester}
    (kept : Along (step world) (fun state input => state.authentic world input = true) boot inputs)
    (reached : run (step world) boot inputs = .ok final) :
    (∀ entry ∈ final.saved, entry.body.ownerPubkey = owner ->
      ∃ grant ∈ final.grants, grant.owner = ownerKey ∧ grant.requester = ownKey ∧
        grant.timestamp = entry.requestTimestamp ∧ grant.feedKey = entry.feedKey) ∧
    (∀ follow, final.follows.lookup owner = some follow ->
      ∃ entry ∈ final.saved, entry.body.ownerPubkey = owner ∧ entry.feedKey = follow.feedKey) ∧
    ∀ answer ∈ final.answers, answer.status = 202 -> ∀ key ∈ answer.granted, answer.held = some key := by
  have auth : Authentic world final :=
    run_invariant (fun _ _ _ holds allowed stepped => holds.step allowed stepped) (Authentic.boot world) kept reached
  refine ⟨?_, ?_, auth.answered⟩
  · intro entry member sameOwner
    rcases auth.saved entry member with ⟨⟨sharedKey, derived, content⟩, granted, sameTime⟩
    rcases deriveSharedKey_eq_some.mp derived with ⟨first, second, third⟩
    rw [own, Option.some.injEq] at first
    rw [sameOwner, decoded, Option.some.injEq] at second
    have lacks : world.known sharedKey = false := by
      rw [HandshakeWorld.known, ← first, ← second, ownSafe, ownerSafe, Bool.false_or]
    rcases granted sharedKey derived lacks with ⟨grant, inGrants, same⟩
    rw [content] at same
    injection same with made
    have sameKey := congrArg Box.key made
    refine ⟨grant, inGrants, ?_, ?_, ?_, congrArg Box.content made⟩
    · exact (congrArg SharedKey.responder sameKey).trans second.symm
    · exact (congrArg SharedKey.requester sameKey).trans first.symm
    · exact (congrArg SharedKey.timestamp sameKey).trans (third.trans sameTime.symm)
  · intro follow following
    rcases auth.latest owner follow following with ⟨entry, last, sameKey⟩
    have member := mem_filter.mp (mem_of_getLast? last)
    exact ⟨entry, member.1, of_decide_eq_true member.2, sameKey⟩

/-! ## Runs between two people -/

def exampleOwn : Pubkey := String.ofList (List.replicate 52 'a')

def exampleOwner : Pubkey := String.ofList (List.replicate 52 'b')

def exampleCard : ConnectionCard := ⟨exampleOwner, [⟨"onion", "bbb.onion"⟩], ["pairwise-v1"]⟩

def exampleWorld : HandshakeWorld where
  identity := ⟨exampleOwn, List.replicate 32 1, 0, 0, 0, none, 1⟩
  encodeInner := fun card epoch =>
    card.pubkey.toList.map (fun char => UInt8.ofNat char.toNat) ++ [UInt8.ofNat epoch]
  stolen := fun _ => false

abbrev requesterAfter (inputs : List RequesterInput) : Requester := finalState (step exampleWorld) boot inputs

def exampleNonce (byte : UInt8) : Bytes := List.replicate 24 byte

def requestSteps : List RequesterInput :=
  [.send exampleCard 100, .attempt 0 [⟨"onion", "aaa.onion"⟩] true (exampleNonce 1),
    .respond 0 (some 202), .saveRequest 0]

def exampleGrant : Grant where
  owner := (crockfordBase32Decode exampleOwner).getD []
  requester := (crockfordBase32Decode exampleOwn).getD []
  timestamp := 100
  nonce := exampleNonce 2
  feedKey := List.replicate 32 7

def exampleAccept : AcceptBody := ⟨exampleOwner, exampleGrant.encryptedFeedKey, exampleNonce 2, 0, 100⟩

def honestHandshake : List RequesterInput :=
  requestSteps ++ [.accept exampleGrant, .deliver exampleAccept, .readOutbound 1, .saveFollow 1, .deleteOutbound 1,
      .deliver exampleAccept, .readOutbound 2, .readFollow 2]

theorem follow_keys_authentic_honestHandshake :
    (requesterAfter honestHandshake).answers.map AcceptAnswer.status = [202, 202] ∧
    ∀ follow, (requesterAfter honestHandshake).follows.lookup exampleOwner = some follow ->
      ∃ entry, entry ∈ (requesterAfter honestHandshake).saved ∧
        entry.body.ownerPubkey = exampleOwner ∧ entry.feedKey = follow.feedKey := by
  have checks : checkAlong (step exampleWorld) (fun state input => state.authentic exampleWorld input)
        boot honestHandshake = true ∧
      (run (step exampleWorld) boot honestHandshake).toBool = true ∧
      crockfordBase32Decode exampleOwner = some exampleGrant.owner ∧
      crockfordBase32Decode exampleWorld.identity.pubkey = some exampleGrant.requester := by
    decide +kernel
  refine ⟨by decide +kernel, ?_⟩
  exact (follow_keys_authentic exampleWorld checks.2.2.1 checks.2.2.2 rfl rfl
    (Along.checked checks.1) (run_finalState checks.2.1)).2.1

def exampleInner : Bytes :=
  exampleWorld.encodeInner ⟨exampleOwn, [⟨"onion", "aaa.onion"⟩], ["pairwise-v1", "libp2p-direct-v1"]⟩ 0

def reflectedRequest : AcceptBody where
  ownerPubkey := exampleOwner
  encryptedFeedKey := .box ⟨⟨exampleGrant.requester, exampleGrant.owner, 100⟩, exampleNonce 1, exampleInner⟩
  nonce := exampleNonce 1
  epoch := 0
  timestamp := 100

def reflectedHandshake : List RequesterInput :=
  requestSteps ++ [.deliver reflectedRequest, .readOutbound 1, .saveFollow 1, .deleteOutbound 1,
      .accept exampleGrant, .deliver exampleAccept, .readOutbound 2, .readFollow 2]

/-- The follow gets the bytes of our own request as its feed key, nobody had granted
anything then, and the owner's accept is answered with 202 and changes nothing. -/
theorem reflected_request_becomes_key :
    (requesterAfter reflectedHandshake).saved.map SavedFollow.feedKey = [exampleInner] ∧
    exampleInner ≠ exampleGrant.feedKey ∧
    ((requesterAfter reflectedHandshake).follows.lookup exampleOwner).map
      Follow.feedKey = some exampleInner ∧
    (requesterAfter reflectedHandshake).grants = [exampleGrant] ∧
    (requesterAfter reflectedHandshake).answers.map
        (fun answer => (answer.status, answer.held, answer.granted)) =
      [(202, some exampleInner, []), (202, some exampleInner, [exampleGrant.feedKey])] := by
  decide +kernel

end Requester

end Starling.App
