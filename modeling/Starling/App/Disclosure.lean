import Starling.App.Circle

namespace Starling.App

open List

/-!
# Whom an accept discloses the feed key to

A stored request names its sender three times: by the key of the row and the outer body,
which are the same, and by the connection card inside.  The outer name decides which key
the request is decrypted with, and the card decides whom the feed key is encrypted to.
Nothing compares the two.
-/

/-- The feed key in the body is encrypted to one public key, and made by another. -/
def AcceptBody.Private (body : AcceptBody) (own requester : Pubkey) : Prop :=
  ∃ made, body.encryptedFeedKey = .box made ∧ crockfordBase32Decode requester = some made.key.requester ∧
    crockfordBase32Decode own = some made.key.responder

namespace Circle

variable {outside : Outside} {circle next : Circle} {own : Pubkey}
  {input : CircleInput}

/-- The card in a request that is read for an accept has the public key of the row. -/
def namesRequester (outside : Outside) (circle : Circle) : CircleInput -> Bool
  | .readRequest id =>
    match circle.tasks.get id with
    | some (.accept requester (.started identity)) =>
      match circle.inbound.lookup requester with
      | none => true
      | some inbound =>
        (decryptInner outside.decodeInner inbound.payload identity inbound.requestTimestamp).all
          (fun card => crockfordBase32Decode card.pubkey = crockfordBase32Decode requester)
    | _ => true
  | _ => true

theorem card_of_namesRequester {id requester identity inbound card}
    (allowed : circle.namesRequester outside (.readRequest id) = true)
    (found : circle.tasks.get id = some (.accept requester (.started identity)))
    (row : circle.inbound.lookup requester = some inbound)
    (decrypted : decryptInner outside.decodeInner inbound.payload identity inbound.requestTimestamp = some card) :
    crockfordBase32Decode card.pubkey = crockfordBase32Decode requester := by
  rw [namesRequester, found] at allowed
  dsimp only at allowed
  rw [row] at allowed
  dsimp only at allowed
  rw [decrypted, Option.all_some, decide_eq_true_eq] at allowed
  exact allowed

def AcceptKept (own requester : Pubkey) : AcceptPhase -> Prop
  | .started identity => identity.pubkey = own
  | .dialing identity card _ =>
    identity.pubkey = own ∧ crockfordBase32Decode card.pubkey = crockfordBase32Decode requester
  | .awaiting body => body.Private own requester
  | .queueing body => body.Private own requester
  | .queued => True
  | .acknowledged => True

def PassKept (own : Pubkey) : PassPhase -> Prop
  | .entries row entry rest _ => ∀ item ∈ entry :: rest, item.body.Private own row.1
  | .posted row entry rest _ => ∀ item ∈ entry :: rest, item.body.Private own row.1
  | .failed row rest _ => ∀ item ∈ rest, item.body.Private own row.1
  | _ => True

def TaskKept (own : Pubkey) : CircleTask -> Prop
  | .accept requester phase => AcceptKept own requester phase
  | .pass phase => PassKept own phase
  | _ => True

structure Disclosing (own : Pubkey) (circle : Circle) : Prop where
  guarded : Guarded AuthorTask.inside circle.author.lock circle.author.tasks
  owned : circle.author.OwnedBy own
  tasks : circle.tasks.All (fun _ task => TaskKept own task)
  working : circle.tasks.All (fun _ task => ∀ pubkey, task.works = some pubkey ->
    CircleEvent.accepting pubkey ∈ circle.log)
  queued : ∀ entry ∈ circle.queue, CircleEvent.accepting entry.target ∈ circle.log ∧
    entry.body.Private own entry.target
  sent : ∀ pubkey body, CircleEvent.sent pubkey body ∈ circle.log ->
    CircleEvent.accepting pubkey ∈ circle.log ∧ body.Private own pubkey
  marked : ∀ pubkey status, CircleEvent.marked pubkey status ∈ circle.log ->
    CircleEvent.accepting pubkey ∈ circle.log

namespace Disclosing

section

variable (kept : Disclosing own circle)
include kept

theorem record (events) (sent : ∀ pubkey body, CircleEvent.sent pubkey body ∈ events ->
      CircleEvent.accepting pubkey ∈ circle.log ∧ body.Private own pubkey)
    (marked : ∀ pubkey status, CircleEvent.marked pubkey status ∈ events ->
      CircleEvent.accepting pubkey ∈ circle.log) :
    Disclosing own { circle with log := circle.log ++ events } where
  guarded := kept.guarded
  owned := kept.owned
  tasks := kept.tasks
  working := by
    intro id task found pubkey works
    exact mem_append_left _ (kept.working id task found pubkey works)
  queued := by
    intro entry member
    have facts := kept.queued entry member
    exact ⟨mem_append_left _ facts.1, facts.2⟩
  sent := by
    intro pubkey body member
    rcases mem_append.mp member with before | new
    · have facts := kept.sent pubkey body before
      exact ⟨mem_append_left _ facts.1, facts.2⟩
    · have facts := sent pubkey body new
      exact ⟨mem_append_left _ facts.1, facts.2⟩
  marked := by
    intro pubkey status member
    rcases mem_append.mp member with before | new
    · exact mem_append_left _ (kept.marked pubkey status before)
    · exact mem_append_left _ (marked pubkey status new)

theorem start {task} (fits : TaskKept own task) (idle : task.works = none) : Disclosing own (circle.start task) :=
  { kept with
    tasks := Jobs.All.start kept.tasks fits
    working := kept.working.start_view idle }

theorem finish (id) : Disclosing own (circle.finish id) :=
  { kept with
    tasks := kept.tasks.finish id
    working := kept.working.finish id }

theorem advance {id old task} (found : circle.tasks.get id = some old) (fits : TaskKept own task)
    (same : task.works = old.works ∨ task.works = none) : Disclosing own (circle.setTask id task) :=
  { kept with
    tasks := kept.tasks.update found fits
    working := kept.working.update_view found same }

theorem requeue {queue} (old : ∀ entry ∈ queue, ∃ before ∈ circle.queue,
      before.target = entry.target ∧ before.body = entry.body) :
    Disclosing own { circle with queue := queue } :=
  { kept with
    queued := by
      intro entry member
      rcases old entry member with ⟨before, inQueue, sameTarget, sameBody⟩
      rw [← sameTarget, ← sameBody]
      exact kept.queued before inQueue }

theorem removeFromQueue (id) : Disclosing own (circle.removeFromQueue id) :=
  kept.requeue (fun entry member => ⟨entry, mem_of_mem_filter member, rfl, rfl⟩)

theorem incrementRetry (id) : Disclosing own (circle.incrementRetry id) :=
  kept.requeue (fun _ member => mem_incrementRetry member)

theorem updateStatus {pubkey} (known : CircleEvent.accepting pubkey ∈ circle.log)
    (status) : Disclosing own (circle.updateStatus pubkey status) := by
  have logged := kept.record (markEvents circle.inbound pubkey status) (fun _ _ member => nomatch mem_markEvents member)
    (by
      intro other otherStatus member
      have same := mem_markEvents member
      cases same
      exact known)
  exact { logged with }

theorem onward_entries (row left) : TaskKept own (.pass (onward row left (circle.entriesFor row.1))) := by
  have forRow : ∀ entry ∈ circle.entriesFor row.1, entry.body.Private own row.1 := by
    intro entry member
    rcases mem_entriesFor.mp member with ⟨inQueue, target⟩
    rw [← target]
    exact (kept.queued entry inQueue).2
  cases entries : circle.entriesFor row.1 with
  | nil => exact trivial
  | cons =>
    intro item member
    exact forRow item (entries ▸ member)

end

theorem onward_rest {row rest} (left)
    (fits : ∀ item ∈ rest, item.body.Private own row.1) : TaskKept own (.pass (onward row left rest)) := by
  cases rest with
  | nil => exact trivial
  | cons => exact fits

theorem nextRow (kept : Disclosing own circle) {id row left}
    (found : circle.tasks.get id = some (.pass (.rows (row :: left)))) :
    Disclosing own (circle.setTask id (.pass (onward row left (circle.entriesFor row.1)))) :=
  { kept with
    tasks := kept.tasks.update found (kept.onward_entries row left)
    working := by
      apply kept.working.update found
      intro pubkey works
      rcases works_entriesFor works with ⟨entry, inQueue, target⟩
      rw [← target]
      exact (kept.queued entry inQueue).1 }

theorem built_private {identity card timestamp nonce body requester} (ours : identity.pubkey = own)
    (named : crockfordBase32Decode card.pubkey = crockfordBase32Decode requester)
    (built : buildAcceptBody identity card timestamp nonce = some body) : body.Private own requester := by
  rcases buildAcceptBody_eq_some built with ⟨_, derived, content⟩
  rcases deriveSharedKey_eq_some.mp derived with ⟨first, second, _⟩
  refine ⟨_, content, ?_, ?_⟩
  · rw [← named]
    exact first
  · rw [← ours]
    exact second

theorem move (kept : Disclosing own circle) (allowed : circle.namesRequester outside input = true)
    (moved : CircleMove outside circle input next) : Disclosing own next := by
  have guarded := guarded_move kept.guarded moved
  cases moved with
  | stay => exact kept
  | drop _ id => exact kept.finish id
  | device _ after _ stepped =>
    have owned := kept.owned.move (Author.step_move kept.guarded stepped)
    have noted := kept.record (postsOf circle.author after) (by
        intro pubkey body member
        rcases mem_map.mp member with ⟨_, _, never⟩
        cases never)
      (by
        intro pubkey status member
        rcases mem_map.mp member with ⟨_, _, never⟩
        cases never)
    exact { noted with guarded := guarded, owned := owned }
  | saveRequest id =>
    have done := kept.finish id
    exact { done with }
  | reject | acknowledged => exact { kept with }
  | accept requester identity row =>
    -- The user's accept is recorded, and then the new call may work for the requester.
    have noted := kept.record [.accepting requester] nofun nofun
    refine { noted with tasks := ?_, working := ?_ }
    · exact Jobs.All.start kept.tasks (kept.owned.row identity row)
    · apply Jobs.All.start noted.working
      rintro _ ⟨⟩
      exact mem_append_right _ (mem_singleton_self _)
  | readRequest id _ identity _ _ found row decrypted =>
    have ours : identity.pubkey = own := kept.tasks id _ found
    exact kept.advance found ⟨ours, card_of_namesRequester allowed found row decrypted⟩ (.inl rfl)
  | post id _ requester _ _ _ body found built =>
    have facts := kept.tasks id _ found
    have closed : body.Private own requester := built_private facts.1 facts.2 built
    have onward : Disclosing own (circle.setTask id (.accept requester (.awaiting body))) :=
      kept.advance found closed (.inl rfl)
    apply onward.record
    · intro pubkey other member
      cases mem_singleton.mp member
      exact ⟨kept.working id _ found requester rfl, closed⟩
    · exact nofun
  | unreachable id _ requester _ _ _ body found built =>
    have facts := kept.tasks id _ found
    have closed : body.Private own requester := built_private facts.1 facts.2 built
    exact kept.advance found closed (.inl rfl)
  | acknowledge id requester _ found =>
    have onward : Disclosing own (circle.setTask id (.accept requester .acknowledged)) :=
      kept.advance found trivial (.inl rfl)
    exact { onward with }
  | refuse id requester body found =>
    have closed : body.Private own requester := kept.tasks id _ found
    exact kept.advance found closed (.inl rfl)
  | enqueue id requester _ found =>
    have onward : Disclosing own (circle.setTask id (.accept requester .queued)) :=
      kept.advance found trivial (.inl rfl)
    refine { onward with queued := forall_mem_append.mpr ⟨kept.queued, forall_mem_singleton.mpr ?_⟩ }
    exact ⟨kept.working id _ found requester rfl, kept.tasks id _ found⟩
  | markAccepted id requester found =>
    exact (kept.updateStatus (kept.working id _ found requester rfl) .accepted).finish id
  | markQueued id requester found =>
    exact (kept.updateStatus (kept.working id _ found requester rfl) .pendingSend).finish id
  | nextRow _ _ _ found => exact kept.nextRow found
  | postEntry id row entry rest left found =>
    have fits := kept.tasks id _ found
    have onward : Disclosing own (circle.setTask id (.pass (.posted row entry rest left))) :=
      kept.advance found fits (.inl rfl)
    apply onward.record
    · intro pubkey other member
      cases mem_singleton.mp member
      exact ⟨kept.working id _ found row.1 rfl, fits entry mem_cons_self⟩
    · exact nofun
  | skipEntry id row entry rest left found =>
    have fits := kept.tasks id _ found
    apply kept.advance found (onward_rest left (fun item member => fits item (mem_cons_of_mem entry member)))
    exact (works_onward row left rest).symm
  | entryDelivered id row entry _ left found =>
    have onward : Disclosing own ((circle.removeFromQueue entry.id).setTask id (.pass (.delivered row left))) :=
      (kept.removeFromQueue entry.id).advance found trivial (.inl rfl)
    exact { onward with }
  | entryFailed id row entry rest left _ found onto =>
    have fits := kept.tasks id _ found
    have later : ∀ item ∈ rest, item.body.Private own row.1 :=
      fun item member => fits item (mem_cons_of_mem entry member)
    apply (kept.incrementRetry entry.id).advance found
    · rcases onto with rfl | rfl
      · exact later
      · exact onward_rest left later
    · rcases onto with rfl | rfl
      · exact .inl rfl
      · exact (works_onward row left rest).symm
  | markRow id row _ found =>
    have known := kept.working id _ found row.1 rfl
    exact (kept.updateStatus known .accepted).advance found trivial (.inl rfl)
  | markFailed id row rest left found =>
    have known := kept.working id _ found row.1 rfl
    exact (kept.updateStatus known .sendFailed).advance found (onward_rest left (kept.tasks id _ found))
      (works_onward row left rest).symm
  | readDuplicates _ _ _ found | dropped _ _ found | checkAccepted _ _ found =>
    exact kept.advance found trivial (.inr rfl)
  | dropDuplicate _ entry _ _ found =>
    exact (kept.removeFromQueue entry).advance found trivial (.inr rfl)
  | checkMissing id follower | finishRemoval id follower =>
    exact (kept.finish id).record [.removed follower] nofun nofun
  | deleteRow id follower found =>
    have onward : Disclosing own (circle.setTask id (.remove follower .deleted)) :=
      kept.advance found trivial (.inr rfl)
    exact { onward with }
  | clear id follower found =>
    have onward : Disclosing own (circle.setTask id (.remove follower .cleared)) :=
      kept.advance found trivial (.inr rfl)
    exact { onward with }
  | rotate id follower found =>
    have onward : Disclosing own (circle.setTask id (.remove follower (.rotating circle.author.tasks.next))) :=
      kept.advance found trivial (.inr rfl)
    have owned := kept.owned.move (AuthorMove.rotate follower)
    exact { onward with guarded := guarded, owned := owned }
  | handed follower _ _ row =>
    have noted := kept.record [.handed follower row.feedKey] nofun nofun
    exact { noted with }
  | _ => exact kept.start trivial rfl

theorem boot (identity events) : Disclosing identity.pubkey (boot identity events) where
  guarded := Guarded.empty AuthorTask.inside
  owned := Author.OwnedBy.boot identity events
  tasks := Jobs.Idle.all (fun _ => rfl)
  working := Jobs.Idle.all (fun _ => rfl)
  queued := nofun
  sent := nofun
  marked := nofun

end Disclosing

theorem private_openers {body : AcceptBody} {requester : Pubkey} (closed : body.Private own requester) :
    ∃ made, body.encryptedFeedKey = .box made ∧ crockfordBase32Decode requester = some made.key.requester ∧
      ∀ holder, made.key.computedBy holder = true ->
        crockfordBase32Decode requester = some holder ∨ crockfordBase32Decode own = some holder := by
  rcases closed with ⟨made, content, toRequester, fromOwn⟩
  refine ⟨made, content, toRequester, ?_⟩
  intro holder computes
  rw [SharedKey.computedBy, decide_eq_true_eq] at computes
  rcases computes with same | same
  · exact .inl (same ▸ toRequester)
  · exact .inr (same ▸ fromOwn)

/-- If the card in every request that is accepted has the public key of the row, then every
accept that goes out, at once or in a retry pass, and every accept in the queue is for a
pubkey that the user has accepted, is encrypted to that pubkey, and can be opened with that
pubkey's secret key or ours only; and no status is written for anybody else. -/
theorem accept_discloses_to_requester (outside : Outside)
    (identity : Identity) (events : Table String EventRow) {inputs : List CircleInput} {final : Circle}
    (named : Along (step outside) (fun circle input => circle.namesRequester outside input = true)
      (Circle.boot identity events) inputs)
    (reached : run (step outside) (Circle.boot identity events) inputs = .ok final) :
    (∀ requester body, CircleEvent.sent requester body ∈ final.log ->
      CircleEvent.accepting requester ∈ final.log ∧
      ∃ made, body.encryptedFeedKey = .box made ∧ crockfordBase32Decode requester = some made.key.requester ∧
        ∀ holder, made.key.computedBy holder = true -> crockfordBase32Decode requester = some holder ∨
            crockfordBase32Decode identity.pubkey = some holder) ∧
    (∀ entry ∈ final.queue, CircleEvent.accepting entry.target ∈ final.log ∧
      ∃ made, entry.body.encryptedFeedKey = .box made ∧
        crockfordBase32Decode entry.target = some made.key.requester ∧
        ∀ holder, made.key.computedBy holder = true -> crockfordBase32Decode entry.target = some holder ∨
            crockfordBase32Decode identity.pubkey = some holder) ∧
    ∀ requester status, CircleEvent.marked requester status ∈ final.log ->
      CircleEvent.accepting requester ∈ final.log := by
  have kept : Disclosing identity.pubkey final :=
    run_invariant (fun _ _ _ holds allowed stepped => holds.move allowed (step_move stepped))
      (Disclosing.boot identity events) named reached
  refine ⟨?_, ?_, kept.marked⟩
  · intro requester body member
    have facts := kept.sent requester body member
    exact ⟨facts.1, private_openers facts.2⟩
  · intro entry member
    have facts := kept.queued entry member
    exact ⟨facts.1, private_openers facts.2⟩

/-! ## Requests on a small device -/

def ownPubkey : Pubkey := String.ofList (List.replicate 52 'a')

def friendPubkey : Pubkey := String.ofList (List.replicate 52 'b')

def strangerPubkey : Pubkey := String.ofList (List.replicate 52 'c')

def ownIdentity : Identity := ⟨ownPubkey, List.replicate 32 1, 0, 0, 0, none, 1⟩

def exampleDecode : Bytes -> Option ConnectionCard
  | 1 :: _ => some ⟨friendPubkey, [⟨"onion", "friend.onion"⟩], ["pairwise-v1"]⟩
  | 2 :: _ => some ⟨strangerPubkey, [⟨"onion", "stranger.onion"⟩], ["pairwise-v1"]⟩
  | _ => none

def exampleOutside : Outside := ⟨exampleDecode, fun status => status = some .accepted⟩

def after (inputs : List CircleInput) : Circle := finalState (step exampleOutside) (boot ownIdentity ∅) inputs

theorem run_after {inputs} (returns : (run (step exampleOutside) (boot ownIdentity ∅) inputs).toBool = true) :
    run (step exampleOutside) (boot ownIdentity ∅) inputs = .ok (after inputs) :=
  run_finalState returns

def keyOf (pubkey : Pubkey) : Bytes := (crockfordBase32Decode pubkey).getD []

def friendRequest (card : UInt8) : RequestBody where
  requesterPubkey := friendPubkey
  encryptedReturnEndpoints := .box ⟨⟨keyOf friendPubkey, keyOf ownPubkey, 50⟩, List.replicate 24 3, [card]⟩
  nonce := List.replicate 24 3
  timestamp := 50

def accepting (card : UInt8) : List CircleInput :=
  [.request (friendRequest card) 60, .saveRequest 0, .accept friendPubkey, .readRequest 1]

def acceptedLater (card : UInt8) : List CircleInput :=
  accepting card ++ [.dial 1 false (List.replicate 24 4), .enqueue 1, .mark 1, .retry none, .nextRow 2, .postEntry 2,
    .entryResponse 2 true, .markRow 2]

theorem accept_discloses_to_requester_friend :
    (after (acceptedLater 1)).status friendPubkey = some .accepted ∧
    ∀ requester status, CircleEvent.marked requester status ∈ (after (acceptedLater 1)).log ->
      CircleEvent.accepting requester ∈ (after (acceptedLater 1)).log := by
  have checks : checkAlong (step exampleOutside)
        (fun circle input => circle.namesRequester exampleOutside input) (boot ownIdentity ∅)
        (acceptedLater 1) = true ∧
      (run (step exampleOutside) (boot ownIdentity ∅) (acceptedLater 1)).toBool = true := by
    decide +kernel
  refine ⟨by decide +kernel, ?_⟩
  exact (accept_discloses_to_requester exampleOutside ownIdentity ∅
    (Along.checked checks.1) (run_after checks.2)).2.2

/-- A request of the friend with a stranger's card: the user accepts the friend, the friend's
row is marked, and the only accept that goes out is encrypted to the stranger. -/
theorem accept_discloses_to_stranger :
    (after (acceptedLater 2)).log =
      [.accepting friendPubkey, .marked friendPubkey .pendingSend, .sent friendPubkey ⟨ownPubkey,
            .box ⟨⟨keyOf strangerPubkey, keyOf ownPubkey, 50⟩, List.replicate 24 4, ownIdentity.feedKey⟩,
            List.replicate 24 4, 0, 50⟩,
        .marked friendPubkey .accepted] ∧
    (SharedKey.mk (keyOf strangerPubkey) (keyOf ownPubkey) 50).computedBy (keyOf strangerPubkey) = true ∧
    (SharedKey.mk (keyOf strangerPubkey) (keyOf ownPubkey) 50).computedBy (keyOf friendPubkey) =
      false := by
  decide +kernel

/-! ## Rows that were actioned -/

structure Honours (row later : InboundRequest) : Prop where
  payload : later.payload = row.payload
  requestTimestamp : later.requestTimestamp = row.requestTimestamp
  actioned : row.status ≠ .pending -> later.status ≠ .pending
  accepted : row.status = .accepted -> later.status = .accepted

def unanswered (circle : Circle) (pubkey : Pubkey) : Bool := circle.tasks.every (fun _ task => pubkey ∉ task.marks)

/-- A request is saved while its row is missing or pending and no accept of it is under way, and no accept is
marked as unsent after another one has arrived. -/
def honoursRows (circle : Circle) : CircleInput -> Bool
  | .saveRequest id =>
    match circle.tasks.get id with
    | some (.ingest body _) =>
      circle.status body.requesterPubkey ∈ [none, some .pending] && circle.unanswered body.requesterPubkey
    | _ => true
  | .mark id =>
    match circle.tasks.get id with
    | some (.accept requester .queued) => circle.status requester ≠ some .accepted
    | _ => true
  | .markRow id =>
    match circle.tasks.get id with
    | some (.pass (.failed row _ _)) => circle.status row.1 ≠ some .accepted
    | _ => true
  | _ => true

section

variable {pubkey : Pubkey} {row : InboundRequest} (found : circle.inbound.lookup pubkey = some row)
include found

theorem honours_same : ∀ later ∈ circle.inbound.lookup pubkey, Honours row later := by
  rw [found]
  rintro _ ⟨⟩
  exact ⟨rfl, rfl, id, id⟩

theorem honours_erase (target) : ∀ later ∈ (circle.inbound.erase target).lookup pubkey, Honours row later := by
  rw [Table.lookup_erase_eq]
  split
  · rintro _ ⟨⟩
  · exact honours_same found

theorem honours_setStatus {target status} (proper : status ≠ .pending)
    (order : status = .accepted ∨ circle.status target ≠ some .accepted) :
    ∀ later ∈ (setStatus circle.inbound target status).lookup pubkey, Honours row later := by
  rw [setStatus]
  cases held : circle.inbound.lookup target with
  | none => exact honours_same found
  | some =>
    rw [Table.lookup_insert_eq]
    split
    next same =>
      subst same
      rw [found] at held
      cases held
      rintro _ ⟨⟩
      refine ⟨rfl, rfl, fun _ => proper, fun accepted => order.resolve_right (fun other => other ?_)⟩
      rw [Circle.status, statusIn, found, Option.map_some, accepted]
    · exact honours_same found

theorem honours_move (answered : row.status = .pending -> circle.unanswered pubkey = false)
    (allowed : circle.honoursRows input = true) (moved : CircleMove outside circle input next) :
    ∀ later ∈ next.inbound.lookup pubkey, Honours row later := by
  cases moved with
  | saveRequest _ _ _ task =>
    rw [honoursRows, task, Bool.and_eq_true, decide_eq_true_eq] at allowed
    change ∀ later ∈ (circle.inbound.insert _ _).lookup pubkey, Honours row later
    rw [Table.lookup_insert_eq]
    split
    next same =>
      -- The row is pending, so an accept of it is under way and nothing is saved.
      rw [status, statusIn, ← same, found] at allowed
      have pending : row.status = .pending := by simpa using allowed.1
      simp [answered pending] at allowed
    · exact honours_same found
  | reject requester | deleteRow _ requester => exact honours_erase found requester
  | markAccepted | markRow => exact honours_setStatus found (by decide) (.inl rfl)
  | markQueued _ _ task | markFailed _ _ _ _ task =>
    rw [honoursRows, task] at allowed
    exact honours_setStatus found (by decide) (.inr (of_decide_eq_true allowed))
  | _ => exact honours_same found

end

/-- From any state on, until the row is deleted, and as long as an accept of it is under way while it is
pending: the row keeps the payload and the time that it has, once actioned it stays actioned, and once
accepted it stays accepted. -/
theorem actioned_request_stays (outside : Outside) {start final : Circle} {inputs : List CircleInput}
    {pubkey : Pubkey} {row : InboundRequest} (found : start.inbound.lookup pubkey = some row)
    (standing : Along (step outside) (fun circle input => circle.honoursRows input = true ∧
      pubkey ∈ circle.inbound ∧
      (circle.status pubkey = some .pending -> circle.unanswered pubkey = false)) start inputs)
    (reached : run (step outside) start inputs = .ok final) :
    ∀ later ∈ final.inbound.lookup pubkey, Honours row later := by
  apply run_invariant _ (honours_same found) standing reached
  rintro circle _ _ kept ⟨allowed, present, answered⟩ stepped later member
  rcases Table.mem_iff_lookup.mp present with ⟨held, atRow⟩
  have before := kept held atRow
  have after := honours_move atRow (fun pending => answered (by rw [status, statusIn, atRow, ← pending]; rfl))
    allowed (step_move stepped) later member
  exact ⟨after.payload.trans before.payload, after.requestTimestamp.trans before.requestTimestamp,
    after.actioned ∘ before.actioned, after.accepted ∘ before.accepted⟩

/-- A second request is answered while the first one is pending, and saved after the accept. -/
theorem accepted_request_falls_back :
    let accepted := after ([.request (friendRequest 1) 60,
      .saveRequest 0, .request (friendRequest 2) 61, .accept friendPubkey, .readRequest 2,
      .dial 2 true (List.replicate 24 4), .respond 2 true, .mark 2])
    accepted.status friendPubkey = some .accepted ∧
      (finalState (step exampleOutside) accepted [.saveRequest 1]).status friendPubkey = some .pending := by
  decide +kernel

theorem actioned_request_stays_retried :
    let read := after ((acceptedLater 1).take 4)
    ∀ later ∈ (finalState (step exampleOutside) read ((acceptedLater 1).drop 4)).inbound.lookup friendPubkey,
      Honours ⟨friendRequest 1, 60, 50, .pending⟩ later := by
  intro read
  have checked : checkAlong (step exampleOutside) (fun circle input => circle.honoursRows input &&
      decide (friendPubkey ∈ circle.inbound) && decide (circle.status friendPubkey = some .pending ->
        circle.unanswered friendPubkey = false)) read ((acceptedLater 1).drop 4) = true := by decide +kernel
  exact actioned_request_stays exampleOutside (by decide +kernel)
    (Along.of_check (fun _ _ all => by simpa [and_assoc, imp_iff_not_or] using all) checked)
    (run_finalState (by decide +kernel))

end Circle

end Starling.App
