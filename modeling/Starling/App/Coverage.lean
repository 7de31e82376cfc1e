import Starling.App.Disclosure
import Starling.App.MessageKeys

namespace Starling.App

open List Option Table App.Distributions AuthorTask Author Jobs

/-!
# Every accepted follower gets the current key

A follower has the feed key from an accept, and each later key from a sealed delivery.  An
accept carries the key of the identity that was read at its start, or on the day it was
queued, while a rotation seals its new key for the rows that are accepted when it runs.  An
accept that is in flight or queued during a rotation falls between the two.
-/

/-! ## Keys that are stored and not yet sealed -/

namespace Author

variable {author next : Author} {stored : Identity} {input : AuthorInput} {tasks : Jobs AuthorTask}
  {id : Nat} {old task : AuthorTask}

def renewingIn (tasks : Jobs AuthorTask) (id : Nat) : Option FeedKey := (tasks.get id).bind AuthorTask.renews

def renewing (author : Author) (id : Nat) : Option FeedKey := renewingIn author.tasks id

theorem renewingIn_start (nothing : task.renews = none) (other) :
    renewingIn (tasks.start task) other = renewingIn tasks other := by
  rw [renewingIn, renewingIn, get_start]
  split
  next same =>
    rw [same, get_next]
    exact nothing
  · rfl

theorem renewingIn_update (found : tasks.get id = some old) (same : task.renews = old.renews)
    (other) : renewingIn (tasks.update id task) other = renewingIn tasks other := by
  rw [renewingIn, renewingIn, get_update found]
  split
  next equal =>
    rw [equal, found]
    exact same
  · rfl

theorem renewingIn_finish (found : tasks.get id = some old) (nothing : old.renews = none)
    (other) : renewingIn (tasks.finish id) other = renewingIn tasks other := by
  rw [renewingIn, renewingIn, get_finish]
  split
  next equal =>
    rw [equal, found]
    exact nothing.symm
  · rfl

inductive Renewal (author : Author) (stored : Identity) (input : AuthorInput) (next : Author)
    (after : Identity) : Prop where
  | untouched (key : after.feedKey = stored.feedKey)
      (same : ∀ id, next.renewing id = author.renewing id)
  | stored (id : Nat) (renews : input = .renew id after.feedKey)
      (now : next.renewing id = some after.feedKey)
  | spread (id : Nat) (spreads : input = .distribute id) (removedPubkey : Pubkey) (newKey : FeedKey)
      (now : Int) (found : author.tasks.get id = some (.rotate removedPubkey (.renewed newKey now)))
      (key : after.feedKey = stored.feedKey)
      (fewer : ∀ other key, next.renewing other = some key -> author.renewing other = some key)

theorem KeyChange.key {after} (change : KeyChange author stored input next after)
    (other : ∀ id newKey, input ≠ .renew id newKey) : after.feedKey = stored.feedKey := by
  cases change with
  | same key => exact key
  | renewed id renews => exact (other id _ renews).elim

theorem renewal_move {after} (kept : RowKept author stored) (held : RowKept next after)
    (change : KeyChange author stored input next after) (moved : AuthorMove author input next)
    (running : input ≠ .crash) : Renewal author stored input next after := by
  cases moved with
  | stay =>
    have same : stored = after := some.inj (kept.row.symm.trans held.row)
    exact .untouched (congrArg Identity.feedKey same.symm) (fun _ => rfl)
  | take _ _ _ found | bump _ _ _ found => exact .untouched (change.key nofun) (renewingIn_update found rfl)
  | read _ _ _ found | compressed _ _ _ _ found | original _ _ _ _ _ found
  | saveEvent _ _ _ _ _ _ _ _ key _ found | list _ _ _ _ found | ship _ _ _ _ _ found
  | reseal _ _ _ _ _ found | retire _ _ _ _ found =>
    exact .untouched (change.key nofun) (renewingIn_update found rfl)
  | quit _ _ task found _ _ spread =>
    have same : stored = after := some.inj (kept.row.symm.trans held.row)
    apply Renewal.untouched (congrArg Identity.feedKey same.symm)
    apply renewingIn_finish found
    cases renews : task.renews with
    | none => rfl
    | some =>
      unfold AuthorTask.renews at renews
      split at renews
      · exact (spread _ _ _ rfl).elim
      · cases renews
  | refuse => exact .untouched (change.key nofun) (fun _ => rfl)
  | answer _ _ found => exact .untouched (change.key nofun) (renewingIn_finish found rfl)
  | answerSaving _ _ _ found =>
    exact .untouched (change.key nofun) (renewingIn_finish found rfl)
  | renew id newKey _ _ _ found =>
    cases some.inj held.row
    refine .stored id rfl ?_
    change renewingIn (author.tasks.update id _) id = some newKey
    rw [renewingIn, get_update found, if_pos rfl]
    rfl
  | distribute id removedPubkey newKey now found =>
    apply Renewal.spread id rfl removedPubkey newKey now found (change.key nofun)
    intro other key later
    change renewingIn (author.tasks.update id _) other = some key at later
    rw [renewingIn, get_update found] at later
    split at later
    · cases later
    · exact later
  | receive => exact .untouched (change.key nofun) (fun _ => rfl)
  | crash => exact (running rfl).elim
  | _ => exact .untouched (change.key nofun) (renewingIn_start rfl)

theorem renewing_unique (guarded : Guarded inside author.lock author.tasks)
    {first second key other} (atFirst : author.renewing first = some key)
    (atSecond : author.renewing second = some other) : key = other := by
  rcases bind_eq_some_iff.mp atFirst with ⟨task, found, renews⟩
  rcases bind_eq_some_iff.mp atSecond with ⟨job, foundToo, renewsToo⟩
  have inside : task.inside = true := inside_of_renews (by rw [renews]; exact nofun)
  have insideToo : job.inside = true := inside_of_renews (by rw [renewsToo]; exact nofun)
  have same : first = second := guarded.unique found foundToo inside insideToo
  rw [same, atSecond, some.injEq] at atFirst
  exact atFirst.symm

end Author

def AcceptBody.Carries (body : AcceptBody) (key : FeedKey) (requester : Pubkey) : Prop :=
  ∃ made, body.encryptedFeedKey = .box made ∧
    crockfordBase32Decode requester = some made.key.requester ∧ made.content = key

namespace Circle

variable {outside : Outside} {circle next : Circle} {stored : Identity}
  {input : CircleInput} {id : Nat} {old task : CircleTask}

section

variable (circle : Circle)

def atRest : Bool := circle.queue.isEmpty && circle.tasks.every (fun _ task => task.works.isNone)

/-- A rotation stores its key while no accept is in flight or queued; it is not for a pubkey
whose row is accepted when it seals the key and when it sweeps, and neither is the removal
that clears the distributions; and an acknowledgement is for keys that were handed over. -/
def spreadsKey : CircleInput -> Bool
  | .author (.renew _ _) => circle.atRest
  | .author (.distribute id) =>
    match circle.author.tasks.get id with
    | some (.rotate removedPubkey (.renewed _ _)) => !circle.isAccepted removedPubkey
    | _ => true
  | .author (.sweep id) =>
    match circle.author.tasks.get id with
    | some (.rotate removedPubkey .queued) => !circle.isAccepted removedPubkey
    | _ => true
  | .clear id =>
    match circle.tasks.get id with
    | some (.remove follower .deleted) => !circle.isAccepted follower
    | _ => true
  | .poll follower (some upTo) =>
    (circle.pending.waiting follower).all (fun row =>
      decide (upTo < row.createdAt) || decide (CircleEvent.handed follower row.feedKey ∈ circle.log))
  | _ => true

def keepsKey : CircleInput -> Bool
  | .author input => circle.author.keepsKey input
  | _ => true

/-- The follower got the key by an accept, or a distribution of it waits for them or has been
handed to them. -/
def Covered (follower : Pubkey) (key : FeedKey) : Prop :=
  circle.received.lookup follower = some key ∨
    ∃ createdAt row, circle.pending.lookup (follower, createdAt) = some row ∧ row.feedKey = key ∧
      (row.distributed = false ∨ CircleEvent.handed follower key ∈ circle.log)

end

def AcceptCurrent (key : FeedKey) (received : Table Pubkey FeedKey) (requester : Pubkey) : AcceptPhase -> Prop
  | .started identity => identity.feedKey = key
  | .dialing identity card _ =>
    identity.feedKey = key ∧ crockfordBase32Decode card.pubkey = crockfordBase32Decode requester
  | .awaiting body => body.Carries key requester
  | .queueing body => body.Carries key requester
  | .queued => True
  | .acknowledged => received.lookup requester = some key

def PassCurrent (key : FeedKey) (received : Table Pubkey FeedKey) : PassPhase -> Prop
  | .entries row entry rest _ => ∀ item ∈ entry :: rest, item.body.Carries key row.1
  | .posted row entry rest _ => ∀ item ∈ entry :: rest, item.body.Carries key row.1
  | .delivered row _ => received.lookup row.1 = some key
  | .failed row rest _ => ∀ item ∈ rest, item.body.Carries key row.1
  | _ => True

def TaskCurrent (key : FeedKey) (received : Table Pubkey FeedKey) : CircleTask -> Prop
  | .accept requester phase => AcceptCurrent key received requester phase
  | .pass phase => PassCurrent key received phase
  | _ => True

variable {key : FeedKey} {received : Table Pubkey FeedKey}

theorem taskCurrent_of_idle (idle : task.works = none) : TaskCurrent key received task := by
  cases task with
  | accept => cases idle
  | pass phase =>
    cases phase with
    | rows | dropping => exact trivial
    | _ => cases idle
  | ingest | remove => exact trivial

theorem TaskCurrent.mono {later} (current : TaskCurrent key received task)
    (more : ∀ follower, received.lookup follower = some key -> later.lookup follower = some key) :
    TaskCurrent key later task := by
  cases task with
  | accept requester phase =>
    cases phase with
    | queued => exact trivial
    | acknowledged => exact more requester current
    | _ => exact current
  | pass phase =>
    cases phase with
    | entries | posted | failed => exact current
    | delivered row => exact more row.1 current
    | _ => exact trivial
  | ingest | remove => exact trivial

theorem taskCurrent_onward {row entries} (left) (fits : ∀ item ∈ entries, item.body.Carries key row.1) :
    TaskCurrent key received (.pass (onward row left entries)) := by
  cases entries with
  | nil => exact trivial
  | cons => exact fits

theorem receivedFrom_carries (received) {requester body} (carries : body.Carries key requester) :
    receivedFrom received requester body = received.insert requester key := by
  rcases carries with ⟨_, content, toRequester, rfl⟩
  rw [receivedFrom, content]
  exact if_pos toRequester

theorem built_carries {identity card timestamp nonce body requester}
    (named : crockfordBase32Decode card.pubkey = crockfordBase32Decode requester)
    (built : buildAcceptBody identity card timestamp nonce = some body) :
    body.Carries identity.feedKey requester := by
  rcases buildAcceptBody_eq_some built with ⟨_, derived, content⟩
  rcases deriveSharedKey_eq_some.mp derived with ⟨first, _, _⟩
  exact ⟨_, content, named ▸ first, rfl⟩

structure Covering (circle : Circle) (stored : Identity) : Prop where
  author : circle.author.RowKept stored
  tasks : circle.tasks.All (fun _ task => TaskCurrent stored.feedKey circle.received task)
  queue : ∀ entry ∈ circle.queue, entry.body.Carries stored.feedKey entry.target
  keyed : circle.pending.Keyed
  renewing : ∀ id key, circle.author.renewing id = some key -> key = stored.feedKey
  covered : (∀ id, circle.author.renewing id = none) ->
    ∀ follower, circle.status follower = some .accepted -> circle.Covered follower stored.feedKey

namespace Covering

section

variable (kept : Covering circle stored)
include kept

theorem start (current : TaskCurrent stored.feedKey circle.received task) : Covering (circle.start task) stored :=
  { kept with tasks := Jobs.All.start kept.tasks current }

theorem finish (id) : Covering (circle.finish id) stored :=
  { kept with tasks := kept.tasks.finish id }

theorem advance (found : circle.tasks.get id = some old)
    (current : TaskCurrent stored.feedKey circle.received task) : Covering (circle.setTask id task) stored :=
  { kept with tasks := kept.tasks.update found current }

theorem record (events : List CircleEvent) : Covering { circle with log := circle.log ++ events } stored := by
  refine { kept with covered := ?_ }
  intro none follower accepted
  rcases kept.covered none follower accepted with received | ⟨createdAt, row, found, current, way⟩
  · exact .inl received
  · refine Or.inr ⟨createdAt, row, found, current, ?_⟩
    rcases way with waiting | handed
    · exact .inl waiting
    · exact .inr (mem_append_left _ handed)

theorem requeue {queue} (fits : ∀ entry ∈ queue, entry.body.Carries stored.feedKey entry.target) :
    Covering { circle with queue := queue } stored :=
  { kept with queue := fits }

theorem removeFromQueue (id) : Covering (circle.removeFromQueue id) stored :=
  kept.requeue (fun entry member => kept.queue entry (mem_of_mem_filter member))

theorem incrementRetry (id) : Covering (circle.incrementRetry id) stored := by
  apply kept.requeue
  intro entry member
  rcases mem_incrementRetry member with ⟨before, inQueue, target, body⟩
  rw [← target, ← body]
  exact kept.queue before inQueue

theorem setInbound {inbound} (known : ∀ follower, statusIn inbound follower = some .accepted ->
      circle.status follower = some .accepted ∨ circle.received.lookup follower = some stored.feedKey) :
    Covering { circle with inbound := inbound } stored := by
  refine { kept with covered := ?_ }
  intro none follower accepted
  rcases known follower accepted with already | received
  · exact kept.covered none follower already
  · exact .inl received

theorem eraseRow (pubkey : Pubkey) : Covering { circle with inbound := circle.inbound.erase pubkey } stored :=
  kept.setInbound (fun _ accepted => Or.inl (of_statusIn_erase accepted))

theorem updateStatus (pubkey status)
    (known : status = .accepted -> circle.received.lookup pubkey = some stored.feedKey) :
    Covering (circle.updateStatus pubkey status) stored := by
  have logged := kept.record (markEvents circle.inbound pubkey status)
  apply logged.setInbound
  intro follower accepted
  rw [statusIn_setStatus] at accepted
  split at accepted
  next same =>
    rcases map_eq_some_iff.mp accepted with ⟨_, _, marked⟩
    rw [same]
    exact .inr (known marked)
  · exact .inl accepted

theorem receive {requester body} (carries : body.Carries stored.feedKey requester) :
    Covering (circle.receive requester body) stored ∧
      (circle.receive requester body).received.lookup requester = some stored.feedKey := by
  have got := receivedFrom_carries circle.received carries
  have more : ∀ follower, circle.received.lookup follower = some stored.feedKey ->
      (circle.receive requester body).received.lookup follower = some stored.feedKey := by
    intro follower received
    change (receivedFrom circle.received requester body).lookup follower = _
    rw [got, lookup_insert_eq]
    split
    · rfl
    · exact received
  refine ⟨{ kept with tasks := ?_, covered := ?_ }, ?_⟩
  · intro id task found
    exact (kept.tasks id task found).mono more
  · intro none follower accepted
    rcases kept.covered none follower accepted with received | distribution
    · exact .inl (more follower received)
    · exact .inr distribution
  · change (receivedFrom circle.received requester body).lookup requester = _
    rw [got, AList.lookup_insert]

end

variable {pending : Distributions} {pubkey : Pubkey} {after : Author} {later : Identity}

section

variable (kept : Covering circle stored)
include kept

theorem setPending (keyed : pending.Keyed)
    (still : ∀ follower createdAt row, circle.status follower = some .accepted ->
      circle.pending.lookup (follower, createdAt) = some row ->
      ∃ later, pending.lookup (follower, createdAt) = some later ∧ later.feedKey = row.feedKey ∧
        (later.distributed = row.distributed ∨ CircleEvent.handed follower row.feedKey ∈ circle.log)) :
    Covering { circle with pending := pending } stored := by
  refine { kept with keyed := keyed, covered := ?_ }
  intro none follower accepted
  rcases kept.covered none follower accepted with received | ⟨createdAt, row, found, current, way⟩
  · exact .inl received
  · rcases still follower createdAt row accepted found with ⟨later, atLater, same, flag⟩
    refine Or.inr ⟨createdAt, later, atLater, same.trans current, ?_⟩
    rcases way with waiting | handed
    · rcases flag with equal | handed
      · exact .inl (equal.trans waiting)
      · exact .inr (current ▸ handed)
    · exact .inr handed

theorem clearFor (missing : circle.isAccepted pubkey = false) :
    Covering { circle with pending := circle.pending.clearFor pubkey } stored := by
  apply kept.setPending (kept.keyed.clearFor pubkey)
  intro follower createdAt row accepted found
  refine ⟨row, ?_, rfl, .inl rfl⟩
  rw [Distributions.clearFor, Table.lookup_retain_fst, if_neg]
  · exact found
  · rintro rfl
    exact of_decide_eq_false missing accepted

theorem markDelivered {upTo}
    (handed : ∀ row ∈ circle.pending.waiting pubkey, row.createdAt ≤ upTo ->
      CircleEvent.handed pubkey row.feedKey ∈ circle.log) :
    Covering { circle with pending := circle.pending.markDelivered pubkey upTo } stored := by
  apply kept.setPending (kept.keyed.markDelivered pubkey upTo)
  intro follower createdAt row accepted found
  refine ⟨_, by rw [lookup_markDelivered, found, map_some], ?_, ?_⟩
  · split <;> rfl
  · have target : follower = row.targetPubkey := congrArg Prod.fst (kept.keyed _ row found)
    split
    next acked =>
      cases flag : row.distributed with
      | true => exact .inl rfl
      | false =>
        rw [target, acked.1]
        exact .inr (handed row (mem_waiting.mpr ⟨⟨_, found⟩, acked.1, flag⟩) acked.2)
    · exact .inl rfl

theorem acknowledge {ackRotationAt} (spreads : circle.spreadsKey (.poll pubkey ackRotationAt) = true)
    (marks : pending = circle.pending ∨ ∃ upTo, ackRotationAt = some upTo ∧ pending =
      circle.pending.markDelivered pubkey upTo) : Covering { circle with pending := pending } stored := by
  rcases marks with rfl | ⟨_, rfl, rfl⟩
  · exact kept
  · apply kept.markDelivered
    intro row waiting early
    rw [spreadsKey, List.all_eq_true] at spreads
    have either := spreads row waiting
    rw [Bool.or_eq_true, decide_eq_true_eq, decide_eq_true_eq] at either
    exact either.resolve_left (Int.not_lt.mpr early)

end

theorem lookup_sealFor (pending followers now newKey follower createdAt) :
    (sealFor pending followers now newKey).lookup (follower, createdAt) =
      if follower ∈ followers ∧ createdAt = now then some ⟨follower, now, newKey, false⟩
      else pending.lookup (follower, createdAt) := by
  induction followers generalizing pending with
  | nil => rw [if_neg (fun both => not_mem_nil both.1)]; rfl
  | cons first rest ih =>
    change (sealFor (pending.add first now newKey) rest now newKey).lookup _ = _
    rw [ih, lookup_add]
    by_cases later : follower ∈ rest ∧ createdAt = now
    · rw [if_pos later, if_pos ⟨mem_cons_of_mem first later.1, later.2⟩]
    · rw [if_neg later]
      by_cases here : (follower, createdAt) = (first, now)
      · cases here
        rw [if_pos rfl, if_pos ⟨mem_cons_self, rfl⟩]
      · rw [if_neg here, if_neg]
        rintro ⟨member, rfl⟩
        rcases mem_cons.mp member with rfl | inRest
        · exact here rfl
        · exact later ⟨inRest, rfl⟩

theorem keyed_sealFor (keyed : pending.Keyed) (followers now newKey) :
    (sealFor pending followers now newKey).Keyed := by
  induction followers generalizing pending with
  | nil => exact keyed
  | cons first rest ih => exact ih (keyed.add first now newKey)

theorem mem_acceptedFollowers {follower} :
    follower ∈ circle.acceptedFollowers ↔ circle.status follower = some .accepted := by
  rw [status, statusIn, map_eq_some_iff]
  constructor
  · intro member
    rcases mem_map.mp member with ⟨⟨_, row⟩, kept, rfl⟩
    have parts := mem_filter.mp kept
    exact ⟨row, Table.lookup_eq_some_iff.mpr parts.1, of_decide_eq_true parts.2⟩
  · rintro ⟨row, found, accepted⟩
    exact mem_map.mpr ⟨⟨follower, row⟩,
      mem_filter.mpr ⟨Table.lookup_eq_some_iff.mp found, decide_eq_true accepted⟩, rfl⟩

inductive PendingChange (circle : Circle) : AuthorInput -> Distributions -> Prop where
  | same (input : AuthorInput) : PendingChange circle input circle.pending
  | spread (id : Nat) (removedPubkey : Pubkey) (newKey : FeedKey) (now : Int)
      (found : circle.author.tasks.get id = some (.rotate removedPubkey (.renewed newKey now))) :
      PendingChange circle (.distribute id) (sealFor circle.pending
          (circle.acceptedFollowers.filter (fun follower => follower ≠ removedPubkey)) now newKey)
  | sweep (id : Nat) (removedPubkey : Pubkey)
      (found : circle.author.tasks.get id = some (.rotate removedPubkey .queued)) :
      PendingChange circle (.sweep id) (circle.pending.clearFor removedPubkey)

theorem pending_change (input) : PendingChange circle input (circle.pendingAfter input) := by
  unfold pendingAfter
  split
  · split
    next found => exact .spread _ _ _ _ found
    · exact .same _
  · split
    next found => exact .sweep _ _ found
    · exact .same _
  · exact .same _

section

variable (kept : Covering circle stored)
include kept

theorem setAuthor (held : after.RowKept later) (key : later.feedKey = stored.feedKey)
    (same : ∀ id, after.renewing id = circle.author.renewing id) :
    Covering { circle with author := after } later where
  author := held
  tasks := by rw [key]; exact kept.tasks
  queue := by rw [key]; exact kept.queue
  keyed := kept.keyed
  renewing := by
    intro id newKey renews
    rw [same] at renews
    rw [key]
    exact kept.renewing id newKey renews
  covered := by
    intro none
    rw [key]
    exact kept.covered (fun id => same id ▸ none id)

theorem spread {removedPubkey now} (held : after.RowKept later) (key : later.feedKey = stored.feedKey)
    (fewer : ∀ id newKey, after.renewing id = some newKey -> circle.author.renewing id = some newKey)
    (missing : circle.isAccepted removedPubkey = false) : Covering { circle with
      author := after
      pending := sealFor circle.pending (circle.acceptedFollowers.filter (fun other => other ≠ removedPubkey)) now
        stored.feedKey } later where
  author := held
  tasks := by rw [key]; exact kept.tasks
  queue := by rw [key]; exact kept.queue
  keyed := keyed_sealFor kept.keyed _ now stored.feedKey
  renewing := by
    intro id newKey renews
    rw [key]
    exact kept.renewing id newKey (fewer id newKey renews)
  covered := by
    intro _ follower accepted
    refine .inr ⟨now, ⟨follower, now, stored.feedKey, false⟩, ?_, key.symm, .inl rfl⟩
    have apart : follower ≠ removedPubkey := by
      rintro rfl
      exact of_decide_eq_false missing accepted
    rw [lookup_sealFor, if_pos]
    exact ⟨mem_filter.mpr ⟨mem_acceptedFollowers.mpr accepted, decide_eq_true apart⟩, rfl⟩

theorem renew (held : after.RowKept later) (renews : after.renewing id = some later.feedKey)
    (rest : circle.atRest = true) : Covering { circle with author := after } later := by
  rw [atRest, Bool.and_eq_true, List.isEmpty_iff, every_iff] at rest
  refine ⟨held, ?_, ?_, kept.keyed, ?_, ?_⟩
  · intro other task found
    exact taskCurrent_of_idle (isNone_iff_eq_none.mp (rest.2 other task found))
  · intro entry member
    rw [rest.1] at member
    cases member
  · intro other newKey also
    exact renewing_unique held.guarded also renews
  · intro none
    rw [none id] at renews
    cases renews

theorem device {input} (allowed : circle.author.keepsKey input = true)
    (spreads : circle.spreadsKey (.author input) = true) (running : input ≠ .crash)
    (stepped : circle.author.step input = .ok after) :
    ∃ later, Covering { circle with author := after, pending := circle.pendingAfter input } later := by
  have moved := Author.step_move kept.author.guarded stepped
  rcases kept.author.move allowed moved with ⟨later, held, change⟩
  refine ⟨later, ?_⟩
  cases Author.renewal_move kept.author held change moved running with
  | untouched key same =>
    have kept' := kept.setAuthor held key same
    have pending : PendingChange circle input (circle.pendingAfter input) := pending_change input
    generalize circle.pendingAfter input = distributions at pending
    cases pending with
    | same => exact kept'
    | spread id _ newKey _ found =>
      have stores : newKey = stored.feedKey := kept.renewing id newKey (bind_eq_some_iff.mpr ⟨_, found, rfl⟩)
      rw [spreadsKey, found] at spreads
      rw [stores]
      exact kept.spread held key (fun other _ renews => same other ▸ renews) (Bool.not_eq_true' _ ▸ spreads)
    | sweep _ _ found =>
      rw [spreadsKey, found] at spreads
      exact kept'.clearFor (Bool.not_eq_true' _ ▸ spreads)
  | stored _ renews now =>
    rw [renews] at spreads ⊢
    exact kept.renew held now spreads
  | spread id distributes _ newKey _ found key fewer =>
    have stores : newKey = stored.feedKey := kept.renewing id newKey (bind_eq_some_iff.mpr ⟨_, found, rfl⟩)
    rw [distributes] at spreads ⊢
    rw [spreadsKey, found] at spreads
    rw [pendingAfter, found]
    rw [stores]
    exact kept.spread held key fewer (Bool.not_eq_true' _ ▸ spreads)

theorem move (named : circle.namesRequester outside input = true)
    (allowed : circle.keepsKey input = true) (spreads : circle.spreadsKey input = true)
    (moved : CircleMove outside circle input next) : ∃ later, Covering next later := by
  cases moved with
  | stay => exact ⟨stored, kept⟩
  | drop _ id => exact ⟨stored, kept.finish id⟩
  | device _ after running stepped =>
    rcases kept.device allowed spreads running stepped with ⟨later, held⟩
    have noted := held.record (postsOf circle.author after)
    exact ⟨later, { noted with }⟩
  | saveRequest id =>
    refine ⟨stored, finish ?_ id⟩
    exact kept.setInbound (fun _ accepted => Or.inl (accepted_of_insert rfl accepted))
  | reject requester => exact ⟨stored, kept.eraseRow requester⟩
  | accept requester identity row =>
    have current : identity = stored := some.inj (row.symm.trans kept.author.row)
    have begun : Covering (circle.start (.accept requester (.started identity))) stored :=
      kept.start (congrArg Identity.feedKey current)
    exact ⟨stored, begun.record [.accepting requester]⟩
  | readRequest id _ _ _ _ found row decrypted =>
    have current := kept.tasks id _ found
    exact ⟨stored, kept.advance found ⟨current, card_of_namesRequester named found row decrypted⟩⟩
  | post id _ requester _ _ _ body found built =>
    have facts := kept.tasks id _ found
    have carries := facts.1 ▸ built_carries facts.2 built
    have onward : Covering (circle.setTask id (.accept requester (.awaiting body))) stored := kept.advance found carries
    exact ⟨stored, onward.record [.sent requester body]⟩
  | unreachable id _ _ _ _ _ _ found built =>
    have facts := kept.tasks id _ found
    have carries := facts.1 ▸ built_carries facts.2 built
    exact ⟨stored, kept.advance found carries⟩
  | acknowledge id _ _ found =>
    rcases kept.receive (kept.tasks id _ found) with ⟨taken, got⟩
    exact ⟨stored, taken.advance found got⟩
  | refuse id _ _ found =>
    have carries := kept.tasks id _ found
    exact ⟨stored, kept.advance found carries⟩
  | enqueue id requester _ found =>
    have onward : Covering (circle.setTask id (.accept requester .queued)) stored := kept.advance found trivial
    refine ⟨stored, { onward with queue := ?_ }⟩
    exact forall_mem_append.mpr ⟨kept.queue, forall_mem_singleton.mpr (kept.tasks id _ found)⟩
  | markAccepted id requester found =>
    exact ⟨stored, (kept.updateStatus requester .accepted (fun _ => kept.tasks id _ found)).finish id⟩
  | markQueued id requester =>
    exact ⟨stored, (kept.updateStatus requester .pendingSend nofun).finish id⟩
  | nextRow _ _ left found =>
    refine ⟨stored, kept.advance found (taskCurrent_onward left ?_)⟩
    intro entry member
    rcases mem_entriesFor.mp member with ⟨inQueue, target⟩
    rw [← target]
    exact kept.queue entry inQueue
  | postEntry id row entry rest left found =>
    have fits := kept.tasks id _ found
    have onward : Covering (circle.setTask id (.pass (.posted row entry rest left))) stored := kept.advance found fits
    exact ⟨stored, onward.record [.sent row.1 entry.body]⟩
  | skipEntry id _ entry _ left found =>
    have fits := kept.tasks id _ found
    exact ⟨stored, kept.advance found
      (taskCurrent_onward left (fun item member => fits item (mem_cons_of_mem entry member)))⟩
  | entryDelivered id _ entry _ _ found =>
    have carries := kept.tasks id _ found entry mem_cons_self
    rcases kept.receive carries with ⟨taken, got⟩
    exact ⟨stored, (taken.removeFromQueue entry.id).advance found got⟩
  | entryFailed id row entry rest left _ found onto =>
    have fits := kept.tasks id _ found
    have later : ∀ item ∈ rest, item.body.Carries stored.feedKey row.1 :=
      fun item member => fits item (mem_cons_of_mem entry member)
    refine ⟨stored, (kept.incrementRetry entry.id).advance found ?_⟩
    rcases onto with rfl | rfl
    · exact later
    · exact taskCurrent_onward left later
  | markRow id row _ found =>
    have known := kept.updateStatus row.1 .accepted (fun _ => kept.tasks id _ found)
    exact ⟨stored, known.advance found trivial⟩
  | markFailed id row _ left found =>
    exact ⟨stored, (kept.updateStatus row.1 .sendFailed nofun).advance found
      (taskCurrent_onward left (kept.tasks id _ found))⟩
  | readDuplicates _ _ _ found | dropped _ _ found | checkAccepted _ _ found =>
    exact ⟨stored, kept.advance found trivial⟩
  | dropDuplicate _ entry _ _ found =>
    exact ⟨stored, (kept.removeFromQueue entry).advance found trivial⟩
  | checkMissing id follower | finishRemoval id follower =>
    exact ⟨stored, (kept.finish id).record [.removed follower]⟩
  | deleteRow _ follower found => exact ⟨stored, (kept.eraseRow follower).advance found trivial⟩
  | clear _ _ found =>
    rw [spreadsKey, found] at spreads
    exact ⟨stored, (kept.clearFor (Bool.not_eq_true' _ ▸ spreads)).advance found trivial⟩
  | rotate id follower found =>
    have onward : Covering (circle.setTask id (.remove follower (.rotating circle.author.tasks.next)))
        stored := kept.advance found trivial
    rcases kept.author.move rfl (AuthorMove.rotate follower) with ⟨later, held, change⟩
    exact ⟨later, onward.setAuthor held (change.key nofun) (renewingIn_start rfl)⟩
  | acknowledged _ _ _ marks =>
    exact ⟨stored, kept.acknowledge spreads marks⟩
  | handed follower _ _ row marks =>
    exact ⟨stored, (kept.acknowledge spreads marks).record [.handed follower row.feedKey]⟩
  | _ => exact ⟨stored, kept.start trivial⟩

end

theorem boot (identity events) : Covering (boot identity events) identity where
  author := Author.RowKept.boot identity events
  tasks := Jobs.Idle.all (fun _ => rfl)
  queue := nofun
  keyed := nofun
  renewing := nofun
  covered := nofun

end Covering

/-- If the conditions are met all along, then in every state in which no rotation has stored
a key that it has not sealed yet, every accepted follower got the stored key by their last
accept, or has a distribution of it that waits or was handed to them. -/
theorem accepted_followers_covered (outside : Outside) (identity : Identity)
    (events : Table String EventRow) {inputs : List CircleInput} {final : Circle} {current : Identity}
    (named : Along (step outside) (fun circle input => circle.namesRequester outside input = true)
      (Circle.boot identity events) inputs)
    (keeps : Along (step outside) (fun circle input => circle.keepsKey input = true)
      (Circle.boot identity events) inputs)
    (spreads : Along (step outside) (fun circle input => circle.spreadsKey input = true)
      (Circle.boot identity events) inputs)
    (reached : run (step outside) (Circle.boot identity events) inputs = .ok final)
    (row : final.author.row = some current) (sealed : ∀ id, final.author.renewing id = none)
    {follower : Pubkey} (accepted : final.status follower = some .accepted) :
    final.Covered follower current.feedKey := by
  have preserved : ∀ circle input next, (∃ stored, Covering circle stored) ->
      (circle.namesRequester outside input = true ∧ circle.keepsKey input = true ∧
        circle.spreadsKey input = true) ->
      circle.step outside input = .ok next -> ∃ stored, Covering next stored := by
    rintro _ _ _ ⟨_, kept⟩ ⟨names, allowed, spread⟩ stepped
    exact kept.move names allowed spread (step_move stepped)
  rcases run_invariant preserved ⟨identity, Covering.boot identity events⟩
    (named.and (keeps.and spreads)) reached with ⟨stored, kept⟩
  have same : stored = current := some.inj (kept.author.row.symm.trans row)
  rw [← same]
  exact kept.covered sealed follower accepted

/-! ## Rotations on a small device -/

def rotation (id : Nat) (now : Int) (newKey : FeedKey) : List CircleInput :=
  (Author.rotateSteps id now newKey).map .author

def acceptedThenRotated : List CircleInput :=
  accepting 1 ++ [.dial 1 true (List.replicate 24 4), .respond 1 true, .mark 1, .author (.rotate strangerPubkey)] ++
    rotation 0 70 (List.replicate 32 2) ++ [.poll friendPubkey none, .poll friendPubkey (some 70)]

theorem accepted_followers_covered_acceptedThenRotated :
    (after acceptedThenRotated).status friendPubkey = some .accepted ∧
      ∀ current, (after acceptedThenRotated).author.row = some current ->
        (after acceptedThenRotated).Covered friendPubkey current.feedKey := by
  have checks : checkAlong (step exampleOutside)
        (fun circle input => circle.namesRequester exampleOutside input) (boot ownIdentity ∅)
        acceptedThenRotated = true ∧
      checkAlong (step exampleOutside) (fun circle input => circle.keepsKey input) (boot ownIdentity ∅)
        acceptedThenRotated = true ∧
      checkAlong (step exampleOutside) (fun circle input => circle.spreadsKey input) (boot ownIdentity ∅)
        acceptedThenRotated = true ∧
      (run (step exampleOutside) (boot ownIdentity ∅) acceptedThenRotated).toBool = true ∧
      (after acceptedThenRotated).author.tasks.running.keys = [] ∧
      (after acceptedThenRotated).status friendPubkey = some .accepted := by
    decide +kernel
  rcases checks with ⟨names, keeps, spreads, returns, idle, accepted⟩
  refine ⟨accepted, fun current row => ?_⟩
  have sealed : ∀ id, (after acceptedThenRotated).author.renewing id = none := by
    intro id
    rw [renewing, renewingIn, idle_of_keys idle id, bind_none]
  exact accepted_followers_covered exampleOutside ownIdentity ∅
    (Along.checked names) (Along.checked keeps)
    (Along.checked spreads) (run_after returns) row sealed accepted

def rotatedDuringAccept : List CircleInput :=
  accepting 1 ++ [.dial 1 true (List.replicate 24 4), .author (.rotate strangerPubkey)] ++
    rotation 0 70 (List.replicate 32 2) ++ [.respond 1 true, .mark 1]

/-- In the end nothing is running, the friend is accepted and has the old key, and there is
no distribution for anybody. -/
theorem accepted_follower_left_behind :
    (after rotatedDuringAccept).tasks.running.keys = [] ∧
      (after rotatedDuringAccept).author.tasks.running.keys = [] ∧
      (after rotatedDuringAccept).status friendPubkey = some .accepted ∧
      (after rotatedDuringAccept).author.row.map Identity.feedKey = some (List.replicate 32 2) ∧
      (after rotatedDuringAccept).received.lookup friendPubkey = some ownIdentity.feedKey ∧
      (after rotatedDuringAccept).pending.keys = [] := by
  decide +kernel

end Circle

end Starling.App
