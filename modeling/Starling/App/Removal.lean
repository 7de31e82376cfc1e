import Mathlib.Data.List.Induction
import Starling.App.Disclosure
import Starling.Foundation.Log

namespace Starling.App

open List CircleEvent CircleTask

/-!
# Removing a follower

A follower gets the feed key by an accept that is sent at once, by one that a retry pass
sends, or by a sealed delivery.  `removeFollower` tests the third way only: it does nothing
for a row that is not yet `accepted`, and leaves the queue alone.  So an accept in flight
or in the queue outlives the removal.
-/

namespace CircleEvent

def reaches : CircleEvent -> Option Pubkey
  | .sent requester _ => some requester
  | .handed follower _ => some follower
  | .marked requester .accepted => some requester
  | _ => none

def turns (pubkey : Pubkey) : CircleEvent -> Option Bool
  | .removed follower => if follower = pubkey then some true else none
  | .accepting requester => if requester = pubkey then some false else none
  | _ => none

end CircleEvent

/-- The last removal of the pubkey has returned, and no accept of it has begun since. -/
def expelled (pubkey : Pubkey) (log : List CircleEvent) : Bool := lastWord false (CircleEvent.turns pubkey) log

theorem expelled_concat (pubkey log event) :
    expelled pubkey (log ++ [event]) = (event.turns pubkey).getD (expelled pubkey log) :=
  lastWord_concat false (turns pubkey) log event

variable {pubkey : Pubkey}

theorem expelled_stays {log events} (gone : expelled pubkey log = true)
    (unaccepted : accepting pubkey ∉ events) : expelled pubkey (log ++ events) = true := by
  induction events generalizing log with
  | nil => rw [append_nil]; exact gone
  | cons event rest ih =>
    rw [append_cons]
    apply ih
    · rw [expelled_concat, gone]
      cases event with
      | accepting requester =>
        have apart : requester ≠ pubkey := by
          rintro rfl
          exact unaccepted mem_cons_self
        rw [turns, if_neg apart, Option.getD_none]
      | removed =>
        rw [turns]
        split <;> rfl
      | _ => rfl
    · intro member
      exact unaccepted (mem_cons_of_mem event member)

theorem expelled_after_removal {after} (before) (unaccepted : accepting pubkey ∉ after) :
    expelled pubkey (before ++ .removed pubkey :: after) = true := by
  rw [append_cons]
  apply expelled_stays _ unaccepted
  rw [expelled_concat, turns, if_pos rfl, Option.getD_some]

/-- Nothing in the log reaches a pubkey that is expelled at that moment. -/
inductive CleanLog : List CircleEvent -> Prop where
  | nil : CleanLog []
  | snoc {log : List CircleEvent} {event : CircleEvent} (clean : CleanLog log)
      (allowed : ∀ pubkey, event.reaches = some pubkey -> expelled pubkey log = false) :
      CleanLog (log ++ [event])

namespace CleanLog

theorem append {log events} (clean : CleanLog log) (still : ∀ event ∈ events, ∀ pubkey, event.turns pubkey = none)
    (allowed : ∀ event ∈ events, ∀ pubkey, event.reaches = some pubkey -> expelled pubkey log = false) :
    CleanLog (log ++ events) := by
  induction events generalizing log with
  | nil => rw [append_nil]; exact clean
  | cons event rest ih =>
    rw [append_cons]
    apply ih (clean.snoc (allowed event mem_cons_self))
    · intro other member
      exact still other (mem_cons_of_mem event member)
    · intro other member pubkey reaches
      rw [expelled_concat, still event mem_cons_self pubkey]
      exact allowed other (mem_cons_of_mem event member) pubkey reaches

theorem last {log event} (clean : CleanLog (log ++ [event])) :
    CleanLog log ∧ ∀ pubkey, event.reaches = some pubkey -> expelled pubkey log = false := by
  generalize whole : log ++ [event] = full at clean
  cases clean with
  | nil => exact (append_ne_nil_of_right_ne_nil log (cons_ne_nil event []) whole).elim
  | snoc front allowed =>
    have parts := append_inj' whole rfl
    rw [parts.1, singleton_inj.mp parts.2]
    exact ⟨front, allowed⟩

theorem after_removal {pubkey before after} (clean : CleanLog (before ++ .removed pubkey :: after))
    (unaccepted : accepting pubkey ∉ after) : ∀ event ∈ after, event.reaches ≠ some pubkey := by
  induction after using reverseRecOn with
  | nil => exact nofun
  | append_singleton rest event ih =>
    rw [← cons_append, ← append_assoc] at clean
    rcases clean.last with ⟨front, allowed⟩
    have earlier : accepting pubkey ∉ rest := by
      intro member
      exact unaccepted (mem_append_left _ member)
    have gone := expelled_after_removal before earlier
    refine forall_mem_append.mpr ⟨ih front earlier, forall_mem_singleton.mpr ?_⟩
    intro reaches
    rw [allowed pubkey reaches] at gone
    cases gone

end CleanLog

/-! ## When a removal is clean -/

namespace CircleTask

def expels : CircleTask -> Option Pubkey
  | .remove _ .checking => none
  | .remove follower _ => some follower
  | _ => none

def banishes : CircleTask -> Option Pubkey
  | .remove _ .checking => none
  | .remove _ .removing => none
  | .remove follower _ => some follower
  | _ => none

theorem expels_of_banishes {task : CircleTask} {pubkey : Pubkey} (banishes : task.banishes = some pubkey) :
    task.expels = some pubkey := by
  cases task with
  | remove _ phase =>
    cases phase with
    | checking | removing => cases banishes
    | _ => exact banishes
  | _ => cases banishes

theorem follower_of_expels {follower pubkey phase}
    (expels : (remove follower phase).expels = some pubkey) : follower = pubkey := by
  cases phase with
  | checking => cases expels
  | _ => exact Option.some.inj expels

end CircleTask

namespace Circle

def silent (circle : Circle) (pubkey : Pubkey) : Bool :=
  circle.queue.all (fun entry => entry.target ≠ pubkey) &&
    circle.tasks.every (fun _ task => task.works ≠ some pubkey)

/-- A removal tests the row while no accept of the follower is in flight or in the queue, and
an accept begins while no removal of the requester is under way. -/
def removesCleanly (circle : Circle) : CircleInput -> Bool
  | .check id =>
    match circle.tasks.get id with
    | some (.remove follower .checking) => circle.silent follower
    | _ => true
  | .accept requester => circle.tasks.every (fun _ task => task.expels ≠ some requester)
  | _ => true

variable {outside : Outside} {circle next : Circle} {input : CircleInput}
  {pubkey : Pubkey} {id : Nat} {old task : CircleTask}

def Silent (circle : Circle) (pubkey : Pubkey) : Prop :=
  (∀ entry ∈ circle.queue, entry.target ≠ pubkey) ∧ circle.tasks.All (fun _ task => task.works ≠ some pubkey)

theorem silent_iff : circle.silent pubkey = true ↔ circle.Silent pubkey := by
  rw [silent, Bool.and_eq_true, all_eq_true, Jobs.every_iff]
  constructor
  · rintro ⟨queue, tasks⟩
    exact ⟨fun entry member => of_decide_eq_true (queue entry member),
      fun id task found => of_decide_eq_true (tasks id task found)⟩
  · rintro ⟨queue, tasks⟩
    exact ⟨fun entry member => decide_eq_true (queue entry member),
      fun id task found => decide_eq_true (tasks id task found)⟩

def Continues (circle : Circle) (task : CircleTask) : Prop :=
  ∀ pubkey, task.expels = some pubkey -> ∃ id before, circle.tasks.get id = some before ∧
    before.expels = some pubkey ∧
      (task.banishes = some pubkey -> before.banishes = some pubkey)

theorem continues_running : circle.tasks.All (fun _ task => circle.Continues task) := by
  intro id task found pubkey expels
  exact ⟨id, task, found, expels, fun banishes => banishes⟩

structure Removing (circle : Circle) : Prop where
  expelling : circle.tasks.All (fun _ task => ∀ pubkey, task.expels = some pubkey -> circle.Silent pubkey)
  banishing : circle.tasks.All (fun _ task => ∀ pubkey, task.banishes = some pubkey ->
    circle.status pubkey ≠ some .accepted)
  gone : ∀ pubkey, expelled pubkey circle.log = true -> circle.Silent pubkey ∧
    circle.status pubkey ≠ some .accepted
  clean : CleanLog circle.log

namespace Removing

section

variable (kept : Removing circle)
include kept

theorem busy_not_expelled (found : circle.tasks.get id = some task) (works : task.works = some pubkey) :
    expelled pubkey circle.log = false := by
  cases gone : expelled pubkey circle.log with
  | false => rfl
  | true => exact ((kept.gone pubkey gone).1.2 id task found works).elim

theorem record {events} (still : ∀ event ∈ events, ∀ pubkey, event.turns pubkey = none)
    (allowed : ∀ event ∈ events, ∀ pubkey, event.reaches = some pubkey ->
      expelled pubkey circle.log = false) : Removing { circle with log := circle.log ++ events } :=
  { kept with
    gone := by
      intro pubkey gone
      have same := lastWord_append false circle.log (fun event member => still event member pubkey)
      exact kept.gone pubkey (same.symm.trans gone)
    clean := kept.clean.append still allowed }

theorem retask {tasks : Jobs CircleTask}
    (quiet : ∀ pubkey, circle.Silent pubkey -> tasks.All (fun _ task => task.works ≠ some pubkey))
    (old : tasks.All (fun _ task => circle.Continues task)) : Removing { circle with tasks := tasks } where
  expelling := by
    intro id task found pubkey expels
    rcases old id task found pubkey expels with ⟨earlier, before, atEarlier, same, _⟩
    have silent := kept.expelling earlier before atEarlier pubkey same
    exact ⟨silent.1, quiet pubkey silent⟩
  banishing := by
    intro id task found pubkey banishes
    rcases old id task found pubkey (expels_of_banishes banishes) with
      ⟨earlier, before, atEarlier, _, same⟩
    exact kept.banishing earlier before atEarlier pubkey (same banishes)
  gone := by
    intro pubkey gone
    have facts := kept.gone pubkey gone
    exact ⟨⟨facts.1.1, quiet pubkey facts.1⟩, facts.2⟩
  clean := kept.clean

theorem start (idle : task.works = none) (stays : task.expels = none) : Removing (circle.start task) := by
  apply kept.retask
  · intro pubkey silent
    apply Jobs.All.start silent.2
    rw [idle]
    exact nofun
  · apply Jobs.All.start continues_running
    intro pubkey expels
    rw [stays] at expels
    cases expels

theorem finish (id) : Removing (circle.finish id) := by
  apply kept.retask
  · intro pubkey silent
    exact silent.2.finish id
  · exact continues_running.finish id

theorem advance (found : circle.tasks.get id = some old) (same : task.works = none ∨ task.works = old.works)
    (stays : task.expels = none ∨ task.expels = old.expels ∧ task.banishes = old.banishes) :
    Removing (circle.setTask id task) := by
  apply kept.retask
  · intro pubkey silent
    apply silent.2.update found
    rcases same with nothing | equal
    · rw [nothing]
      exact nofun
    · rw [equal]
      exact silent.2 id old found
  · apply continues_running.update found
    intro pubkey expels
    rcases stays with nothing | equal
    · rw [nothing] at expels
      cases expels
    · exact ⟨id, old, found, equal.1 ▸ expels, fun banishes => equal.2 ▸ banishes⟩

theorem requeue {queue} (quiet : ∀ pubkey, circle.Silent pubkey -> ∀ entry ∈ queue, entry.target ≠ pubkey) :
    Removing { circle with queue := queue } :=
  { kept with
    expelling := by
      intro id task found pubkey expels
      have silent := kept.expelling id task found pubkey expels
      exact ⟨quiet pubkey silent, silent.2⟩
    gone := by
      intro pubkey gone
      have facts := kept.gone pubkey gone
      exact ⟨⟨quiet pubkey facts.1, facts.1.2⟩, facts.2⟩ }

theorem removeFromQueue (id) : Removing (circle.removeFromQueue id) := by
  apply kept.requeue
  intro pubkey silent entry member
  exact silent.1 entry (mem_of_mem_filter member)

theorem incrementRetry (id : Nat) : Removing (circle.incrementRetry id) := by
  apply kept.requeue
  intro pubkey silent entry member
  rcases mem_incrementRetry member with ⟨before, inQueue, target, _⟩
  rw [← target]
  exact silent.1 before inQueue

theorem setInbound {inbound : Table Pubkey InboundRequest}
    (known : ∀ pubkey, statusIn inbound pubkey = some .accepted ->
      circle.status pubkey = some .accepted ∨ ¬circle.Silent pubkey) :
    Removing { circle with inbound := inbound } where
  expelling := kept.expelling
  banishing := by
    intro id task found pubkey banishes accepted
    rcases known pubkey accepted with already | busy
    · exact kept.banishing id task found pubkey banishes already
    · exact busy (kept.expelling id task found pubkey (expels_of_banishes banishes))
  gone := by
    intro pubkey gone
    have facts := kept.gone pubkey gone
    refine ⟨facts.1, ?_⟩
    intro accepted
    rcases known pubkey accepted with already | busy
    · exact facts.2 already
    · exact busy facts.1
  clean := kept.clean

theorem eraseRow (pubkey : Pubkey) : Removing { circle with inbound := circle.inbound.erase pubkey } :=
  kept.setInbound (fun _ accepted => Or.inl (of_statusIn_erase accepted))

theorem insertPending (body : RequestBody) (now : Int) : Removing { circle with
      inbound := circle.inbound.insert body.requesterPubkey ⟨body, now, body.timestamp, .pending⟩ } :=
  kept.setInbound (fun _ accepted => Or.inl (accepted_of_insert rfl accepted))

theorem updateStatus (found : circle.tasks.get id = some task) (works : task.works = some pubkey)
    (status) : Removing (circle.updateStatus pubkey status) := by
  have logged : Removing { circle with log := circle.log ++ markEvents circle.inbound pubkey status } := by
    apply kept.record
    · intro event member other
      rw [mem_markEvents member]
      rfl
    · intro event member other reaches
      rw [mem_markEvents member] at reaches
      have same : pubkey = other := by
        cases status with
        | accepted => exact Option.some.inj reaches
        | _ => cases reaches
      rw [← same]
      exact kept.busy_not_expelled found works
  apply logged.setInbound
  intro target accepted
  rw [statusIn_setStatus] at accepted
  split at accepted
  next same =>
    refine Or.inr ?_
    intro silent
    exact silent.2 id task found (same ▸ works)
  · exact .inl accepted

theorem nextRow {row left} (found : circle.tasks.get id = some old) :
    Removing (circle.setTask id (.pass (onward row left (circle.entriesFor row.1)))) := by
  apply kept.retask
  · intro pubkey silent
    apply silent.2.update found
    intro works
    rcases works_entriesFor works with ⟨entry, inQueue, target⟩
    exact silent.1 entry inQueue target
  · exact continues_running.update found nofun

theorem escalate {follower : Pubkey} {phase : RemovePhase} (found : circle.tasks.get id = some old)
    (silent : circle.Silent follower)
    (missing : (CircleTask.remove follower phase).banishes = some follower ->
      circle.status follower ≠ some .accepted) : Removing (circle.setTask id (.remove follower phase)) := by
  have quiet : ∀ pubkey, circle.Silent pubkey -> (circle.setTask id (.remove follower phase)).Silent pubkey :=
    fun pubkey still => ⟨still.1, still.2.update found nofun⟩
  have others : circle.tasks.All (fun _ task => ∀ pubkey, task.expels = some pubkey ->
      (circle.setTask id (.remove follower phase)).Silent pubkey) :=
    fun other task atOther pubkey expels => quiet pubkey (kept.expelling other task atOther pubkey expels)
  refine ⟨others.update found ?_, kept.banishing.update found ?_, ?_, kept.clean⟩
  · intro pubkey expels
    rw [← follower_of_expels expels]
    exact quiet follower silent
  · intro pubkey banishes
    have same := follower_of_expels (expels_of_banishes banishes)
    rw [← same] at banishes ⊢
    exact missing banishes
  · intro pubkey gone
    have facts := kept.gone pubkey gone
    exact ⟨quiet pubkey facts.1, facts.2⟩

/-- `removeFollower` returns, and the follower has nothing that could reach them. -/
theorem returned {follower} (silent : circle.Silent follower)
    (missing : circle.status follower ≠ some .accepted) (id) :
    Removing ((circle.finish id).record (.removed follower)) := by
  have done := kept.finish id
  refine { done with gone := ?_, clean := done.clean.snoc nofun }
  intro pubkey gone
  have turned : expelled pubkey (circle.log ++ [.removed follower]) = true := gone
  rw [expelled_concat, turns] at turned
  split at turned
  next same =>
    rw [← same]
    exact ⟨⟨silent.1, silent.2.finish id⟩, missing⟩
  · exact done.gone pubkey turned

theorem accept {requester identity} (free : circle.tasks.All (fun _ task => task.expels ≠ some requester)) :
    Removing ((circle.start (.accept requester (.started identity))).record (.accepting requester)) := by
  have others : ∀ pubkey, pubkey ≠ requester -> circle.Silent pubkey ->
      (circle.start (.accept requester (.started identity))).Silent pubkey := by
    intro pubkey apart silent
    refine ⟨silent.1, Jobs.All.start silent.2 ?_⟩
    intro works
    exact apart (Option.some.inj works).symm
  refine ⟨?_, ?_, ?_, kept.clean.snoc nofun⟩
  · apply Jobs.All.start
    · intro id task found pubkey expels
      apply others pubkey _ (kept.expelling id task found pubkey expels)
      rintro rfl
      exact free id task found expels
    · exact nofun
  · exact Jobs.All.start kept.banishing nofun
  · intro pubkey gone
    have turned : expelled pubkey (circle.log ++ [.accepting requester]) = true := gone
    rw [expelled_concat, turns] at turned
    split at turned
    · cases turned
    next apart =>
      have facts := kept.gone pubkey turned
      exact ⟨others pubkey (fun same => apart same.symm) facts.1, facts.2⟩

theorem move (acceptedOnly : ∀ status, outside.attaches status = true -> status = some .accepted)
    (allowed : circle.removesCleanly input = true) (moved : CircleMove outside circle input next) : Removing next := by
  cases moved with
  | stay => exact kept
  | drop _ id => exact kept.finish id
  | device _ after =>
    have noted : Removing { circle with log := circle.log ++ postsOf circle.author after } := by
      apply kept.record
      · intro event member
        rcases mem_map.mp member with ⟨_, _, rfl⟩
        exact fun _ => rfl
      · intro event member
        rcases mem_map.mp member with ⟨_, _, rfl⟩
        exact nofun
    exact { noted with }
  | saveRequest id body now => exact (kept.insertPending body now).finish id
  | reject requester => exact kept.eraseRow requester
  | accept =>
    rw [removesCleanly, Jobs.every_iff] at allowed
    exact kept.accept (fun id task found => of_decide_eq_true (allowed id task found))
  | readRequest _ _ _ _ _ found | unreachable _ _ _ _ _ _ _ found | refuse _ _ _ found =>
    exact kept.advance found (.inr rfl) (.inl rfl)
  | post id _ requester _ _ _ body found =>
    have onward : Removing (circle.setTask id (.accept requester (.awaiting body))) :=
      kept.advance found (.inr rfl) (.inl rfl)
    refine onward.record (forall_mem_singleton.mpr (fun _ => rfl)) (forall_mem_singleton.mpr ?_)
    rintro _ ⟨⟩
    exact kept.busy_not_expelled found rfl
  | acknowledge id requester _ found =>
    have onward : Removing (circle.setTask id (.accept requester .acknowledged)) :=
      kept.advance found (.inr rfl) (.inl rfl)
    exact { onward with }
  | enqueue id requester body found =>
    have longer : Removing { circle with
        queue := circle.queue ++ [QueueEntry.mk circle.nextEntry requester body 0] } := by
      apply kept.requeue
      intro pubkey silent
      refine forall_mem_append.mpr ⟨silent.1, forall_mem_singleton.mpr ?_⟩
      intro same
      exact silent.2 id _ found (congrArg some same)
    have onward : Removing ({ circle with
        queue := circle.queue ++ [QueueEntry.mk circle.nextEntry requester body 0] }.setTask id
          (.accept requester .queued)) :=
      longer.advance found (.inr rfl) (.inl rfl)
    exact { onward with }
  | markAccepted id _ found => exact (kept.updateStatus found rfl .accepted).finish id
  | markQueued id _ found => exact (kept.updateStatus found rfl .pendingSend).finish id
  | nextRow _ _ _ found => exact kept.nextRow found
  | postEntry id row entry rest left found =>
    have onward : Removing (circle.setTask id (.pass (.posted row entry rest left))) :=
      kept.advance found (.inr rfl) (.inl rfl)
    refine onward.record (forall_mem_singleton.mpr (fun _ => rfl)) (forall_mem_singleton.mpr ?_)
    rintro _ ⟨⟩
    exact kept.busy_not_expelled found rfl
  | skipEntry _ row _ rest left found =>
    exact kept.advance found (works_onward row left rest) (.inl rfl)
  | entryDelivered id row entry _ left found =>
    have onward : Removing ((circle.removeFromQueue entry.id).setTask id (.pass (.delivered row left))) :=
      (kept.removeFromQueue entry.id).advance found (.inr rfl) (.inl rfl)
    exact { onward with }
  | entryFailed id row entry rest left _ found onto =>
    apply (kept.incrementRetry entry.id).advance found _ (.inl rfl)
    rcases onto with rfl | rfl
    · exact .inr rfl
    · exact works_onward row left rest
  | markRow _ _ _ found =>
    exact (kept.updateStatus found rfl .accepted).advance found (.inr rfl) (.inl rfl)
  | markFailed _ row rest left found =>
    exact (kept.updateStatus found rfl .sendFailed).advance found (works_onward row left rest) (.inl rfl)
  | readDuplicates _ _ _ found | dropped _ _ found => exact kept.advance found (.inl rfl) (.inl rfl)
  | dropDuplicate _ entry _ _ found =>
    exact (kept.removeFromQueue entry).advance found (.inl rfl) (.inl rfl)
  | checkAccepted _ _ found =>
    rw [removesCleanly, found] at allowed
    exact kept.escalate found (silent_iff.mp allowed) nofun
  | checkMissing id _ found missing =>
    rw [removesCleanly, found] at allowed
    exact kept.returned (silent_iff.mp allowed) (of_decide_eq_false missing) id
  | deleteRow id follower found =>
    apply (kept.eraseRow follower).escalate found (kept.expelling id _ found follower rfl)
    intro _ accepted
    rw [status, statusIn_erase, if_pos rfl] at accepted
    cases accepted
  | clear id follower found =>
    have onward : Removing (circle.setTask id (.remove follower .cleared)) :=
      kept.advance found (.inl rfl) (.inr ⟨rfl, rfl⟩)
    exact { onward with }
  | rotate id follower found =>
    have onward : Removing (circle.setTask id (.remove follower (.rotating circle.author.tasks.next))) :=
      kept.advance found (.inl rfl) (.inr ⟨rfl, rfl⟩)
    exact { onward with }
  | finishRemoval id follower _ found =>
    exact kept.returned (kept.expelling id _ found follower rfl) (kept.banishing id _ found follower rfl) id
  | acknowledged => exact { kept with }
  | handed follower _ _ row _ attached =>
    have noted : Removing (circle.record (.handed follower row.feedKey)) := by
      refine kept.record (forall_mem_singleton.mpr (fun _ => rfl)) (forall_mem_singleton.mpr ?_)
      rintro _ ⟨⟩
      cases gone : expelled follower circle.log with
      | false => rfl
      | true => exact ((kept.gone follower gone).2 (acceptedOnly _ attached)).elim
    exact { noted with }
  | _ => exact kept.start rfl rfl

end

theorem boot (identity events) : Removing (boot identity events) where
  expelling := Jobs.Idle.all (fun _ => rfl)
  banishing := Jobs.Idle.all (fun _ => rfl)
  gone := nofun
  clean := .nil

end Removing

def acceptedAndRemoved : List CircleInput :=
  accepting 1 ++ [.dial 1 true (List.replicate 24 4), .respond 1 true, .mark 1, .remove friendPubkey, .check 2,
    .deleteRow 2, .clear 2, .rotate 2, .author (.acquire 0), .author (.retire 0 70 true),
    .author (.renew 0 (List.replicate 32 2)), .author (.distribute 0), .author (.sweep 0),
    .finishRemoval 2]

def lifeGoesOn : List CircleInput :=
  [.poll friendPubkey none, .retry none, .nextRow 3, .author (.publish .like), .author (.acquire 1),
    .author (.saveEvent 1 "like" 80 (some "post")), .author (.bump 1), .author (.release 1)]

/-- The accept of the friend waits in the queue when the friend is removed: the removal
returns without doing anything.  The owner's next event is encrypted under the old key, and
the next retry pass sends that key to the friend and marks them as accepted. -/
def removedWhileQueued : List CircleInput :=
  accepting 1 ++ [.dial 1 false (List.replicate 24 4), .enqueue 1, .mark 1, .remove friendPubkey, .check 2,
    .author (.publish .like), .author (.acquire 0), .author (.saveEvent 0 "like" 80 (some "post")),
    .retry none, .nextRow 3, .postEntry 3, .entryResponse 3 true, .markRow 3]

end Circle

end Starling.App
