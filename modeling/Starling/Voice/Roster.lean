import Starling.Voice.Moves

namespace Starling.Voice

open List Option Table AList

/-!
# The roster invariant

Membership is stored twice, as the participants of a call and as the call key of
a session.  `Roster` says that the two agree, together with the local facts about
calls and sessions that the handlers rely on when they index a map.  Every move
keeps it.
-/

variable {C : Crates}

/-- A well-formed roster with a reap clock that runs exactly while it is empty. -/
structure Call.Sound (call : Call) : Prop where
  nodup : call.participants.Nodup
  withinCap : call.participants.length ≤ call.cap
  clock : call.emptySince = none ↔ call.participants ≠ []

variable {call : Call} {sid : Sid} {session : Session C}

theorem Call.Vacant.sound (vacant : call.Vacant) : call.Sound where
  nodup := vacant.1 ▸ nodup_nil
  withinCap := by
    rw [vacant.1]
    exact Nat.zero_le _
  clock := by
    constructor
    · intro stopped
      exact (vacant.2 stopped).elim
    · intro live
      exact (live vacant.1).elim

theorem Call.Sound.remove (sound : call.Sound) (now) (member : sid ∈ call.participants) :
    (call.remove sid now).Sound where
  nodup := sound.nodup.filter _
  withinCap := le_trans (length_filter_le _ _) sound.withinCap
  clock := by
    -- The call had a member, so its clock was stopped before the removal.
    have stopped : call.emptySince = none := sound.clock.mpr (ne_nil_of_mem member)
    simp only [Call.remove]
    split
    next emptied =>
      rw [List.isEmpty_iff] at emptied
      simp only [reduceCtorEq, emptied, ne_eq, not_true_eq_false]
    next inhabited =>
      rw [List.isEmpty_iff] at inhabited
      simp only [stopped, ne_eq, inhabited, not_false_eq_true]

theorem Call.Sound.join (sound : call.Sound) (newMember : sid ∉ call.participants)
    (room : call.participants.length < call.cap) : (call.join sid).Sound where
  nodup := by
    rw [Call.join, ← concat_eq_append]
    exact sound.nodup.concat newMember
  withinCap := by
    rw [Call.join, length_append]
    exact room
  clock := by
    simp [Call.join, append_eq_nil_iff, cons_ne_self]

/-- What a session of a given state can look like. -/
structure Session.Sound (session : Session C) : Prop where
  owned : ∀ key, session.callKey = some key -> key.1 = session.owner
  joined : session.state ≠ .awaitingJoin -> session.rtc.isSome = true ∧ session.callKey ≠ none
  waiting : session.state = .awaitingJoin ->
    session.callKey = none ∧ session.rtc = none ∧ session.queuedSources = [] ∧ session.toClient.accepted = []
  unwired : session.state ≠ .steady -> (∀ source, source ∉ session.txSlots) ∧ session.pendingOffer = none
  capacity : session.toClient.capacity = Server.clientCapacity

theorem Session.Sound.new (owner client) :
    (new owner (Channel.fresh Server.clientCapacity client) : Session C).Sound where
  owned := nofun
  joined := fun apart => (apart rfl).elim
  waiting := fun _ => ⟨rfl, rfl, rfl, rfl⟩
  unwired := fun _ => ⟨fun source => notMem_empty source, rfl⟩
  capacity := rfl

section

variable (sound : session.Sound)
include sound

theorem Session.Sound.joined_of_key (keyed : session.callKey ≠ none) : session.state ≠ .awaitingJoin :=
  fun waiting => keyed (sound.waiting waiting).1

theorem Session.Sound.forget (sid sfuId) (keyed : session.callKey ≠ none) : (session.forget sid sfuId).Sound where
  owned := sound.owned
  joined := sound.joined
  waiting := fun waiting => (sound.joined_of_key keyed waiting).elim
  unwired := by
    intro apart
    have before := sound.unwired apart
    refine ⟨?_, before.2⟩
    intro source member
    exact before.1 source (mem_erase.mp member).2
  capacity := (Channel.trySend_capacity _ _).trans sound.capacity

theorem Session.Sound.joined_of_offering (offering : session.state = .awaitingOffer) :
    session.rtc.isSome = true ∧ session.callKey ≠ none := by
  apply sound.joined
  rw [offering]
  exact nofun

theorem Session.Sound.joined_of_steady (steady : session.state = .steady) :
    session.rtc.isSome = true ∧ session.callKey ≠ none := by
  apply sound.joined
  rw [steady]
  exact nofun

theorem Session.Sound.rewire {next : Session C} (steady : session.state = .steady)
    (sameState : next.state = session.state) (sameKey : next.callKey = session.callKey)
    (hasRtc : next.rtc.isSome = true) (sameOwner : next.owner = session.owner)
    (sameChannel : next.toClient = session.toClient) : next.Sound where
  owned := by
    intro key keyed
    rw [sameOwner]
    exact sound.owned key (sameKey ▸ keyed)
  joined := by
    intro apart
    rw [sameKey]
    exact ⟨hasRtc, (sound.joined (sameState ▸ apart)).2⟩
  waiting := by
    intro waiting
    rw [sameState, steady] at waiting
    cases waiting
  unwired := by
    intro apart
    exact (apart (sameState.trans steady)).elim
  capacity := sameChannel ▸ sound.capacity

theorem Server.afterDeparture_sound {gone} : (afterDeparture sid gone session).Sound := by
  unfold afterDeparture
  split
  next same => exact sound.forget sid gone.sfuId (fun none => same.1 (same.2 ▸ none))
  · exact sound

end

namespace Server

variable {mark : Mark} {next session gone : Session C} {server changed left : Server C} {sid : Sid}
variable {call : Call} {key : CallKey} {now : Instant} {strict : Bool}

theorem Change.sound {marked : Mark} (change : Change server sid session mark next marked)
    (sound : session.Sound) : next.Sound := by
  cases change with
  | deliver _ _ joined =>
    exact ⟨sound.owned, sound.joined, fun waiting => (joined waiting).elim, sound.unwired,
      (Channel.trySend_capacity _ _).trans sound.capacity⟩
  | media _ _ _ had =>
    refine ⟨sound.owned, fun apart => ⟨rfl, (sound.joined apart).2⟩, ?_, sound.unwired, sound.capacity⟩
    intro waiting
    rw [(sound.waiting waiting).2.1] at had
    cases had
  | enqueue _ _ _ peer =>
    rcases peer with ⟨_, _, _, _, same⟩
    exact ⟨sound.owned, sound.joined,
      fun waiting => (sound.joined_of_key same.1 waiting).elim, sound.unwired,
      sound.capacity⟩
  | accept _ _ _ _ _ offering =>
    have keyed : session.callKey ≠ none := (sound.joined_of_offering offering).2
    refine ⟨sound.owned, fun _ => ⟨rfl, keyed⟩, ?_, fun apart => (apart rfl).elim,
      (Channel.trySend_capacity _ _).trans sound.capacity⟩
    exact nofun
  | answered _ _ _ _ steady | reoffer _ _ _ _ _ _ steady => exact sound.rewire steady rfl rfl rfl rfl rfl
  | drain _ _ steady =>
    exact sound.rewire steady rfl rfl (sound.joined_of_steady steady).1 rfl rfl

/-- Rosters and call keys agree, and every queued source is a member of the same
call under its public id. -/
structure Roster (server : Server C) : Prop where
  listed : ∀ {key call}, server.calls.lookup key = some call ->
    ∀ sid, sid ∈ call.participants ↔ server.keyOf sid = some key
  seated : ∀ {sid key}, server.keyOf sid = some key -> ∃ call, server.calls.lookup key = some call
  callSound : ∀ {key call}, server.calls.lookup key = some call -> call.Sound
  sessionSound : ∀ {sid session}, server.sessions.lookup sid = some session -> session.Sound
  queued : ∀ {sid session}, server.sessions.lookup sid = some session ->
    ∀ source ∈ session.queuedSources, server.Peer sid session source.1 source.2
  known : ∀ {sid session}, server.sessions.lookup sid = some session -> sid < server.nextSid

theorem Roster.new (C cfg destAddr candidateStrings idSeed) : Roster (new C cfg destAddr candidateStrings idSeed) := by
  refine ⟨?_, ?_, ?_, ?_, ?_, ?_⟩
  all_goals intros; contradiction

theorem Roster.seat (roster : Roster server) (found : server.sessions.lookup sid = some session) :
    Seated server session where
  call := by
    intro key keyed
    rcases roster.seated ((keyOf_of_lookup found).trans keyed) with ⟨call, inCall⟩
    exact ⟨call, inCall, (roster.callSound inCall).nodup, roster.listed inCall⟩

theorem Peer.transport {other sfuId} (peer : server.Peer sid session other sfuId)
    (sameKey : next.callKey = session.callKey) (sameIdentity : changed.identity other = server.identity other) :
    changed.Peer sid next other sfuId := by
  rw [peer_iff] at peer ⊢
  rw [sameKey, sameIdentity]
  exact peer

theorem keyOf_congr (same : changed.identity sid = server.identity sid) : changed.keyOf sid = server.keyOf sid := by
  rw [keyOf_eq_identity, keyOf_eq_identity, same]

section

variable (roster : Roster server)
include roster

theorem Roster.update {marked} (found : server.sessions.lookup sid = some session)
    (change : Change server sid session mark next marked) (updates : Updates server changed sid next) :
    Roster changed := by
  have same := updates.identity found change.same.1 change.same.2.1
  have sameKey : ∀ target, changed.keyOf target = server.keyOf target :=
    fun target => keyOf_congr (same target)
  refine ⟨?_, ?_, ?_, ?_, ?_, ?_⟩
  · intro key call inCall target
    rw [updates.calls] at inCall
    rw [sameKey, roster.listed inCall]
  · intro target key keyed
    rw [sameKey] at keyed
    rw [updates.calls]
    exact roster.seated keyed
  · intro key call inCall
    rw [updates.calls] at inCall
    exact roster.callSound inCall
  · intro target stored present
    rw [updates.sessions] at present
    split at present
    · cases present
      exact change.sound (roster.sessionSound found)
    · exact roster.sessionSound present
  · intro target stored present source member
    rw [updates.sessions] at present
    split at present
    next =>
      cases present
      subst target
      have peer := (change.queued member).elim (roster.queued found source) id
      exact peer.transport change.same.2.1 (same source.1)
    · exact (roster.queued present source member).transport rfl (same source.1)
  · intro target stored present
    rw [updates.nextSid]
    rw [updates.sessions] at present
    split at present
    next equal => exact equal ▸ roster.known found
    · exact roster.known present

section

variable (leaves : Leaves server left sid gone now)
include leaves

theorem Roster.listed_leave (inCall : left.calls.lookup key = some call) (target) :
    target ∈ call.participants ↔ left.keyOf target = some key := by
  rw [leaves.calls, map_eq_some_iff] at inCall
  rcases inCall with ⟨_, present, rfl⟩
  rw [leaves.keyOf]
  have listed := roster.listed present target
  by_cases hers : gone.callKey = some key
  · rw [if_pos hers, Call.remove, mem_filter, listed]
    by_cases same : target = sid <;> simp [same]
  · rw [if_neg hers, listed]
    by_cases same : target = sid
    · rw [same, keyOf_of_lookup leaves.found]
      simp [hers]
    · rw [if_neg same]

theorem Roster.queued_leave {target} (found : server.sessions.lookup target = some session)
    {source} (member : source ∈ (afterDeparture sid gone session).queuedSources) :
    left.Peer target (afterDeparture sid gone session) source.1 source.2 := by
  have survives : source ∈ session.queuedSources ∧ (SameCall gone session -> source.1 ≠ sid) := by
    unfold afterDeparture at member
    split at member
    · have kept := mem_filter.mp member
      exact ⟨kept.1, fun _ => of_decide_eq_true kept.2⟩
    next apart => exact ⟨member, fun same => (apart same).elim⟩
  have peer := roster.queued found source survives.1
  have different : source.1 ≠ sid := by
    intro equal
    have keyed := (peer_iff.mp peer).2
    rw [equal, identity_of_lookup leaves.found, some.injEq, Prod.mk.injEq] at keyed
    have shared : SameCall gone session := ⟨keyed.2.2 ▸ keyed.1, keyed.2.2.symm⟩
    exact survives.2 shared equal
  apply peer.transport (afterDeparture_same sid gone session).1
  rw [leaves.identity, if_neg different]

theorem Roster.leave : Roster left := by
  refine ⟨?_, ?_, ?_, ?_, ?_, ?_⟩
  · intro key call inCall
    exact roster.listed_leave leaves inCall
  · intro target key keyed
    rw [leaves.keyOf] at keyed
    split at keyed
    · cases keyed
    · rcases roster.seated keyed with ⟨_, inCall⟩
      rw [leaves.calls, inCall]
      exact ⟨_, rfl⟩
  · intro key call inCall
    rw [leaves.calls, map_eq_some_iff] at inCall
    rcases inCall with ⟨_, present, rfl⟩
    split
    next hers =>
      apply (roster.callSound present).remove
      rw [roster.listed present, keyOf_of_lookup leaves.found, hers]
    · exact roster.callSound present
  · intro target stored present
    rcases leaves.remaining present with ⟨_, _, found, rfl⟩
    exact afterDeparture_sound (roster.sessionSound found)
  · intro target stored present source member
    rcases leaves.remaining present with ⟨_, _, found, rfl⟩
    exact roster.queued_leave leaves found member
  · intro target stored present
    rcases leaves.remaining present with ⟨_, _, found, _⟩
    rw [leaves.nextSid]
    exact roster.known found

end

theorem Roster.withCalls (sessions : changed.sessions = server.sessions) (nextSid : changed.nextSid = server.nextSid)
    (calls : ∀ key, changed.calls.lookup key = server.calls.lookup key ∨ ((∀ call,
      server.calls.lookup key = some call -> call.participants = []) ∧ ∀ call, changed.calls.lookup
      key = some call -> call.Vacant)) : Roster changed := by
  have same : ∀ target, changed.identity target = server.identity target := by
    intro target
    rw [identity, identity, sessions]
  refine ⟨?_, ?_, ?_, ?_, ?_, ?_⟩
  · intro key call inCall target
    rw [keyOf_congr (same target)]
    rcases calls key with kept | ⟨empty, vacant⟩
    · exact roster.listed (kept ▸ inCall) target
    · rw [(vacant call inCall).1]
      constructor
      · rintro ⟨⟩
      · intro keyed
        rcases roster.seated keyed with ⟨old, present⟩
        have member := (roster.listed present target).mpr keyed
        rw [empty old present] at member
        exact member
  · intro target key keyed
    rw [keyOf_congr (same target)] at keyed
    rcases roster.seated keyed with ⟨call, inCall⟩
    rcases calls key with kept | ⟨empty, _⟩
    · exact ⟨call, kept.trans inCall⟩
    · have member := (roster.listed inCall target).mpr keyed
      rw [empty call inCall] at member
      cases member
  · intro key call inCall
    rcases calls key with kept | ⟨_, vacant⟩
    · exact roster.callSound (kept ▸ inCall)
    · exact (vacant call inCall).sound
  · intro target stored present
    exact roster.sessionSound (sessions ▸ present)
  · intro target stored present source member
    exact (roster.queued (sessions ▸ present) source member).transport rfl (same source.1)
  · intro target stored present
    rw [nextSid]
    exact roster.known (sessions ▸ present)

theorem Roster.quiet (quiet : Quiet server changed) : Roster changed :=
  roster.withCalls quiet.sessions quiet.nextSid (fun _ => Or.inl (by rw [quiet.calls]))

end

theorem openSession_lookup (owner client waiting) (unused : server.sessions.lookup server.nextSid = none)
    (target) : (server.openSession owner client waiting).sessions.lookup target =
      if target = server.nextSid ∧ waiting = true then
        some (Session.new owner (Channel.fresh clientCapacity client))
      else server.sessions.lookup target := by
  cases waiting with
  | true => simp [openSession, setSession, lookup_insert_eq]
  | false =>
    simp only [openSession, Bool.false_eq_true, if_false, setSession, lookup_erase_eq, lookup_insert_eq, and_false]
    split
    next same => exact same ▸ unused.symm
    · rfl

theorem openSession_keyOf (owner client waiting) (unused : server.sessions.lookup server.nextSid = none)
    (target) : (server.openSession owner client waiting).keyOf target = server.keyOf target := by
  rw [keyOf, openSession_lookup owner client waiting unused]
  split
  next new =>
    rw [new.1, keyOf, unused]
    rfl
  · rfl

theorem openSession_frame (server : Server C) (owner : Bytes32) (client : List Pause) (waiting : Bool) :
    let opened := server.openSession owner client waiting
    opened.calls = server.calls ∧ opened.nextSid = server.nextSid + 1 ∧
      opened.registry = server.registry ∧ opened.cfg = server.cfg ∧
      opened.departures = server.departures ∧ opened.written = server.written ∧
      opened.idSeed = server.idSeed ∧ opened.idCounter = server.idCounter := by
  cases waiting <;> exact ⟨rfl, rfl, rfl, rfl, rfl, rfl, rfl, rfl⟩

theorem Roster.unused (roster : Roster server) : server.sessions.lookup server.nextSid = none := by
  cases found : server.sessions.lookup server.nextSid with
  | none => rfl
  | some => exact (lt_irrefl _ (roster.known found)).elim

theorem Roster.connect (roster : Roster server) (owner client waiting) :
    Roster (server.openSession owner client waiting) := by
  have lookup := openSession_lookup owner client waiting roster.unused
  have frame := openSession_frame server owner client waiting
  have sameKey := openSession_keyOf owner client waiting roster.unused
  refine ⟨?_, ?_, ?_, ?_, ?_, ?_⟩
  · intro key call inCall target
    rw [sameKey]
    exact roster.listed (frame.1 ▸ inCall) target
  · intro target key keyed
    rw [frame.1]
    exact roster.seated (sameKey target ▸ keyed)
  · intro key call inCall
    exact roster.callSound (frame.1 ▸ inCall)
  · intro target stored present
    rw [lookup] at present
    split at present
    · cases present
      exact Session.Sound.new owner client
    · exact roster.sessionSound present
  · intro target stored present source member
    rw [lookup] at present
    split at present
    · cases present
      cases member
    · have peer := roster.queued present source member
      apply peer.transport rfl
      -- The new session has a number nobody had before.
      rcases peer with ⟨_, _, found, _⟩
      have apart : source.1 ≠ server.nextSid := by
        intro same
        rw [same, roster.unused] at found
        cases found
      rw [identity, lookup, if_neg (fun new => apart new.1), identity]
  · intro target stored present
    rw [lookup] at present
    rw [frame.2.1]
    split at present
    next new =>
      rw [new.1]
      exact Nat.lt_succ_self _
    · exact Nat.lt_succ_of_lt (roster.known present)

theorem Roster.unjoined (roster : Roster server) (found : server.sessions.lookup sid = some session)
    (waiting : session.state = .awaitingJoin) : server.keyOf sid = none := by
  rw [keyOf_of_lookup found]
  exact ((roster.sessionSound found).waiting waiting).1

theorem admitted_identity (server : Server C) (sid key session call now) (target : Sid) :
    (server.admitted sid key session call now).identity target =
      if target = sid then some (sfuIdOf C server.idSeed (server.idCounter + 1), some key)
      else server.identity target := by
  rw [identity, admitted]
  simp only [lookup_insert_eq]
  split <;> rfl

theorem admitted_keyOf (server : Server C) (sid key session call now) (target : Sid) :
    (server.admitted sid key session call now).keyOf target =
      if target = sid then some key else server.keyOf target := by
  rw [keyOf_eq_identity, admitted_identity, keyOf_eq_identity]
  split <;> rfl

theorem Roster.peer_admitted (roster : Roster server) (found : server.sessions.lookup sid = some session)
    (waiting : session.state = .awaitingJoin) {target other stored sfuId}
    (peer : server.Peer target stored other sfuId) :
    (server.admitted sid key session call now).Peer target stored other sfuId := by
  apply peer.transport rfl
  rw [admitted_identity, if_neg]
  intro same
  have keyed := peer.keyOf
  rw [same, roster.unjoined found waiting] at keyed
  exact (peer_iff.mp peer).2.1 keyed.symm

theorem admitted_calls (server : Server C) (sid key session call now) (target : CallKey) :
    (server.admitted sid key session call now).calls.lookup target =
      if target = key then some (call.join sid) else server.calls.lookup target :=
  lookup_insert_eq server.calls key target (call.join sid)

theorem Roster.listed_enter (roster : Roster server) (outside : server.keyOf sid = none)
    (inCall : server.calls.lookup key = some call) {other stored}
    (present : (server.admitted sid key session call now).calls.lookup other = some stored) (target : Sid) :
    target ∈ stored.participants ↔ (server.admitted sid key session call now).keyOf target = some other := by
  rw [admitted_calls] at present
  rw [admitted_keyOf]
  by_cases hers : other = key
  · subst other
    rw [if_pos rfl] at present
    cases present
    rw [Call.join, mem_append, roster.listed inCall]
    by_cases same : target = sid <;> simp [same]
  · rw [if_neg hers] at present
    rw [roster.listed present]
    by_cases same : target = sid
    · have apart : key ≠ other := fun equal => hers equal.symm
      simp [same, outside, apart]
    · rw [if_neg same]

theorem Roster.enter (roster : Roster server) (found : server.sessions.lookup sid = some session)
    (waiting : session.state = .awaitingJoin) (owned : key.1 = session.owner)
    (inCall : server.calls.lookup key = some call) (room : call.participants.length < call.cap) :
    Roster (server.admitted sid key session call now) := by
  have sound := roster.sessionSound found
  have outside := roster.unjoined found waiting
  have lookupAfter : ∀ {target stored},
      (server.admitted sid key session call now).sessions.lookup target = some stored ->
      target ≠ sid -> server.sessions.lookup target = some stored := by
    intro target stored present apart
    rw [admitted, lookup_insert_ne apart] at present
    exact present
  refine ⟨?_, ?_, ?_, ?_, ?_, ?_⟩
  · intro other stored present
    exact roster.listed_enter outside inCall present
  · intro target other keyed
    rw [admitted_keyOf] at keyed
    rw [admitted_calls]
    by_cases hers : other = key
    · exact ⟨_, if_pos hers⟩
    · rw [if_neg hers]
      split at keyed
      · cases keyed
        exact (hers rfl).elim
      · exact roster.seated keyed
  · intro other stored present
    rw [admitted_calls] at present
    split at present
    · cases present
      apply (roster.callSound inCall).join _ room
      rw [roster.listed inCall, outside]
      exact nofun
    · exact roster.callSound present
  · intro target stored present
    by_cases same : target = sid
    · rw [admitted, same, lookup_insert] at present
      cases present
      refine ⟨?_, ?_, ?_, ?_, sound.capacity⟩
      · intro other keyed
        cases keyed
        exact owned
      · intro _
        exact ⟨rfl, some_ne_none key⟩
      · exact nofun
      · intro _
        apply sound.unwired
        rw [waiting]
        exact nofun
    · exact roster.sessionSound (lookupAfter present same)
  · intro target stored present source member
    by_cases same : target = sid
    · rw [admitted, same, lookup_insert] at present
      cases present
      -- The newcomer starts with the empty queue it had while waiting.
      have empty : session.queuedSources = [] := (sound.waiting waiting).2.2.1
      have never := member
      rw [empty] at never
      cases never
    · exact roster.peer_admitted found waiting
        (roster.queued (lookupAfter present same) source member)
  · intro target stored present
    by_cases same : target = sid
    · rw [same]
      exact roster.known found
    · exact roster.known (lookupAfter present same)

theorem Move.roster {before after : Mark × Server C} (move : Move strict before after)
    (roster : Roster before.2) : Roster after.2 := by
  cases move with
  | quiet quiet => exact roster.quiet quiet
  | connect owner client waiting => exact roster.connect owner client waiting
  | leave leaves => exact roster.leave leaves
  | update found change updates => exact roster.update found change updates
  | reshelve reshelves =>
    exact roster.withCalls reshelves.sessions reshelves.nextSid reshelves.calls
  | enter found waiting owned inCall room => exact roster.enter found waiting owned inCall room
  | rename | rest => exact roster

theorem Moves.roster {before after : Mark × Server C} (moves : Moves strict before after)
    (roster : Roster before.2) : Roster after.2 :=
  Moves.keeps (fun _ _ move kept => move.roster kept) moves roster

theorem Roster.moves_foldl {A : Type} {act}
    (round : ∀ {server : Server C}, Roster server -> ∀ item, Moves strict (mark, server) (mark,
      act server item)) (items : List A) (roster : Roster server) :
    Moves strict (mark, server) (mark, items.foldl act server) := by
  induction items generalizing server with
  | nil => exact .refl
  | cons item rest ih =>
    have moved := round roster item
    exact moved.trans (ih (moved.roster roster))

end Server

end Starling.Voice
