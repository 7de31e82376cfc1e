import Starling.Voice.EventLoop

namespace Starling.Voice

open List AList

/-!
# Who is wired to whom

A steady participant has one downstream slot, or one queue entry, for each other
member of its call.  Inside a handler this holds up to the mark: a newcomer is
missing where it has not been queued yet, and a queue may be waiting for its
negotiation at the busy session.  Between turns nothing is marked.
-/

variable {C : Crates}

def Session.Carries (session : Session C) (source : Sid) : Prop :=
  source ∈ session.txSlots ∨ source ∈ session.queuedSources.map Prod.fst

namespace Server

/-- One steady session is wired to exactly the others, up to the mark. -/
structure Wired (mark : Mark) (server : Server C) (sid : Sid) (session : Session C) : Prop where
  nodup : (session.queuedSources.map Prod.fst).Nodup
  apart : ∀ source ∈ session.queuedSources.map Prod.fst, source ∉ session.txSlots
  inside : ∀ source, session.Carries source -> server.keyOf source = session.callKey ∧ source ≠ sid
  complete : ∀ source, server.keyOf source = session.callKey -> source ≠ sid ->
    session.Carries source ∨ (source = mark.newcomer ∧ sid ∈ mark.unqueued)
  pending : session.pendingOffer = none -> session.queuedSources = [] ∨ mark.busy = some sid
  late : sid ∈ mark.unqueued -> ¬ session.Carries mark.newcomer

def Wiring (mark : Mark) (server : Server C) : Prop :=
  ∀ {sid session}, server.sessions.lookup sid = some session -> session.state = .steady ->
    Wired mark server sid session

variable {changed server : Server C} {mark marked : Mark} {session next : Session C} {sid newcomer : Sid}

theorem Wired.frame (wired : Wired mark server sid session)
    (sameKey : ∀ target, changed.keyOf target = server.keyOf target)
    (sameNewcomer : marked.newcomer = mark.newcomer)
    (sameUnqueued : sid ∈ marked.unqueued ↔ sid ∈ mark.unqueued)
    (busy : mark.busy = some sid -> marked.busy = some sid) : Wired marked changed sid session where
  nodup := wired.nodup
  apart := wired.apart
  inside := by
    intro source carried
    rw [sameKey]
    exact wired.inside source carried
  complete := by
    intro source keyed different
    rw [sameKey] at keyed
    rw [sameNewcomer, sameUnqueued]
    exact wired.complete source keyed different
  pending := fun none => (wired.pending none).imp id busy
  late := by
    intro unqueued
    rw [sameNewcomer]
    exact wired.late (sameUnqueued.mp unqueued)

theorem Change.mark_other (change : Change server sid session mark next marked) {target} (apart : target ≠ sid) :
    marked.newcomer = mark.newcomer ∧ (target ∈ marked.unqueued ↔ target ∈ mark.unqueued) ∧
      (mark.busy = some target -> marked.busy = some target) := by
  have notBusy : some sid = some target -> False := fun same => apart (Option.some.inj same).symm
  cases change with
  | deliver | media => exact ⟨rfl, Iff.rfl, id⟩
  | enqueue =>
    refine ⟨rfl, ?_, fun never => by cases never⟩
    rw [mem_cons]
    exact ⟨Or.inr, fun either => either.elim (fun same => (apart same).elim) id⟩
  | accept | answered => exact ⟨rfl, Iff.rfl, fun never => by cases never⟩
  | drain | reoffer => exact ⟨rfl, Iff.rfl, fun same => (notBusy same).elim⟩

theorem Wired.enqueue {rest sfuId} (wired : Wired ⟨newcomer, sid :: rest, none⟩ server sid session)
    (peer : server.Peer sid session newcomer sfuId) (once : sid ∉ rest) :
    Wired ⟨newcomer, rest, some sid⟩ server sid
      { session with queuedSources := session.queuedSources ++ [(newcomer, sfuId)] } := by
  have missing : ¬ session.Carries newcomer := wired.late mem_cons_self
  have carries : ∀ source, Session.Carries
      { session with queuedSources := session.queuedSources ++ [(newcomer, sfuId)] } source ↔
        session.Carries source ∨ source = newcomer := by
    intro source
    simp [Session.Carries, map_append, or_assoc]
  refine ⟨?_, ?_, ?_, ?_, fun _ => Or.inr rfl, fun unqueued => (once unqueued).elim⟩
  · rw [map_append, map_singleton, ← concat_eq_append]
    exact wired.nodup.concat (fun queued => missing (.inr queued))
  · intro source queued slot
    rw [map_append, mem_append] at queued
    rcases queued with old | new
    · exact wired.apart source old slot
    · rw [map_cons, map_nil, mem_singleton] at new
      rw [new] at slot
      exact missing (.inl slot)
  · intro source carried
    rcases (carries source).mp carried with old | new
    · exact wired.inside source old
    · rw [new]
      exact ⟨peer.keyOf, peer.1⟩
  · intro source keyed different
    left
    rw [carries]
    rcases wired.complete source keyed different with old | ⟨new, _⟩
    · exact .inl old
    · exact .inr new

theorem Roster.wired_accept (roster : Roster server) {others}
    (found : server.sessions.lookup sid = some session) (offering : session.state = .awaitingOffer)
    (complete : ∀ other sfuId, (other, sfuId) ∈ others ↔ server.Peer sid session other sfuId)
    (nodup : (others.map Prod.fst).Nodup) (sameKey : next.callKey = session.callKey)
    (slots : next.txSlots = session.txSlots) (queue : next.queuedSources = others) :
    Wired ⟨newcomer, [], some sid⟩ server sid next := by
  have sound := roster.sessionSound found
  have notSteady : session.state ≠ .steady := by
    rw [offering]
    exact nofun
  have keyed : session.callKey ≠ none := (sound.joined_of_offering offering).2
  have noSlot : ∀ source, source ∉ next.txSlots := slots ▸ (sound.unwired notSteady).1
  have isPeer : ∀ source, next.Carries source ↔ ∃ sfuId, server.Peer sid session source sfuId := by
    intro source
    rw [Session.Carries, queue, mem_map]
    constructor
    · rintro (slot | ⟨⟨_, sfuId⟩, member, rfl⟩)
      · exact (noSlot source slot).elim
      · exact ⟨sfuId, (complete _ _).mp member⟩
    · rintro ⟨sfuId, peer⟩
      exact .inr ⟨(source, sfuId), (complete _ _).mpr peer, rfl⟩
  refine ⟨queue ▸ nodup, fun source _ => noSlot source, ?_, ?_, fun _ => Or.inr rfl, nofun⟩
  · intro source carried
    rcases (isPeer source).mp carried with ⟨_, peer⟩
    exact ⟨peer.keyOf.trans sameKey.symm, peer.1⟩
  · intro source inCall apart
    rcases Option.ne_none_iff_exists'.mp keyed with ⟨_, joined⟩
    rw [sameKey, joined, keyOf_eq_some] at inCall
    rcases inCall with ⟨other, present, theirs⟩
    left
    rw [isPeer]
    exact ⟨other.sfuId, apart, other, present, rfl, keyed, theirs.trans joined.symm⟩

theorem Wired.recarry (wired : Wired mark server sid session) (sameKey : next.callKey = session.callKey)
    (carries : ∀ source, next.Carries source ↔ session.Carries source)
    (nodup : (next.queuedSources.map Prod.fst).Nodup)
    (apart : ∀ source ∈ next.queuedSources.map Prod.fst, source ∉ next.txSlots)
    (pending : next.pendingOffer = none -> next.queuedSources = [] ∨ marked.busy = some sid)
    (sameNewcomer : marked.newcomer = mark.newcomer) (sameUnqueued : marked.unqueued = mark.unqueued) :
    Wired marked server sid next where
  nodup := nodup
  apart := apart
  inside := by
    intro source carried
    rw [sameKey]
    exact wired.inside source ((carries source).mp carried)
  complete := by
    intro source keyed different
    rw [sameKey] at keyed
    rw [carries, sameNewcomer, sameUnqueued]
    exact wired.complete source keyed different
  pending := pending
  late := by
    intro unqueued
    rw [carries, sameNewcomer]
    exact wired.late (sameUnqueued ▸ unqueued)

theorem Roster.wired_change (roster : Roster server) (total : C.ApplyTotal)
    (found : server.sessions.lookup sid = some session) (change : Change server sid session mark next marked)
    (steadyAfter : next.state = .steady) (before : session.state = .steady -> Wired mark server sid session) :
    Wired marked server sid next := by
  cases change with
  | enqueue _ _ _ peer once => exact (before steadyAfter).enqueue peer once
  | accept _ _ _ _ _ offering complete nodup =>
    exact roster.wired_accept found offering complete nodup rfl rfl rfl
  | answered _ _ _ _ steady kept =>
    have wired := before steady
    refine wired.recarry rfl ?_ wired.nodup ?_ (fun _ => Or.inr rfl) rfl rfl
    · intro source
      exact or_congr_left (kept source)
    · intro source queued slot
      exact wired.apart source queued ((kept source).mp slot)
  | drain _ _ steady useless =>
    have wired := before steady
    -- Every queued source is in the call and has no slot, so none can be useless.
    have empty : session.queuedSources = [] := by
      rw [eq_nil_iff_forall_not_mem]
      intro source member
      have queued : source.1 ∈ session.queuedSources.map Prod.fst := mem_map.mpr ⟨source, member, rfl⟩
      rcases useless total source member with outside | slot
      · exact outside (wired.inside source.1 (.inr queued)).1
      · exact wired.apart source.1 queued slot
    refine wired.recarry rfl ?_ nodup_nil ?_ (fun _ => Or.inl rfl) rfl rfl
    · intro source
      simp [Session.Carries, empty]
    · exact nofun
  | reoffer _ _ _ _ _ _ steady opened =>
    have wired := before steady
    refine wired.recarry rfl ?_ nodup_nil ?_ (fun never => by cases never) rfl rfl
    · intro source
      rw [Session.Carries]
      simp only [map_nil, not_mem_nil, or_false]
      rw [opened]
      constructor
      · exact Or.imp id And.left
      · exact Or.imp id (fun queued => ⟨queued, (wired.inside source (.inr queued)).1⟩)
    · exact nofun
  | _ =>
    have wired := before steadyAfter
    exact wired.recarry rfl (fun _ => Iff.rfl) wired.nodup wired.apart wired.pending rfl rfl

theorem Wiring.update (wiring : Wiring mark server) (roster : Roster server) (total : C.ApplyTotal)
    (found : server.sessions.lookup sid = some session) (change : Change server sid session mark next marked)
    (updates : Updates server changed sid next) : Wiring marked changed := by
  have sameKey : ∀ target, changed.keyOf target = server.keyOf target := fun target =>
    keyOf_congr (updates.identity found change.same.1 change.same.2.1 target)
  intro target stored present steady
  rw [updates.sessions] at present
  split at present
  next same =>
    cases present
    rw [same]
    have wired := roster.wired_change total found change steady (wiring found)
    exact wired.frame sameKey rfl Iff.rfl id
  next apart =>
    have other := change.mark_other apart
    exact (wiring present steady).frame sameKey other.1 other.2.1 other.2.2

theorem Wired.leave {left target gone now}
    (wired : Wired mark server target session) (leaves : Leaves server left sid gone now)
    (keyed : session.callKey ≠ none) : Wired mark left target (afterDeparture sid gone session) := by
  have sameKey := (afterDeparture_same sid gone session).1
  -- Exactly the departed session is no longer carried.
  have carries : ∀ source, (afterDeparture sid gone session).Carries source ↔
      session.Carries source ∧ source ≠ sid := by
    intro source
    unfold afterDeparture
    split
    · simp only [Session.Carries, Session.forget, mem_erase, mem_map, mem_filter, decide_eq_true_eq]
      constructor
      · rintro (⟨different, slot⟩ | ⟨entry, ⟨queued, different⟩, rfl⟩)
        · exact ⟨.inl slot, different⟩
        · exact ⟨.inr ⟨entry, queued, rfl⟩, different⟩
      · rintro ⟨slot | ⟨entry, queued, rfl⟩, different⟩
        · exact .inl ⟨different, slot⟩
        · exact .inr ⟨entry, ⟨queued, different⟩, rfl⟩
    next apart =>
      refine ⟨fun carried => ⟨carried, ?_⟩, And.left⟩
      intro same
      have inside := (wired.inside source carried).1
      rw [same, keyOf_of_lookup leaves.found] at inside
      exact apart ⟨inside ▸ keyed, inside.symm⟩
  refine ⟨?_, ?_, ?_, ?_, ?_, ?_⟩
  · unfold afterDeparture
    split
    · exact wired.nodup.sublist (filter_sublist.map Prod.fst)
    · exact wired.nodup
  · unfold afterDeparture
    split
    · intro source queued slot
      have before := (filter_sublist.map Prod.fst).subset queued
      exact wired.apart source before (mem_erase.mp slot).2
    · exact wired.apart
  · intro source carried
    have parts := (carries source).mp carried
    rw [leaves.keyOf, if_neg parts.2, sameKey]
    exact wired.inside source parts.1
  · intro source inCall different
    rw [leaves.keyOf, sameKey] at inCall
    split at inCall
    · exact (keyed inCall.symm).elim
    next stays =>
      rw [carries]
      exact (wired.complete source inCall different).imp (fun carried => ⟨carried, stays⟩) id
  · intro settled
    unfold afterDeparture at settled ⊢
    split at settled
    next same =>
      rw [if_pos same]
      refine (wired.pending settled).imp (fun empty => ?_) id
      simp [Session.forget, empty]
    next apart =>
      rw [if_neg apart]
      exact wired.pending settled
  · intro unqueued carried
    exact wired.late unqueued ((carries _).mp carried).1

theorem Wiring.enter {key call others now} (wiring : Wiring ⟨newcomer, [], none⟩ server) (roster : Roster server)
    (found : server.sessions.lookup sid = some session) (waiting : session.state = .awaitingJoin)
    (members : ∀ other, other ∈ others ↔ server.keyOf other = some key) :
    Wiring ⟨sid, others, none⟩ (server.admitted sid key session call now) := by
  have outside := roster.unjoined found waiting
  intro target stored present steady
  have lookup := Table.lookup_insert_eq server.sessions sid target
  by_cases same : target = sid
  · rw [admitted, lookup, if_pos same] at present
    cases present
    cases steady
  · rw [admitted, lookup, if_neg same] at present
    have wired := wiring present steady
    have keyed := roster.keyed_of_steady present steady
    -- The newcomer was in no call, so nobody carries it yet.
    have missing : ¬ stored.Carries sid := by
      intro carried
      have inside := (wired.inside sid carried).1
      rw [outside] at inside
      exact keyed inside.symm
    refine ⟨wired.nodup, wired.apart, ?_, ?_, wired.pending, fun _ => missing⟩
    · intro source carried
      have different : source ≠ sid := fun equal => missing (equal ▸ carried)
      rw [admitted_keyOf, if_neg different]
      exact wired.inside source carried
    · intro source inCall different
      rw [admitted_keyOf] at inCall
      split at inCall
      next equal =>
        right
        refine ⟨equal, (members target).mpr ?_⟩
        rw [keyOf_of_lookup present, inCall]
      · rcases wired.complete source inCall different with carried | ⟨_, never⟩
        · exact .inl carried
        · cases never

theorem Wiring.sameSessions (wiring : Wiring mark server) (sessions : changed.sessions = server.sessions) :
    Wiring mark changed := by
  intro target stored present steady
  rw [sessions] at present
  refine (wiring present steady).frame ?_ rfl Iff.rfl id
  intro other
  rw [keyOf, keyOf, sessions]

theorem Move.wiring {strict} {before after : Mark × Server C} (total : C.ApplyTotal)
    (move : Move strict before after) (roster : Roster before.2)
    (wiring : Wiring before.1 before.2) : Wiring after.1 after.2 := by
  cases move with
  | quiet quiet | reshelve quiet => exact wiring.sameSessions quiet.sessions
  | @connect _ _ owner client waiting =>
    have lookup := openSession_lookup owner client waiting roster.unused
    intro target stored present steady
    rw [lookup] at present
    split at present
    · cases present
      cases steady
    · have sameKey := openSession_keyOf owner client waiting roster.unused
      exact (wiring present steady).frame sameKey rfl Iff.rfl id
  | @leave _ _ _ sid gone _ leaves =>
    intro target stored present steady
    rcases leaves.remaining present with ⟨_, session, found, rfl⟩
    rw [(afterDeparture_same sid gone session).2.2.2] at steady
    exact (wiring found steady).leave leaves (roster.keyed_of_steady found steady)
  | update found change updates => exact wiring.update roster total found change updates
  | enter found waiting _ _ _ _ members =>
    exact wiring.enter roster found waiting members
  | rename =>
    intro target stored present steady
    have wired := wiring present steady
    refine ⟨wired.nodup, wired.apart, wired.inside, ?_, wired.pending, nofun⟩
    intro source inCall different
    exact (wired.complete source inCall different).imp id (fun unqueued => (not_mem_nil unqueued.2).elim)
  | @rest _ target _ _ settled =>
    intro sid stored present steady
    have wired := wiring present steady
    refine ⟨wired.nodup, wired.apart, wired.inside, wired.complete, ?_, wired.late⟩
    intro none
    rcases wired.pending none with empty | busy
    · exact .inl empty
    · have same : target = sid := Option.some.inj busy
      rcases settled stored (same ▸ present) with notSteady | offered | empty
      · exact (notSteady steady).elim
      · rw [none] at offered
        cases offered
      · exact .inl empty

def Contained (server : Server C) : Prop := ∀ entry ∈ server.written, entry.Inside

theorem Move.contained {strict} {before after : Mark × Server C}
    (move : Move strict before after) (contained : before.2.Contained) : after.2.Contained := by
  cases move with
  | quiet quiet =>
    intro entry member
    exact (quiet.written entry member).elim (contained entry) id
  | @connect _ server owner client waiting =>
    intro entry member
    rw [(openSession_frame server owner client waiting).2.2.2.2.2.1] at member
    exact contained entry member
  | leave leaves | update _ _ leaves | reshelve leaves =>
    intro entry member
    exact contained entry (leaves.written ▸ member)
  | _ => exact contained

theorem Wiring.of_reaches {cfg destAddr candidateStrings} {idSeed : Nat} (total : C.ApplyTotal)
    (reaches : Reaches step (new C cfg destAddr candidateStrings idSeed) server) :
    Wiring Mark.idle server := by
  refine reachable_of_moves (fun point => Wiring point.1 point.2) ?_ ?_ reaches
  · intro before after move roster wiring
    exact move.wiring total roster wiring
  · exact nofun

/-- Every steady participant is wired to exactly the others of its call, and a
packet is only ever written into a session of the source's own call. -/
theorem steady_wired_to_others {cfg : VoiceServerCfg} {destAddr : SocketAddr}
    {candidateStrings : List String} {idSeed : Nat} {server : Server C} (total : C.ApplyTotal)
    (reaches : Reaches step (Server.new C cfg destAddr candidateStrings idSeed) server) :
    (∀ sid session key, server.sessions.lookup sid = some session ->
      session.state = .steady -> session.callKey = some key -> session.sources.Nodup ∧
        (∀ source, source ∈ session.sources ↔ source ∈ server.participantsOf key ∧ source ≠ sid) ∧
        (session.pendingOffer = none -> session.queuedSources = [])) ∧
    (∀ entry ∈ server.written, entry.targetKey = some entry.sourceKey ∧ entry.target ≠ entry.source) := by
  have roster : Roster server := .of_reaches reaches
  have contained : server.Contained := by
    refine reachable_of_moves (fun point => point.2.Contained) ?_ ?_ reaches
    · intro before after move _ contained
      exact move.contained contained
    · exact List.forall_mem_nil _
  refine ⟨?_, contained⟩
  intro sid session key found steady joined
  have wired := Wiring.of_reaches total reaches found steady
  refine ⟨?_, ?_, ?_⟩
  · rw [Session.sources, nodup_append]
    refine ⟨session.txSlots.keys_nodup, wired.nodup, ?_⟩
    intro slot inSlots queued inQueue same
    exact wired.apart queued inQueue (same ▸ AList.mem_keys.mpr inSlots)
  · intro source
    rw [Session.sources, mem_append, ← AList.mem_keys, roster.mem_participantsOf, ← joined]
    constructor
    · exact wired.inside source
    · rintro ⟨inCall, different⟩
      rcases wired.complete source inCall different with carried | ⟨_, never⟩
      · exact carried
      · cases never
  · intro none
    rcases wired.pending none with empty | never
    · exact empty
    · cases never

/-- The second member of the room has become steady and is sent the first one. -/
theorem steady_wired_to_others_two_members : (run step smallRelay twoMembers).toBool = true ∧
      ((relayAfter twoMembers).sessions.lookup 2).map
        (fun session => (session.state, session.callKey)) = some (.steady, some roomKey) ∧
      ∀ session, (relayAfter twoMembers).sessions.lookup 2 = some session ->
        ∀ source, source ∈ session.sources ↔
          source ∈ (relayAfter twoMembers).participantsOf roomKey ∧ source ≠ 2 := by
  have reaches : Reaches step smallRelay (relayAfter twoMembers) := Reaches.finalState rfl
  have shape : ((relayAfter twoMembers).sessions.lookup 2).map
      (fun session => (session.state, session.callKey)) = some (.steady, some roomKey) := rfl
  refine ⟨rfl, shape, ?_⟩
  intro session found
  rw [found, Option.map_some, Option.some.injEq, Prod.mk.injEq] at shape
  exact ((steady_wired_to_others (fun _ _ _ => rfl) reaches).1 2 session roomKey found shape.1 shape.2).2.1

end Server

end Starling.Voice
