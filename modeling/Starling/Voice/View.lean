import Starling.Voice.EventLoop

namespace Starling.Voice

open List Option Channel

/-!
# What a client believes about its call

A client learns its roster from frames only: the acknowledgement and `PeerJoined`
add participants, `PeerLeft` removes one.  Two send paths exist.  One closes a
session that cannot take a frame; the other, which carries `PeerLeft`, ignores the
failure.  A client's view is up to date as long as its channel has room whenever
another participant leaves, and can be stale for good if it once had none.
-/

variable {C : Crates}

def viewStep (view : List String) : ServerFrame -> List String
  | .joinAck _ _ _ participants => view ++ participants
  | .peerJoined sfuId _ => view ++ [sfuId]
  | .peerLeft sfuId => view.filter (fun known => known ≠ sfuId)
  | _ => view

def rosterView (frames : List ServerFrame) : List String := frames.foldl viewStep []

theorem rosterView_snoc (frames frame) : rosterView (frames ++ [frame]) = viewStep (rosterView frames) frame := by
  rw [rosterView, foldl_append]
  rfl

theorem mem_viewStep {view frame sfuId}
    (member : sfuId ∈ viewStep view frame) : sfuId ∈ view ∨ sfuId ∈ frame.announced := by
  cases frame with
  | joinAck | peerJoined => exact mem_append.mp member
  | peerLeft => exact .inl (mem_filter.mp member).1
  | _ => exact .inl member

theorem mem_view_trySend {channel : Channel ServerFrame} {frame} {sfuId : String}
    (member : sfuId ∈ rosterView (channel.trySend frame).1.accepted) :
    sfuId ∈ rosterView channel.accepted ∨ sfuId ∈ frame.announced := by
  by_cases sent : (channel.trySend frame).2 = .sent
  · rw [trySend_accepted_of_sent sent, rosterView_snoc] at member
    exact mem_viewStep member
  · rw [trySend_accepted_of_not_sent sent] at member
    exact .inl member

theorem attached_of_trySend {channel : Channel ServerFrame} {frame : ServerFrame}
    (after : (channel.trySend frame).1.attached = true) : channel.attached = true := by
  rw [trySend_attached] at after
  exact attached_of_settle after

namespace Server

/-- Whenever somebody left the call of `sid`, there was room in its channel just before. -/
def roomy (server : Server C) (sid : Sid) : Bool :=
  server.departures.all (fun departure => (departure.2.lookup sid).all (fun session =>
    departure.1 = none ∨ session.callKey ≠ departure.1 ∨
      session.toClient.settle.queue.length < session.toClient.settle.capacity))

/-- Everybody a connected client knows of is in its call, if there was room. -/
def Informed (server : Server C) : Prop :=
  ∀ {sid session}, server.sessions.lookup sid = some session -> session.toClient.attached = true ->
    server.roomy sid = true -> ∀ sfuId ∈ rosterView session.toClient.accepted,
      ∃ other, server.Peer sid session other sfuId

variable {server : Server C} {session : Session C} {sid : Sid}

theorem Informed.frame {changed : Server C} (informed : server.Informed)
    (sessions : changed.sessions = server.sessions) (departures : changed.departures = server.departures) :
    changed.Informed := by
  intro sid session found attached spare sfuId member
  rw [sessions] at found
  rw [roomy, departures] at spare
  rcases informed found attached spare sfuId member with ⟨other, peer⟩
  refine ⟨other, peer.transport rfl ?_⟩
  rw [identity, identity, sessions]

theorem Change.sends {next mark marked}
    (change : Change server sid session mark next marked) : next.toClient = session.toClient ∨ ∃ frame,
      next.toClient = (session.toClient.trySend frame).1 ∧
        ∀ sfuId ∈ frame.announced, ∃ other, server.Peer sid session other sfuId := by
  cases change with
  | deliver _ frame _ named => exact .inr ⟨frame, rfl, named⟩
  | accept _ _ _ answer =>
    exact .inr ⟨.answer answer, rfl, nofun⟩
  | _ => exact .inl rfl

theorem Informed.update {changed : Server C} {next} {mark marked : Mark}
    (informed : server.Informed) (found : server.sessions.lookup sid = some session)
    (change : Change server sid session mark next marked) (updates : Updates server changed sid next) :
    changed.Informed := by
  have same := updates.identity found change.same.1 change.same.2.1
  intro target stored present attached spare sfuId member
  rw [roomy, updates.departures] at spare
  rw [updates.sessions] at present
  split at present
  next =>
    cases present
    subst target
    have known : ∃ other, server.Peer sid session other sfuId := by
      rcases change.sends with kept | ⟨_, tried, named⟩
      · rw [kept] at attached member
        exact informed found attached spare sfuId member
      · rw [tried] at attached member
        rcases mem_view_trySend member with old | new
        · exact informed found (attached_of_trySend attached) spare sfuId old
        · exact named sfuId new
    rcases known with ⟨other, peer⟩
    exact ⟨other, peer.transport change.same.2.1 (same other)⟩
  · rcases informed present attached spare sfuId member with ⟨other, peer⟩
    exact ⟨other, peer.transport rfl (same other)⟩

theorem Informed.leave {server left : Server C} {gone} {now : Instant}
    (informed : server.Informed) (leaves : Leaves server left sid gone now) : left.Informed := by
  intro target stored present attached spare sfuId member
  rcases leaves.remaining present with ⟨apart, session, found, rfl⟩
  rcases leaves.departures with ⟨_, logged, before⟩
  rw [roomy, logged, all_cons, Bool.and_eq_true] at spare
  -- It is enough to find a peer from before that is not the one who left.
  have survives : ∀ other, server.Peer target session other sfuId -> other ≠ sid ->
      left.Peer target (afterDeparture sid gone session) other sfuId := by
    intro other peer stays
    apply peer.transport (afterDeparture_same sid gone session).1
    rw [leaves.identity, if_neg stays]
  by_cases shared : SameCall gone session
  · rw [afterDeparture, if_pos shared] at attached member
    have sent : (session.toClient.trySend (.peerLeft gone.sfuId)).2 = .sent := by
      have room := spare.1
      rw [before target apart, found, all_some, decide_eq_true_eq] at room
      exact trySend_sent_iff.mpr ⟨(trySend_attached _ _).symm.trans attached,
        (room.resolve_left shared.1).resolve_left (not_not.mpr shared.2)⟩
    have view : sfuId ∈ rosterView session.toClient.accepted ∧ sfuId ≠ gone.sfuId := by
      have seen : sfuId ∈ rosterView (session.toClient.trySend (.peerLeft gone.sfuId)).1.accepted := member
      rw [trySend_accepted_of_sent sent, rosterView_snoc] at seen
      have parts := mem_filter.mp seen
      exact ⟨parts.1, of_decide_eq_true parts.2⟩
    rcases informed found (attached_of_trySend attached) spare.2 sfuId view.1 with ⟨other, peer⟩
    refine ⟨other, survives other peer ?_⟩
    intro same
    have named := (peer_iff.mp peer).2.2
    rw [same, identity_of_lookup leaves.found, some.injEq, Prod.mk.injEq] at named
    exact view.2 named.1.symm
  · rw [afterDeparture, if_neg shared] at attached member
    rcases informed found attached spare.2 sfuId member with ⟨other, peer⟩
    refine ⟨other, survives other peer ?_⟩
    intro same
    have named := (peer_iff.mp peer).2
    rw [same, identity_of_lookup leaves.found, some.injEq, Prod.mk.injEq] at named
    exact shared ⟨named.2.2 ▸ named.1, named.2.2.symm⟩

theorem Informed.enter {key call now} (informed : server.Informed)
    (roster : Roster server) (found : server.sessions.lookup sid = some session)
    (waiting : session.state = .awaitingJoin) : (server.admitted sid key session call now).Informed := by
  intro target stored present attached spare sfuId member
  have lookup := Table.lookup_insert_eq server.sessions sid target
  by_cases same : target = sid
  · rw [admitted, lookup, if_pos same] at present
    cases present
    -- The newcomer has not been sent anything yet.
    have nothing := ((roster.sessionSound found).waiting waiting).2.2.2
    have seen := member
    rw [nothing] at seen
    cases seen
  · rw [admitted, lookup, if_neg same] at present
    rcases informed present attached spare sfuId member with ⟨other, peer⟩
    exact ⟨other, roster.peer_admitted found waiting peer⟩

theorem Informed.connect (informed : server.Informed) (roster : Roster server) (owner client waiting) :
    (server.openSession owner client waiting).Informed := by
  have lookup := openSession_lookup owner client waiting roster.unused
  intro target stored present attached spare sfuId member
  rw [roomy, (openSession_frame server owner client waiting).2.2.2.2.1] at spare
  rw [lookup] at present
  split at present
  · cases present
    cases member
  · rcases informed present attached spare sfuId member with ⟨other, peer⟩
    refine ⟨other, peer.transport rfl ?_⟩
    rcases peer with ⟨_, _, found, _⟩
    have apart : other ≠ server.nextSid := by
      intro same
      rw [same, roster.unused] at found
      cases found
    rw [identity, lookup, if_neg (fun new => apart new.1), identity]

theorem Move.informed {strict} {before after : Mark × Server C} (move : Move strict before after)
    (roster : Roster before.2) (informed : before.2.Informed) : after.2.Informed := by
  cases move with
  | quiet quiet | reshelve quiet => exact informed.frame quiet.sessions quiet.departures
  | connect owner client waiting => exact informed.connect roster owner client waiting
  | leave leaves => exact informed.leave leaves
  | update found change updates => exact informed.update found change updates
  | enter found waiting => exact informed.enter roster found waiting
  | rename | rest => exact informed

theorem Informed.of_reaches {cfg destAddr candidateStrings}
    {idSeed : Nat} (reaches : Reaches step (new C cfg destAddr candidateStrings idSeed) server) :
    server.Informed := by
  refine reachable_of_moves (fun point => point.2.Informed) ?_ ?_ reaches
  · intro before after move roster informed
    exact move.informed roster informed
  · exact nofun

/-- In every state that the loop reaches, the view of a connected client names
present members of its own call only, provided that its channel had room whenever
another participant left.  The view is taken after the channel has drained,
so it is built from everything the channel accepted. -/
theorem view_names_members {cfg : VoiceServerCfg} {destAddr : SocketAddr} {candidateStrings : List String}
    {idSeed : Nat} {server : Server C}
    (reaches : Reaches step (Server.new C cfg destAddr candidateStrings idSeed) server) {sid : Sid}
    {session : Session C} (found : server.sessions.lookup sid = some session)
    (connected : session.toClient.attached = true) (spare : server.roomy sid = true) :
    ∀ sfuId ∈ rosterView session.toClient.accepted,
      ∃ other member key, other ≠ sid ∧ server.sessions.lookup other = some member ∧
        member.sfuId = sfuId ∧ session.callKey = some key ∧
        sid ∈ server.participantsOf key ∧ other ∈ server.participantsOf key := by
  intro sfuId member
  have roster : Roster server := .of_reaches reaches
  have informed : server.Informed := Informed.of_reaches reaches
  rcases informed found connected spare sfuId member with ⟨other, apart, peer, present, named, same⟩
  rcases ne_none_iff_exists'.mp same.1 with ⟨key, joined⟩
  refine ⟨other, peer, key, apart, present, named, joined, ?_, ?_⟩
  · rw [roster.mem_participantsOf, keyOf_of_lookup found, joined]
  · rw [roster.mem_participantsOf, keyOf_of_lookup present, same.2, joined]

/-- The third member leaves, and the second one still knows the first one only. -/
def thirdLeaves : List LoopInput :=
  twoMembers ++ turns [.openSession roomOwner [] true, .sessionFrame 3 (.join roomToken), .sessionFrame 3 .bye]

theorem view_names_members_thirdLeaves :
    let final := relayAfter thirdLeaves
    final.departures.length = 1 ∧ ∀ session, final.sessions.lookup 2 = some session ->
      rosterView session.toClient.accepted ≠ [] ∧ ∀ sfuId ∈ rosterView session.toClient.accepted,
        ∃ other member, other ≠ 2 ∧ final.sessions.lookup other = some member ∧ member.sfuId = sfuId := by
  intro final
  have shape : final.departures.length = 1 ∧ final.roomy 2 = true ∧ (final.sessions.lookup 2).all (fun session =>
      session.toClient.attached && decide (rosterView session.toClient.accepted ≠ [])) = true := by
    decide +kernel
  refine ⟨shape.1, fun session found => ?_⟩
  have facts := shape.2.2
  rw [found, all_some, Bool.and_eq_true, decide_eq_true_eq] at facts
  refine ⟨facts.2, fun sfuId member => ?_⟩
  rcases view_names_members (Reaches.finalState rfl) found facts.1 shape.2.1 sfuId member with
    ⟨other, peer, _, apart, present, named, _⟩
  exact ⟨other, peer, apart, present, named⟩

def guestVisit (sid : Sid) : List Command :=
  [.openSession roomOwner [] true, .sessionFrame sid (.join roomToken), .sessionFrame sid .bye]

/-- Two members whose clients do not read, sixty-three short visits that fill
their channels, and then the first member leaves. -/
def leaveWhileFull : List LoopInput :=
  turns ([registerRoom, .openSession roomOwner [] true, .sessionFrame 1 (.join roomToken),
    .openSession roomOwner [] true, .sessionFrame 2 (.join roomToken)] ++
    (List.range 63).flatMap (fun visit => guestVisit (visit + 3)) ++ [.sessionFrame 1 .bye])

/-- The second member is still open and connected, it is alone in the call, and
its view still names the first one. -/
theorem view_keeps_departed_member : (run step smallRelay leaveWhileFull).toBool = true ∧
      (relayAfter leaveWhileFull).participantsOf roomKey = [2] ∧
      ((relayAfter leaveWhileFull).sessions.lookup 2).map (fun session =>
        (session.toClient.attached, rosterView session.toClient.accepted)) =
          some (true, [sfuIdOf quietCrates 0 1]) := by
  decide +kernel

end Server

end Starling.Voice
