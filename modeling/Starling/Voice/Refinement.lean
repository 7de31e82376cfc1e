import Starling.Voice.Roster

namespace Starling.Voice

open List Option Table AList Session

/-!
# The handlers perform moves

Every handler, started where the roster invariant holds, ends in a state that a
sequence of moves leads to, and it does not panic.  `Performs` states both and
composes along the binds of a handler.  The one handler that can panic is the
admission of a newcomer; it performs its moves when the acknowledgement is
accepted by the client's channel.
-/

variable {C : Crates}

namespace Server

/-- A handler's result is reached by moves, and the handler did not panic. -/
structure Performs (strict : Bool) (start : Mark × Server C) (marked : Mark)
    (result : Except Stop (Server C)) : Prop where
  moves : ∀ final, result = .ok final -> Moves strict start (marked, final)
  calm : result ≠ .error .panic

namespace Performs

variable {strict : Bool} {start : Mark × Server C} {middle marked : Mark}

theorem ok {final} (moves : Moves strict start (marked, final)) : Performs strict start marked (.ok final) where
  moves := by
    intro other same
    cases same
    exact moves
  calm := nofun

theorem outOfFuel : Performs strict start marked (.error .outOfFuel) where
  moves := nofun
  calm := nofun

theorem bind {result next} (first : Performs strict start middle result)
    (second : ∀ final, result = .ok final -> Moves strict start (middle, final) ->
      Performs strict (middle, final) marked (next final)) :
    Performs strict start marked (result >>= next) := by
  cases result with
  | error =>
    refine ⟨?_, first.calm⟩
    exact nofun
  | ok state =>
    have moved := first.moves state rfl
    have rest := second state rfl moved
    exact ⟨fun final done => moved.trans (rest.moves final done), rest.calm⟩

theorem after {before result} (moved : Moves strict before start) (performs : Performs strict start marked result) :
    Performs strict before marked result where
  moves := fun final done => moved.trans (performs.moves final done)
  calm := performs.calm

end Performs

theorem updates_setSession (server sid) (session : Session C) :
    Updates server (server.setSession sid session) sid session where
  sessions := fun target => lookup_insert_eq server.sessions sid target session
  calls := rfl
  departures := rfl
  registry := rfl
  cfg := rfl
  nextSid := rfl
  idSeed := rfl
  idCounter := rfl
  written := rfl

variable {changed server : Server C} {session next : Session C} {sid : Sid} {strict : Bool} {key : CallKey}
variable {sfuId : String}

theorem Updates.overwrite (updates : Updates server changed sid session) (next) :
    Updates server (changed.setSession sid next) sid next :=
  { updates with
    sessions := by
      intro target
      rw [setSession, lookup_insert_eq, updates.sessions]
      split
      · rfl
      · rfl }

theorem quiet_dirty (server : Server C) (dirty : List Sid) : Quiet server { server with dirty := dirty } where
  sessions := rfl
  calls := rfl
  departures := rfl
  cfg := rfl
  nextSid := rfl
  idSeed := rfl
  idCounter := rfl
  written := fun _ member => Or.inl member

theorem moves_store {mark marked} (found : server.sessions.lookup sid = some session)
    (change : Change server sid session mark next marked) :
    Moves strict (mark, server) (marked, (server.setSession sid next).markDirty sid) :=
  (Relation.ReflTransGen.single (.update found change (updates_setSession server sid next))).tail
    (.quiet (quiet_dirty _ _))

theorem Leaves.ofUpdated {left now}
    (found : server.sessions.lookup sid = some session) (updates : Updates server changed sid next)
    (sameId : next.sfuId = session.sfuId) (sameKey : next.callKey = session.callKey)
    (leaves : Leaves changed left sid next now) :
    Leaves server left sid session now := by
  have shared : ∀ stored : Session C, SameCall next stored ↔ SameCall session stored := by
    intro stored
    rw [SameCall, SameCall, sameKey]
  have departure : afterDeparture sid next = afterDeparture sid session := by
    funext stored
    simp [afterDeparture, shared, sameId]
  refine ⟨found, ?_, ?_, ?_, leaves.registry.trans updates.registry, leaves.cfg.trans updates.cfg,
    leaves.nextSid.trans updates.nextSid, leaves.idSeed.trans updates.idSeed,
    leaves.idCounter.trans updates.idCounter, leaves.written.trans updates.written⟩
  · intro target
    rw [leaves.sessions, updates.sessions, departure]
    split <;> rfl
  · intro key
    rw [leaves.calls, updates.calls, sameKey]
  · rcases leaves.departures with ⟨present, logged, same⟩
    refine ⟨present, ?_, ?_⟩
    · rw [logged, updates.departures, sameKey]
    · intro target other
      rw [same target other, updates.sessions, if_neg other]

section

variable (roster : Roster server)
include roster

theorem Roster.seatUpdated (found : server.sessions.lookup sid = some session)
    (updates : Updates server changed sid next) (sameId : next.sfuId = session.sfuId)
    (sameKey : next.callKey = session.callKey) : Seated changed next where
  call := by
    intro key keyed
    rcases (roster.seat found).call key (sameKey ▸ keyed) with ⟨call, inCall, nodup, listed⟩
    refine ⟨call, updates.calls ▸ inCall, nodup, ?_⟩
    intro target
    rw [listed, keyOf_congr (updates.identity found sameId sameKey target)]

theorem Roster.leavesUpdated (found : server.sessions.lookup sid = some session)
    (updates : Updates server changed sid next) (sameId : next.sfuId = session.sfuId)
    (sameKey : next.callKey = session.callKey) (finalFrame) (now : Instant) :
    Leaves server (changed.closeSession sid finalFrame now) sid session now := by
  have present : changed.sessions.lookup sid = some next := by rw [updates.sessions, if_pos rfl]
  exact Leaves.ofUpdated found updates sameId sameKey
    ((roster.seatUpdated found updates sameId sameKey).leaves present finalFrame now)

theorem Roster.leaves_channel (found : server.sessions.lookup sid = some session)
    (channel : Channel ServerFrame) (finalFrame : Option ServerFrame) (now : Instant) :
    Leaves server ((server.setSession sid { session with toClient := channel }).closeSession sid
      finalFrame now) sid session now := by
  have updates := updates_setSession server sid { session with toClient := channel }
  exact roster.leavesUpdated found updates rfl rfl finalFrame now

theorem Roster.moves_close (mark sid finalFrame now) :
    Moves strict (mark, server) (mark, server.closeSession sid finalFrame now) := by
  cases found : server.sessions.lookup sid with
  | none => rw [closeSession_of_absent found]
  | some => exact .single (.leave ((roster.seat found).leaves found finalFrame now))

end

/-- Everybody except `sid` is still who it was. -/
def Spares (server final : Server C) (sid : Sid) : Prop :=
  ∀ target, target ≠ sid -> final.identity target = server.identity target

theorem Spares.trans {middle final} (first : Spares server middle sid)
    (second : Spares middle final sid) : Spares server final sid :=
  fun target apart => (second target apart).trans (first target apart)

theorem send_of_absent (absent : server.sessions.lookup sid = none) (frame now) :
    server.send sid frame now = server := by
  rw [send, absent]

theorem send_of_sent {frame} (found : server.sessions.lookup sid = some session)
    (sent : (session.toClient.trySend frame).2 = .sent) (now) :
    server.send sid frame now =
      server.setSession sid { session with toClient := (session.toClient.trySend frame).1 } := by
  simp [send, found, sent]

section

variable (roster : Roster server)
include roster

theorem Roster.leaves_send {frame} (found : server.sessions.lookup sid = some session)
    (refused : (session.toClient.trySend frame).2 ≠ .sent) (now) :
    Leaves server (server.send sid frame now) sid session now := by
  simp only [send, found, if_neg refused]
  exact roster.leaves_channel found _ none now

theorem Roster.moves_send (mark sid frame) (now : Instant)
    (deliverable : ∀ session, server.sessions.lookup sid = some session -> session.state ≠
      .awaitingJoin ∧ ∀ sfuId ∈ frame.announced, ∃ other, server.Peer sid session other sfuId) :
    Moves strict (mark, server) (mark, server.send sid frame now) := by
  cases found : server.sessions.lookup sid with
  | none => rw [send_of_absent found]
  | some session =>
    have ready := deliverable session found
    by_cases sent : (session.toClient.trySend frame).2 = .sent
    · rw [send_of_sent found sent]
      exact .single (.update found (.deliver mark frame ready.1 ready.2) (updates_setSession server sid _))
    · exact .single (.leave (roster.leaves_send found sent now))

theorem Roster.send_spares (sid frame) (now : Instant) : Spares server (server.send sid frame now) sid := by
  intro target apart
  cases found : server.sessions.lookup sid with
  | none => rw [send_of_absent found]
  | some session =>
    by_cases sent : (session.toClient.trySend frame).2 = .sent
    · rw [send_of_sent found sent]
      have updates := updates_setSession server sid
        { session with toClient := (session.toClient.trySend frame).1 }
      exact updates.identity found rfl rfl target
    · rw [(roster.leaves_send found sent now).identity, if_neg apart]

theorem Roster.send_self (frame now) {stored}
    (present : (server.send sid frame now).sessions.lookup sid = some stored) :
    ∃ session, server.sessions.lookup sid = some session ∧ (session.toClient.trySend frame).2 = .sent ∧
      stored = { session with toClient := (session.toClient.trySend frame).1 } := by
  cases found : server.sessions.lookup sid with
  | none =>
    rw [send_of_absent found, found] at present
    cases present
  | some session =>
    by_cases sent : (session.toClient.trySend frame).2 = .sent
    · rw [send_of_sent found sent, setSession, lookup_insert] at present
      exact ⟨session, rfl, sent, (some.inj present).symm⟩
    · rw [(roster.leaves_send found sent now).sessions, if_pos rfl] at present
      cases present

end

theorem addMedias_sources (api : C.SdpApi) (queued : List (Sid × String)) :
    (addMedias api queued).2.map (fun media => (media.source, media.sfuId)) = queued := by
  induction queued generalizing api with
  | nil => rfl
  | cons source rest ih => rw [addMedias, map_cons, ih]

theorem openSlots_eq (added : List AddedMedia) (session : Session C) :
    added.foldl openSlot session = { session with
        txSlots := (added.foldl openSlot session).txSlots
        nextSsrc := (added.foldl openSlot session).nextSsrc } := by
  induction added generalizing session with
  | nil => rfl
  | cons media rest ih =>
    exact ih (session.openSlot media)

theorem mem_openSlots (added : List AddedMedia) (session : Session C) (source : Sid) :
    source ∈ (added.foldl openSlot session).txSlots ↔
      source ∈ session.txSlots ∨ source ∈ added.map AddedMedia.source := by
  induction added generalizing session with
  | nil => simp
  | cons media rest ih =>
    rw [foldl_cons, ih, openSlot, mem_insert, map_cons, mem_cons]
    constructor
    · rintro ((same | old) | later)
      · exact .inr (.inl same)
      · exact .inl old
      · exact .inr (.inr later)
    · rintro (old | same | later)
      · exact .inl (.inr old)
      · exact .inl (.inl same)
      · exact .inr later

def membersOf (server : Server C) (session : Session C) : List Sid :=
  ((session.callKey.bind (server.calls.lookup ·)).map Call.participants).getD []

theorem Roster.mem_membersOf (roster : Roster server) (found : server.sessions.lookup sid = some session)
    (keyed : session.callKey ≠ none) (target) :
    target ∈ server.membersOf session ↔ server.keyOf target = session.callKey := by
  cases joined : session.callKey with
  | none => exact (keyed joined).elim
  | some =>
    rcases roster.seated ((keyOf_of_lookup found).trans joined) with ⟨_, inCall⟩
    simp only [membersOf, joined, bind_some, inCall, map_some, getD_some]
    exact roster.listed inCall target

def usefulSources (server : Server C) (session : Session C) : List (Sid × String) :=
  session.queuedSources.filter (fun source =>
    decide (source.1 ∈ server.membersOf session) && decide (source.1 ∉ session.txSlots))

/-- The four ways in which a negotiation can end. -/
inductive Negotiation (server : Server C) (sid : Sid) (now : Instant) : Except Stop (Server C) -> Prop where
  | settled (idle : ∀ session, server.sessions.lookup sid = some session ->
      session.state ≠ .steady ∨ session.pendingOffer.isSome = true ∨ session.queuedSources = []) :
      Negotiation server sid now (.ok server)
  | useless (session : Session C) (found : server.sessions.lookup sid = some session)
      (steady : session.state = .steady) (useless : server.usefulSources session = []) :
      Negotiation server sid now (.ok (server.setSession sid { session with queuedSources := [] }))
  | unchanged (session : Session C) (rtc changed : C.Rtc)
      (found : server.sessions.lookup sid = some session) (steady : session.state = .steady)
      (useful : server.usefulSources session ≠ [])
      (applied : C.apply (addMedias (C.sdpApi rtc) (server.usefulSources session)).1 = (changed, none)) :
      Negotiation server sid now (.ok (server.setSession sid { session with queuedSources := [], rtc := some changed }))
  | offered (session : Session C) (rtc changed : C.Rtc) (offer : String)
      (pending : C.SdpPendingOffer) (found : server.sessions.lookup sid = some session)
      (steady : session.state = .steady) :
      Negotiation server sid now (.ok (server.reoffer sid { session with queuedSources := [] } changed offer pending
          (addMedias (C.sdpApi rtc) (server.usefulSources session)).2 now))

theorem Roster.negotiation (roster : Roster server) (sid now) :
    Negotiation server sid now (server.maybeNegotiate sid now) := by
  unfold maybeNegotiate
  cases found : server.sessions.lookup sid with
  | none =>
    apply Negotiation.settled
    intro session present
    rw [found] at present
    cases present
  | some session =>
    simp only
    split
    next idle =>
      apply Negotiation.settled
      intro stored present
      rw [found] at present
      exact some.inj present ▸ idle
    next ready =>
      have steady : session.state = .steady := by
        by_contra apart
        exact ready (.inl apart)
      rcases isSome_iff_exists.mp ((roster.sessionSound found).joined_of_steady steady).1 with ⟨rtc, hasRtc⟩
      simp only [expect, bind, Except.bind, hasRtc, pure, Except.pure]
      split
      next none =>
        rw [← hasRtc]
        exact .useless session found steady none
      next some =>
        split
        next changed applied => exact .unchanged session rtc changed found steady some applied
        next changed offer pending _ => exact .offered session rtc changed offer pending found steady

/-- Whoever is found under `sid` has joined this call. -/
def InCall (server : Server C) (sid : Sid) (key : CallKey) : Prop :=
  ∀ session, server.sessions.lookup sid = some session -> session.state ≠ .awaitingJoin ∧
    session.callKey = some key

theorem Roster.inCall_send (roster : Roster server) (inCall : server.InCall sid key) (frame now) :
    (server.send sid frame now).InCall sid key := by
  intro stored present
  rcases roster.send_self frame now present with ⟨session, found, _, rfl⟩
  exact inCall session found

/-- Name every added participant to `sid`.  The addressee may be closed on the
way; the named participants stay who they are. -/
theorem Roster.moves_nameAll (strict : Bool) (mark : Mark) (now : Instant) (added : List AddedMedia)
    (roster : Roster server) (inCall : server.InCall sid key)
    (members : ∀ media ∈ added, media.source ≠ sid ∧
      server.identity media.source = some (media.sfuId, some key)) :
    let named := added.foldl (fun server media => server.send sid (.peerJoined media.sfuId media.mid) now) server
    Moves strict (mark, server) (mark, named) ∧ Spares server named sid := by
  induction added generalizing server with
  | nil => exact ⟨.refl, fun _ _ => rfl⟩
  | cons media rest ih =>
    let frame : ServerFrame := .peerJoined media.sfuId media.mid
    have first := members media mem_cons_self
    have moved : Moves strict (mark, server) (mark, server.send sid frame now) := by
      apply roster.moves_send
      intro session found
      have joined := inCall session found
      refine ⟨joined.1, ?_⟩
      intro sfuId named
      rw [mem_singleton.mp named]
      exact ⟨media.source, peer_of_identity joined.2 first.1 first.2⟩
    have spared := roster.send_spares sid frame now
    have known : ∀ later ∈ rest, later.source ≠ sid ∧
        (server.send sid frame now).identity later.source = some (later.sfuId, some key) := by
      intro later member
      have before := members later (mem_cons_of_mem _ member)
      exact ⟨before.1, (spared later.source before.1).trans before.2⟩
    have others := ih (moved.roster roster) (roster.inCall_send inCall frame now) known
    exact ⟨moved.trans others.1, spared.trans others.2⟩

def reofferedSession (session : Session C) (rtc : C.Rtc) (pending : C.SdpPendingOffer)
    (added : List AddedMedia) : Session C :=
  added.foldl Session.openSlot
    { session with queuedSources := [], rtc := some rtc, pendingOffer := some pending }

section

variable (roster : Roster server) (found : server.sessions.lookup sid = some session)
include roster found

theorem Roster.mem_usefulSources (keyed : session.callKey ≠ none) (source) :
    source ∈ server.usefulSources session ↔ source ∈ session.queuedSources ∧
      server.keyOf source.1 = session.callKey ∧ source.1 ∉ session.txSlots := by
  rw [usefulSources, mem_filter, Bool.and_eq_true, decide_eq_true_eq, decide_eq_true_eq,
    roster.mem_membersOf found keyed]

theorem Roster.keyed_of_steady (steady : session.state = .steady) : session.callKey ≠ none :=
  ((roster.sessionSound found).joined_of_steady steady).2

theorem Roster.change_reoffer (steady : session.state = .steady) (newcomer : Sid) (unqueued : List Sid) (api : C.SdpApi)
    (rtc : C.Rtc) (pending : C.SdpPendingOffer) :
    Change server sid session ⟨newcomer, unqueued, some sid⟩
      (reofferedSession session rtc pending (addMedias api (server.usefulSources session)).2)
      ⟨newcomer, unqueued, none⟩ := by
  have keyed := roster.keyed_of_steady found steady
  rw [reofferedSession, openSlots_eq]
  refine .reoffer newcomer unqueued rtc pending _ _ steady ?_
  intro source
  have sources : (addMedias api (server.usefulSources session)).2.map AddedMedia.source =
      (server.usefulSources session).map Prod.fst := by
    nth_rewrite 2 [← addMedias_sources api (server.usefulSources session)]
    rw [List.map_map]
    rfl
  rw [mem_openSlots, sources, List.mem_map, List.mem_map]
  constructor
  · rintro (old | ⟨entry, useful, rfl⟩)
    · exact .inl old
    · have parts := (roster.mem_usefulSources found keyed entry).mp useful
      exact .inr ⟨⟨entry, parts.1, rfl⟩, parts.2.1⟩
  · rintro (old | ⟨⟨entry, member, rfl⟩, inside⟩)
    · exact .inl old
    · by_cases wired : entry.1 ∈ session.txSlots
      · exact .inl wired
      · exact .inr
          ⟨entry, (roster.mem_usefulSources found keyed entry).mpr ⟨member, inside, wired⟩, rfl⟩

theorem Roster.moves_reoffer (steady : session.state = .steady) (strict : Bool) (newcomer : Sid) (unqueued : List Sid)
    (api : C.SdpApi) (rtc : C.Rtc) (offer : String) (pending : C.SdpPendingOffer) (now : Instant) :
    let offered := server.reoffer sid { session with queuedSources := [] } rtc offer pending
      (addMedias api (server.usefulSources session)).2 now
    Moves strict (⟨newcomer, unqueued, some sid⟩, server) (⟨newcomer, unqueued, none⟩, offered) ∧
      Spares server offered sid := by
  have keyed := roster.keyed_of_steady found steady
  rcases ne_none_iff_exists'.mp keyed with ⟨key, joined⟩
  let added := (addMedias api (server.usefulSources session)).2
  let opened := reofferedSession session rtc pending added
  let stored := (server.setSession sid opened).markDirty sid
  have change := roster.change_reoffer found steady newcomer unqueued api rtc pending
  have kept : Spares server stored sid := fun target _ =>
    (updates_setSession server sid opened).identity found change.same.1 change.same.2.1 target
  have moved : Moves strict (⟨newcomer, unqueued, some sid⟩, server)
      (⟨newcomer, unqueued, none⟩, stored) := moves_store found change
  have rosterStored : Roster stored := moved.roster roster
  have inCall : stored.InCall sid key := by
    intro other present
    have lookup : stored.sessions.lookup sid = some opened := lookup_insert server.sessions
    have same : opened = other := some.inj (lookup.symm.trans present)
    have keyedOther : other.callKey = some key := same ▸ change.same.2.1.trans joined
    refine ⟨(rosterStored.sessionSound present).joined_of_key ?_, keyedOther⟩
    rw [keyedOther]
    exact some_ne_none key
  have offeredMoves : Moves strict (⟨newcomer, unqueued, none⟩, stored)
      (⟨newcomer, unqueued, none⟩, stored.send sid (.offer offer) now) := by
    apply rosterStored.moves_send
    intro other present
    exact ⟨(inCall other present).1, nofun⟩
  have spared := kept.trans (rosterStored.send_spares sid (.offer offer) now)
  have members : ∀ media ∈ added, media.source ≠ sid ∧
      (stored.send sid (.offer offer) now).identity media.source =
        some (media.sfuId, some key) := by
    intro media member
    have useful : (media.source, media.sfuId) ∈ server.usefulSources session := by
      rw [← addMedias_sources api (server.usefulSources session)]
      exact mem_map.mpr ⟨media, member, rfl⟩
    have queued := ((roster.mem_usefulSources found keyed _).mp useful).1
    have peer := peer_iff.mp (roster.queued found _ queued)
    refine ⟨peer.1, ?_⟩
    rw [spared _ peer.1, peer.2.2, joined]
  have named := (offeredMoves.roster rosterStored).moves_nameAll strict ⟨newcomer, unqueued, none⟩
    now added (rosterStored.inCall_send inCall (.offer offer) now) members
  exact ⟨(moved.trans offeredMoves).trans named.1, spared.trans named.2⟩

end

theorem Roster.negotiate (roster : Roster server) (strict : Bool) (sid newcomer unqueued) (now : Instant) :
    Performs strict (⟨newcomer, unqueued, some sid⟩, server) ⟨newcomer, unqueued, none⟩
        (server.maybeNegotiate sid now) ∧
      ∀ final, server.maybeNegotiate sid now = .ok final -> Spares server final sid := by
  -- Each outcome is one final server; it is enough to treat that server.
  have outcome : ∀ {final : Server C},
      Moves strict (⟨newcomer, unqueued, some sid⟩, server) (⟨newcomer, unqueued, none⟩, final) ∧
        Spares server final sid ->
      Performs strict (⟨newcomer, unqueued, some sid⟩, server) ⟨newcomer, unqueued, none⟩ (.ok final) ∧
        ∀ other, Except.ok final = (.ok other : Except Stop (Server C)) -> Spares server other sid := by
    intro final done
    refine ⟨.ok done.1, ?_⟩
    intro other same
    cases same
    exact done.2
  have stays : ∀ {session next : Session C}, server.sessions.lookup sid = some session ->
      next.sfuId = session.sfuId -> next.callKey = session.callKey ->
      Spares server (server.setSession sid next) sid :=
    fun found sameId sameKey target _ =>
      (updates_setSession server sid _).identity found sameId sameKey target
  have drained : ∀ {session : Session C}, server.sessions.lookup sid = some session ->
      session.state = .steady -> (C.ApplyTotal -> server.usefulSources session = []) ->
      Move strict (⟨newcomer, unqueued, some sid⟩, server) (⟨newcomer, unqueued, none⟩,
        server.setSession sid { session with queuedSources := [] }) := by
    intro session found steady none
    refine .update found (.drain newcomer unqueued steady ?_) (updates_setSession server sid _)
    intro total source member
    by_contra neither
    rw [not_or, not_not] at neither
    have useful := (roster.mem_usefulSources found (roster.keyed_of_steady found steady) source).mpr
      ⟨member, neither⟩
    rw [none total] at useful
    exact not_mem_nil useful
  have negotiation := roster.negotiation sid now
  generalize server.maybeNegotiate sid now = result at negotiation ⊢
  cases negotiation with
  | settled idle => exact outcome ⟨.single (.rest idle), fun _ _ => rfl⟩
  | useless _ found steady none =>
    exact outcome ⟨.single (drained found steady (fun _ => none)), stays found rfl rfl⟩
  | unchanged session rtc changed found steady useful applied =>
    have never : C.ApplyTotal -> server.usefulSources session = [] := by
      intro total
      have produced := total rtc (server.usefulSources session) useful
      rw [applied] at produced
      cases produced
    have hasRtc := ((roster.sessionSound found).joined_of_steady steady).1
    have first := drained found steady never
    have present : (server.setSession sid { session with queuedSources := [] }).sessions.lookup sid =
        some { session with queuedSources := [] } :=
      lookup_insert server.sessions
    refine outcome ⟨(Relation.ReflTransGen.single first).tail ?_, stays found rfl rfl⟩
    refine .update present (.media _ changed session.nextTimeout hasRtc)
      { updates_setSession _ sid _ with sessions := ?_ }
    intro target
    simp only [setSession, lookup_insert_eq]
    split <;> rfl
  | offered _ rtc changed offer pending found steady =>
    exact outcome (roster.moves_reoffer found steady strict newcomer unqueued (C.sdpApi rtc) changed offer pending now)

theorem mem_peers {participants other} :
    (other, sfuId) ∈ server.peers participants sid ↔ other ∈ participants ∧ other ≠ sid ∧
      ∃ session, server.sessions.lookup other = some session ∧ session.sfuId = sfuId := by
  rw [peers, mem_filterMap]
  constructor
  · rintro ⟨_, selected, mapped⟩
    rcases map_eq_some_iff.mp mapped with ⟨session, found, same⟩
    rw [Prod.mk.injEq] at same
    rcases same with ⟨rfl, named⟩
    have parts := mem_filter.mp selected
    exact ⟨parts.1, of_decide_eq_true parts.2, session, found, named⟩
  · rintro ⟨member, apart, _, found, rfl⟩
    refine ⟨other, mem_filter.mpr ⟨member, decide_eq_true apart⟩, ?_⟩
    rw [found, map_some]

theorem peers_nodup {participants} (nodup : participants.Nodup) (sid) :
    ((server.peers participants sid).map Prod.fst).Nodup := by
  have sublist : ∀ members : List Sid, ((members.filterMap (fun member =>
      (server.sessions.lookup member).map (fun session => (member, session.sfuId)))).map Prod.fst).Sublist members := by
    intro members
    induction members with
    | nil => exact List.Sublist.refl _
    | cons member rest ih =>
      cases found : server.sessions.lookup member with
      | none =>
        simp only [filterMap_cons, found, map_none]
        exact ih.cons member
      | some =>
        simp only [filterMap_cons, found, map_some, map_cons]
        exact ih.cons_cons member
  exact (nodup.filter _).sublist (sublist _)

theorem Roster.mem_peers_iff (roster : Roster server) {call} (inCall : server.calls.lookup key = some call) {other} :
    (other, sfuId) ∈ server.peers call.participants sid ↔
      other ≠ sid ∧ server.identity other = some (sfuId, some key) := by
  rw [mem_peers, roster.listed inCall, keyOf_eq_some, identity, map_eq_some_iff]
  constructor
  · rintro ⟨⟨session, found, keyed⟩, apart, _, present, named⟩
    rw [found] at present
    cases present
    exact ⟨apart, session, found, Prod.ext named keyed⟩
  · rintro ⟨apart, session, found, same⟩
    rw [Prod.mk.injEq] at same
    exact ⟨⟨session, found, same.2⟩, apart, session, found, same.1⟩

theorem Roster.announceAll (strict) {newcomer} (now) (existing : List (Sid × String))
    (roster : Roster server) (here : server.identity newcomer = some (sfuId, some key))
    (members : ∀ entry ∈ existing, entry.1 ≠ newcomer ∧ server.identity entry.1 = some (entry.2, some key))
    (nodup : (existing.map Prod.fst).Nodup) :
    Performs strict (⟨newcomer, existing.map Prod.fst, none⟩, server) ⟨newcomer, [], none⟩
      (existing.foldlM (announce newcomer sfuId now) server) := by
  induction existing generalizing server with
  | nil => exact .ok .refl
  | cons entry rest ih =>
    have first := members entry mem_cons_self
    have parts := nodup_cons.mp nodup
    rcases map_eq_some_iff.mp first.2 with ⟨session, found, same⟩
    rw [Prod.mk.injEq] at same
    let queued := server.setSession entry.1
      { session with queuedSources := session.queuedSources ++ [(newcomer, sfuId)] }
    have peer := peer_of_identity same.2 first.1.symm here
    have updates := updates_setSession server entry.1
      { session with queuedSources := session.queuedSources ++ [(newcomer, sfuId)] }
    have moved : Moves strict (⟨newcomer, entry.1 :: rest.map Prod.fst, none⟩, server)
        (⟨newcomer, rest.map Prod.fst, some entry.1⟩, queued) :=
      .single (.update found (.enqueue newcomer _ sfuId peer parts.1) updates)
    have kept := updates.identity found rfl rfl
    have negotiated := (moved.roster roster).negotiate strict entry.1 newcomer (rest.map Prod.fst) now
    have announced : announce newcomer sfuId now server entry = queued.maybeNegotiate entry.1 now := by
      simp [announce, found, queued]
    rw [foldlM_cons, announced]
    refine .bind (negotiated.1.after moved) ?_
    intro final done reached
    -- Only this participant was dealt with; the newcomer and the later ones are untouched.
    have spared := negotiated.2 final done
    apply ih (reached.roster roster)
    · rw [spared newcomer first.1.symm, kept, here]
    · intro later member
      have known := members later (mem_cons_of_mem _ member)
      refine ⟨known.1, ?_⟩
      have apart : later.1 ≠ entry.1 := by
        intro equal
        exact parts.1 (equal ▸ mem_map.mpr ⟨later, member, rfl⟩)
      rw [spared later.1 apart, kept, known.2]
    · exact parts.2

end Server

end Starling.Voice
