import Starling.Voice.Refinement

namespace Starling.Voice

open List Option Table AList Mark

/-!
# Every handler performs moves

The remaining handlers, from the admission of a newcomer to one turn of the event
loop.  For a join the outcomes are listed first: either the session is closed, or
the newcomer enters a call.  Entering panics exactly when the client has dropped
its receiver before the acknowledgement.
-/

variable {C : Crates}

namespace Server

/-! ## Entering a call -/

def joinAckFrame (server : Server C) (sid : Sid) (call : Call) : ServerFrame :=
  .joinAck (sfuIdOf C server.idSeed (server.idCounter + 1)) server.candidateStrings call.cap
    ((server.peers (call.join sid).participants sid).map Prod.snd)

theorem peers_join (server : Server C) (call : Call) (sid : Sid) :
    server.peers (call.join sid).participants sid = server.peers call.participants sid := by
  rw [peers, peers, Call.join]
  simp

variable {server : Server C} {session : Session C} {sid : Sid} {call : Call} {key : CallKey}
variable {owner : Bytes32}

theorem Roster.sent_iff_attached (roster : Roster server) (found : server.sessions.lookup sid = some session)
    (waiting : session.state = .awaitingJoin) (frame) :
    (session.toClient.trySend frame).2 = .sent ↔ session.toClient.settle.attached = true := by
  have sound := roster.sessionSound found
  have empty : session.toClient.queue = [] := (append_eq_nil_iff.mp (sound.waiting waiting).2.2.2).2
  rw [Channel.trySend_sent_iff, Channel.settle_queue_nil empty, Channel.settle_capacity, sound.capacity]
  exact and_iff_left (by decide)

theorem enterCall_eq (found : server.sessions.lookup sid = some session)
    (inCall : server.calls.lookup key = some call) (now) : server.enterCall sid key now = (do
      let acknowledged := (server.admitted sid key session call now).send sid (server.joinAckFrame sid call) now
      let newcomer <- expect (acknowledged.sessions.lookup sid)
      (server.peers (call.join sid).participants sid).foldlM (announce sid newcomer.sfuId now) acknowledged) := by
  simp only [enterCall, inCall, found, expect]
  rfl

theorem admitted_lookup (server : Server C) (sid key session call)
    (now : Instant) : ∃ joined, (server.admitted sid key session call now).sessions.lookup sid = some joined ∧
      joined.toClient = session.toClient ∧ joined.state = .awaitingOffer ∧
      joined.sfuId = sfuIdOf C server.idSeed (server.idCounter + 1) ∧ joined.callKey = some key :=
  ⟨_, lookup_insert server.sessions, rfl, rfl, rfl, rfl⟩

section

variable (roster : Roster server)
include roster

theorem Roster.enterCall_panics (found : server.sessions.lookup sid = some session)
    (waiting : session.state = .awaitingJoin) (owned : key.1 = session.owner)
    (inCall : server.calls.lookup key = some call) (room : call.participants.length < call.cap)
    (now : Instant) (gone : session.toClient.settle.attached = false) :
    server.enterCall sid key now = .error .panic := by
  rcases admitted_lookup server sid key session call now with
    ⟨joined, present, channel, _, _, _⟩
  have refused : (joined.toClient.trySend (server.joinAckFrame sid call)).2 ≠ .sent := by
    rw [channel, ne_eq, roster.sent_iff_attached found waiting, gone]
    exact Bool.false_ne_true
  have rosterAdmitted : Roster (server.admitted sid key session call now) :=
    roster.enter found waiting owned inCall room
  have absent := (rosterAdmitted.leaves_send present refused now).sessions sid
  rw [enterCall_eq found inCall]
  simp only [absent, expect]
  rfl

theorem Roster.mem_existing (inCall : server.calls.lookup key = some call) (outside : server.keyOf sid = none)
    (other) : other ∈ (server.peers call.participants sid).map Prod.fst ↔ server.keyOf other = some key := by
  rw [List.mem_map, keyOf_eq_identity, bind_eq_some_iff]
  constructor
  · rintro ⟨⟨_, name⟩, listed, rfl⟩
    exact ⟨(name, some key), ((roster.mem_peers_iff inCall).mp listed).2, rfl⟩
  · rintro ⟨⟨name, _⟩, named, rfl⟩
    refine ⟨(other, name), (roster.mem_peers_iff inCall).mpr ⟨?_, named⟩, rfl⟩
    intro same
    rw [keyOf_eq_identity, ← same, named] at outside
    cases outside

theorem Roster.existing_identity (inCall : server.calls.lookup key = some call) (sid session now)
    (entry : Sid × String) (listed : entry ∈ server.peers call.participants sid) :
    entry.1 ≠ sid ∧ (server.admitted sid key session call now).identity entry.1 = some (entry.2, some key) := by
  have peer := (roster.mem_peers_iff inCall).mp listed
  rw [admitted_identity, if_neg peer.1]
  exact peer

theorem Roster.moves_joinAck (strict : Bool) (mark : Mark) {now} (inCall : server.calls.lookup key = some call)
    (rosterAdmitted : Roster (server.admitted sid key session call now)) :
    Moves strict (mark, server.admitted sid key session call now)
      (mark, (server.admitted sid key session call now).send sid (server.joinAckFrame sid call) now) := by
  rcases admitted_lookup server sid key session call now with ⟨_, present, _, _, _, keyed⟩
  apply rosterAdmitted.moves_send
  intro stored lookup
  rw [present] at lookup
  cases lookup
  refine ⟨(rosterAdmitted.sessionSound present).joined_of_key ?_, ?_⟩
  · rw [keyed]
    exact some_ne_none key
  · intro name announced
    have named : name ∈ (server.peers (call.join sid).participants sid).map Prod.snd := announced
    rw [peers_join] at named
    rcases List.mem_map.mp named with ⟨entry, listed, rfl⟩
    have known := roster.existing_identity inCall sid session now entry listed
    exact ⟨entry.1, peer_of_identity keyed known.1 known.2⟩

theorem Roster.performs_enterCall {strict} (found : server.sessions.lookup sid = some session)
    (waiting : session.state = .awaitingJoin) (owned : key.1 = session.owner)
    (inCall : server.calls.lookup key = some call) (room : call.participants.length < call.cap)
    (limit : strict = true -> call.participants ≠ [] ∨ server.liveCalls < server.cfg.maxConcurrentCalls)
    (now : Instant) (attached : session.toClient.settle.attached = true) :
    Performs strict (idle, server) idle (server.enterCall sid key now) := by
  let existing := server.peers call.participants sid
  let welcomed := server.admitted sid key session call now
  let frame := server.joinAckFrame sid call
  let mark : Mark := ⟨sid, existing.map Prod.fst, none⟩
  have entered : Moves strict (idle, server) (mark, welcomed) :=
    .single (.enter found waiting owned inCall room limit (roster.mem_existing inCall (roster.unjoined found waiting)))
  have rosterWelcomed : Roster welcomed := entered.roster roster
  have identities := roster.existing_identity inCall sid session now
  rcases admitted_lookup server sid key session call now with
    ⟨joined, present, channel, _, _, keyed⟩
  have sent : (joined.toClient.trySend frame).2 = .sent := by
    rw [channel, roster.sent_iff_attached found waiting]
    exact attached
  have reached : Moves strict (idle, server) (mark, welcomed.send sid frame now) :=
    entered.trans (roster.moves_joinAck strict mark inCall rosterWelcomed)
  have rosterSent := reached.roster roster
  have spared := rosterWelcomed.send_spares sid frame now
  have still : (welcomed.send sid frame now).sessions.lookup sid =
      some { joined with toClient := (joined.toClient.trySend frame).1 } := by
    rw [send_of_sent present sent, setSession, lookup_insert]
  have here : (welcomed.send sid frame now).identity sid = some (joined.sfuId, some key) := by
    rw [identity_of_lookup still, keyed]
  have members : ∀ entry ∈ existing, entry.1 ≠ sid ∧
      (welcomed.send sid frame now).identity entry.1 = some (entry.2, some key) := by
    intro entry listed
    have known := identities entry listed
    exact ⟨known.1, (spared _ known.1).trans known.2⟩
  have announced := rosterSent.announceAll strict now existing here members
    (peers_nodup (roster.callSound inCall).nodup sid)
  have result : server.enterCall sid key now =
      existing.foldlM (announce sid joined.sfuId now) (welcomed.send sid frame now) := by
    rw [enterCall_eq found inCall, peers_join]
    change (expect ((welcomed.send sid frame now).sessions.lookup sid) >>= _) = _
    rw [still]
    rfl
  rw [result]
  refine ⟨?_, announced.calm⟩
  intro final done
  exact (reached.trans (announced.moves final done)).tail .rename

end

def joinKey (session : Session C) (token : Bytes) : CallKey := (session.owner, C.blake2b256 token)

/-- The join frame is in order and there is a place for the newcomer: in the call
if it exists, and among the live calls if it has to be created. -/
structure Admits (server : Server C) (session : Session C) (token : Bytes) : Prop where
  waiting : session.state = .awaitingJoin
  length : token.length = 32
  slot : (server.registry.lookup (joinKey session token)).isSome = true
  place : match server.calls.lookup (joinKey session token) with
    | some call => call.participants.length < call.cap
    | none => server.liveCalls < server.cfg.maxConcurrentCalls

inductive JoinOutcome (server : Server C) (sid : Sid) (session : Session C) (token : Bytes)
    (now : Instant) : Except Stop (Server C) -> Prop where
  | rejected {left : Server C} (outside : ¬ server.Admits session token)
      (leaves : Leaves server left sid session now) :
      JoinOutcome server sid session token now (.ok left)
  | entered {opened : Server C} {call : Call} (admits : server.Admits session token)
      (reshelves : Reshelves server opened)
      (inCall : opened.calls.lookup (joinKey session token) = some call)
      (room : call.participants.length < call.cap)
      (origin : server.calls.lookup (joinKey session token) = some call ∨
        server.liveCalls < server.cfg.maxConcurrentCalls) :
      JoinOutcome server sid session token now (opened.enterCall sid (joinKey session token) now)

theorem reshelves_refl (server : Server C) : Reshelves server server where
  calls := fun _ => Or.inl rfl
  sessions := rfl
  departures := rfl
  registry := rfl
  cfg := rfl
  nextSid := rfl
  idSeed := rfl
  idCounter := rfl
  written := rfl

def withNewCall (server : Server C) (key : CallKey) (slot : SlotInfo) (now : Instant) : Server C :=
  { server with
    calls := server.calls.insert key (Call.new (slot.cap server.cfg.maxParticipants) now) }

theorem reshelves_create (absent : server.calls.lookup key = none) (slot now) :
    Reshelves server (server.withNewCall key slot now) :=
  { reshelves_refl server with
    calls := by
      intro target
      simp only [withNewCall, lookup_insert_eq]
      by_cases same : target = key
      · right
        refine ⟨?_, ?_⟩
        · intro call found
          rw [same, absent] at found
          cases found
        · intro call found
          rw [if_pos same] at found
          cases found
          exact ⟨rfl, some_ne_none now⟩
      · left
        rw [if_neg same] }

theorem joinCall_eq (found : server.sessions.lookup sid = some session)
    (inCall : server.calls.lookup key = some call) (now) : server.joinCall sid key now =
      if call.cap ≤ call.participants.length then
        .ok ((server.setSession sid { session with
          toClient := (session.toClient.trySend .full).1 }).closeSession sid none now)
      else server.enterCall sid key now := by
  simp [joinCall, inCall, found, expect, bind, Except.bind, pure, Except.pure]

theorem joinOutcome_created (found : server.sessions.lookup sid = some session) {token}
    (absent : server.calls.lookup (joinKey session token) = none) (waiting : session.state = .awaitingJoin)
    (length : token.length = 32) {slot}
    (registered : server.registry.lookup (joinKey session token) = some slot)
    (limit : server.liveCalls < server.cfg.maxConcurrentCalls) (now) :
    JoinOutcome server sid session token now
      ((server.withNewCall (joinKey session token) slot now).joinCall sid (joinKey session token) now) := by
  let call := Call.new (slot.cap server.cfg.maxParticipants) now
  have inCall : (server.withNewCall (joinKey session token) slot now).calls.lookup
      (joinKey session token) = some call :=
    lookup_insert server.calls
  have room : call.participants.length < call.cap := Nat.lt_of_lt_of_le Nat.zero_lt_two (Nat.le_max_right _ 2)
  have present : (server.withNewCall (joinKey session token) slot now).sessions.lookup sid = some session := found
  rw [joinCall_eq present inCall, if_neg (Nat.not_le_of_lt room)]
  refine .entered ⟨waiting, length, ?_, ?_⟩ (reshelves_create absent slot now) inCall room (.inr limit)
  · rw [registered]
    rfl
  · rw [absent]
    exact limit

/-- The join lets a first member back into a call that was kept although nobody
is in it, while the live calls have reached their limit. -/
def RevivesAtLimit (server : Server C) (session : Session C) (token : Bytes) : Prop :=
  server.Admits session token ∧ server.cfg.maxConcurrentCalls ≤ server.liveCalls ∧
    ∃ call, server.calls.lookup (joinKey session token) = some call ∧ call.participants = []

section

variable (roster : Roster server) (found : server.sessions.lookup sid = some session)
include roster found

theorem Roster.leaves_fail (code message now) : Leaves server (server.fail sid code message now) sid session now :=
  (roster.seat found).leaves found _ now

theorem Roster.joinOutcome_existing {token}
    (inCall : server.calls.lookup (joinKey session token) = some call)
    (waiting : session.state = .awaitingJoin) (length : token.length = 32)
    (slot : (server.registry.lookup (joinKey session token)).isSome = true) (now : Instant) :
    JoinOutcome server sid session token now (server.joinCall sid (joinKey session token) now) := by
  rw [joinCall_eq found inCall]
  split
  next full =>
    refine .rejected (fun admits => ?_) (roster.leaves_channel found _ none now)
    have place := admits.place
    rw [inCall] at place
    exact not_lt_of_ge full place
  next notFull =>
    have room := lt_of_not_ge notFull
    refine .entered ⟨waiting, length, slot, ?_⟩ (reshelves_refl server) inCall room (.inl inCall)
    rw [inCall]
    exact room

theorem Roster.joinOutcome (token now) :
    JoinOutcome server sid session token now (server.handleJoin sid token now) := by
  have same : (session.owner, C.blake2b256 token) = joinKey session token := rfl
  simp only [handleJoin, found, expect, bind, pure, Except.bind, Except.pure, same]
  split
  next apart =>
    exact .rejected (fun admits => apart admits.waiting) (roster.leaves_fail found _ _ now)
  next waiting =>
    rw [not_not] at waiting
    split
    next apart =>
      exact .rejected (fun admits => apart admits.length) (roster.leaves_fail found _ _ now)
    next length =>
      rw [not_not] at length
      cases registered : server.registry.lookup (session.owner, C.blake2b256 token) with
      | none =>
        exact .rejected (fun admits => isSome_iff_ne_none.mp admits.slot registered) (roster.leaves_fail found _ _ now)
      | some =>
        cases inCall : server.calls.lookup (joinKey session token) with
        | some call =>
          have member : joinKey session token ∈ server.calls := mem_iff_lookup.mpr ⟨call, inCall⟩
          simp only [openCall, if_pos member]
          exact roster.joinOutcome_existing found inCall waiting length (isSome_of_eq_some registered) now
        | none =>
          have notMember : joinKey session token ∉ server.calls := lookup_eq_none.mp inCall
          by_cases busy : server.cfg.maxConcurrentCalls ≤ server.liveCalls
          · simp only [openCall, if_neg notMember, if_pos busy]
            refine .rejected (fun admits => ?_) (roster.leaves_fail found _ _ now)
            have place := admits.place
            rw [inCall] at place
            exact not_lt_of_ge busy place
          · simp only [openCall, if_neg notMember, if_neg busy]
            exact joinOutcome_created found inCall waiting length registered (lt_of_not_ge busy) now

theorem Roster.handleJoin_panics_iff (token now) :
    server.handleJoin sid token now = .error .panic ↔
      server.Admits session token ∧ session.toClient.settle.attached = false := by
  have outcome := roster.joinOutcome found token now
  generalize server.handleJoin sid token now = result at outcome ⊢
  cases outcome with
  | rejected outside => simp [outside]
  | @entered opened _ admits reshelves inCall room =>
    have rosterOpened : Roster opened := roster.withCalls reshelves.sessions reshelves.nextSid reshelves.calls
    have present := reshelves.sessions ▸ found
    constructor
    · intro panics
      refine ⟨admits, ?_⟩
      cases attached : session.toClient.settle.attached with
      | false => rfl
      | true =>
        have performs := rosterOpened.performs_enterCall present admits.waiting rfl inCall room
          (fun strict : false = true => nomatch strict) now attached
        exact (performs.calm panics).elim
    · intro gone
      exact rosterOpened.enterCall_panics present admits.waiting rfl inCall room now gone.2

end

theorem Roster.performs_handleJoin (roster : Roster server) {strict}
    (found : server.sessions.lookup sid = some session) (token now)
    (attached : server.Admits session token -> session.toClient.settle.attached = true)
    (limit : strict = true -> ¬ server.RevivesAtLimit session token) :
    Performs strict (idle, server) idle (server.handleJoin sid token now) := by
  have outcome := roster.joinOutcome found token now
  generalize server.handleJoin sid token now = result at outcome ⊢
  cases outcome with
  | rejected _ leaves => exact .ok (.single (.leave leaves))
  | @entered opened call admits reshelves inCall room origin =>
    have moved : Moves strict (idle, server) (idle, opened) := .single (.reshelve reshelves)
    have present := reshelves.sessions ▸ found
    have withinLimit : strict = true -> call.participants ≠ [] ∨
        opened.liveCalls < opened.cfg.maxConcurrentCalls := by
      intro isStrict
      by_cases empty : call.participants = []
      · right
        rw [reshelves.cfg]
        refine lt_of_le_of_lt reshelves.liveCalls_le ?_
        rcases origin with existing | below
        · by_contra atLimit
          exact limit isStrict ⟨admits, Nat.le_of_not_lt atLimit, call, existing, empty⟩
        · exact below
      · exact .inl empty
    exact Performs.after moved ((moved.roster roster).performs_enterCall present admits.waiting
      rfl inCall room withinLimit now (attached admits))

/-! ## Offers, answers and candidates -/

section

variable (roster : Roster server)
include roster

theorem Roster.mem_others {answered next} (joined : session.callKey = some key)
    (inCall : server.calls.lookup key = some call) (updates : Updates server answered sid next) (other sfuId) :
    (other, sfuId) ∈ answered.peers call.participants sid ↔ server.Peer sid session other sfuId := by
  have same : (other, sfuId) ∈ answered.peers call.participants sid ↔
      (other, sfuId) ∈ server.peers call.participants sid := by
    rw [mem_peers, mem_peers]
    refine and_congr_right (fun _ => and_congr_right (fun apart => ?_))
    rw [updates.sessions, if_neg apart]
  rw [same, roster.mem_peers_iff inCall, peer_iff, joined]
  simp

theorem Roster.performs_accepted (strict : Bool) (found : server.sessions.lookup sid = some session)
    (offering : session.state = .awaitingOffer) (joined : session.callKey = some key) (rtc : C.Rtc)
    (answer : String) (now : Instant) : let steady : Session C :=
      { session with rtc := some rtc, opusPt := C.opusPt rtc, state := .steady }
    Performs strict (idle, server) idle
      ((((server.setSession sid steady).markDirty sid).send sid (.answer answer) now).queueOthers sid key now) := by
  intro steady
  let stored := (server.setSession sid steady).markDirty sid
  let told : Session C := { steady with toClient := (session.toClient.trySend (.answer answer)).1 }
  rcases roster.seated ((keyOf_of_lookup found).trans joined) with ⟨call, inCall⟩
  have present : stored.sessions.lookup sid = some steady := lookup_insert server.sessions
  have rewritten := ({ updates_setSession server sid steady with } : Updates server stored sid steady).overwrite told
  by_cases sent : (session.toClient.trySend (.answer answer)).2 = .sent
  · have answered : stored.send sid (.answer answer) now = stored.setSession sid told :=
      send_of_sent present sent now
    let others := (stored.setSession sid told).peers call.participants sid
    let queued := (stored.setSession sid told).setSession sid { told with queuedSources := others }
    have result : (stored.send sid (.answer answer) now).queueOthers sid key now = queued.maybeNegotiate sid now := by
      have again : (stored.setSession sid told).sessions.lookup sid = some told := lookup_insert stored.sessions
      have callThere : (stored.setSession sid told).calls.lookup key = some call := inCall
      rw [answered]
      simp only [queueOthers, again, callThere, map_some, getD_some]
      rfl
    have moved : Moves strict (idle, server) (⟨0, [], some sid⟩, queued) :=
      .single (.update found (.accept 0 rtc (C.opusPt rtc) answer others offering
        (roster.mem_others joined inCall rewritten)
        (peers_nodup (roster.callSound inCall).nodup sid)) (rewritten.overwrite _))
    rw [result]
    exact Performs.after moved ((moved.roster roster).negotiate strict sid 0 [] now).1
  · have answered : stored.send sid (.answer answer) now =
        (stored.setSession sid told).closeSession sid none now := by
      simp only [send, present]
      exact if_neg sent
    have leaves : Leaves server (stored.send sid (.answer answer) now) sid session now := by
      rw [answered]
      exact roster.leavesUpdated found rewritten rfl rfl none now
    have absent := leaves.sessions sid
    rw [if_pos rfl] at absent
    change Performs strict _ _ ((stored.send sid (.answer answer) now).queueOthers sid key now)
    simp only [queueOthers, absent, maybeNegotiate]
    exact .ok (.single (.leave leaves))

theorem Roster.performs_fail (strict sid code message now) :
    Performs strict (idle, server) idle (.ok (server.fail sid code message now)) :=
  .ok (roster.moves_close idle sid _ now)

theorem Roster.performs_handleOffer (strict) (found : server.sessions.lookup sid = some session) (sdp now) :
    Performs strict (idle, server) idle (server.handleOffer sid sdp now) := by
  simp only [handleOffer, found, expect, bind, Except.bind, pure, Except.pure]
  split
  · exact roster.performs_fail strict sid _ _ now
  next offering =>
    rw [not_not] at offering
    have joined := (roster.sessionSound found).joined_of_offering offering
    rcases isSome_iff_exists.mp joined.1 with ⟨rtc, hasRtc⟩
    rcases ne_none_iff_exists'.mp joined.2 with ⟨_, keyed⟩
    cases C.parseOffer sdp with
    | none => exact roster.performs_fail strict sid _ _ now
    | some offer =>
      simp only [hasRtc, keyed]
      cases accepted : C.acceptOffer rtc offer with
      | mk changed answer =>
        cases answer with
        | none => exact roster.performs_fail strict sid _ _ now
        | some answer =>
          have performs := roster.performs_accepted strict found offering keyed changed answer now
          simp only [keyed] at performs
          exact performs

end

theorem mem_declareSlots (order : List Sid) (rtc : C.Rtc) (slots : Table Sid TxSlot)
    (source : Sid) : source ∈ (declareSlots order rtc slots).2 ↔ source ∈ slots := by
  refine foldlRecOn (motive := fun (state : C.Rtc × Table Sid TxSlot) => source ∈ state.2 ↔ source ∈ slots)
    (slots.visit order) _ Iff.rfl ?_
  intro state kept first _
  rw [← kept]
  split
  · rfl
  next slot found =>
    have known : first ∈ state.2 := mem_iff_lookup.mpr ⟨slot, found⟩
    -- Only a key that is there already is written.
    have rewritten : ∀ value, source ∈ state.2.insert first value ↔ source ∈ state.2 := by
      intro value
      rw [mem_insert]
      exact ⟨fun either => either.elim (fun same => same ▸ known) id, Or.inr⟩
    split
    · rfl
    · split <;> exact rewritten _

theorem Roster.performs_handleAnswer (roster : Roster server) (strict : Bool)
    (found : server.sessions.lookup sid = some session) (sdp : String) (order : List Sid) (now : Instant) :
    Performs strict (idle, server) idle (server.handleAnswer sid sdp order now) := by
  simp only [handleAnswer, found, expect, bind, Except.bind, pure, Except.pure]
  split
  · exact roster.performs_fail strict sid _ _ now
  next pendingSteady =>
    rw [not_or, not_not, isNone_iff_eq_none] at pendingSteady
    rcases ne_none_iff_exists'.mp pendingSteady.2 with ⟨pending, hasPending⟩
    have steady := pendingSteady.1
    rcases isSome_iff_exists.mp ((roster.sessionSound found).joined_of_steady steady).1 with
      ⟨rtc, hasRtc⟩
    cases C.parseAnswer sdp with
    | none => exact roster.performs_fail strict sid _ _ now
    | some answer =>
      simp only [hasPending, hasRtc]
      cases accepted : C.acceptAnswer rtc pending answer with
      | mk changed verdict =>
        cases verdict with
        | false => exact roster.performs_fail strict sid _ _ now
        | true =>
          have moved : Moves strict (idle, server) (⟨0, [], some sid⟩, _) :=
            moves_store found (.answered 0 [] (declareSlots order changed session.txSlots).1
              (declareSlots order changed session.txSlots).2 steady
              (mem_declareSlots order changed session.txSlots))
          exact Performs.after moved ((moved.roster roster).negotiate strict sid 0 [] now).1

theorem Roster.performs_handleIce (roster : Roster server) (strict)
    (found : server.sessions.lookup sid = some session) (candidate now) :
    Performs strict (idle, server) idle (server.handleIce sid candidate now) := by
  simp only [handleIce, found, expect, bind, Except.bind, pure, Except.pure]
  cases hasRtc : session.rtc with
  | none => exact roster.performs_fail strict sid _ _ now
  | some rtc =>
    cases C.parseCandidate candidate with
    | none => exact .ok .refl
    | some parsed =>
      exact .ok (moves_store found (.media idle (C.addRemoteCandidate rtc parsed)
        session.nextTimeout (isSome_of_eq_some hasRtc)))

section

variable (strict : Bool)

theorem moves_forwardTo {source target} (member : server.keyOf target = some key)
    (apart : target ≠ source) (packet : C.RtpPacket) (now : Instant) :
    let fed := forwardTo source key packet now server target
    Moves strict (idle, server) (idle, fed) ∧ ∀ other, fed.identity other = server.identity other := by
  simp only [forwardTo]
  cases found : server.sessions.lookup target with
  | none => exact ⟨.refl, fun _ => rfl⟩
  | some session =>
    simp only
    split
    next slot pt rtc _ _ hasRtc =>
      split
      · let next : Session C :=
          { session with rtc := some (C.writeRtp rtc slot.ssrc pt packet now) }
        have stored : Moves strict (idle, server) (idle, (server.setSession target next).markDirty target) :=
          moves_store found (.media idle _ session.nextTimeout (isSome_of_eq_some hasRtc))
        refine ⟨stored.tail (.quiet ⟨rfl, rfl, rfl, rfl, rfl, rfl, rfl, ?_⟩), ?_⟩
        · intro entry written
          rcases mem_cons.mp written with rfl | old
          · exact .inr ⟨(keyOf_of_lookup found).symm.trans member, apart⟩
          · exact .inl old
        · exact (updates_setSession server target next).identity found rfl rfl
      · exact ⟨.refl, fun _ => rfl⟩
    · exact ⟨.refl, fun _ => rfl⟩

theorem moves_forwardAll {source} (packet now) (targets : List Sid)
    (members : ∀ target ∈ targets, server.keyOf target = some key ∧ target ≠ source) :
    Moves strict (idle, server) (idle, targets.foldl (forwardTo source key packet now) server) := by
  induction targets generalizing server with
  | nil => exact .refl
  | cons target rest ih =>
    have first := members target mem_cons_self
    have fed := moves_forwardTo strict first.1 first.2 packet now
    refine fed.1.trans (ih ?_)
    intro later member
    have known := members later (mem_cons_of_mem _ member)
    exact ⟨(keyOf_congr (fed.2 later)).trans known.1, known.2⟩

theorem Roster.moves_forwardRtp (roster : Roster server) (strict source now) (packet : C.RtpPacket) :
    Moves strict (idle, server) (idle, forwardRtp source now server packet) := by
  unfold forwardRtp
  split
  · exact .refl
  · split
    · exact .refl
    · split
      · exact .refl
      next inCall =>
        apply moves_forwardAll
        intro target member
        have parts := mem_filter.mp member
        exact ⟨(roster.listed inCall target).mp parts.1, of_decide_eq_true parts.2⟩

theorem pollLoop_calm (rtc : C.Rtc) (packets close) (fuel : Nat) :
    pollLoop rtc packets close fuel ≠ .error .panic := by
  induction fuel generalizing rtc packets close with
  | zero => exact nofun
  | succ fuel ih =>
    rw [pollLoop]
    split
    · exact nofun
    · exact nofun
    · exact ih _ _ _
    · exact ih _ _ _
    · exact ih _ _ _
    · exact ih _ _ _

theorem Roster.performs_drainSession (roster : Roster server) (strict : Bool) (sid now)
    (fuel : Nat) : Performs strict (idle, server) idle (server.drainSession sid now fuel) := by
  unfold drainSession
  cases found : server.sessions.lookup sid with
  | none => exact .ok .refl
  | some session =>
    cases hasRtc : session.rtc with simp only [hasRtc]
    | none => exact .ok .refl
    | some rtc =>
      have calm := pollLoop_calm (C.handleInput rtc (.timeout now)).1 [] (!(C.handleInput rtc (.timeout now)).2) fuel
      generalize pollLoop _ _ _ fuel = polled at calm ⊢
      cases polled with
      | error =>
        refine ⟨nofun, fun panics => calm ?_⟩
        exact congrArg Except.error (Except.error.inj panics)
      | ok polled =>
        rcases polled with ⟨changed, next, packets, _⟩
        let stored := server.setSession sid
          { session with
            rtc := some changed
            nextTimeout := next.orElse (fun _ => session.nextTimeout) }
        have first : Moves strict (idle, server) (idle, stored) :=
          .single (.update found (.media idle changed _ (isSome_of_eq_some hasRtc)) (updates_setSession server sid _))
        have reached := first.trans (moves_foldl
          (fun here packet => here.moves_forwardRtp strict sid now packet) packets
          (first.roster roster))
        simp only [bind, Except.bind, pure, Except.pure]
        split
        · exact .ok (reached.trans ((Moves.roster reached roster).moves_close idle sid none now))
        · exact .ok reached

theorem Roster.performs_drainReady (now : Instant) (pollFuel fuel : Nat) (roster : Roster server) :
    Performs strict (idle, server) idle (drainReady now pollFuel fuel server) := by
  induction fuel generalizing server with rw [drainReady]
  | zero =>
    split
    · exact .ok .refl
    · exact .outOfFuel
  | succ fuel ih =>
    split
    · exact .ok .refl
    next sid rest _ =>
      have popped : Moves strict (idle, server) (idle, { server with dirty := rest }) :=
        .single (.quiet (quiet_dirty server rest))
      refine .bind (Performs.after popped ((popped.roster roster).performs_drainSession strict sid now pollFuel)) ?_
      intro final _ reached
      exact ih (reached.roster roster)

/-! ## Dropping an owner -/

structure EndsSessions (server ended : Server C) (owner : Bytes32) (sids : List Sid) : Prop where
  gone : ∀ sid ∈ sids, ended.sessions.lookup sid = none
  others : ∀ {sid session}, server.sessions.lookup sid = some session ->
    session.owner ≠ owner -> ended.sessions.lookup sid = some session
  remaining : ∀ {sid stored}, ended.sessions.lookup sid = some stored ->
    ∃ session, server.sessions.lookup sid = some session ∧ session.owner = stored.owner
  calls : ∀ key, key.1 ≠ owner -> ended.calls.lookup key = server.calls.lookup key
  registry : ended.registry = server.registry

theorem EndsSessions.refl (server : Server C) (owner : Bytes32) : EndsSessions server server owner [] where
  gone := nofun
  others := fun found _ => found
  remaining := fun found => ⟨_, found, rfl⟩
  calls := fun _ _ => rfl
  registry := rfl

theorem Roster.endsSessions_leave {left} (roster : Roster server) {gone now}
    (leaves : Leaves server left sid gone now) : EndsSessions server left gone.owner [sid] where
  gone := by
    intro target member
    rw [mem_singleton.mp member, leaves.sessions, if_pos rfl]
  others := by
    intro target session found foreign
    have different : target ≠ sid := by
      intro same
      rw [same, leaves.found] at found
      cases found
      exact foreign rfl
    have apart : ¬ SameCall gone session := by
      rintro ⟨keyed, same⟩
      rcases ne_none_iff_exists'.mp keyed with ⟨key, joined⟩
      have mine := (roster.sessionSound leaves.found).owned key joined
      have theirs := (roster.sessionSound found).owned key (same.trans joined)
      exact foreign (theirs.symm.trans mine)
    rw [leaves.sessions, if_neg different, found, map_some, afterDeparture, if_neg apart]
  remaining := by
    intro target stored present
    rcases leaves.remaining present with ⟨_, session, found, rfl⟩
    exact ⟨session, found, (afterDeparture_same sid gone session).2.2.1.symm⟩
  calls := by
    intro key foreign
    have different : gone.callKey ≠ some key := fun joined =>
      foreign ((roster.sessionSound leaves.found).owned key joined)
    rw [leaves.calls]
    simp only [if_neg different]
    exact map_id'
  registry := leaves.registry

theorem EndsSessions.cons {middle ended rest}
    (absent : middle.sessions.lookup sid = none) (first : EndsSessions server middle owner [])
    (later : EndsSessions middle ended owner rest) : EndsSessions server ended owner (sid :: rest) where
  gone := by
    intro target member
    rcases mem_cons.mp member with same | inRest
    · cases found : ended.sessions.lookup target with
      | none => rfl
      | some =>
        rcases later.remaining found with ⟨_, present, _⟩
        rw [same, absent] at present
        cases present
    · exact later.gone target inRest
  others := fun found foreign => later.others (first.others found foreign) foreign
  remaining := by
    intro target stored found
    rcases later.remaining found with ⟨_, present, sameOwner⟩
    rcases first.remaining present with ⟨original, known, same⟩
    exact ⟨original, known, same.trans sameOwner⟩
  calls := fun key foreign => (later.calls key foreign).trans (first.calls key foreign)
  registry := later.registry.trans first.registry

theorem Roster.closeAll (owner : Bytes32) (now : Instant) (sids : List Sid) (roster : Roster server)
    (owned : ∀ sid session, sid ∈ sids -> server.sessions.lookup sid = some session -> session.owner =
      owner) : let ended := sids.foldl (fun server sid => server.closeSession sid (some .bye) now) server
    Moves strict (idle, server) (idle, ended) ∧ EndsSessions server ended owner sids := by
  induction sids generalizing server with
  | nil => exact ⟨.refl, .refl server owner⟩
  | cons sid rest ih =>
    let middle := server.closeSession sid (some .bye) now
    have moved : Moves strict (idle, server) (idle, middle) := roster.moves_close idle sid _ now
    have first : EndsSessions server middle owner [] ∧ middle.sessions.lookup sid = none := by
      cases found : server.sessions.lookup sid with
      | none =>
        have same : middle = server := closeSession_of_absent found _ now
        rw [same]
        exact ⟨.refl server owner, found⟩
      | some session =>
        have leaves := (roster.seat found).leaves found (some .bye) now
        have ends := roster.endsSessions_leave leaves
        rw [owned sid session mem_cons_self found] at ends
        exact ⟨{ ends with gone := nofun }, ends.gone sid (mem_singleton_self sid)⟩
    have ownedLater : ∀ target session, target ∈ rest ->
        middle.sessions.lookup target = some session -> session.owner = owner := by
      intro target session member present
      rcases first.1.remaining present with ⟨original, found, same⟩
      exact same ▸ owned target original (mem_cons_of_mem _ member) found
    have later := ih (moved.roster roster) ownedLater
    exact ⟨moved.trans later.1, .cons first.2 first.1 later.2⟩

end

/-- Everything of the owner is gone, and nothing of anybody else has changed. -/
structure DropsOwner (server dropped : Server C) (owner : Bytes32) : Prop where
  noSession : ∀ sid session, dropped.sessions.lookup sid = some session -> session.owner ≠ owner
  noCall : ∀ key, key.1 = owner -> dropped.calls.lookup key = none
  noSlot : ∀ key, key.1 = owner -> dropped.registry.lookup key = none
  otherSessions : ∀ sid session, session.owner ≠ owner ->
    (dropped.sessions.lookup sid = some session ↔ server.sessions.lookup sid = some session)
  otherCalls : ∀ key, key.1 ≠ owner -> dropped.calls.lookup key = server.calls.lookup key
  otherSlots : ∀ key, key.1 ≠ owner -> dropped.registry.lookup key = server.registry.lookup key

/-- The sessions that `drop_owner` closes, in the order of the map. -/
def sessionsOf (server : Server C) (owner : Bytes32) (order : List Sid) : List Sid :=
  (server.sessions.visit order).filter (fun sid =>
    (server.sessions.lookup sid).any (fun session => session.owner = owner))

theorem mem_sessionsOf {order} : sid ∈ server.sessionsOf owner order ↔
      ∃ session, server.sessions.lookup sid = some session ∧ session.owner = owner := by
  rw [sessionsOf, mem_filter, mem_visit, Option.any_eq_true, mem_iff_lookup]
  constructor
  · rintro ⟨_, session, found, mine⟩
    exact ⟨session, found, of_decide_eq_true mine⟩
  · rintro ⟨session, found, mine⟩
    exact ⟨⟨session, found⟩, session, found, decide_eq_true mine⟩

theorem Roster.call_empty_of_nobody (roster : Roster server)
    (nobody : ∀ sid session, server.sessions.lookup sid = some session -> session.owner ≠ owner)
    (mine : key.1 = owner) (inCall : server.calls.lookup key = some call) : call.participants = [] := by
  rw [eq_nil_iff_forall_not_mem]
  intro sid member
  rcases keyOf_eq_some.mp ((roster.listed inCall sid).mp member) with ⟨session, found, joined⟩
  exact nobody sid session found (((roster.sessionSound found).owned key joined).symm.trans mine)

theorem Roster.dropOwner (roster : Roster server) (strict : Bool) (owner order)
    (now : Instant) : Moves strict (idle, server) (idle, server.dropOwner owner order now) ∧
      DropsOwner server (server.dropOwner owner order now) owner := by
  let cleared : Server C :=
    { server with registry := SlotRegistry.dropOwner server.registry owner }
  let ended := (server.sessionsOf owner order).foldl (fun server sid => server.closeSession sid (some .bye) now) cleared
  have cleaned : Moves strict (idle, server) (idle, cleared) :=
    .single (.quiet ⟨rfl, rfl, rfl, rfl, rfl, rfl, rfl, fun _ member => Or.inl member⟩)
  have rosterCleared : Roster cleared := cleaned.roster roster
  have owned : ∀ sid session, sid ∈ server.sessionsOf owner order ->
      cleared.sessions.lookup sid = some session -> session.owner = owner := by
    intro sid session member found
    rcases mem_sessionsOf.mp member with ⟨_, present, mine⟩
    exact some.inj (present.symm.trans found) ▸ mine
  have closed := rosterCleared.closeAll strict owner now (server.sessionsOf owner order) owned
  have reached : Moves strict (idle, server) (idle, ended) := cleaned.trans closed.1
  have rosterEnded : Roster ended := reached.roster roster
  have nobody : ∀ sid session, ended.sessions.lookup sid = some session -> session.owner ≠ owner := by
    intro sid session found mine
    rcases closed.2.remaining found with ⟨original, present, same⟩
    have member : sid ∈ server.sessionsOf owner order := mem_sessionsOf.mpr ⟨original, present, same.trans mine⟩
    rw [closed.2.gone sid member] at found
    cases found
  have lookupCall : ∀ key, (server.dropOwner owner order now).calls.lookup key =
      if key.1 = owner then none else ended.calls.lookup key :=
    lookup_retain_fst ended.calls owner
  have shelved : Reshelves ended (server.dropOwner owner order now) := by
    refine ⟨?_, rfl, rfl, rfl, rfl, rfl, rfl, rfl, rfl⟩
    intro key
    by_cases mine : key.1 = owner
    · right
      refine ⟨fun call inCall => rosterEnded.call_empty_of_nobody nobody mine inCall, ?_⟩
      intro call found
      rw [lookupCall, if_pos mine] at found
      cases found
    · left
      rw [lookupCall, if_neg mine]
  refine ⟨reached.tail (.reshelve shelved), nobody, ?_, ?_, ?_, ?_, ?_⟩
  · intro key mine
    rw [lookupCall, if_pos mine]
  · intro key mine
    change ended.registry.lookup key = none
    rw [closed.2.registry, SlotRegistry.lookup_dropOwner, if_pos mine]
  · intro sid session foreign
    constructor
    · intro found
      rcases closed.2.remaining found with ⟨_, present, same⟩
      have kept := closed.2.others present (same ▸ foreign)
      exact some.inj (kept.symm.trans found) ▸ present
    · intro found
      exact closed.2.others found foreign
  · intro key foreign
    rw [lookupCall, if_neg foreign]
    exact closed.2.calls key foreign
  · intro key foreign
    change ended.registry.lookup key = _
    rw [closed.2.registry, SlotRegistry.lookup_dropOwner, if_neg foreign]

end Server

end Starling.Voice
