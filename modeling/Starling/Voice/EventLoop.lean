import Starling.Voice.Handlers

namespace Starling.Voice

open List Option Table Mark

/-!
# Turns of the event loop

Each turn performs moves, so the roster invariant holds in every state that the
loop reaches.  A turn panics in one case only, and that case can be read off the
state before it: an admitted join whose client has gone away.
-/

variable {C : Crates}

namespace Server

/-- The input is a join that is admitted although its client will have dropped
the receiver when the acknowledgement is sent. -/
def JoinsDetached (server : Server C) (input : LoopInput) : Prop :=
  ∃ sid token moment session, input = .command (.sessionFrame sid (.join token)) moment ∧
    server.sessions.lookup sid = some session ∧ server.Admits session token ∧
      session.toClient.settle.attached = false

def RevivesCall (server : Server C) (input : LoopInput) : Prop :=
  ∃ sid token moment session, input = .command (.sessionFrame sid (.join token)) moment ∧
    server.sessions.lookup sid = some session ∧ server.RevivesAtLimit session token

variable {server : Server C} {sid : Sid} {strict : Bool}

theorem handleFrame_eq {session} (found : server.sessions.lookup sid = some session)
    (frame moment) : server.handleFrame sid frame moment =
      server.dispatch sid frame moment >>= drainReady moment.now moment.fuel moment.fuel := by
  have member : sid ∈ server.sessions := mem_iff_lookup.mpr ⟨session, found⟩
  rw [handleFrame, if_pos member]

theorem handleFrame_of_absent (absent : server.sessions.lookup sid = none) (frame moment) :
    server.handleFrame sid frame moment = .ok server := by
  rw [handleFrame, if_neg]
  intro member
  rcases mem_iff_lookup.mp member with ⟨_, found⟩
  rw [absent] at found
  cases found

theorem Roster.performs_dispatch (roster : Roster server) {session}
    (found : server.sessions.lookup sid = some session) (frame moment)
    (attached : ∀ token, frame = .join token -> server.Admits session token ->
      session.toClient.settle.attached = true)
    (limit : strict = true -> ∀ token, frame = .join token -> ¬ server.RevivesAtLimit session token) :
    Performs strict (idle, server) idle (server.dispatch sid frame moment) := by
  cases frame with
  | join token =>
    exact roster.performs_handleJoin found token moment.now (attached token rfl)
      (fun isStrict => limit isStrict token rfl)
  | offer sdp => exact roster.performs_handleOffer strict found sdp moment.now
  | answer sdp => exact roster.performs_handleAnswer strict found sdp moment.order moment.now
  | ice candidate => exact roster.performs_handleIce strict found candidate moment.now
  | bye => exact .ok (roster.moves_close idle sid _ moment.now)

theorem Roster.performs_handlePacket (roster : Roster server) (strict buffer source moment) :
    Performs strict (idle, server) idle (server.handlePacket buffer source moment) := by
  unfold handlePacket
  split
  · exact .ok .refl
  next =>
    simp only
    split
    · exact .ok .refl
    next sid claimed =>
      -- The session was found by its own test, so it is there and has an `Rtc`.
      have accepts := find?_some claimed
      rw [Option.any_eq_true] at accepts
      rcases accepts with ⟨session, found, accepting⟩
      rw [Option.any_eq_true] at accepting
      rcases accepting with ⟨_, hasRtc, _⟩
      simp only [found, hasRtc, expect, bind, Except.bind, pure, Except.pure]
      split
      · exact .ok (roster.moves_close idle sid none moment.now)
      next changed _ =>
        exact .ok (moves_store found (.media idle changed session.nextTimeout (isSome_of_eq_some hasRtc)))

theorem Roster.moves_timeoutSession (roster : Roster server) (strict now sid) :
    Moves strict (idle, server) (idle, timeoutSession now server sid) := by
  unfold timeoutSession
  split
  · exact .refl
  next session found =>
    split
    · exact .refl
    next rtc hasRtc =>
      have had := isSome_of_eq_some hasRtc
      simp only
      split
      · exact moves_store found (.media idle _ none had)
      · have stored : Moves strict (idle, server) (idle, server.setSession sid { session with
              nextTimeout := none
              rtc := some (C.handleInput rtc (.timeout now)).1 }) :=
          .single (.update found (.media idle _ none had) (updates_setSession server sid _))
        exact stored.trans ((Moves.roster stored roster).moves_close idle sid none now)

theorem reshelves_reap (server : Server C) (now : Instant) : Reshelves server { server with
      calls := server.calls.retain (fun _ call => !reapable server.cfg now call) } := by
  refine ⟨?_, rfl, rfl, rfl, rfl, rfl, rfl, rfl, rfl⟩
  intro key
  simp only [lookup_retain]
  cases found : server.calls.lookup key with
  | none => exact .inl rfl
  | some call =>
    by_cases due : reapable server.cfg now call = true
    · right
      refine ⟨?_, ?_⟩
      · intro stored same
        cases same
        have dead : call.isLive = false := by
          rw [reapable, Bool.and_eq_true, Bool.not_eq_true'] at due
          exact due.1
        by_contra inhabited
        rw [Call.isLive_iff.mpr inhabited] at dead
        cases dead
      · intro stored kept
        rw [filter_some, due] at kept
        cases kept
    · left
      rw [filter_some]
      rw [Bool.not_eq_true] at due
      rw [due]
      rfl

section

variable (roster : Roster server)
include roster

theorem Roster.performs_handleTime (strict) (moment : Moment) :
    Performs strict (idle, server) idle (server.handleTime moment) := by
  have timed := moves_foldl (fun here sid => here.moves_timeoutSession strict moment.now sid)
    ((server.sessions.visit moment.order).filter (fun sid =>
      (server.sessions.lookup sid).any (fun session =>
        session.rtc.isSome && session.nextTimeout.any (fun next => next ≤ moment.now))))
    roster
  refine .bind (Performs.after timed
    (performs_drainReady strict moment.now moment.fuel moment.fuel (timed.roster roster))) ?_
  intro drained _ reached
  exact .ok (.single (.reshelve (reshelves_reap drained moment.now)))

theorem Roster.performs_step (input) (attached : ¬ server.JoinsDetached input)
    (limit : strict = true -> ¬ server.RevivesCall input) :
    Performs strict (idle, server) idle (server.step input) := by
  cases input with
  | packet buffer source moment => exact roster.performs_handlePacket strict buffer source moment
  | tick moment => exact roster.performs_handleTime strict moment
  | command command moment =>
    cases command with
    | registerSlots =>
      exact .ok (.single (.quiet ⟨rfl, rfl, rfl, rfl, rfl, rfl, rfl, fun _ member => Or.inl member⟩))
    | dropOwner owner => exact .ok (roster.dropOwner strict owner moment.order moment.now).1
    | openSession owner client waiting => exact .ok (.single (.connect owner client waiting))
    | sessionClosed sid => exact .ok (roster.moves_close idle sid none moment.now)
    | overview => exact .ok .refl
    | sessionFrame sid frame =>
      change Performs strict _ _ (server.handleFrame sid frame moment)
      cases found : server.sessions.lookup sid with
      | none =>
        rw [handleFrame_of_absent found]
        exact .ok .refl
      | some session =>
        rw [handleFrame_eq found]
        refine .bind (roster.performs_dispatch found frame moment ?_ ?_) ?_
        · rintro token rfl admits
          cases gone : session.toClient.settle.attached with
          | true => rfl
          | false => exact (attached ⟨sid, token, moment, session, rfl, found, admits, gone⟩).elim
        · rintro isStrict token rfl revives
          exact limit isStrict ⟨sid, token, moment, session, rfl, found, revives⟩
        · intro handled _ reached
          exact performs_drainReady strict moment.now moment.fuel moment.fuel (reached.roster roster)

theorem Roster.step_panics_iff (input) : server.step input = .error .panic ↔ server.JoinsDetached input := by
  constructor
  · intro panics
    by_contra attached
    have performs : Performs false (idle, server) idle (server.step input) :=
      roster.performs_step input attached (fun never => by cases never)
    exact performs.calm panics
  · rintro ⟨sid, token, moment, _, rfl, found, admits, gone⟩
    have joined : server.handleJoin sid token moment.now = .error .panic :=
      (roster.handleJoin_panics_iff found token moment.now).mpr ⟨admits, gone⟩
    change server.handleFrame sid (.join token) moment = _
    rw [handleFrame_eq found]
    change server.handleJoin sid token moment.now >>= _ = _
    rw [joined]
    rfl

theorem Roster.moves_step {final input}
    (limit : strict = true -> ¬ server.RevivesCall input) (stepped : server.step input = .ok final) :
    Moves strict (idle, server) (idle, final) := by
  have attached : ¬ server.JoinsDetached input := by
    intro gone
    rw [(roster.step_panics_iff input).mpr gone] at stepped
    cases stepped
  exact (roster.performs_step input attached limit).moves final stepped

end

theorem Roster.of_reaches {cfg destAddr candidateStrings idSeed}
    (reaches : Reaches step (Server.new C cfg destAddr candidateStrings idSeed) server) :
    Roster server := by
  refine reaches.invariant ?_ (new C cfg destAddr candidateStrings idSeed)
  intro state input next roster stepped
  have moved : Moves false (idle, state) (idle, next) :=
    roster.moves_step (fun never => by cases never) stepped
  exact moved.roster roster

theorem reachable_of_moves (invariant : Mark × Server C -> Prop)
    (kept : ∀ before after, Move false before after -> Roster before.2 -> invariant before ->
      invariant after) {cfg destAddr candidateStrings idSeed}
    (initial : invariant (idle, new C cfg destAddr candidateStrings idSeed))
    (reaches : Reaches step (new C cfg destAddr candidateStrings idSeed) server) :
    invariant (idle, server) := by
  let both : Mark × Server C -> Prop := fun point => Roster point.2 ∧ invariant point
  have steps : ∀ before after, Move false before after -> both before -> both after :=
    fun before after move holds =>
      ⟨move.roster holds.1, kept before after move holds.1 holds.2⟩
  have preserved : ∀ state input next, both (idle, state) -> step state input = .ok next -> both (idle, next) := by
    intro state input next holds stepped
    have moved : Moves false (idle, state) (idle, next) :=
      holds.1.moves_step (fun never => by cases never) stepped
    exact Moves.keeps steps moved holds
  have start : both (idle, new C cfg destAddr candidateStrings idSeed) :=
    ⟨Roster.new C cfg destAddr candidateStrings idSeed, initial⟩
  exact (reaches.invariant preserved start).2

/-- Every run of the event loop is a run of the moves. -/
theorem loop_refines_moves (cfg destAddr candidateStrings idSeed) (inputs : List LoopInput) :
    Ensures (run step (new C cfg destAddr candidateStrings idSeed) inputs) (fun server =>
      Moves false (idle, new C cfg destAddr candidateStrings idSeed) (idle, server)) := by
  intro server reached
  refine reachable_of_moves (Moves false _) ?_ .refl ⟨inputs, reached⟩
  intro before after move _ moves
  exact moves.tail move

def participantsOf (server : Server C) (key : CallKey) : List Sid :=
  ((server.calls.lookup key).map Call.participants).getD []

theorem Roster.mem_participantsOf (roster : Roster server) (sid key) :
    sid ∈ server.participantsOf key ↔ server.keyOf sid = some key := by
  cases inCall : server.calls.lookup key with
  | some =>
    simp only [participantsOf, inCall, map_some, getD_some]
    exact roster.listed inCall sid
  | none =>
    simp only [participantsOf, inCall, map_none, getD_none, not_mem_nil, false_iff]
    intro keyed
    rcases roster.seated keyed with ⟨_, present⟩
    rw [inCall] at present
    cases present

/-! ## A concrete setting -/

/-- A stack on which every operation succeeds.  The hash reverses its input and
fills it up, which keeps short inputs apart. -/
def quietCrates : Crates where
  Rtc := Unit
  SdpApi := Unit
  SdpOffer := Unit
  SdpAnswer := Unit
  SdpPendingOffer := Unit
  Candidate := Unit
  Contents := Unit
  RtpPacket := Unit
  blake2b256 := fun bytes => ⟨(bytes.reverse ++ List.replicate 32 0).take 32, by
    rw [length_take, length_append, length_replicate]
    omega⟩
  build := fun _ => ()
  addLocalCandidate := fun _ _ => ()
  parseDatagram := fun _ => none
  accepts := fun _ _ => false
  handleInput := fun _ _ => ((), true)
  pollOutput := fun _ => ((), some (.timeout 1000))
  isAlive := fun _ => true
  parseOffer := fun _ => some ()
  acceptOffer := fun _ _ => ((), some "answer")
  opusPt := fun _ => some 111
  parseAnswer := fun _ => some ()
  acceptAnswer := fun _ _ _ => ((), true)
  parseCandidate := fun _ => none
  addRemoteCandidate := fun _ _ => ()
  sdpApi := fun _ => ()
  addMedia := fun _ => ((), "0")
  apply := fun _ => ((), some ("offer", ()))
  streamTxByMid := fun _ _ => none
  declareStreamTx := fun _ _ _ => ()
  streamTx := fun _ _ => true
  writeRtp := fun _ _ _ _ _ => ()

def smallRelay : Server quietCrates := Server.new quietCrates ⟨12, 1, 60⟩ "127.0.0.1:40000" ["candidate"] 0

abbrev relayAfter (inputs : List LoopInput) : Server quietCrates := finalState step smallRelay inputs

def turns (commands : List Command) : List LoopInput :=
  commands.flatMap (fun command => [.command command ⟨0, [], 8⟩, .tick ⟨0, [], 8⟩])

def roomToken : Bytes := List.replicate 32 7

def roomOwner : Bytes32 := Bytes32.fill 1

def roomKey : CallKey := (roomOwner, quietCrates.blake2b256 roomToken)

def registerRoom : Command := .registerSlots roomOwner [⟨roomKey.2.val, none⟩]

/-! ## The loop's guarantees -/

/-- A run of the event loop panics exactly when it comes to an admitted join whose
client is gone. -/
theorem eventLoop_panics_iff (C : Crates) (cfg : VoiceServerCfg) (destAddr : SocketAddr)
    (candidateStrings : List String) (idSeed : Nat) (inputs : List LoopInput) :
    run step (Server.new C cfg destAddr candidateStrings idSeed) inputs = .error .panic ↔
      ∃ before input after server, inputs = before ++ input :: after ∧
        run step (Server.new C cfg destAddr candidateStrings idSeed) before = .ok server ∧
        server.JoinsDetached input := by
  rw [run_error_iff]
  constructor
  · rintro ⟨before, input, after, server, split, reached, panics⟩
    have roster : Roster server := .of_reaches ⟨before, reached⟩
    exact ⟨before, input, after, server, split, reached, (roster.step_panics_iff input).mp panics⟩
  · rintro ⟨before, input, after, server, split, reached, detached⟩
    have roster : Roster server := .of_reaches ⟨before, reached⟩
    exact ⟨before, input, after, server, split, reached, (roster.step_panics_iff input).mpr detached⟩

/-- The client connects, asks to join and drops its receiver before the loop
has sent the acknowledgement. -/
theorem eventLoop_panics_on_detached_join :
    run step smallRelay (turns [registerRoom, .openSession roomOwner [⟨0, true⟩] true,
      .sessionFrame 1 (.join roomToken)]) = .error .panic := rfl

/-- The roster invariant in every state that the loop reaches, and the effect of
dropping an owner there. -/
theorem reachable_roster {cfg : VoiceServerCfg} {destAddr : SocketAddr}
    {candidateStrings : List String} {idSeed : Nat} {server : Server C}
    (reaches : Reaches step (Server.new C cfg destAddr candidateStrings idSeed) server) :
    (∀ sid key, sid ∈ server.participantsOf key ↔
      ∃ session, server.sessions.lookup sid = some session ∧ session.callKey = some key) ∧
    (∀ key call, server.calls.lookup key = some call -> call.participants.Nodup ∧
      call.participants.length ≤ call.cap ∧
        (call.emptySince = none ↔ call.participants ≠ [])) ∧
    (∀ sid session key, server.sessions.lookup sid = some session ->
      session.callKey = some key -> key.1 = session.owner) ∧
    (∀ owner moment, ∃ dropped, server.step (.command (.dropOwner owner) moment) = .ok dropped ∧
        DropsOwner server dropped owner) := by
  have roster : Roster server := .of_reaches reaches
  refine ⟨?_, ?_, ?_, ?_⟩
  · intro sid key
    rw [roster.mem_participantsOf, keyOf_eq_some]
  · intro key call inCall
    have sound := roster.callSound inCall
    exact ⟨sound.nodup, sound.withinCap, sound.clock⟩
  · intro sid session key found joined
    exact (roster.sessionSound found).owned key joined
  · intro owner moment
    exact ⟨_, rfl, (roster.dropOwner false owner moment.order moment.now).2⟩

def twoMembers : List LoopInput :=
  turns [registerRoom, .openSession roomOwner [] true, .sessionFrame 1 (.join roomToken),
    .openSession roomOwner [] true, .sessionFrame 2 (.join roomToken),
    .sessionFrame 2 (.offer "offer")]

theorem reachable_roster_two_members : (run step smallRelay twoMembers).toBool = true ∧
      (relayAfter twoMembers).participantsOf roomKey = [1, 2] ∧
      ∀ sid, sid ∈ (relayAfter twoMembers).participantsOf roomKey ↔
        ∃ session, (relayAfter twoMembers).sessions.lookup sid = some session ∧
          session.callKey = some roomKey :=
  ⟨rfl, rfl, fun sid => (reachable_roster (Reaches.finalState rfl)).1 sid roomKey⟩

end Server

end Starling.Voice
