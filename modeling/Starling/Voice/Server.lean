import Starling.Voice.Session

namespace Starling.Voice

/-!
# The event loop of the voice server

`server.rs`, function by function.  One task owns all state, so every handler is
a function from the server to the next server.  Three things are made explicit:

* A failing map index or `expect` is the result `Stop.panic`.  The release
  profile aborts on a panic, so no state exists after one.
* The loops that drain an `Rtc` run until `str0m` says so.  They take fuel, and
  `Stop.outOfFuel` means that the handler has not returned yet.
* Iteration over a hash map follows an order supplied by the caller.

Three fields record history that the source only sends out or discards: the
channels of closed sessions, the forwarded packets, and at each departure the call
that was left and the sessions before it.  No handler reads them.
-/

inductive Stop where
  | panic
  | outOfFuel

/-- `Option::expect` and a map index: the value, or a panic. -/
def expect {α : Type} : Option α -> Except Stop α
  | some value => .ok value
  | none => .error .panic

structure VoiceServerCfg where
  maxParticipants : Nat
  maxConcurrentCalls : Nat
  idleReap : Nat

/-- One packet written into a session, with the calls of both ends. -/
structure Written where
  source : Sid
  target : Sid
  sourceKey : CallKey
  targetKey : Option CallKey

structure Server (C : Crates) where
  cfg : VoiceServerCfg
  destAddr : SocketAddr
  candidateStrings : List String
  registry : SlotRegistry
  sessions : Table Sid (Session C)
  calls : Table CallKey Call
  dirty : List Sid
  nextSid : Sid
  idSeed : Nat
  idCounter : Nat
  closed : List (Sid × Channel ServerFrame)
  written : List Written
  departures : List (Option CallKey × Table Sid (Session C))

namespace Server

variable {C : Crates}

def new (C : Crates) (cfg : VoiceServerCfg) (destAddr : SocketAddr)
    (candidateStrings : List String) (idSeed : Nat) : Server C where
  cfg := cfg
  destAddr := destAddr
  candidateStrings := candidateStrings
  registry := ∅
  sessions := ∅
  calls := ∅
  dirty := []
  nextSid := 1
  idSeed := idSeed
  idCounter := 0
  closed := []
  written := []
  departures := []

section

variable (server : Server C)

section

variable (sid : Sid)

/-- Write a session back after a change through `get_mut`. -/
def setSession (session : Session C) : Server C :=
  { server with sessions := server.sessions.insert sid session }

/-- `self.dirty.push_back(sid)`. -/
def markDirty : Server C :=
  { server with dirty := server.dirty ++ [sid] }

/-- `self.calls.values().filter(|c| c.is_live()).count()`. -/
def liveCalls : Nat := Table.count server.calls Call.isLive

def peers (participants : List Sid) (sid : Sid) : List (Sid × String) :=
  (participants.filter (fun member => member ≠ sid)).filterMap
    (fun member => (server.sessions.lookup member).map (fun session => (member, session.sfuId)))

/-- Hash the process seed and a fresh counter; the first eight bytes name the
new participant. -/
def sfuIdOf (C : Crates) (seed counter : Nat) : String :=
  hexEncode ((C.blake2b256 (toBeBytes seed ++ toBeBytes counter)).val.take 8)

/-- Tell one remaining participant that `sid` has left.  The answer of the send
is ignored, which is all that happens to a frame refused by a full channel. -/
def peerLeft (member sid : Sid) (sfuId : String) : Server C :=
  match server.sessions.lookup member with
  | none => server
  | some session => server.setSession member (session.forget sid sfuId)

/-- The channel of a session that is being closed, with its optional last frame. -/
def lastFrame (channel : Channel ServerFrame) : Option ServerFrame -> Channel ServerFrame
  | none => channel
  | some frame => (channel.trySend frame).1

def removeSession (session : Session C) (finalFrame : Option ServerFrame) : Server C :=
  { server with
    sessions := server.sessions.erase sid
    closed := (sid, lastFrame session.toClient finalFrame) :: server.closed
    departures := (session.callKey, server.sessions) :: server.departures }

/-- Remove a session: optional final frame, roster removal, `PeerLeft` to the
others. -/
def closeSession (finalFrame : Option ServerFrame) (now : Instant) : Server C :=
  match server.sessions.lookup sid with
  | none => server
  | some session =>
    let removed := server.removeSession sid session finalFrame
    match session.callKey with
    | none => removed
    | some key =>
      match removed.calls.lookup key with
      | none => removed
      | some call =>
        (call.remove sid now).participants.foldl (fun server member => server.peerLeft member sid session.sfuId)
          { removed with calls := removed.calls.insert key (call.remove sid now) }

def fail (code message : String) (now : Instant) : Server C := server.closeSession sid (some (.error code message)) now

def send (frame : ServerFrame) (now : Instant) : Server C :=
  match server.sessions.lookup sid with
  | none => server
  | some session =>
    let delivered := server.setSession sid { session with toClient := (session.toClient.trySend frame).1 }
    if (session.toClient.trySend frame).2 = .sent then delivered
    else delivered.closeSession sid none now

end

/-- Close every session of the owner, in the given order, and forget its slots
and calls. -/
def dropOwner (owner : Bytes32) (order : List Sid) (now : Instant) : Server C :=
  let sids := (server.sessions.visit order).filter (fun sid =>
    (server.sessions.lookup sid).any (fun session => session.owner = owner))
  let ended := sids.foldl (fun server sid => server.closeSession sid (some .bye) now)
    { server with registry := SlotRegistry.dropOwner server.registry owner }
  { ended with calls := ended.calls.retain (fun key _ => key.1 ≠ owner) }

/-! ## Negotiation -/

def addMedias (api : C.SdpApi) : List (Sid × String) -> C.SdpApi × List AddedMedia
  | [] => (api, [])
  | (source, sfuId) :: rest =>
    let first := C.addMedia api
    let others := addMedias first.1 rest
    (others.1, ⟨source, sfuId, first.2⟩ :: others.2)

section

variable (sid : Sid)

/-- The re-offer of a negotiable session: record the pending offer and the new
slots, then send the offer and name every added participant. -/
def reoffer (session : Session C) (rtc : C.Rtc)
    (offer : String) (pending : C.SdpPendingOffer) (added : List AddedMedia) (now : Instant) :
    Server C :=
  let waiting : Session C := { session with rtc := some rtc, pendingOffer := some pending }
  let opened := added.foldl Session.openSlot waiting
  let offered := ((server.setSession sid opened).markDirty sid).send sid (.offer offer) now
  added.foldl (fun server media => server.send sid (.peerJoined media.sfuId media.mid) now) offered

/-- Issue the next re-offer for `sid` if it is negotiable and has queued sources.
Sources that have left, or have a slot already, are dropped from the queue. -/
def maybeNegotiate (now : Instant) : Except Stop (Server C) :=
  match server.sessions.lookup sid with
  | none => .ok server
  | some session =>
    if session.state ≠ .steady ∨ session.pendingOffer.isSome = true ∨
        session.queuedSources = [] then .ok server
    else
      let participants := ((session.callKey.bind (server.calls.lookup ·)).map Call.participants).getD []
      do
        let session <- expect (server.sessions.lookup sid)
        let queued := session.queuedSources.filter (fun source =>
          decide (source.1 ∈ participants) && decide (source.1 ∉ session.txSlots))
        let drained : Session C := { session with queuedSources := [] }
        if queued = [] then pure (server.setSession sid drained)
        else
          let rtc <- expect session.rtc
          let medias := addMedias (C.sdpApi rtc) queued
          match C.apply medias.1 with
          | (changed, none) => pure (server.setSession sid { drained with rtc := some changed })
          | (changed, some (offer, pending)) =>
            pure (server.reoffer sid drained changed offer pending medias.2 now)

/-! ## Signaling frames -/

/-- Find the call of a slot or create it.  The limit on concurrent calls is only
looked at when a call is created. -/
def openCall (key : CallKey) (slot : SlotInfo) (now : Instant) : Option (Server C) :=
  if key ∈ server.calls then some server
  else if server.cfg.maxConcurrentCalls ≤ server.liveCalls then none
  else some { server with
    calls := server.calls.insert key (Call.new (slot.cap server.cfg.maxParticipants) now) }

/-- The server right after an admission: the id is minted, the roster has the
newcomer and its session waits for the client's offer. -/
def admitted (key : CallKey) (session : Session C) (call : Call) (now : Instant) : Server C :=
  let sfuId := sfuIdOf C server.idSeed (server.idCounter + 1)
  let joined : Session C :=
    { session with
      rtc := some (server.candidateStrings.foldl C.addLocalCandidate (C.build now))
      state := .awaitingOffer
      sfuId := sfuId
      callKey := some key }
  { server with
    idCounter := server.idCounter + 1
    calls := server.calls.insert key (call.join sid)
    sessions := server.sessions.insert sid joined
    dirty := server.dirty ++ [sid] }

def announce (sfuId : String) (now : Instant) (server : Server C) (existing : Sid × String) : Except Stop (Server C) :=
  let queued :=
    match server.sessions.lookup existing.1 with
    | none => server
    | some session => server.setSession existing.1
        { session with queuedSources := session.queuedSources ++ [(sid, sfuId)] }
  queued.maybeNegotiate existing.1 now

def enterCall (key : CallKey) (now : Instant) : Except Stop (Server C) := do
  let call <- expect (server.calls.lookup key)
  let existing := server.peers (call.join sid).participants sid
  let session <- expect (server.sessions.lookup sid)
  let welcomed := server.admitted sid key session call now
  let acknowledged := welcomed.send sid
    (.joinAck (sfuIdOf C server.idSeed (server.idCounter + 1)) server.candidateStrings call.cap
      (existing.map Prod.snd)) now
  -- `self.sessions[&sid]`, after a send that may have closed this very session.
  let newcomer <- expect (acknowledged.sessions.lookup sid)
  existing.foldlM (announce sid newcomer.sfuId now) acknowledged

def joinCall (key : CallKey) (now : Instant) : Except Stop (Server C) := do
  let call <- expect (server.calls.lookup key)
  if call.cap ≤ call.participants.length then
    let session <- expect (server.sessions.lookup sid)
    let told := server.setSession sid
      { session with toClient := (session.toClient.trySend .full).1 }
    pure (told.closeSession sid none now)
  else server.enterCall sid key now

def handleJoin (token : Bytes) (now : Instant) : Except Stop (Server C) := do
  let session <- expect (server.sessions.lookup sid)
  if session.state ≠ .awaitingJoin then
    pure (server.fail sid errProtocol "join out of order" now)
  else if token.length ≠ 32 then
    pure (server.fail sid errBadToken "token must be 32 bytes" now)
  else
    let session <- expect (server.sessions.lookup sid)
    let key : CallKey := (session.owner, C.blake2b256 token)
    match server.registry.lookup key with
    | none => pure (server.fail sid errBadToken "unknown room token" now)
    | some slot =>
      match server.openCall key slot now with
      | none => pure (server.fail sid errBusy "relay is at max concurrent calls" now)
      | some opened => opened.joinCall sid key now

def queueOthers (key : CallKey) (now : Instant) : Except Stop (Server C) :=
  let others := ((server.calls.lookup key).map (fun call => server.peers call.participants sid)).getD []
  let queued :=
    match server.sessions.lookup sid with
    | none => server
    | some session => server.setSession sid { session with queuedSources := others }
  queued.maybeNegotiate sid now

def handleOffer (sdp : String) (now : Instant) : Except Stop (Server C) := do
  let session <- expect (server.sessions.lookup sid)
  if session.state ≠ .awaitingOffer then
    pure (server.fail sid errProtocol "unexpected offer (client offers exactly once)" now)
  else
    match C.parseOffer sdp with
    | none => pure (server.fail sid errProtocol "unparseable SDP offer" now)
    | some offer =>
      let rtc <- expect session.rtc
      match C.acceptOffer rtc offer with
      | (_, none) => pure (server.fail sid errProtocol "offer rejected" now)
      | (changed, some answer) =>
        let key <- expect session.callKey
        let steady : Session C :=
          { session with
            rtc := some changed
            opusPt := C.opusPt changed
            state := .steady }
        let answered := ((server.setSession sid steady).markDirty sid).send sid (.answer answer) now
        answered.queueOthers sid key now

/-- Adopt the stream of every undeclared slot, or declare one. -/
def declareSlots (order : List Sid) (rtc : C.Rtc) (slots : Table Sid TxSlot) : C.Rtc × Table Sid TxSlot :=
  (slots.visit order).foldl (fun state source =>
    match state.2.lookup source with
    | none => state
    | some slot =>
      if slot.declared then state
      else
        match C.streamTxByMid state.1 slot.mid with
        | some ssrc => (state.1, state.2.insert source ⟨slot.mid, ssrc, true⟩)
        | none => (C.declareStreamTx state.1 slot.ssrc slot.mid,
            state.2.insert source ⟨slot.mid, slot.ssrc, true⟩)) (rtc, slots)

def handleAnswer (sdp : String) (order : List Sid) (now : Instant) : Except Stop (Server C) := do
  let session <- expect (server.sessions.lookup sid)
  if session.state ≠ .steady ∨ session.pendingOffer.isNone = true then
    pure (server.fail sid errProtocol "answer without pending offer" now)
  else
    match C.parseAnswer sdp with
    | none => pure (server.fail sid errProtocol "unparseable SDP answer" now)
    | some answer =>
      let pending <- expect session.pendingOffer
      let rtc <- expect session.rtc
      match C.acceptAnswer rtc pending answer with
      | (_, false) => pure (server.fail sid errInternal "answer rejected" now)
      | (changed, true) =>
        let declared := declareSlots order changed session.txSlots
        let answered : Session C :=
          { session with
            pendingOffer := none
            rtc := some declared.1
            txSlots := declared.2 }
        ((server.setSession sid answered).markDirty sid).maybeNegotiate sid now

def handleIce (candidate : String) (now : Instant) : Except Stop (Server C) := do
  let session <- expect (server.sessions.lookup sid)
  match session.rtc with
  | none => pure (server.fail sid errProtocol "ice before join" now)
  | some rtc =>
    match C.parseCandidate candidate with
    | some parsed =>
      pure ((server.setSession sid
        { session with rtc := some (C.addRemoteCandidate rtc parsed) }).markDirty sid)
    | none => pure server

/-- Poll an `Rtc` until it reports a timeout or fails.  The result has the last
timeout, the received packets in order and whether the session has to close. -/
def pollLoop (rtc : C.Rtc) (packets : List C.RtpPacket) (close : Bool) :
    Nat -> Except Stop (C.Rtc × Option Instant × List C.RtpPacket × Bool)
  | 0 => .error .outOfFuel
  | fuel + 1 =>
    match C.pollOutput rtc with
    | (changed, none) => .ok (changed, none, packets, true)
    | (changed, some (.timeout next)) => .ok (changed, some next, packets, close)
    | (changed, some .transmit) => pollLoop changed packets close fuel
    | (changed, some (.rtpPacket packet)) => pollLoop changed (packets ++ [packet]) close fuel
    | (changed, some .disconnected) => pollLoop changed packets true fuel
    | (changed, some .otherEvent) => pollLoop changed packets close fuel

def forwardTo (source : Sid) (key : CallKey) (packet : C.RtpPacket) (now : Instant)
    (server : Server C) (target : Sid) : Server C :=
  match server.sessions.lookup target with
  | none => server
  | some session =>
    match session.txSlots.lookup source, session.opusPt, session.rtc with
    | some slot, some pt, some rtc =>
      if slot.declared = true ∧ C.streamTx rtc slot.ssrc = true then
        let fed := (server.setSession target
          { session with rtc := some (C.writeRtp rtc slot.ssrc pt packet now) }).markDirty target
        { fed with written := ⟨source, target, key, session.callKey⟩ :: fed.written }
      else server
    | _, _, _ => server

def forwardRtp (source : Sid) (now : Instant) (server : Server C) (packet : C.RtpPacket) : Server C :=
  match server.sessions.lookup source with
  | none => server
  | some session =>
    match session.callKey with
    | none => server
    | some key =>
      match server.calls.lookup key with
      | none => server
      | some call =>
        (call.participants.filter (fun target => target ≠ source)).foldl (forwardTo source key packet now) server

def drainSession (now : Instant) (fuel : Nat) : Except Stop (Server C) :=
  match server.sessions.lookup sid with
  | none => .ok server
  | some session =>
    match session.rtc with
    | none => .ok server
    | some rtc =>
      -- Written packets are released only when time moves forward.
      let nudged := C.handleInput rtc (.timeout now)
      do
        let (polled, next, packets, failed) <- pollLoop nudged.1 [] (!nudged.2) fuel
        let stored := server.setSession sid
          { session with
            rtc := some polled
            nextTimeout := next.orElse (fun _ => session.nextTimeout) }
        let forwarded := packets.foldl (forwardRtp sid now) stored
        if failed = true ∨ C.isAlive polled = false then
          pure (forwarded.closeSession sid none now)
        else pure forwarded

end

end

/-- Drain every dirty session until none is left.  Forwarding a packet makes its
target dirty in turn. -/
def drainReady (now : Instant) (pollFuel : Nat) : Nat -> Server C -> Except Stop (Server C)
  | 0, server => if server.dirty = [] then .ok server else .error .outOfFuel
  | fuel + 1, server =>
    match server.dirty with
    | [] => .ok server
    | sid :: rest => do
        let drained <- drainSession { server with dirty := rest } sid now pollFuel
        drainReady now pollFuel fuel drained

/-- What one turn of the loop reads from its surroundings: the clock, the order
in which hash maps iterate, and a bound on the drain loops. -/
structure Moment where
  now : Instant
  order : List Sid
  fuel : Nat

section

variable (server : Server C)

/-- The frame of a session that exists, before the work list is drained. -/
def dispatch (sid : Sid) (frame : ClientFrame) (moment : Moment) : Except Stop (Server C) :=
  match frame with
  | .join token => server.handleJoin sid token moment.now
  | .offer sdp => server.handleOffer sid sdp moment.now
  | .answer sdp => server.handleAnswer sid sdp moment.order moment.now
  | .ice candidate => server.handleIce sid candidate moment.now
  | .bye => .ok (server.closeSession sid (some .bye) moment.now)

def handleFrame (sid : Sid) (frame : ClientFrame) (moment : Moment) : Except Stop (Server C) :=
  if sid ∈ server.sessions then server.dispatch sid frame moment >>= drainReady moment.now moment.fuel moment.fuel
  else .ok server

/-- The commands of the loop.  Opening a session fixes what its client will do
with the channel, and whether the caller still waits for the reply. -/
inductive Command where
  | registerSlots (owner : Bytes32) (slots : List VoiceSlotEntry)
  | dropOwner (owner : Bytes32)
  | openSession (owner : Bytes32) (client : List Pause) (waiting : Bool)
  | sessionFrame (sid : Sid) (frame : ClientFrame)
  | sessionClosed (sid : Sid)
  | overview

/-- `mpsc::channel(64)`. -/
def clientCapacity : Nat := 64

def openSession (owner : Bytes32) (client : List Pause) (waiting : Bool) : Server C :=
  let opened := ({ server with nextSid := server.nextSid + 1 }).setSession server.nextSid
    (Session.new owner (Channel.fresh clientCapacity client))
  if waiting then opened
  else { opened with sessions := opened.sessions.erase server.nextSid }

/-- The reply to `Overview`: live calls for each owner. -/
def overview (owner : Bytes32) : Nat :=
  (server.calls.entries.filter (fun entry =>
    decide (entry.1.1 = owner) && entry.2.isLive)).length

def handleCommand (command : Command) (moment : Moment) : Except Stop (Server C) :=
  match command with
  | .registerSlots owner slots =>
    .ok { server with registry := SlotRegistry.replaceSet server.registry owner slots }
  | .dropOwner owner => .ok (server.dropOwner owner moment.order moment.now)
  | .openSession owner client waiting => .ok (server.openSession owner client waiting)
  | .sessionFrame sid frame => server.handleFrame sid frame moment
  | .sessionClosed sid => .ok (server.closeSession sid none moment.now)
  | .overview => .ok server

def handlePacket (buffer : Bytes) (source : SocketAddr) (moment : Moment) : Except Stop (Server C) :=
  match C.parseDatagram buffer with
  | none => .ok server
  | some contents =>
    let input := RtcInput.receive moment.now source server.destAddr contents
    match (server.sessions.visit moment.order).find? (fun sid =>
        (server.sessions.lookup sid).any (fun session =>
          session.rtc.any (fun rtc => C.accepts rtc input))) with
    | none => .ok server
    | some sid => do
        let session <- expect (server.sessions.lookup sid)
        let rtc <- expect session.rtc
        match C.handleInput rtc input with
        | (_, false) => pure (server.closeSession sid none moment.now)
        | (changed, true) =>
          pure ((server.setSession sid { session with rtc := some changed }).markDirty sid)

def timeoutSession (now : Instant) (server : Server C) (sid : Sid) : Server C :=
  match server.sessions.lookup sid with
  | none => server
  | some session =>
    match session.rtc with
    | none => server
    | some rtc =>
      match C.handleInput rtc (.timeout now) with
      | (changed, ok) =>
        let told := server.setSession sid
          { session with nextTimeout := none, rtc := some changed }
        if ok then told.markDirty sid else told.closeSession sid none now

/-- An empty call is reaped once it has been empty for `idle_reap`. -/
def reapable (cfg : VoiceServerCfg) (now : Instant) (call : Call) : Bool :=
  !call.isLive && call.emptySince.any (fun since => cfg.idleReap ≤ now - since)

def handleTime (moment : Moment) : Except Stop (Server C) := do
  let due := (server.sessions.visit moment.order).filter (fun sid =>
    (server.sessions.lookup sid).any (fun session =>
      session.rtc.isSome && session.nextTimeout.any (fun next => next ≤ moment.now)))
  let timed := due.foldl (timeoutSession moment.now) server
  let drained <- drainReady moment.now moment.fuel moment.fuel timed
  pure { drained with
    calls := drained.calls.retain (fun _ call => !reapable drained.cfg moment.now call) }

/-- One turn of the loop: a command, a datagram or a tick of the timer. -/
inductive LoopInput where
  | command (command : Command) (moment : Moment)
  | packet (buffer : Bytes) (source : SocketAddr) (moment : Moment)
  | tick (moment : Moment)

def step : LoopInput -> Except Stop (Server C)
  | .command command moment => server.handleCommand command moment
  | .packet buffer source moment => server.handlePacket buffer source moment
  | .tick moment => server.handleTime moment

end

end Server

end Starling.Voice
