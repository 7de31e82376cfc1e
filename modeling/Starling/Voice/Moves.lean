import Mathlib.Logic.Relation
import Starling.Voice.Departure

namespace Starling.Voice

open List Option Table

/-!
# The moves of the voice server

An abstract account of what the handlers do.  A handler is a sequence of moves,
and each move says which session it concerns, what it changes there and under
which guard.  An invariant then has to be checked against a handful of moves and
not against every path through the handlers.

Some invariants are broken for a moment inside a handler: a newcomer is on the
roster before the others have queued it.  A `Mark` travels with the server and
says where, so that the invariants can be stated at every point of a handler.
-/

variable {C : Crates}

/-- The unfinished business of a handler: participants that have not queued the
newcomer yet, and a session whose queue waits to be negotiated. -/
structure Mark where
  newcomer : Sid
  unqueued : List Sid
  busy : Option Sid

def Mark.idle : Mark where
  newcomer := 0
  unqueued := []
  busy := none

def ServerFrame.announced : ServerFrame -> List String
  | .joinAck _ _ _ participants => participants
  | .peerJoined sfuId _ => [sfuId]
  | _ => []

/-- `apply` produces an offer whenever at least one m-line was added. -/
def Crates.ApplyTotal (C : Crates) : Prop :=
  ∀ (rtc : C.Rtc) (queued : List (Sid × String)), queued ≠ [] ->
    (C.apply (Server.addMedias (C.sdpApi rtc) queued).1).2.isSome = true

def Written.Inside (entry : Written) : Prop := entry.targetKey = some entry.sourceKey ∧ entry.target ≠ entry.source

/-- A fresh call without members, as `Call::new` makes it. -/
def Call.Vacant (call : Call) : Prop := call.participants = [] ∧ call.emptySince ≠ none

namespace Server

/-- `other` is a different session of the same call and carries this public id. -/
def Peer (server : Server C) (sid : Sid) (session : Session C) (other : Sid) (sfuId : String) :
    Prop :=
  other ≠ sid ∧ ∃ peer, server.sessions.lookup other = some peer ∧ peer.sfuId = sfuId ∧ SameCall session peer

def identity (server : Server C) (sid : Sid) : Option (String × Option CallKey) :=
  (server.sessions.lookup sid).map (fun session => (session.sfuId, session.callKey))

theorem keyOf_eq_identity (server : Server C) (sid : Sid) : server.keyOf sid = (server.identity sid).bind Prod.snd := by
  rw [keyOf, identity, bind_map]
  rfl

variable {server changed left : Server C} {session next gone : Session C} {sid other : Sid} {sfuId : String}
variable {now : Instant}

theorem identity_of_lookup (found : server.sessions.lookup sid = some session) :
    server.identity sid = some (session.sfuId, session.callKey) := by
  rw [identity, found, map_some]

theorem peer_iff : server.Peer sid session other sfuId ↔ other ≠ sid ∧ session.callKey ≠ none ∧
      server.identity other = some (sfuId, session.callKey) := by
  rw [Peer, identity]
  simp only [map_eq_some_iff, Prod.mk.injEq, SameCall]
  constructor
  · rintro ⟨apart, peer, found, named, keyed, same⟩
    exact ⟨apart, keyed, peer, found, named, same⟩
  · rintro ⟨apart, keyed, peer, found, named, same⟩
    exact ⟨apart, peer, found, named, keyed, same⟩

theorem peer_of_identity {key} (joined : session.callKey = some key) (apart : other ≠ sid)
    (named : server.identity other = some (sfuId, some key)) : server.Peer sid session other sfuId := by
  rw [peer_iff, joined]
  exact ⟨apart, some_ne_none key, named⟩

theorem Peer.keyOf (peer : server.Peer sid session other sfuId) : server.keyOf other = session.callKey := by
  rw [keyOf_eq_identity, (peer_iff.mp peer).2.2, bind_some]

theorem afterDeparture_same (sid) (gone session : Session C) :
    (afterDeparture sid gone session).callKey = session.callKey ∧
      (afterDeparture sid gone session).sfuId = session.sfuId ∧
      (afterDeparture sid gone session).owner = session.owner ∧
      (afterDeparture sid gone session).state = session.state := by
  unfold afterDeparture
  split <;> exact ⟨rfl, rfl, rfl, rfl⟩

inductive Change (server : Server C) (sid : Sid) (session : Session C) : Mark -> Session C -> Mark -> Prop where
  | deliver (mark frame) (joined : session.state ≠ .awaitingJoin)
      (named : ∀ sfuId ∈ frame.announced, ∃ other, server.Peer sid session other sfuId) :
      Change server sid session mark
        { session with toClient := (session.toClient.trySend frame).1 } mark
  | media (mark rtc next) (had : session.rtc.isSome = true) :
      Change server sid session mark { session with rtc := some rtc, nextTimeout := next } mark
  | enqueue (newcomer rest sfuId) (peer : server.Peer sid session newcomer sfuId) (once : sid ∉ rest) :
      Change server sid session ⟨newcomer, sid :: rest, none⟩
        { session with queuedSources := session.queuedSources ++ [(newcomer, sfuId)] }
        ⟨newcomer, rest, some sid⟩
  | accept (newcomer : Sid) (rtc : C.Rtc) (opusPt : Option Nat) (answer : String)
      (others : List (Sid × String)) (offering : session.state = .awaitingOffer)
      (complete : ∀ other sfuId, (other, sfuId) ∈ others ↔ server.Peer sid session other sfuId)
      (nodup : (others.map Prod.fst).Nodup) : Change server sid session ⟨newcomer, [], none⟩
        { session with
          rtc := some rtc, opusPt := opusPt, state := .steady, queuedSources := others
          toClient := (session.toClient.trySend (.answer answer)).1 }
        ⟨newcomer, [], some sid⟩
  | answered (newcomer unqueued rtc slots) (steady : session.state = .steady)
      (kept : ∀ source, source ∈ slots ↔ source ∈ session.txSlots) :
      Change server sid session ⟨newcomer, unqueued, none⟩
        { session with pendingOffer := none, rtc := some rtc, txSlots := slots }
        ⟨newcomer, unqueued, some sid⟩
  | drain (newcomer unqueued) (steady : session.state = .steady)
      (useless : C.ApplyTotal -> ∀ source ∈ session.queuedSources, server.keyOf source.1 ≠ session.callKey ∨
        source.1 ∈ session.txSlots) :
      Change server sid session ⟨newcomer, unqueued, some sid⟩
        { session with queuedSources := [] } ⟨newcomer, unqueued, none⟩
  | reoffer (newcomer unqueued rtc pending slots nextSsrc) (steady : session.state = .steady)
      (opened : ∀ source, source ∈ slots ↔ source ∈ session.txSlots ∨
        (source ∈ session.queuedSources.map Prod.fst ∧ server.keyOf source = session.callKey)) :
      Change server sid session ⟨newcomer, unqueued, some sid⟩
        { session with
          queuedSources := [], rtc := some rtc, pendingOffer := some pending
          txSlots := slots, nextSsrc := nextSsrc }
        ⟨newcomer, unqueued, none⟩

structure Updates (server changed : Server C) (sid : Sid) (session : Session C) : Prop where
  sessions : ∀ target, changed.sessions.lookup target =
    if target = sid then some session else server.sessions.lookup target
  calls : changed.calls = server.calls
  departures : changed.departures = server.departures
  registry : changed.registry = server.registry
  cfg : changed.cfg = server.cfg
  nextSid : changed.nextSid = server.nextSid
  idSeed : changed.idSeed = server.idSeed
  idCounter : changed.idCounter = server.idCounter
  written : changed.written = server.written

theorem Change.same {mark marked} (change : Change server sid session mark next marked) :
    next.sfuId = session.sfuId ∧ next.callKey = session.callKey ∧ next.owner = session.owner := by
  cases change <;> exact ⟨rfl, rfl, rfl⟩

theorem Change.queued {mark marked} (change : Change server sid session mark next marked)
    {source} (member : source ∈ next.queuedSources) :
    source ∈ session.queuedSources ∨ server.Peer sid session source.1 source.2 := by
  cases change with
  | enqueue _ _ _ peer =>
    rcases mem_append.mp member with early | last
    · exact .inl early
    · rw [mem_singleton] at last
      exact .inr (last ▸ peer)
  | accept _ _ _ _ _ _ complete =>
    exact .inr ((complete source.1 source.2).mp member)
  | drain | reoffer => cases member
  | _ => exact .inl member

theorem Updates.identity (updates : Updates server changed sid next)
    (found : server.sessions.lookup sid = some session) (sameId : next.sfuId = session.sfuId)
    (sameKey : next.callKey = session.callKey) (target : Sid) :
    changed.identity target = server.identity target := by
  rw [Server.identity, updates.sessions]
  by_cases same : target = sid
  · rw [if_pos same, same, identity_of_lookup found, map_some, sameId, sameKey]
  · rw [if_neg same, Server.identity]

section

variable (leaves : Leaves server left sid gone now)
include leaves

theorem Leaves.identity (target : Sid) :
    left.identity target = if target = sid then none else server.identity target := by
  rw [Server.identity, leaves.sessions]
  by_cases same : target = sid
  · rw [if_pos same, if_pos same, map_none]
  · rw [if_neg same, if_neg same, Server.identity, Option.map_map]
    congr 1
    funext session
    have kept := afterDeparture_same sid gone session
    simp [Function.comp_apply, kept.1, kept.2.1]

theorem Leaves.keyOf (target : Sid) : left.keyOf target = if target = sid then none else server.keyOf target := by
  rw [keyOf_eq_identity, leaves.identity, keyOf_eq_identity]
  split <;> rfl

theorem Leaves.remaining {target stored} (present : left.sessions.lookup target = some stored) :
    target ≠ sid ∧ ∃ session, server.sessions.lookup target = some session ∧
      afterDeparture sid gone session = stored := by
  rw [leaves.sessions] at present
  split at present
  · cases present
  next apart => exact ⟨apart, map_eq_some_iff.mp present⟩

end

structure Quiet (server changed : Server C) : Prop where
  sessions : changed.sessions = server.sessions
  calls : changed.calls = server.calls
  departures : changed.departures = server.departures
  cfg : changed.cfg = server.cfg
  nextSid : changed.nextSid = server.nextSid
  idSeed : changed.idSeed = server.idSeed
  idCounter : changed.idCounter = server.idCounter
  written : ∀ entry ∈ changed.written, entry ∈ server.written ∨ entry.Inside

structure Reshelves (server changed : Server C) : Prop where
  calls : ∀ key, changed.calls.lookup key = server.calls.lookup key ∨
    ((∀ call, server.calls.lookup key = some call -> call.participants = []) ∧
      ∀ call, changed.calls.lookup key = some call -> call.Vacant)
  sessions : changed.sessions = server.sessions
  departures : changed.departures = server.departures
  registry : changed.registry = server.registry
  cfg : changed.cfg = server.cfg
  nextSid : changed.nextSid = server.nextSid
  idSeed : changed.idSeed = server.idSeed
  idCounter : changed.idCounter = server.idCounter
  written : changed.written = server.written

theorem Reshelves.selected (reshelves : Reshelves server changed) (key)
    (live : key ∈ changed.calls.selected Call.isLive) : key ∈ server.calls.selected Call.isLive := by
  rcases mem_selected.mp live with ⟨call, found, inhabited⟩
  rcases reshelves.calls key with kept | ⟨_, vacant⟩
  · exact mem_selected.mpr ⟨call, kept ▸ found, inhabited⟩
  · exact (Call.isLive_iff.mp inhabited (vacant call found).1).elim

theorem Reshelves.liveCalls_le (reshelves : Reshelves server changed) : changed.liveCalls ≤ server.liveCalls :=
  count_le_of_selected reshelves.selected

/-- One move.  In a strict system a member enters a call that has none only while
the limit on concurrent calls leaves room. -/
inductive Move (strict : Bool) : Mark × Server C -> Mark × Server C -> Prop where
  | quiet {mark : Mark} {server changed : Server C} (quiet : Quiet server changed) :
      Move strict (mark, server) (mark, changed)
  | connect {mark server} (owner client waiting) :
      Move strict (mark, server) (mark, server.openSession owner client waiting)
  | leave {mark : Mark} {server left : Server C} {sid : Sid} {gone : Session C} {now : Instant}
      (leaves : Leaves server left sid gone now) : Move strict (mark, server) (mark, left)
  | update {mark marked : Mark} {server changed : Server C} {sid : Sid} {session next : Session C}
      (found : server.sessions.lookup sid = some session)
      (change : Change server sid session mark next marked) (updates : Updates server changed sid next) :
      Move strict (mark, server) (marked, changed)
  | reshelve {mark : Mark} {server changed : Server C} (reshelves : Reshelves server changed) :
      Move strict (mark, server) (mark, changed)
  | enter {newcomer server sid key session call others now}
      (found : server.sessions.lookup sid = some session) (waiting : session.state = .awaitingJoin)
      (owned : key.1 = session.owner) (inCall : server.calls.lookup key = some call)
      (room : call.participants.length < call.cap)
      (limit : strict = true -> call.participants ≠ [] ∨ server.liveCalls < server.cfg.maxConcurrentCalls)
      (members : ∀ other, other ∈ others ↔ server.keyOf other = some key) :
      Move strict (⟨newcomer, [], none⟩, server) (⟨sid, others, none⟩, server.admitted sid key session call now)
  | rename {newcomer other busy server} :
      Move strict (⟨newcomer, [], busy⟩, server) (⟨other, [], busy⟩, server)
  | rest {newcomer target unqueued server}
      (settled : ∀ session, server.sessions.lookup target = some session ->
        session.state ≠ .steady ∨ session.pendingOffer.isSome = true ∨ session.queuedSources = []) :
      Move strict (⟨newcomer, unqueued, some target⟩, server) (⟨newcomer, unqueued, none⟩, server)

abbrev Moves (strict : Bool) : Mark × Server C -> Mark × Server C -> Prop := Relation.ReflTransGen (Move strict)

theorem Moves.keeps {strict} {invariant : Mark × Server C -> Prop}
    (kept : ∀ before after, Move strict before after -> invariant before -> invariant after) {before after}
    (moves : Moves strict before after) (initial : invariant before) : invariant after := by
  induction moves with
  | refl => exact initial
  | tail _ last ih => exact kept _ _ last ih

end Server

end Starling.Voice
