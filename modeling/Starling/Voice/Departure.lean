import Starling.Foundation.Run
import Starling.Voice.Server

namespace Starling.Voice

open List Option Table

/-!
# What closing a session changes

`close_session` is reached from every failure path, often in the middle of
another handler.  Its effect is stated here once, as a relation between the
lookups before and after: the session is gone, every other participant of its
call has forgotten it and was told so, and its call has one member less.  Later
modules use this relation and never unfold the loop again.
-/

variable {C : Crates}

namespace Server

/-- The call a session takes part in, if the session exists and has joined. -/
def keyOf (server : Server C) (sid : Sid) : Option CallKey := (server.sessions.lookup sid).bind Session.callKey

variable {server : Server C} {sid : Sid} {gone : Session C}

theorem keyOf_of_lookup {session} (found : server.sessions.lookup sid = some session) :
    server.keyOf sid = session.callKey := by
  rw [keyOf, found, bind_some]

theorem keyOf_eq_some {key} : server.keyOf sid = some key ↔
      ∃ session, server.sessions.lookup sid = some session ∧ session.callKey = some key :=
  bind_eq_some_iff

def SameCall (gone session : Session C) : Prop := gone.callKey ≠ none ∧ session.callKey = gone.callKey

instance (gone session : Session C) : Decidable (SameCall gone session) := inferInstanceAs (Decidable (_ ∧ _))

/-- The departure of `gone` as seen from another session. -/
def afterDeparture (sid : Sid) (gone session : Session C) : Session C :=
  if SameCall gone session then session.forget sid gone.sfuId else session

structure Leaves (server left : Server C) (sid : Sid) (gone : Session C) (now : Instant) : Prop where
  found : server.sessions.lookup sid = some gone
  sessions : ∀ target, left.sessions.lookup target =
    if target = sid then none
    else (server.sessions.lookup target).map (afterDeparture sid gone)
  calls : ∀ key, left.calls.lookup key = (server.calls.lookup key).map (fun call =>
      if gone.callKey = some key then call.remove sid now else call)
  departures : ∃ present, left.departures = (gone.callKey, present) :: server.departures ∧
    ∀ target, target ≠ sid -> present.lookup target = server.sessions.lookup target
  registry : left.registry = server.registry
  cfg : left.cfg = server.cfg
  nextSid : left.nextSid = server.nextSid
  idSeed : left.idSeed = server.idSeed
  idCounter : left.idCounter = server.idCounter
  written : left.written = server.written

theorem peerLeft_sessions (server : Server C) (member sid target) (sfuId : String) :
    (server.peerLeft member sid sfuId).sessions.lookup target =
      if target = member then (server.sessions.lookup target).map (fun session =>
        session.forget sid sfuId)
      else server.sessions.lookup target := by
  unfold peerLeft
  cases found : server.sessions.lookup member with
  | none =>
    by_cases same : target = member
    · rw [if_pos same, same, found, map_none]
    · rw [if_neg same]
  | some =>
    simp only [setSession, lookup_insert_eq]
    by_cases same : target = member
    · rw [if_pos same, if_pos same, same, found, map_some]
    · rw [if_neg same, if_neg same]

theorem tellAll_sessions (members : List Sid) (nodup : members.Nodup) (server : Server C)
    (sid target : Sid) (sfuId : String) :
    (members.foldl (fun server member => server.peerLeft member sid sfuId) server).sessions.lookup target =
      if target ∈ members then (server.sessions.lookup target).map (fun session =>
        session.forget sid sfuId)
      else server.sessions.lookup target := by
  induction members generalizing server with
  | nil => rw [foldl_nil, if_neg not_mem_nil]
  | cons member rest ih =>
    have parts := nodup_cons.mp nodup
    rw [foldl_cons, ih parts.2, peerLeft_sessions]
    by_cases same : target = member
    · subst target
      rw [if_neg parts.1, if_pos rfl, if_pos mem_cons_self]
    · by_cases later : target ∈ rest
      · rw [if_pos later, if_neg same, if_pos (mem_cons_of_mem _ later)]
      · rw [if_neg later, if_neg same, if_neg]
        intro member
        exact (mem_cons.mp member).elim same later

theorem tellAll_frame (members : List Sid) (server : Server C) (sid : Sid) (sfuId : String) :
    let told := members.foldl (fun server member => server.peerLeft member sid sfuId) server
    told.calls = server.calls ∧ told.registry = server.registry ∧ told.cfg = server.cfg ∧
      told.nextSid = server.nextSid ∧ told.idSeed = server.idSeed ∧
      told.idCounter = server.idCounter ∧ told.written = server.written ∧ told.departures = server.departures := by
  have same := @foldl_view _ _ (fun server member => server.peerLeft member sid sfuId) _
    (fun server : Server C => (server.calls, server.registry, server.cfg, server.nextSid, server.idSeed,
      server.idCounter, server.written, server.departures)) ?_ members server
  · simpa only [Prod.mk.injEq] using same
  · intro server member
    unfold peerLeft
    split <;> rfl

structure Seated (server : Server C) (session : Session C) : Prop where
  call : ∀ key, session.callKey = some key -> ∃ call, server.calls.lookup key = some call ∧
    call.participants.Nodup ∧
    ∀ target, target ∈ call.participants ↔ server.keyOf target = some key

theorem closeSession_of_absent (absent : server.sessions.lookup sid = none)
    (finalFrame now) : server.closeSession sid finalFrame now = server := by
  rw [closeSession, absent]

theorem leaves_of_unjoined (found : server.sessions.lookup sid = some gone) (unjoined : gone.callKey = none)
    (finalFrame : Option ServerFrame) (now : Instant) :
    Leaves server (server.closeSession sid finalFrame now) sid gone now := by
  have result : server.closeSession sid finalFrame now = server.removeSession sid gone finalFrame := by
    simp [closeSession, found, unjoined]
  have alone : ∀ session, ¬ SameCall gone session := fun session shared => shared.1 unjoined
  rw [result]
  refine ⟨found, ?_, ?_, ⟨server.sessions, rfl, fun _ _ => rfl⟩, rfl, rfl, rfl, rfl, rfl, rfl⟩
  · intro target
    rw [removeSession, lookup_erase_eq]
    have same : afterDeparture sid gone = id := by
      funext session
      exact if_neg (alone session)
    rw [same, Option.map_id_fun, id]
  · intro key
    simp only [removeSession, unjoined, reduceCtorEq, if_false]
    exact map_id'.symm

theorem leaves_of_joined {key call} (found : server.sessions.lookup sid = some gone)
    (joined : gone.callKey = some key) (inCall : server.calls.lookup key = some call)
    (nodup : call.participants.Nodup)
    (listed : ∀ target, target ∈ call.participants ↔ server.keyOf target = some key)
    (finalFrame : Option ServerFrame) (now : Instant) :
    Leaves server (server.closeSession sid finalFrame now) sid gone now := by
  let emptied := { server.removeSession sid gone finalFrame with
    calls := server.calls.insert key (call.remove sid now) }
  have result : server.closeSession sid finalFrame now = (call.remove sid now).participants.foldl
        (fun server member => server.peerLeft member sid gone.sfuId) emptied := by
    simp [closeSession, found, joined, removeSession, inCall, emptied]
  have remaining : (call.remove sid now).participants.Nodup := nodup.filter _
  have stays : ∀ target, target ∈ (call.remove sid now).participants ↔
      server.keyOf target = some key ∧ target ≠ sid := by
    intro target
    rw [Call.remove, mem_filter, decide_eq_true_eq, listed]
  -- Among the sessions left over, the remaining members are those of the same call.
  have shared : ∀ target session, target ≠ sid -> server.sessions.lookup target = some session ->
      (target ∈ (call.remove sid now).participants ↔ SameCall gone session) := by
    intro target session other present
    rw [stays, keyOf_of_lookup present, SameCall, joined]
    constructor
    · intro member
      exact ⟨some_ne_none key, member.1⟩
    · intro same
      exact ⟨same.2, other⟩
  have erased : ∀ target, emptied.sessions.lookup target =
      if target = sid then none else server.sessions.lookup target :=
    fun target => lookup_erase_eq server.sessions sid target
  have frame := tellAll_frame (call.remove sid now).participants emptied sid gone.sfuId
  rw [result]
  refine ⟨found, ?_, ?_, ⟨server.sessions, frame.2.2.2.2.2.2.2, fun _ _ => rfl⟩, frame.2.1, frame.2.2.1,
    frame.2.2.2.1, frame.2.2.2.2.1, frame.2.2.2.2.2.1, frame.2.2.2.2.2.2.1⟩
  · intro target
    rw [tellAll_sessions _ remaining, erased]
    by_cases same : target = sid
    · rw [if_pos same, if_pos same, map_none, ite_self]
    · rw [if_neg same, if_neg same]
      cases present : server.sessions.lookup target with
      | none => rw [map_none, map_none, ite_self]
      | some session =>
        simp only [map_some, afterDeparture, shared target session same present]
        split <;> rfl
  · intro target
    rw [frame.1]
    rw [lookup_insert_eq]
    by_cases same : target = key
    · rw [if_pos same, same, inCall, map_some, if_pos joined]
    · rw [if_neg same]
      have apart : gone.callKey ≠ some target := by
        rw [joined]
        intro equal
        exact same (some.inj equal).symm
      simp only [if_neg apart]
      exact map_id'.symm

theorem Seated.leaves (seated : Seated server gone) (found : server.sessions.lookup sid = some gone)
    (finalFrame now) : Leaves server (server.closeSession sid finalFrame now) sid gone now := by
  cases joined : gone.callKey with
  | none => exact leaves_of_unjoined found joined finalFrame now
  | some key =>
    rcases seated.call key joined with ⟨_, inCall, nodup, listed⟩
    exact leaves_of_joined found joined inCall nodup listed finalFrame now

end Server

end Starling.Voice
