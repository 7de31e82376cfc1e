import Starling.Foundation.Run
import Starling.Voice.Server

namespace Starling.Voice

open List Option Table Ensures SlotRegistry Bytes32

/-!
# What changes the slot registry

Two commands write the registry: `RegisterSlots` and `DropOwner`.  Every other turn
of the loop leaves it as it was, whatever happens to sessions and calls.  What the
registry holds for one Owner is read as a function from token hashes, so that it can be
compared with the rows of `voice_slots`.
-/

variable {C : Crates}

namespace Server

/-! ## Handlers that leave the registry alone -/

section Frame

variable (server : Server C) (sid : Sid) (now : Instant)

@[simp] theorem registry_setSession (session) : (server.setSession sid session).registry = server.registry := rfl

@[simp] theorem registry_markDirty : (server.markDirty sid).registry = server.registry := rfl

@[simp] theorem registry_peerLeft (member sfuId) : (server.peerLeft member sid sfuId).registry = server.registry := by
  unfold peerLeft
  split <;> rfl

@[simp] theorem registry_closeSession (finalFrame) :
    (server.closeSession sid finalFrame now).registry = server.registry := by
  unfold closeSession
  split
  · rfl
  next session _ =>
    simp only
    split
    · rfl
    · split
      · rfl
      · apply foldl_view
        intro state member
        exact registry_peerLeft state sid member session.sfuId

@[simp] theorem registry_fail (code message) : (server.fail sid code message now).registry = server.registry :=
  registry_closeSession server sid now _

@[simp] theorem registry_send (frame) : (server.send sid frame now).registry = server.registry := by
  unfold send
  split
  · rfl
  · simp only
    split
    · rfl
    · rw [registry_closeSession, registry_setSession]

theorem registry_dropOwner (owner order) :
    (server.dropOwner owner order now).registry = SlotRegistry.dropOwner server.registry owner := by
  unfold dropOwner
  simp only
  apply foldl_view
  intro state member
  exact registry_closeSession state member now _

theorem registry_reoffer (session rtc offer pending added) :
    (server.reoffer sid session rtc offer pending added now).registry = server.registry := by
  unfold reoffer
  rw [foldl_view (fun state media => registry_send state sid now _)]
  rw [registry_send, registry_markDirty, registry_setSession]

def KeepsRegistry (result : Except Stop (Server C)) : Prop :=
  Ensures result (fun final => final.registry = server.registry)

theorem keepsRegistry_maybeNegotiate : server.KeepsRegistry (server.maybeNegotiate sid now) := by
  unfold maybeNegotiate
  split
  · exact ok rfl
  · split
    · exact ok rfl
    · apply Ensures.bind
      intro session found
      simp only
      split
      · exact ok rfl
      · apply Ensures.bind
        intro rtc built
        split
        · exact ok rfl
        · exact ok (registry_reoffer _ _ _ _ _ _ _ _)

variable {server} in
theorem KeepsRegistry.negotiate {changed : Server C} (same : changed.registry = server.registry) :
    server.KeepsRegistry (changed.maybeNegotiate sid now) := by
  intro final done
  rw [keepsRegistry_maybeNegotiate changed sid now final done, same]

theorem keepsRegistry_announce (newcomer sfuId) (existing : Sid × String) :
    server.KeepsRegistry (announce newcomer sfuId now server existing) := by
  apply KeepsRegistry.negotiate
  split <;> rfl

theorem keepsRegistry_enterCall (key) : server.KeepsRegistry (server.enterCall sid key now) := by
  apply Ensures.bind
  intro call callFound
  apply Ensures.bind
  intro session sessionFound
  apply Ensures.bind
  intro newcomer newcomerFound
  refine foldlM ?_ _ ?_
  · intro state existing same final done
    rw [keepsRegistry_announce state now sid newcomer.sfuId existing final done, same]
  · exact registry_send _ sid now _

theorem keepsRegistry_joinCall (key) : server.KeepsRegistry (server.joinCall sid key now) := by
  apply Ensures.bind
  intro call callFound
  split
  · apply Ensures.bind
    intro session sessionFound
    exact ok (registry_closeSession _ sid now none)
  · exact keepsRegistry_enterCall server sid now key

theorem registry_openCall {opened key slot}
    (done : server.openCall key slot now = some opened) : opened.registry = server.registry := by
  unfold openCall at done
  split at done
  · cases done
    rfl
  · split at done
    · cases done
    · cases done
      rfl

theorem keepsRegistry_handleJoin (token) : server.KeepsRegistry (server.handleJoin sid token now) := by
  apply Ensures.bind
  intro session found
  split
  · exact ok (registry_fail ..)
  · split
    · exact ok (registry_fail ..)
    · apply Ensures.bind
      intro again _
      simp only
      split
      · exact ok (registry_fail ..)
      · split
        · exact ok (registry_fail ..)
        next opened openedAt =>
          intro final done
          rw [keepsRegistry_joinCall opened sid now _ final done, registry_openCall server now openedAt]

theorem keepsRegistry_handleOffer (sdp : String) : server.KeepsRegistry (server.handleOffer sid sdp now) := by
  apply Ensures.bind
  intro session found
  split
  · exact ok (registry_fail ..)
  · split
    · exact ok (registry_fail ..)
    · apply Ensures.bind
      intro rtc built
      split
      · exact ok (registry_fail ..)
      · apply Ensures.bind
        intro key joined
        apply KeepsRegistry.negotiate
        -- The queue of the session is written between the answer and the re-offer.
        split
        · rw [registry_send, registry_markDirty, registry_setSession]
        · rw [registry_setSession, registry_send, registry_markDirty, registry_setSession]

theorem keepsRegistry_handleAnswer (sdp) (order : List Sid) :
    server.KeepsRegistry (server.handleAnswer sid sdp order now) := by
  apply Ensures.bind
  intro session found
  split
  · exact ok (registry_fail ..)
  · split
    · exact ok (registry_fail ..)
    · apply Ensures.bind
      intro pending waiting
      apply Ensures.bind
      intro rtc built
      split
      · exact ok (registry_fail ..)
      · apply KeepsRegistry.negotiate
        rfl

theorem keepsRegistry_handleIce (candidate) : server.KeepsRegistry (server.handleIce sid candidate now) := by
  apply Ensures.bind
  intro session found
  split
  · exact ok (registry_fail ..)
  · split <;> exact ok rfl

theorem registry_forwardRtp (source packet) : (forwardRtp source now server packet).registry = server.registry := by
  unfold forwardRtp
  split
  · rfl
  · split
    · rfl
    · split
      · rfl
      · apply foldl_view
        intro state target
        unfold forwardTo
        split
        · rfl
        · split
          · split <;> rfl
          · rfl

theorem keepsRegistry_drainSession (fuel) : server.KeepsRegistry (server.drainSession sid now fuel) := by
  have forwarded : ∀ (stored : Server C) (packets : List C.RtpPacket),
      (packets.foldl (forwardRtp sid now) stored).registry = stored.registry :=
    fun stored packets => foldl_view (fun state packet => registry_forwardRtp state now sid packet) packets stored
  unfold drainSession
  split
  · exact ok rfl
  · split
    · exact ok rfl
    · apply Ensures.bind
      rintro ⟨_, _, _, _⟩ _
      simp only
      split
      · apply ok
        rw [registry_closeSession, forwarded, registry_setSession]
      · apply ok
        rw [forwarded, registry_setSession]

theorem keepsRegistry_drainReady (pollFuel fuel) : server.KeepsRegistry (drainReady now pollFuel fuel server) := by
  induction fuel generalizing server with unfold drainReady
  | zero =>
    split
    · exact ok rfl
    · exact error
  | succ fuel ih =>
    split
    · exact ok rfl
    · apply Ensures.bind
      intro drained done final finished
      rw [ih drained final finished, keepsRegistry_drainSession _ _ now pollFuel drained done]

theorem registry_timeoutSession : (timeoutSession now server sid).registry = server.registry := by
  unfold timeoutSession
  split
  · rfl
  · split
    · rfl
    · simp only
      split
      · rfl
      · rw [registry_closeSession, registry_setSession]

end Frame

section

variable (server : Server C)

theorem keepsRegistry_handleFrame (sid frame moment) : server.KeepsRegistry (server.handleFrame sid frame moment) := by
  -- Every frame ends with a drain of the work list.
  have drained : ∀ result, server.KeepsRegistry result ->
      server.KeepsRegistry (result >>= drainReady moment.now moment.fuel moment.fuel) := by
    intro result kept
    apply Ensures.bind
    intro handled done final finished
    rw [keepsRegistry_drainReady handled moment.now moment.fuel moment.fuel final finished]
    exact kept handled done
  unfold handleFrame
  split
  · cases frame with
    | join token => exact drained _ (keepsRegistry_handleJoin server sid moment.now token)
    | offer sdp => exact drained _ (keepsRegistry_handleOffer server sid moment.now sdp)
    | answer sdp => exact drained _ (keepsRegistry_handleAnswer server sid moment.now sdp moment.order)
    | ice candidate => exact drained _ (keepsRegistry_handleIce server sid moment.now candidate)
    | bye => exact drained _ (ok (registry_closeSession server sid moment.now _))
  · exact ok rfl

theorem keepsRegistry_handlePacket (buffer source moment) :
    server.KeepsRegistry (server.handlePacket buffer source moment) := by
  unfold handlePacket
  split
  · exact ok rfl
  · simp only
    split
    · exact ok rfl
    · apply Ensures.bind
      intro session found
      apply Ensures.bind
      intro rtc built
      split
      · exact ok (registry_closeSession _ _ _ _)
      · exact ok rfl

theorem keepsRegistry_handleTime (moment) : server.KeepsRegistry (server.handleTime moment) := by
  apply Ensures.bind
  intro drained done
  apply ok
  have timed := keepsRegistry_drainReady _ moment.now moment.fuel moment.fuel drained done
  rw [foldl_view (fun state sid => registry_timeoutSession state sid moment.now)] at timed
  exact timed

def Command.registered (registry : SlotRegistry) : Command -> SlotRegistry
  | .registerSlots owner slots => SlotRegistry.replaceSet registry owner slots
  | .dropOwner owner => SlotRegistry.dropOwner registry owner
  | _ => registry

theorem registry_handleCommand (command moment) : Ensures (server.handleCommand command moment)
      (fun final => final.registry = command.registered server.registry) := by
  cases command with
  | registerSlots | overview => exact ok rfl
  | dropOwner owner => exact ok (registry_dropOwner server moment.now owner moment.order)
  | openSession _ _ waiting =>
    apply ok
    cases waiting with
    | true | false => rfl
  | sessionFrame sid frame => exact keepsRegistry_handleFrame server sid frame moment
  | sessionClosed sid => exact ok (registry_closeSession server sid moment.now none)

def LoopInput.command? : LoopInput -> Option Command
  | .command sent _ => some sent
  | _ => none

/-- The commands alone make the registry: no packet, timer or departure changes a slot. -/
theorem registry_follows_commands (inputs : List LoopInput) : Ensures (run step server inputs) (fun final =>
      final.registry = (inputs.filterMap LoopInput.command?).foldl Command.registered server.registry) := by
  induction inputs generalizing server with
  | nil => exact ok rfl
  | cons input rest ih =>
    intro final reached
    rcases run_of_cons reached with ⟨next, stepped, later⟩
    rw [ih next final later]
    cases input with
    | command command moment =>
      rw [registry_handleCommand server command moment next stepped]
      rfl
    | packet buffer source moment =>
      rw [keepsRegistry_handlePacket server buffer source moment next stepped]
      rfl
    | tick moment =>
      rw [keepsRegistry_handleTime server moment next stepped]
      rfl

end

end Server

/-! ## The slots of one Owner -/

/-- What a set of slots says about a token hash: absent, or registered with a cap. -/
abbrev SlotView := Bytes -> Option (Option Nat)

def noSlots : SlotView := fun _ => none

def slotView (slots : List VoiceSlotEntry) : SlotView := fun tokenHash =>
  (slots.find? (fun entry => entry.tokenHash = tokenHash)).map VoiceSlotEntry.maxParticipants

/-- Hashes that the registry can hold, each of them once. -/
structure ProperSlots (slots : List VoiceSlotEntry) : Prop where
  sized : ∀ entry ∈ slots, entry.tokenHash.length = 32
  distinct : (slots.map VoiceSlotEntry.tokenHash).Nodup

theorem slotView_cons (entry slots tokenHash) : slotView (entry :: slots) tokenHash =
      if entry.tokenHash = tokenHash then some entry.maxParticipants
      else slotView slots tokenHash := by
  unfold slotView
  by_cases named : entry.tokenHash = tokenHash <;> simp [named]

variable {slots : List VoiceSlotEntry}

theorem slotView_of_notMem {tokenHash} (absent : tokenHash ∉ slots.map VoiceSlotEntry.tokenHash) :
    slotView slots tokenHash = none := by
  rw [slotView, map_eq_none_iff, find?_eq_none]
  intro entry member named
  exact absent (mem_map.mpr ⟨entry, member, decide_eq_true_eq.mp named⟩)

theorem ProperSlots.tail {entry} (proper : ProperSlots (entry :: slots)) : ProperSlots slots where
  sized := fun other member => proper.sized other (mem_cons_of_mem entry member)
  distinct := (nodup_cons.mp proper.distinct).2

theorem slotView_eq_some_iff (proper : ProperSlots slots) {tokenHash cap} :
    slotView slots tokenHash = some cap ↔ ⟨tokenHash, cap⟩ ∈ slots := by
  induction slots with
  | nil => simp [slotView]
  | cons entry rest ih =>
    rw [slotView_cons, mem_cons]
    by_cases named : entry.tokenHash = tokenHash
    · have fresh : ⟨tokenHash, cap⟩ ∉ rest := by
        intro member
        apply (nodup_cons.mp proper.distinct).1
        rw [named]
        exact mem_map.mpr ⟨_, member, rfl⟩
      rw [if_pos named, some.injEq]
      subst named
      constructor
      · rintro rfl
        exact .inl rfl
      · rintro (same | member)
        · rw [← same]
        · exact (fresh member).elim
    · rw [if_neg named, ih proper.tail]
      constructor
      · exact .inr
      · rintro (same | member)
        · exact (named (by rw [← same])).elim
        · exact member

namespace SlotRegistry

def view (registry : SlotRegistry) (owner : Bytes32) : SlotView := fun tokenHash =>
  ((Bytes32.ofBytes tokenHash).bind (fun hash => registry.lookup (owner, hash))).map SlotInfo.maxParticipants

variable {owner : Bytes32}

theorem view_congr {left right} (same : ∀ hash, left.lookup (owner, hash) = right.lookup (owner, hash)) :
    view left owner = view right owner := by
  funext tokenHash
  unfold view
  cases ofBytes tokenHash with
  | none => rfl
  | some => rw [bind_some, bind_some, same]

theorem view_eq_noSlots {registry} (absent : ∀ hash, registry.lookup (owner, hash) = none) :
    view registry owner = noSlots := by
  funext tokenHash
  unfold view noSlots
  cases ofBytes tokenHash with
  | none => rfl
  | some => rw [bind_some, absent, map_none]

theorem lookup_of_view {registry} (absent : view registry owner = noSlots)
    (hash) : registry.lookup (owner, hash) = none := by
  have here := congrFun absent hash.val
  rw [view, ofBytes_val] at here
  exact map_eq_none_iff.mp here

section

variable (registry : SlotRegistry)

theorem view_insert (owner hash slot tokenHash) :
    view (registry.insert (owner, hash) slot) owner tokenHash =
      if hash.val = tokenHash then some slot.maxParticipants
      else view registry owner tokenHash := by
  unfold view
  by_cases named : hash.val = tokenHash
  · rw [if_pos named, ← named, ofBytes_val, bind_some, AList.lookup_insert, map_some]
  · rw [if_neg named]
    cases parsed : ofBytes tokenHash with
    | none => rfl
    | some =>
      rw [bind_some, bind_some, lookup_insert_eq, if_neg]
      intro same
      cases same
      exact named (val_of_ofBytes parsed)

theorem view_insertAll (owner) {slots} (proper : ProperSlots slots)
    (tokenHash) : view (insertAll registry owner slots) owner tokenHash =
      (slotView slots tokenHash).or (view registry owner tokenHash) := by
  induction slots generalizing registry with
  | nil => rfl
  | cons entry rest ih =>
    have length := proper.sized entry mem_cons_self
    have parsed : ofBytes entry.tokenHash = some ⟨entry.tokenHash, length⟩ := dif_pos length
    have unrolled : insertAll registry owner (entry :: rest) = insertAll
          (registry.insert (owner, ⟨entry.tokenHash, length⟩) ⟨entry.maxParticipants⟩) owner
          rest := by
      rw [insertAll, foldl_cons, parsed]
      rfl
    rw [unrolled, ih _ proper.tail, view_insert, slotView_cons]
    by_cases named : entry.tokenHash = tokenHash
    · have fresh : tokenHash ∉ rest.map VoiceSlotEntry.tokenHash := by
        rw [← named]
        exact (nodup_cons.mp proper.distinct).1
      rw [slotView_of_notMem fresh, if_pos named, if_pos named]
      rfl
    · rw [if_neg named, if_neg named]

theorem view_dropOwner (owner pubkey) : view (dropOwner registry owner) pubkey =
      if owner = pubkey then noSlots else view registry pubkey := by
  split
  next mine =>
    apply view_eq_noSlots
    intro hash
    rw [lookup_dropOwner, if_pos mine.symm]
  next other =>
    apply view_congr
    intro hash
    rw [lookup_dropOwner, if_neg (Ne.symm other)]

theorem view_replaceSet (owner pubkey) {slots} (proper : ProperSlots slots) :
    view (replaceSet registry owner slots) pubkey =
      if owner = pubkey then slotView slots else view registry pubkey := by
  split
  next mine =>
    subst mine
    funext tokenHash
    rw [replaceSet, view_insertAll _ owner proper, view_dropOwner, if_pos rfl, noSlots, or_none]
  next other =>
    apply view_congr
    intro hash
    rw [replaceSet, lookup_insertAll_of_ne _ _ _ (Ne.symm other), lookup_dropOwner, if_neg (Ne.symm other)]

end

end SlotRegistry

namespace Server

/-! ## Commands that wait in the channel -/

def Command.seen (owner : Bytes32) (view : SlotView) : Command -> SlotView
  | .registerSlots pubkey slots => if pubkey = owner then slotView slots else view
  | .dropOwner pubkey => if pubkey = owner then noSlots else view
  | _ => view

def Command.Proper : Command -> Prop
  | .registerSlots _ slots => ProperSlots slots
  | _ => True

theorem view_registered (registry owner) {command : Command}
    (proper : command.Proper) : view (command.registered registry) owner =
      command.seen owner (view registry owner) := by
  cases command with
  | registerSlots pubkey => exact view_replaceSet registry pubkey owner proper
  | dropOwner pubkey => exact view_dropOwner registry pubkey owner
  | _ => rfl

def served (registry : SlotRegistry) (channel : List Command) (owner : Bytes32) : SlotView :=
  channel.foldl (Command.seen owner) (SlotRegistry.view registry owner)

theorem served_append (registry channel command owner) : served registry (channel ++ [command]) owner =
      command.seen owner (served registry channel owner) := by
  rw [served, foldl_append]
  rfl

theorem served_registered {registry command} (proper : command.Proper) (rest) (owner : Bytes32) :
    served (command.registered registry) rest owner = served registry (command :: rest) owner := by
  rw [served, served, view_registered registry owner proper, foldl_cons]

end Server

end Starling.Voice
