import Starling.Http.Host
import Starling.Voice.EventLoop
import Starling.Voice.Registry

namespace Starling

/-!
# The live copy of the voice slots

The rows of `voice_slots` are the durable set of slots, and the registry of the voice
server is a copy of them.  A push of rooms commits its rows and then spawns a task that
sends the set to the server; an unpairing sends `DropOwner` and then deletes the Owner.
Commands wait in a bounded channel until the server takes them.

Tasks are numbered in the order of the commits, but they send in any order.
-/

open Storage Http Voice List Table AList Server Ensures SlotRegistry Jobs Bytes32

structure Registration where
  owner : Bytes32
  slots : List VoiceSlotEntry

/-- An `unpair_owner` that holds the pair lock, before or after its `DropOwner`. -/
structure Unpairing where
  owner : Bytes32
  dropped : Bool
  deriving DecidableEq

structure Mirror (C : Crates) where
  host : Host
  sfu : Server C
  tasks : Jobs Registration
  channel : List Server.Command
  unpairing : Option Unpairing

/-- The next thing that happens on the relay.  `register` lets a spawned task try its
send, and `serve`, `packet` and `tick` are turns of the voice server. -/
inductive MirrorInput where
  | request (owner : Bytes32) (request : OwnerRequest)
  | register (id : Nat)
  | unpair (owner : Bytes32)
  | drop
  | delete (failed : Bool) (left : List String)
  | pair (owner : Bytes32) (row : PairedOwner)
  | signal (command : Server.Command)
  | serve (moment : Server.Moment)
  | packet (buffer : Bytes) (source : SocketAddr) (moment : Server.Moment)
  | tick (moment : Server.Moment)

/-- `mpsc::channel(256)`. -/
def commandCapacity : Nat := 256

def registration (site : RouterSite) (host : Host) (owner : Bytes32) : OwnerRequest -> Option (List VoiceSlotEntry)
  | .voiceRooms signed fault =>
    if signed.body.length > ownerBodyLimitBytes then none
    else (voiceRooms site host.store owner signed fault).2.2
  | _ => none

def ofSession : Server.Command -> Bool
  | .registerSlots _ _ => false
  | .dropOwner _ => false
  | _ => true

namespace Mirror

variable {C : Crates}

section

variable (mirror : Mirror C)

/-- `tx.send(command)`: it waits while the channel is full. -/
def enqueue (command : Server.Command) : Option (List Server.Command) :=
  if mirror.channel.length < commandCapacity then some (mirror.channel ++ [command]) else none

def request (site : RouterSite) (mirror : Mirror C) (owner : Bytes32) (request : OwnerRequest) : Mirror C :=
  { mirror with
    host := (mirror.host.handle site owner request).1
    tasks :=
      match registration site mirror.host owner request with
      | none => mirror.tasks
      | some slots => mirror.tasks.start ⟨owner, slots⟩ }

def register (id : Nat) : Mirror C :=
  match mirror.tasks.get id with
  | none => mirror
  | some task =>
    match mirror.enqueue (.registerSlots task.owner task.slots) with
    | none => mirror
    | some channel => { mirror with channel := channel, tasks := mirror.tasks.finish id }

def drop : Mirror C :=
  match mirror.unpairing with
  | some ⟨owner, false⟩ =>
    match mirror.enqueue (.dropOwner owner) with
    | none => mirror
    | some channel => { mirror with channel := channel, unpairing := some ⟨owner, true⟩ }
  | _ => mirror

/-- `owners::delete` and the removal of the directory.  An error of the database ends the
unpairing with the row still there. -/
def delete (failed : Bool) (left : List String) : Mirror C :=
  match mirror.unpairing with
  | some ⟨owner, true⟩ =>
    if failed then { mirror with unpairing := none }
    else { mirror with host := mirror.host.unpairOwner owner left, unpairing := none }
  | _ => mirror

def serve (moment : Server.Moment) : Except Stop (Mirror C) :=
  match mirror.channel with
  | [] => .ok mirror
  | command :: rest => do
      let sfu <- mirror.sfu.handleCommand command moment
      pure { mirror with sfu := sfu, channel := rest }

end

def step (site : RouterSite) (mirror : Mirror C) : MirrorInput -> Except Stop (Mirror C)
  | .request owner request => .ok (mirror.request site owner request)
  | .register id => .ok (mirror.register id)
  | .unpair owner =>
    if mirror.unpairing = none then .ok { mirror with unpairing := some ⟨owner, false⟩ }
    else .ok mirror
  | .drop => .ok mirror.drop
  | .delete failed left => .ok (mirror.delete failed left)
  | .pair owner row =>
    if mirror.unpairing = none then .ok { mirror with host := mirror.host.pairOwner owner row }
    else .ok mirror
  | .signal command =>
    match ofSession command, mirror.enqueue command with
    | true, some channel => .ok { mirror with channel := channel }
    | _, _ => .ok mirror
  | .serve moment => mirror.serve moment
  | .packet buffer source moment => do
      let sfu <- mirror.sfu.handlePacket buffer source moment
      pure { mirror with sfu := sfu }
  | .tick moment => do
      let sfu <- mirror.sfu.handleTime moment
      pure { mirror with sfu := sfu }

end Mirror

/-- The slots of an Owner, as `list_all` reads them. -/
def storedSlots (store : Store) (owner : Bytes32) : List VoiceSlotEntry :=
  (store.voiceSlots.entries.filter (fun row => row.1.1 = owner)).map (fun row =>
    ⟨row.1.2, row.2.maxParticipants⟩)

def slotOwners (store : Store) : List Bytes32 := (store.voiceSlots.entries.map (fun row => row.1.1)).dedup

/-- `start_voice`: a fresh server, and one registration for each Owner with slots, in the
order of a hash map. -/
def Mirror.boot {C : Crates} (host : Host) (sfu : Server C) (owners : List Bytes32) : Mirror C where
  host := host
  sfu := sfu
  tasks := Jobs.empty
  channel := owners.map (fun owner => .registerSlots owner (storedSlots host.store owner))
  unpairing := none

def rowsView (store : Store) (owner : Bytes32) : SlotView := fun tokenHash =>
  (store.voiceSlots.lookup (owner, tokenHash)).map VoiceSlot.maxParticipants

variable {owner : Bytes32} {store : Store} {tasks : Jobs Registration}

theorem rowsView_congr {left right}
    (same : ∀ tokenHash, left.voiceSlots.lookup (owner, tokenHash) = right.voiceSlots.lookup (owner,
      tokenHash)) : rowsView left owner = rowsView right owner := by
  funext tokenHash
  rw [rowsView, rowsView, same]

theorem rowsView_of_unpaired (gone : owner ∉ store.db.pairedOwners) : rowsView store owner = noSlots := by
  funext tokenHash
  have absent : (owner, tokenHash) ∉ store.voiceSlots :=
    fun member => gone (store.slotsOwned (owner, tokenHash) member)
  rw [rowsView, lookup_eq_none.mpr absent]
  rfl

def SlotsSized (store : Store) : Prop := ∀ key ∈ store.voiceSlots, key.2.length = 32

theorem mem_storedSlots {entry} : entry ∈ storedSlots store owner ↔
      ∃ slot, store.voiceSlots.lookup (owner, entry.tokenHash) = some slot ∧
        slot.maxParticipants = entry.maxParticipants := by
  rw [storedSlots, mem_map_fst]
  constructor
  · rintro ⟨_, slot, found, rfl⟩
    exact ⟨slot, found, rfl⟩
  · rintro ⟨slot, found, cap⟩
    exact ⟨_, slot, found, by rw [cap]⟩

theorem properSlots_storedSlots (sized : SlotsSized store) (owner : Bytes32) :
    ProperSlots (storedSlots store owner) where
  sized := by
    intro entry member
    rcases mem_storedSlots.mp member with ⟨slot, found, _⟩
    exact sized (owner, entry.tokenHash) (mem_iff_lookup.mpr ⟨slot, found⟩)
  distinct := by
    rw [storedSlots, map_map]
    exact store.voiceSlots.nodup_map_snd owner

theorem slotView_storedSlots (sized : SlotsSized store) (owner : Bytes32) :
    slotView (storedSlots store owner) = rowsView store owner := by
  funext tokenHash
  apply Option.ext
  intro cap
  rw [slotView_eq_some_iff (properSlots_storedSlots sized owner), mem_storedSlots, rowsView, Option.map_eq_some_iff]

/-! ## What a request hands over -/

theorem insertSlots_distinct {now slots after} (stored : Store.insertSlots owner now slots store = some after) :
    (slots.map VoiceSlotEntry.tokenHash).Nodup ∧
      ∀ entry ∈ slots, (owner, entry.tokenHash) ∉ store.voiceSlots := by
  induction slots generalizing store with
  | nil => exact ⟨nodup_nil, nofun⟩
  | cons first rest ih =>
    rw [Store.insertSlots] at stored
    cases inserted : store.insertSlot owner first.tokenHash ⟨first.maxParticipants, now⟩ with
    | none => simp only [inserted, reduceCtorEq] at stored
    | some =>
      simp only [inserted] at stored
      rcases insertSlot_cases inserted with ⟨fresh, _, _, rows⟩
      rcases ih stored with ⟨distinct, absent⟩
      rw [rows] at absent
      constructor
      · rw [map_cons, nodup_cons]
        refine ⟨?_, distinct⟩
        intro repeated
        rcases mem_map.mp repeated with ⟨entry, member, same⟩
        apply absent entry member
        rw [mem_insert, same]
        exact .inl rfl
      · intro entry member
        rcases mem_cons.mp member with rfl | later
        · exact fresh
        · intro old
          exact absent entry later ((mem_insert _).mpr (.inr old))

section Requests

variable {site : RouterSite} {host : Host} {owner : Bytes32} {request : OwnerRequest}

theorem registration_eq_some {slots}
    (handed : registration site host owner request = some slots) : ProperSlots slots ∧ ∀ pubkey,
      rowsView (host.handle site owner request).1.store pubkey =
        if owner = pubkey then slotView slots else rowsView host.store pubkey := by
  cases request with
  | voiceRooms signed fault =>
    rw [registration] at handed
    split at handed
    · cases handed
    next short =>
      rcases voiceRooms_cases site host.store owner signed fault with
        ⟨_, none⟩ | ⟨_, replaced, reply, sized⟩
      · rw [none] at handed
        cases handed
      · rw [reply, Option.some.injEq] at handed
        subst handed
        refine ⟨⟨sized, (insertSlots_distinct replaced).1⟩, ?_⟩
        have stored : (host.handle site owner (.voiceRooms signed fault)).1.store =
            (voiceRooms site host.store owner signed fault).1 :=
          congrArg (fun result : Host × Reply => result.1.store) (if_neg short)
        intro pubkey
        rw [stored]
        funext tokenHash
        rw [rowsView, (replaceSet_spec replaced).2]
        by_cases mine : owner = pubkey
        · rw [if_pos mine.symm, if_pos mine, pushedSlot, slotView, Option.map_map]
          rfl
        · rw [if_neg (Ne.symm mine), if_neg mine, rowsView]
  | _ => cases handed

theorem registration_eq_none (handed : registration site host owner request = none) :
    (host.handle site owner request).1.store.voiceSlots = host.store.voiceSlots := by
  unfold Host.handle
  split
  · rfl
  next short =>
    cases request with
    | voiceRooms signed fault =>
      have within : ¬ signed.body.length > ownerBodyLimitBytes := short
      rw [registration, if_neg within] at handed
      rcases voiceRooms_cases site host.store owner signed fault with
        ⟨same, _⟩ | ⟨_, _, reply, _⟩
      · exact congrArg Store.voiceSlots same
      · rw [reply] at handed
        cases handed
    | pushEvents signed fault => exact (Host.pushEvents_only site host.store owner signed fault).slots
    | deleteEvents signed fault => exact (Host.deleteEvents_only site host.store owner signed fault).slots
    | pushMedia hash signed faults => exact (pushMedia_only site host owner hash signed faults).slots
    | deleteMedia signed faults => exact (deleteMedia_only site host owner signed faults).slots

end Requests

def NonePending (tasks : Jobs Registration) (owner : Bytes32) : Prop := tasks.All (fun _ task => task.owner ≠ owner)

structure Newest (tasks : Jobs Registration) (id : Nat) (task : Registration) : Prop where
  found : tasks.get id = some task
  last : ∀ other later, tasks.get other = some later -> later.owner = task.owner -> other ≤ id

structure Oldest (tasks : Jobs Registration) (id : Nat) (task : Registration) : Prop where
  found : tasks.get id = some task
  first : ∀ other later, tasks.get other = some later -> later.owner = task.owner -> id ≤ other

theorem Newest.of_start {new task id} (newest : Newest (tasks.start new) id task) :
    task = new ∨ task.owner ≠ new.owner ∧ Newest tasks id task := by
  have found := newest.found
  rw [get_start] at found
  split at found
  · cases found
    exact .inl rfl
  next =>
    have lower := lt_next found
    refine Or.inr ⟨?_, found, ?_⟩
    · intro same
      have bound := newest.last tasks.next new (tasks.get_start_next new) same.symm
      omega
    · intro other later atOther mine
      exact newest.last other later (get_start_running atOther new) mine

theorem NonePending.of_start {new} (none : NonePending (tasks.start new) owner) :
    new.owner ≠ owner ∧ NonePending tasks owner := by
  constructor
  · exact none tasks.next new (tasks.get_start_next new)
  · intro id task found
    exact none id task (get_start_running found new)

theorem Newest.of_finish {sent task sentId id} (oldest : Oldest tasks sentId sent)
    (newest : Newest (tasks.finish sentId) id task) : Newest tasks id task := by
  have found := (of_get_finish newest.found).1
  refine ⟨found, ?_⟩
  intro other later atOther mine
  by_cases same : other = sentId
  · subst same
    rw [oldest.found, Option.some.injEq] at atOther
    subst atOther
    exact oldest.first id task found mine.symm
  · apply newest.last other later _ mine
    rw [get_finish, if_neg same]
    exact atOther

theorem NonePending.of_finish {sent sentId} (found : tasks.get sentId = some sent)
    (none : NonePending (tasks.finish sentId) owner) :
    NonePending tasks owner ∨ sent.owner = owner ∧ Newest tasks sentId sent := by
  have others : ∀ id task, tasks.get id = some task -> id ≠ sentId -> task.owner ≠ owner := by
    intro id task atId apart
    apply none id task
    rw [get_finish, if_neg apart]
    exact atId
  by_cases mine : sent.owner = owner
  · refine Or.inr ⟨mine, found, ?_⟩
    intro other later atOther same
    by_contra beyond
    exact others other later atOther (by omega) (same.trans mine)
  · refine Or.inl ?_
    intro id task atId
    by_cases same : id = sentId
    · subst same
      rw [found, Option.some.injEq] at atId
      exact atId ▸ mine
    · exact others id task atId same

namespace Mirror

variable {C : Crates}

/-- A task sends only when no earlier task of its Owner is waiting and no unpairing of the
Owner has sent its `DropOwner` already, and an unpairing deletes the row only when no task
of the Owner is waiting, and succeeds. -/
def inOrder (mirror : Mirror C) : MirrorInput -> Bool
  | .register id =>
    match mirror.tasks.get id with
    | none => true
    | some task =>
      decide (mirror.unpairing ≠ some ⟨task.owner, true⟩) && mirror.tasks.running.entries.all (fun other =>
          decide (other.2.owner = task.owner -> id ≤ other.1))
  | .delete failed _ =>
    match mirror.unpairing with
    | some ⟨owner, true⟩ =>
      !failed && mirror.tasks.running.entries.all (fun task => task.2.owner ≠ owner)
    | _ => true
  | _ => true

variable {mirror : Mirror C} {command : Server.Command}

theorem inOrder_register {id task} (found : mirror.tasks.get id = some task)
    (ordered : mirror.inOrder (.register id) = true) :
    mirror.unpairing ≠ some ⟨task.owner, true⟩ ∧ Oldest mirror.tasks id task := by
  simp only [inOrder, found, Bool.and_eq_true, decide_eq_true_eq] at ordered
  refine ⟨ordered.1, found, ?_⟩
  intro other later atOther
  have member := lookup_eq_some_iff.mp atOther
  exact of_decide_eq_true (all_eq_true.mp ordered.2 _ member)

theorem inOrder_delete {owner failed left} (dropped : mirror.unpairing = some ⟨owner, true⟩)
    (ordered : mirror.inOrder (.delete failed left) = true) :
    failed = false ∧ NonePending mirror.tasks owner := by
  simp only [inOrder, dropped, Bool.and_eq_true, Bool.not_eq_true'] at ordered
  refine ⟨ordered.1, ?_⟩
  intro id task found
  have member := lookup_eq_some_iff.mp found
  exact of_decide_eq_true (all_eq_true.mp ordered.2 _ member)

def coming (mirror : Mirror C) (owner : Bytes32) : SlotView := Server.served mirror.sfu.registry mirror.channel owner

/-- The rows of an Owner are the set of its newest task, or what the registry is about to
hold when no task is waiting.  Between `DropOwner` and the deletion of the row they may
differ, but the registry is about to hold nothing. -/
structure Mirrors (mirror : Mirror C) : Prop where
  tasksProper : mirror.tasks.All (fun _ task => ProperSlots task.slots)
  channelProper : ∀ command ∈ mirror.channel, command.Proper
  newest : ∀ id task, mirror.unpairing ≠ some ⟨task.owner, true⟩ ->
    Newest mirror.tasks id task -> rowsView mirror.host.store task.owner = slotView task.slots
  settled : ∀ owner, mirror.unpairing ≠ some ⟨owner, true⟩ -> NonePending mirror.tasks owner ->
    rowsView mirror.host.store owner = mirror.coming owner
  dropped : ∀ owner, mirror.unpairing = some ⟨owner, true⟩ -> mirror.coming owner = noSlots

theorem boot_mirrors {host : Host} {sfu : Server C} {owners : List Bytes32}
    (sized : SlotsSized host.store) (empty : sfu.registry = ∅)
    (listed : owners.Perm (slotOwners host.store)) : Mirrors (boot host sfu owners) where
  tasksProper := nofun
  channelProper := by
    intro command member
    rcases mem_map.mp member with ⟨owner, _, rfl⟩
    exact properSlots_storedSlots sized owner
  newest := by
    intro id task _ newest
    cases newest.found
  settled := by
    intro owner _ _
    rw [coming, boot, served, empty]
    -- The Owners before and after its own leave the view alone.
    have folded : ∀ (names : List Bytes32) (view : SlotView),
        (names.map (fun pubkey => Server.Command.registerSlots pubkey
            (storedSlots host.store pubkey))).foldl (Server.Command.seen owner) view =
          if owner ∈ names then rowsView host.store owner else view := by
      intro names
      induction names with
      | nil => intro view; rfl
      | cons name rest ih =>
        intro view
        rw [map_cons, foldl_cons, ih, Server.Command.seen]
        by_cases same : name = owner
        · rw [if_pos same, same, slotView_storedSlots sized]
          simp
        · simp [same, Ne.symm same]
    rw [folded]
    split
    · rfl
    next unlisted =>
      funext tokenHash
      have absent : (owner, tokenHash) ∉ host.store.voiceSlots := by
        intro member
        rcases mem_iff_lookup.mp member with ⟨_, found⟩
        apply unlisted
        rw [listed.mem_iff, slotOwners, mem_dedup]
        exact mem_map.mpr ⟨_, lookup_eq_some_iff.mp found, rfl⟩
      rw [rowsView, lookup_eq_none.mpr absent, view_eq_noSlots]
      · rfl
      · intro hash
        exact lookup_empty _
  dropped := nofun

theorem enqueue_eq_some {channel} (sent : mirror.enqueue command = some channel) :
    channel = mirror.channel ++ [command] := by
  unfold enqueue at sent
  split at sent
  · cases sent
    rfl
  · cases sent

theorem register_cases (mirror : Mirror C) (id : Nat) : mirror.register id = mirror ∨
      ∃ task, mirror.tasks.get id = some task ∧ mirror.register id = { mirror with
            channel := mirror.channel ++ [.registerSlots task.owner task.slots]
            tasks := mirror.tasks.finish id } := by
  unfold register
  split
  · exact .inl rfl
  next task found =>
    split
    · exact .inl rfl
    next sent =>
      rw [enqueue_eq_some sent]
      exact .inr ⟨task, found, rfl⟩

/-- Nothing happens, or the unpairing sends its `DropOwner`. -/
theorem drop_cases (mirror : Mirror C) : mirror.drop = mirror ∨
      ∃ owner, mirror.unpairing = some ⟨owner, false⟩ ∧ mirror.drop = { mirror with
            channel := mirror.channel ++ [.dropOwner owner]
            unpairing := some ⟨owner, true⟩ } := by
  unfold drop
  split
  next owner begun =>
    split
    · exact .inl rfl
    next sent =>
      rw [enqueue_eq_some sent]
      exact .inr ⟨owner, begun, rfl⟩
  · exact .inl rfl

section

variable (mirrors : Mirrors mirror)
include mirrors

theorem Mirrors.proper_append (proper : command.Proper) : ∀ other ∈ mirror.channel ++ [command], other.Proper :=
  forall_mem_append.mpr ⟨mirrors.channelProper, forall_mem_singleton.mpr proper⟩

theorem Mirrors.of_same {after : Mirror C}
    (rows : ∀ owner, rowsView after.host.store owner = rowsView mirror.host.store owner)
    (tasks : after.tasks = mirror.tasks) (coming : ∀ owner, after.coming owner = mirror.coming owner)
    (proper : ∀ command ∈ after.channel, command.Proper)
    (phase : ∀ owner, after.unpairing = some ⟨owner, true⟩ ↔ mirror.unpairing = some ⟨owner, true⟩) :
    Mirrors after where
  tasksProper := by
    rw [tasks]
    exact mirrors.tasksProper
  channelProper := proper
  newest := by
    intro id task quiet newest
    rw [tasks] at newest
    rw [rows]
    exact mirrors.newest id task (fun begun => quiet ((phase task.owner).mpr begun)) newest
  settled := by
    intro owner quiet none
    rw [tasks] at none
    rw [rows, coming]
    exact mirrors.settled owner (fun begun => quiet ((phase owner).mpr begun)) none
  dropped := by
    intro owner begun
    rw [coming]
    exact mirrors.dropped owner ((phase owner).mp begun)

theorem Mirrors.request (site : RouterSite) (owner) (request : OwnerRequest) :
    Mirrors (mirror.request site owner request) := by
  cases handed : registration site mirror.host owner request with
  | none =>
    have same : ∀ pubkey, rowsView (mirror.host.handle site owner request).1.store pubkey =
        rowsView mirror.host.store pubkey := by
      intro pubkey
      apply rowsView_congr
      intro tokenHash
      rw [registration_eq_none handed]
    have tasks : (mirror.request site owner request).tasks = mirror.tasks := by
      rw [Mirror.request, handed]
    exact mirrors.of_same same tasks (fun _ => rfl) mirrors.channelProper (fun _ => Iff.rfl)
  | some slots =>
    rcases registration_eq_some handed with ⟨proper, rows⟩
    have tasks : (mirror.request site owner request).tasks = mirror.tasks.start ⟨owner, slots⟩ := by
      rw [Mirror.request, handed]
    constructor
    · rw [tasks]
      exact All.start mirrors.tasksProper proper
    · exact mirrors.channelProper
    · intro id task quiet newest
      rw [tasks] at newest
      have written := rows task.owner
      rcases newest.of_start with same | ⟨other, before⟩
      · rw [same, if_pos rfl] at written
        rw [same]
        exact written
      · rw [if_neg (Ne.symm other)] at written
        exact written.trans (mirrors.newest id task quiet before)
    · intro pubkey quiet none
      rw [tasks] at none
      rcases none.of_start with ⟨other, before⟩
      have written := rows pubkey
      rw [if_neg other] at written
      exact written.trans (mirrors.settled pubkey quiet before)
    · exact mirrors.dropped

theorem Mirrors.register {id} (ordered : mirror.inOrder (.register id) = true) : Mirrors (mirror.register id) := by
  rcases register_cases mirror id with same | ⟨task, found, sent⟩
  · rw [same]
    exact mirrors
  · rw [sent]
    rcases inOrder_register found ordered with ⟨quiet, oldest⟩
    have coming : ∀ owner,
        served mirror.sfu.registry (mirror.channel ++ [.registerSlots task.owner task.slots]) owner =
          if task.owner = owner then slotView task.slots else mirror.coming owner :=
      fun owner => served_append _ _ _ owner
    constructor
    · intro other later atOther
      exact mirrors.tasksProper other later (of_get_finish atOther).1
    · exact mirrors.proper_append (mirrors.tasksProper id task found)
    · intro other later notDropped newest
      exact mirrors.newest other later notDropped (newest.of_finish oldest)
    · intro owner notDropped none
      refine Eq.trans ?_ (coming owner).symm
      rcases none.of_finish found with before | ⟨mine, newest⟩
      · rw [if_neg (before id task found)]
        exact mirrors.settled owner notDropped before
      · rw [if_pos mine, ← mine]
        exact mirrors.newest id task quiet newest
    · intro owner begun
      refine (coming owner).trans ?_
      have other : task.owner ≠ owner := by
        intro same
        exact quiet (same ▸ begun)
      rw [if_neg other]
      exact mirrors.dropped owner begun

theorem Mirrors.drop : Mirrors mirror.drop := by
  rcases drop_cases mirror with same | ⟨owner, phase, sent⟩
  · rw [same]
    exact mirrors
  · rw [sent]
    have coming : ∀ pubkey, served mirror.sfu.registry (mirror.channel ++ [.dropOwner owner]) pubkey =
          if owner = pubkey then noSlots else mirror.coming pubkey :=
      fun pubkey => served_append _ _ _ pubkey
    -- Before the command no Owner was dropped, after it only this one is.
    have before : ∀ pubkey, mirror.unpairing ≠ some ⟨pubkey, true⟩ := by
      intro pubkey begun
      rw [phase] at begun
      cases begun
    constructor
    · exact mirrors.tasksProper
    · exact mirrors.proper_append trivial
    · intro id task _ newest
      exact mirrors.newest id task (before task.owner) newest
    · intro pubkey notDropped none
      have other : owner ≠ pubkey := by
        intro same
        exact notDropped (same ▸ rfl)
      refine Eq.trans ?_ (coming pubkey).symm
      rw [if_neg other]
      exact mirrors.settled pubkey (before pubkey) none
    · intro pubkey begun
      refine (coming pubkey).trans ?_
      cases begun
      rw [if_pos rfl]

end

theorem rowsView_unpairOwner (host : Host) (owner left) (pubkey : Bytes32) :
    rowsView (host.unpairOwner owner left).store pubkey =
      if pubkey = owner then noSlots else rowsView host.store pubkey := by
  have lookups : ∀ tokenHash, (host.unpairOwner owner left).store.voiceSlots.lookup (pubkey, tokenHash) =
        if pubkey = owner then none else host.store.voiceSlots.lookup (pubkey, tokenHash) :=
    fun tokenHash => lookup_retain_fst host.store.voiceSlots owner (pubkey, tokenHash)
  funext tokenHash
  rw [rowsView, lookups]
  split <;> rfl

theorem Mirrors.delete (mirrors : Mirrors mirror) {failed : Bool} {left : List String}
    (ordered : mirror.inOrder (.delete failed left) = true) : Mirrors (mirror.delete failed left) := by
  unfold Mirror.delete
  split
  next owner phase =>
    rcases inOrder_delete phase ordered with ⟨rfl, none⟩
    have others : ∀ pubkey, pubkey ≠ owner -> mirror.unpairing ≠ some ⟨pubkey, true⟩ := by
      intro pubkey other begun
      rw [phase, Option.some.injEq, Unpairing.mk.injEq] at begun
      exact other begun.1.symm
    constructor
    · exact mirrors.tasksProper
    · exact mirrors.channelProper
    · intro id task _ newest
      have other : task.owner ≠ owner := none id task newest.found
      refine (rowsView_unpairOwner mirror.host owner left task.owner).trans ?_
      rw [if_neg other]
      exact mirrors.newest id task (others task.owner other) newest
    · intro pubkey _ nonePending
      refine (rowsView_unpairOwner mirror.host owner left pubkey).trans ?_
      split
      next same =>
        rw [same]
        exact (mirrors.dropped owner phase).symm
      next other => exact mirrors.settled pubkey (others pubkey other) nonePending
    · exact nofun
  · exact mirrors

theorem rowsView_pairOwner (host : Host) (owner) (row : PairedOwner) (pubkey : Bytes32) :
    rowsView (host.pairOwner owner row).store pubkey = rowsView host.store pubkey := by
  unfold Host.pairOwner
  split
  · rfl
  next inserted =>
    apply rowsView_congr
    intro tokenHash
    exact congrArg (fun rows => AList.lookup (pubkey, tokenHash) rows) (Store.insertOwner_cases inserted).2.2

section

variable (mirrors : Mirrors mirror)
include mirrors

theorem Mirrors.serve (moment : Server.Moment) : Ensures (mirror.serve moment) Mirrors := by
  unfold Mirror.serve
  split
  · exact ok mirrors
  next command rest waiting =>
    apply Ensures.bind
    intro sfu handled
    apply ok
    have proper : ∀ other ∈ command :: rest, other.Proper := by
      rw [← waiting]
      exact mirrors.channelProper
    refine mirrors.of_same (fun _ => rfl) rfl ?_ ?_ (fun _ => Iff.rfl)
    · intro owner
      have written := registry_handleCommand mirror.sfu command moment sfu handled
      rw [coming, coming, waiting]
      refine Eq.trans ?_ (served_registered (proper command mem_cons_self) rest owner)
      rw [← written]
    · intro other member
      exact proper other (mem_cons_of_mem command member)

theorem Mirrors.turn {result : Except Stop (Server C)} (kept : mirror.sfu.KeepsRegistry result) :
    Ensures (result >>= fun sfu => pure { mirror with sfu := sfu }) Mirrors := by
  apply Ensures.bind
  intro sfu handled
  apply ok
  refine mirrors.of_same (fun _ => rfl) rfl ?_ mirrors.channelProper (fun _ => Iff.rfl)
  intro owner
  rw [coming, coming, kept sfu handled]

theorem Mirrors.signal (session : ofSession command = true) :
    Mirrors { mirror with channel := mirror.channel ++ [command] } := by
  have unseen : command.Proper ∧ ∀ owner view, command.seen owner view = view := by
    cases command with
    | registerSlots | dropOwner => cases session
    | _ => exact ⟨trivial, fun _ _ => rfl⟩
  refine mirrors.of_same (fun _ => rfl) rfl ?_ (mirrors.proper_append unseen.1) (fun _ => Iff.rfl)
  intro owner
  rw [coming, coming, served_append, unseen.2]

theorem Mirrors.step (site : RouterSite) (input : MirrorInput) (ordered : mirror.inOrder input = true) :
    Ensures (mirror.step site input) Mirrors := by
  cases input with
  | request owner request => exact ok (mirrors.request site owner request)
  | register => exact ok (mirrors.register ordered)
  | unpair =>
    rw [Mirror.step]
    split
    next free =>
      refine ok (mirrors.of_same (fun _ => rfl) rfl (fun _ => rfl) mirrors.channelProper ?_)
      intro pubkey
      rw [free]
      simp
    · exact ok mirrors
  | drop => exact ok mirrors.drop
  | delete => exact ok (mirrors.delete ordered)
  | pair owner row =>
    rw [Mirror.step]
    split
    · exact ok (mirrors.of_same (rowsView_pairOwner mirror.host owner row) rfl
        (fun _ => rfl) mirrors.channelProper (fun _ => Iff.rfl))
    · exact ok mirrors
  | signal =>
    rw [Mirror.step]
    split
    next session sent =>
      rw [enqueue_eq_some sent]
      exact ok (mirrors.signal session)
    · exact ok mirrors
  | serve moment => exact mirrors.serve moment
  | packet buffer source moment =>
    exact mirrors.turn (keepsRegistry_handlePacket mirror.sfu buffer source moment)
  | tick moment => exact mirrors.turn (keepsRegistry_handleTime mirror.sfu moment)

end

/-- From boot on, in every run in which the tasks of each Owner send in the order of their
commits, none of them falls behind an unpairing and no deletion fails: where no task and no
unpairing is under way, the registry is about to hold the rows of every Owner, and it
holds them once the channel is empty.  In particular it then has no slot of an Owner who
is not paired. -/
theorem registry_mirrors_rows (site : RouterSite) (cfg : VoiceServerCfg) (destAddr : SocketAddr)
    (candidateStrings : List String) (idSeed : Nat) {host : Host} (sized : SlotsSized host.store)
    {owners : List Bytes32} (listed : owners.Perm (slotOwners host.store)) {inputs : List MirrorInput}
    {final : Mirror C} (ordered : Along (Mirror.step site) (fun mirror input => mirror.inOrder input = true)
      (boot host (Server.new C cfg destAddr candidateStrings idSeed) owners) inputs)
    (reached : run (Mirror.step site)
      (boot host (Server.new C cfg destAddr candidateStrings idSeed) owners) inputs = .ok final)
    (idle : final.tasks.Idle) (free : final.unpairing = none) (owner : Bytes32) :
    rowsView final.host.store owner = Server.served final.sfu.registry final.channel owner ∧
      (final.channel = [] -> rowsView final.host.store owner = SlotRegistry.view final.sfu.registry owner ∧
        (owner ∉ final.host.store.db.pairedOwners -> ∀ hash, final.sfu.registry.lookup (owner, hash) = none)) := by
  have mirrors : Mirrors final := run_invariant
    (fun mirror input next holds inOrder stepped => holds.step site input inOrder next stepped)
    (boot_mirrors sized rfl listed) ordered reached
  have unbegun : final.unpairing ≠ some ⟨owner, true⟩ := by
    rw [free]
    exact nofun
  have settled := mirrors.settled owner unbegun idle.all
  refine ⟨settled, ?_⟩
  intro served
  have now : rowsView final.host.store owner = view final.sfu.registry owner := by
    rw [settled, coming, served]
    rfl
  refine ⟨now, ?_⟩
  intro gone hash
  rw [rowsView_of_unpaired gone] at now
  exact lookup_of_view now.symm hash

/-! ## Runs out of order -/

/-- Everything is at rest, and the registry is not what the rows say. -/
structure Disagrees (mirror : Mirror C) (owner : Bytes32) : Prop where
  idle : mirror.tasks.Idle
  free : mirror.unpairing = none
  served : mirror.channel = []
  differ : rowsView mirror.host.store owner ≠ SlotRegistry.view mirror.sfu.registry owner

theorem Disagrees.of_check {owner} (tokenHash)
    (rest : mirror.tasks.running.keys = [] ∧ mirror.unpairing = none ∧ mirror.channel.length = 0)
    (differ : rowsView mirror.host.store owner tokenHash ≠ view mirror.sfu.registry owner
      tokenHash) : Disagrees mirror owner where
  idle := idle_of_keys rest.1
  free := rest.2.1
  served := length_eq_zero_iff.mp rest.2.2
  differ := fun same => differ (congrFun same tokenHash)

def voiceRouter : RouterSite :=
  { smallRouter with
    parseSlots := fun body =>
      if body = [1] then some [⟨(Bytes32.fill 1).val, some 4⟩]
      else if body = [2] then some [⟨(Bytes32.fill 2).val, none⟩]
      else none
    voiceMax := some 12 }

def roomsPush (body : Bytes) : MirrorInput := .request phoneKey (.voiceRooms (fromPhone body) false)

def serveNext : MirrorInput := .serve ⟨0, [], 8⟩

def pairedBoot : Mirror Server.quietCrates := boot pairedHost Server.smallRelay []

def overtaking : List MirrorInput := [roomsPush [1], roomsPush [2], .register 1, .register 0, serveNext, serveNext]

/-- A push whose task sends after its Owner has been unpaired. -/
def overdue : List MirrorInput :=
  [roomsPush [1], .unpair phoneKey, .drop, .delete false [], .register 0, serveNext, serveNext]

def halfUnpaired : List MirrorInput :=
  [roomsPush [1], .register 0, .unpair phoneKey, .drop, .delete true [], serveNext, serveNext]

/-- The registry keeps the older of two sets, it keeps a slot of an Owner who is not
paired any more, and it loses the slots of one who still is. -/
theorem late_commands_disagree :
    (∃ final : Mirror Server.quietCrates, run (Mirror.step voiceRouter) pairedBoot overtaking = .ok final ∧
      Disagrees final phoneKey) ∧
    (∃ final : Mirror Server.quietCrates, run (Mirror.step voiceRouter) pairedBoot overdue = .ok final ∧
      Disagrees final phoneKey ∧ phoneKey ∉ final.host.store.db.pairedOwners) ∧
    (∃ final : Mirror Server.quietCrates, run (Mirror.step voiceRouter) pairedBoot halfUnpaired = .ok final ∧
      Disagrees final phoneKey) := by
  refine ⟨⟨_, run_finalState (by decide +kernel), ?_⟩, ⟨_, run_finalState (by decide +kernel), ?_, ?_⟩,
    ⟨_, run_finalState (by decide +kernel), ?_⟩⟩
  · exact Disagrees.of_check (fill 1).val (by decide +kernel) (by decide +kernel)
  · exact Disagrees.of_check (fill 1).val (by decide +kernel) (by decide +kernel)
  · decide +kernel
  · exact Disagrees.of_check (fill 1).val (by decide +kernel) (by decide +kernel)

def pushedInOrder : List MirrorInput :=
  [roomsPush [1], roomsPush [2], .register 0, .register 1, serveNext, serveNext]

abbrev mirrorAfter (inputs : List MirrorInput) : Mirror Server.quietCrates :=
  finalState (Mirror.step voiceRouter) pairedBoot inputs

/-- Two pushes in order, and the second set is live. -/
theorem registry_mirrors_rows_in_order :
    rowsView (mirrorAfter pushedInOrder).host.store phoneKey (Bytes32.fill 2).val = some none ∧
    rowsView (mirrorAfter pushedInOrder).host.store phoneKey =
      SlotRegistry.view (mirrorAfter pushedInOrder).sfu.registry phoneKey := by
  have returns : (run (step voiceRouter) pairedBoot pushedInOrder).toBool = true := by
    decide +kernel
  have ordered : Along (step voiceRouter) (fun mirror input => mirror.inOrder input = true)
      pairedBoot pushedInOrder :=
    Along.checked (by decide +kernel)
  have sized : SlotsSized pairedHost.store := nofun
  have mirrored := registry_mirrors_rows voiceRouter ⟨12, 1, 60⟩ "127.0.0.1:40000" ["candidate"] 0
    sized (List.Perm.refl []) ordered (run_finalState returns) (idle_of_keys (by decide +kernel))
    (by decide +kernel) phoneKey
  exact ⟨by decide +kernel, (mirrored.2 (length_eq_zero_iff.mp (by decide +kernel))).1⟩

end Mirror

end Starling
