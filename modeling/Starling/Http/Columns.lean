import Starling.Http.Caps

namespace Starling.Http

/-!
# Bytes outside the accounting

The caps count payloads.  A row of `served_events` also holds an id, a type and a nonce.
The id is at most `MAX_ID_LEN` bytes and the nonce is a part of the payload, but nothing
in the handler bounds the type: it is stored as it comes.  The rows are accounted for
where the types are as short as the ids.
-/

open Storage List Option Store Host

/-- The nonce that the CBOR reader finds in a payload is a part of it. -/
def NonceWithin (site : RouterSite) : Prop :=
  ∀ payload header, site.parseHeader payload = some header -> header.nonce.length ≤ payload.length

/-- The items of a push have types of at most `MAX_ID_LEN` bytes. -/
def shortTypes (site : RouterSite) : HostInput -> Bool
  | .request _ (.pushEvents signed _) =>
    (site.parseBatch signed.body).all (fun items => items.all (fun item => item.itemType.utf8ByteSize ≤ maxIdLen))
  | _ => true

def columnBytes (event : StoredEvent) : Nat :=
  event.id.utf8ByteSize + event.row.itemType.utf8ByteSize + event.row.nonce.length

def storedBytes (store : Store) (owner : Bytes32) : Int :=
  ((store.eventsOf owner).map (fun event => (columnBytes event + event.row.payload.length : Int))).sum

def ColumnsBounded (store : Store) : Prop :=
  ∀ owner event, event ∈ store.eventsOf owner -> (columnBytes event : Int) ≤ event.row.size + 2 * maxIdLen

variable {site : RouterSite} {store : Store}

theorem itemEvent_columns (within : NonceWithin site) {now item event} (built : itemEvent site now item = some event) :
    item.id.utf8ByteSize ≤ maxIdLen ∧ event.itemType = item.itemType ∧
      event.nonce.length ≤ item.payload.length := by
  unfold itemEvent at built
  split at built
  · cases built
  next short =>
    refine ⟨Nat.le_of_not_lt short, ?_⟩
    split at built
    · rcases map_eq_some_iff.mp built with ⟨header, parsed, rfl⟩
      exact ⟨rfl, within item.payload header parsed⟩
    · cases built
      exact ⟨rfl, Nat.zero_le _⟩

theorem firstRow_eq_some {now id items row} (first : firstRow site now id items = some row) :
    ∃ item event, item ∈ items ∧ item.id = id ∧ itemEvent site now item = some event ∧ event.row = row := by
  rcases exists_of_findSome?_eq_some first with ⟨item, member, found⟩
  split at found
  next named =>
    rcases map_eq_some_iff.mp found with ⟨event, built, same⟩
    exact ⟨item, event, member, named, built, same⟩
  · cases found

theorem columnBytes_of_push (within : NonceWithin site) {owner request fault}
    (short : shortTypes site (.request owner (.pushEvents request fault)) = true) {pubkey event}
    (new : store.eventRows.lookup (pubkey, event.id) = none)
    (stored : (pushEvents site store owner request fault).1.eventRows.lookup (pubkey, event.id) = some
      event.row) : (columnBytes event : Int) ≤ event.row.size + 2 * maxIdLen := by
  rcases pushEvents_cases site store owner request fault with
    ⟨same, _⟩ | ⟨items, _, _, parsed, _, batch, _⟩
  · rw [same, new] at stored
    cases stored
  · rw [lookup_storeItems batch, new] at stored
    split at stored
    · rcases firstRow_eq_some stored with ⟨item, built, member, named, fromItem, row⟩
      rcases itemEvent_columns within fromItem with ⟨idShort, itemType, nonce⟩
      rw [shortTypes, parsed, all_some, List.all_eq_true] at short
      have typeShort := of_decide_eq_true (short item member)
      have size : event.row.size = item.payload.length := by
        rw [← row, ← itemEvent_payload fromItem]
        rfl
      have columns : columnBytes event =
          item.id.utf8ByteSize + item.itemType.utf8ByteSize + built.nonce.length := by
        rw [columnBytes, ← named, ← row, ← itemType]
        rfl
      rw [columns, size]
      push_cast
      omega
    · cases stored

theorem ColumnsBounded.mono {before after} (bounded : ColumnsBounded before)
    (kept : ∀ key row, after.eventRows.lookup key = some row -> before.eventRows.lookup key = some row) :
    ColumnsBounded after := by
  intro owner event member
  exact bounded owner event (mem_eventsOf.mpr (kept _ _ (mem_eventsOf.mp member)))

theorem ColumnsBounded.pushEvents (within : NonceWithin site) (bounded : ColumnsBounded store)
    {owner request fault} (short : shortTypes site (.request owner (.pushEvents request fault)) = true) :
    ColumnsBounded (Http.pushEvents site store owner request fault).1 := by
  intro pubkey event member
  have stored := mem_eventsOf.mp member
  cases before : store.eventRows.lookup (pubkey, event.id) with
  | none => exact columnBytes_of_push within short before stored
  | some row =>
    have same : row = event.row := by
      rcases pushEvents_cases site store owner request fault with
        ⟨unchanged, _⟩ | ⟨_, _, _, _, _, batch, _⟩
      · rw [unchanged, before] at stored
        exact some.inj stored
      · rw [lookup_storeItems batch, before] at stored
        exact some.inj stored
    rw [same] at before
    exact bounded pubkey event (mem_eventsOf.mpr before)

theorem eventRows_of_step {host next : Host} {input} (stepped : host.step site input = .ok next)
    (other : ∀ owner signed fault, input ≠ .request owner (.pushEvents signed fault)) {key} {row : EventRow}
    (found : next.store.eventRows.lookup key = some row) : host.store.eventRows.lookup key = some row := by
  cases input with cases stepped
  | request owner request =>
    unfold handle at found
    split at found
    · exact found
    · cases request with
      | pushEvents signed fault => exact absurd rfl (other owner signed fault)
      | deleteEvents signed fault =>
        have atKey : (deleteEvents site host.store owner signed fault).1.eventRows.lookup key = some row := found
        rcases deleteEvents_cases site host.store owner signed fault with
          ⟨same, _⟩ | ⟨_, _, deleted, _⟩
        · rw [same] at atKey
          exact atKey
        · rw [deleted, lookup_deleteBatch] at atKey
          split at atKey
          · cases atKey
          · exact atKey
      | pushMedia hash signed faults =>
        rw [← found]
        exact congrArg (fun rows => AList.lookup key rows)
          (pushMedia_only site host owner hash signed faults).events.symm
      | deleteMedia signed faults =>
        rw [← found]
        exact congrArg (fun rows => AList.lookup key rows) (deleteMedia_only site host owner signed faults).events.symm
      | voiceRooms signed fault =>
        rw [← found]
        exact congrArg (fun rows => AList.lookup key rows)
          (voiceRooms_only site host.store owner signed fault).events.symm
  | unpair owner left =>
    have lookups : (host.unpairOwner owner left).store.eventRows.lookup key =
        if key.1 = owner then none else host.store.eventRows.lookup key :=
      Table.lookup_retain_fst host.store.eventRows owner key
    rw [lookups] at found
    split at found
    · cases found
    · exact found
  | pair =>
    unfold pairOwner at found
    split at found
    · exact found
    next inserted =>
      rw [← found]
      exact congrArg (fun rows => AList.lookup key rows) (insertOwner_cases inserted).2.1.symm
  | disturb => exact found

theorem ColumnsBounded.step (within : NonceWithin site) {host next : Host} {input : HostInput}
    (bounded : ColumnsBounded host.store) (short : shortTypes site input = true)
    (stepped : host.step site input = .ok next) : ColumnsBounded next.store := by
  by_cases push : ∃ owner signed fault, input = .request owner (.pushEvents signed fault)
  · rcases push with ⟨_, _, _, rfl⟩
    cases stepped
    unfold handle
    split
    · exact bounded
    · exact bounded.pushEvents within short
  · apply bounded.mono
    intro key row found
    apply eventRows_of_step stepped _ found
    intro owner signed fault same
    exact push ⟨owner, signed, fault, same⟩

theorem sum_le_of_each {R : Type} {rows : List R} {bytes size} {factor constant : Int}
    (each : ∀ row ∈ rows, bytes row ≤ factor * size row + constant) :
    (rows.map bytes).sum ≤ factor * (rows.map size).sum + constant * rows.length := by
  induction rows with
  | nil => simp
  | cons first rest ih =>
    have atFirst := each first mem_cons_self
    have atRest := ih (fun row member => each row (mem_cons_of_mem first member))
    rw [map_cons, map_cons, sum_cons, sum_cons, length_cons]
    push_cast
    rw [Int.mul_add, Int.mul_add]
    omega

theorem sum_sizes_eventsOf (store : Store) (owner : Bytes32) :
    ((store.eventsOf owner).map (fun event => event.row.size)).sum = Events.totalBytes store.db owner := by
  rw [Events.totalBytes, sumSizes_eq_of_view store.eventsAgree, eventsOf, List.map_map]
  rfl

theorem storedBytes_le (bounded : ColumnsBounded store) (sized : MediaSized store.db) (owner : Bytes32) :
    storedBytes store owner ≤
      2 * Accounting.ownerUsage store.db owner + 2 * maxIdLen * store.countEvents owner := by
  have rows : storedBytes store owner ≤ 2 * ((store.eventsOf owner).map (fun event => event.row.size)).sum +
        2 * maxIdLen * (store.eventsOf owner).length := by
    apply sum_le_of_each
    intro event member
    have columns := bounded owner event member
    have payload := store.sized _ _ (mem_eventsOf.mp member)
    omega
  have media : 0 ≤ Media.totalBytes store.db owner := by
    apply sum_nonneg
    intro size member
    rcases List.mem_map.mp member with ⟨entry, kept, rfl⟩
    exact sized entry.1 entry.2 (Table.lookup_eq_some_iff.mpr (mem_filter.mp kept).1)
  rw [sum_sizes_eventsOf, eventsOf, length_map, ← countEvents] at rows
  rw [Accounting.ownerUsage]
  omega

/-- In every state of a run whose pushes have short types only, a row holds, next to its payload, at most its
accounted size and one constant more, and the stored bytes of every Owner are linear in its usage and the
number of its rows. -/
theorem columns_accounted (site : RouterSite) (within : NonceWithin site) {start final : Host}
    {inputs : List HostInput} (bare : start.Bare)
    (short : Along (Host.step site) (fun _ input => shortTypes site input = true) start inputs)
    (reached : run (Host.step site) start inputs = .ok final) (owner : Bytes32) :
    (∀ event ∈ final.store.eventsOf owner, (columnBytes event : Int) ≤ event.row.size + 2 * maxIdLen) ∧
      storedBytes final.store owner ≤
        2 * Accounting.ownerUsage final.store.db owner + 2 * maxIdLen * final.store.countEvents owner := by
  have empty : ColumnsBounded start.store := by
    intro pubkey event member
    rw [mem_eventsOf, bare.1] at member
    cases member
  have preserved : ∀ (host : Host) input next, ColumnsBounded host.store -> shortTypes site input = true ->
      host.step site input = .ok next -> ColumnsBounded next.store :=
    fun _ _ _ holds short stepped => holds.step within short stepped
  have bounded := run_invariant preserved empty short reached
  exact ⟨bounded owner, storedBytes_le bounded (WithinCaps.of_reaches bare ⟨inputs, reached⟩).sized owner⟩

/-- A poll is stored: six bytes for an accounted size of one. -/
theorem columns_accounted_poll :
    storedBytes filledHost.store phoneKey = 6 ∧
    storedBytes filledHost.store phoneKey ≤
      2 * Accounting.ownerUsage filledHost.store.db phoneKey +
        2 * maxIdLen * filledHost.store.countEvents phoneKey := by
  have bare : emptyHost.Bare := ⟨fun _ => rfl, fun _ => rfl⟩
  have returns : (run (step smallRouter) emptyHost fillingRun).toBool = true := by decide +kernel
  have short : checkAlong (step smallRouter) (fun _ input => shortTypes smallRouter input) emptyHost
      fillingRun = true := by decide +kernel
  exact ⟨by decide +kernel, (columns_accounted smallRouter nofun bare (Along.checked short)
    (run_finalState returns) phoneKey).2⟩

/-- The batch with the poll, with 200 letters for the type. -/
def wideBatch : Bytes := pollBatch.take 29 ++ 120 :: 200 :: replicate 200 116

def wideRouter : RouterSite :=
  { smallRouter with
    parseBatch := fun body =>
      if body = wideBatch then some [⟨"n", [1], String.ofList (replicate 200 't')⟩] else none }

/-- The push is accepted, and its row holds 201 bytes next to an accounted size of one. -/
theorem type_unaccounted :
    let pushed := pairedHost.handle wideRouter phoneKey (.pushEvents (fromPhone wideBatch) false)
    pushed.2.code = 202 ∧
      (pushed.1.store.eventsOf phoneKey).map (fun event => (columnBytes event, event.row.size)) = [(201, 1)] ∧
      2 * Accounting.ownerUsage pushed.1.store.db phoneKey + 2 * maxIdLen * pushed.1.store.countEvents phoneKey <
        storedBytes pushed.1.store phoneKey := by
  decide +kernel

end Starling.Http
