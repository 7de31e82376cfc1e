import Mathlib.Data.List.DropRight
import Starling.Http.Host

namespace Starling.Http

/-!
# Preserve and forward

What `GET /events` serves is compared with the exchange of requests and replies that an
Owner has seen.  An id is served exactly when an accepted push brought a well-formed item
for it after the last delete, and it is served as the first such item was pushed.
-/

open Storage List Option Exchange PushItem

/-- An id of at most 64 bytes, and a payload with an event header if the type is
`"event"`. -/
def wellFormed (site : RouterSite) (item : PushItem) : Bool :=
  decide (item.id.utf8ByteSize ≤ maxIdLen) &&
    (decide (item.itemType ≠ "event") || (site.parseHeader item.payload).isSome)

def PushItem.served (item : PushItem) : ServedPayload := ⟨item.itemType, item.payload⟩

namespace Exchange

section

variable (site : RouterSite)

/-- The well-formed items of a push that was answered 202. -/
def accepted (exchange : Exchange) : List PushItem :=
  match exchange.request with
  | .pushEvents signed _ =>
    if exchange.reply.code = 202 then
      ((site.parseBatch signed.body).getD []).filter (wellFormed site)
    else []
  | _ => []

/-- The ids that a delete named which was answered with its receipt. -/
def deleted (exchange : Exchange) : List String :=
  match exchange.request, exchange.reply with
  | .deleteEvents signed _, .plain (.receipt _ _) => (site.parseEventDelete signed.body).getD []
  | _, _ => []

end

end Exchange

/-- The exchanges after the last delete that named the id. -/
def sinceDelete (site : RouterSite) (id : String) (log : List Exchange) : List Exchange :=
  log.rtakeWhile (fun exchange => id ∉ exchange.deleted site)

/-- The first accepted item for the id since it was last deleted. -/
def firstSince (site : RouterSite) (id : String) (log : List Exchange) : Option PushItem :=
  ((sinceDelete site id log).flatMap (Exchange.accepted site)).find? (fun item => item.id = id)

theorem firstSince_concat (site id log exchange) : firstSince site id (log ++ [exchange]) =
      if id ∈ exchange.deleted site then none
      else (firstSince site id log).or ((exchange.accepted site).find? (fun item => item.id = id)) := by
  rw [firstSince, sinceDelete, rtakeWhile_concat]
  by_cases named : id ∈ exchange.deleted site
  · simp [named]
  · simp only [named, not_false_eq_true, decide_true, if_true, if_false, flatMap_append,
      find?_append, flatMap_singleton]
    rfl

variable {site : RouterSite} {host next : Host} {log : List Exchange} {owner : Bytes32}

theorem itemEvent_of_wellFormed {item} (now) (formed : wellFormed site item = true) :
    ∃ event, itemEvent site now item = some event ∧
      (⟨event.itemType, event.payload⟩ : ServedPayload) = item.served := by
  unfold wellFormed at formed
  simp only [Bool.and_eq_true, decide_eq_true_eq, Bool.or_eq_true] at formed
  unfold itemEvent
  rw [if_neg (Nat.not_lt.mpr formed.1)]
  split
  next known =>
    rcases isSome_iff_exists.mp (formed.2.resolve_left (fun other => other known)) with
      ⟨_, parsed⟩
    rw [parsed]
    exact ⟨_, rfl, rfl⟩
  · exact ⟨_, rfl, rfl⟩

theorem itemEvent_of_malformed {item} (now) (malformed : wellFormed site item = false) :
    itemEvent site now item = none := by
  unfold wellFormed at malformed
  unfold itemEvent
  split
  · rfl
  next short =>
    rw [decide_eq_true (Nat.le_of_not_lt short), Bool.true_and, Bool.or_eq_false_iff] at malformed
    have known : item.itemType = "event" := by simpa using malformed.1
    have unread : site.parseHeader item.payload = none := by simpa using malformed.2
    rw [if_pos known, unread]
    rfl

theorem served_firstRow (site now id items) :
    (firstRow site now id items).map (fun row => (⟨row.itemType, row.payload⟩ : ServedPayload)) =
      ((items.filter (wellFormed site)).find? (fun item => item.id = id)).map served := by
  induction items with
  | nil => rfl
  | cons item rest ih =>
    unfold firstRow at ih ⊢
    cases formed : wellFormed site item with
    | false =>
      rw [findSome?_cons, itemEvent_of_malformed now formed, map_none, ite_self, filter_cons_of_neg (by simp [formed])]
      exact ih
    | true =>
      rcases itemEvent_of_wellFormed now formed with ⟨_, built, served⟩
      rw [findSome?_cons, built, filter_cons_of_pos formed, find?_cons]
      by_cases named : item.id = id
      · simp only [named, if_true, map_some, decide_true]
        exact congrArg some served
      · simp only [named, if_false, decide_false]
        exact ih

/-- The table of an Owner is what its exchanges make of it. -/
def Forwards (site : RouterSite) (owner : Bytes32) (host : Host) (log : List Exchange) : Prop :=
  ∀ id, (host.store.eventRows.lookup (owner, id)).map (fun row => (⟨row.itemType, row.payload⟩ : ServedPayload)) =
    (firstSince site id log).map PushItem.served

section

variable (forwards : Forwards site owner host log)
include forwards

theorem Forwards.idle {exchange} (same : next.store.eventRows = host.store.eventRows)
    (nothing : exchange.accepted site = []) (kept : exchange.deleted site = []) :
    Forwards site owner next (log ++ [exchange]) := by
  intro id
  rw [firstSince_concat, nothing, kept, if_neg not_mem_nil, find?_nil, or_none, same]
  exact forwards id

theorem Forwards.pushEvents (signed fault)
    (stored : next.store = (pushEvents site host.store owner signed fault).1) : Forwards site owner next
      (log ++ [⟨.pushEvents signed fault, (pushEvents site host.store owner signed fault).2⟩]) := by
  rcases pushEvents_cases site host.store owner signed fault with
    ⟨same, refused⟩ | ⟨items, _, _, parsed, _, batch, receipt⟩
  · apply forwards.idle
    · rw [stored, same]
    · exact if_neg refused
    · rfl
  · intro id
    have accepted : accepted site
        ⟨.pushEvents signed fault, (Http.pushEvents site host.store owner signed fault).2⟩ =
          items.filter (wellFormed site) := by
      rw [receipt]
      exact congrArg (fun batch => (batch.getD []).filter (wellFormed site)) parsed
    have kept : deleted site
        ⟨.pushEvents signed fault, (Http.pushEvents site host.store owner signed fault).2⟩ = [] := rfl
    rw [firstSince_concat, kept, if_neg not_mem_nil, accepted, stored, lookup_storeItems batch, if_pos rfl,
      map_or, map_or, served_firstRow, forwards id]

theorem Forwards.deleteEvents (signed fault)
    (stored : next.store = (deleteEvents site host.store owner signed fault).1) :
    Forwards site owner next
      (log ++ [⟨.deleteEvents signed fault, (deleteEvents site host.store owner signed fault).2⟩]) := by
  rcases deleteEvents_cases site host.store owner signed fault with
    ⟨same, answer, reply, refused⟩ | ⟨ids, parsed, deleted, receipt⟩
  · apply forwards.idle
    · rw [stored, same]
    · rfl
    · rw [reply]
      cases answer with
      | receipt removed missing => exact absurd rfl (refused removed missing)
      | _ => rfl
  · intro id
    have named : Exchange.deleted site
        ⟨.deleteEvents signed fault, (Http.deleteEvents site host.store owner signed fault).2⟩ = ids := by
      rw [receipt]
      exact congrArg (fun batch => batch.getD []) parsed
    have pushed : accepted site
        ⟨.deleteEvents signed fault, (Http.deleteEvents site host.store owner signed fault).2⟩ = [] := rfl
    rw [firstSince_concat, named, pushed, find?_nil, or_none, stored, deleted, lookup_deleteBatch]
    by_cases member : id ∈ ids
    · simp [member]
    · simp only [member, and_false, if_false]
      exact forwards id

end

theorem Forwards.handle (host log request)
    (forwards : Forwards site owner host log) : Forwards site owner (host.handle site owner request).1
      (log ++ [⟨request, (host.handle site owner request).2⟩]) := by
  unfold Host.handle
  split
  · apply forwards.idle
    · rfl
    · cases request with
      | pushEvents => rfl
      | _ => rfl
    · cases request with
      | deleteEvents => rfl
      | _ => rfl
  · cases request with
    | pushEvents signed fault => exact forwards.pushEvents signed fault rfl
    | deleteEvents signed fault => exact forwards.deleteEvents signed fault rfl
    | pushMedia hash signed faults =>
      exact forwards.idle (pushMedia_only site host owner hash signed faults).events rfl rfl
    | deleteMedia signed faults =>
      exact forwards.idle (deleteMedia_only site host owner signed faults).events rfl rfl
    | voiceRooms signed fault =>
      exact forwards.idle (Host.voiceRooms_only site host.store owner signed fault).events rfl rfl

def CountsItems (site : RouterSite) (exchange : Exchange) : Prop :=
  ∀ signed fault, exchange.request = .pushEvents signed fault -> exchange.reply.code = 202 ->
    ∃ items accepted rejected, site.parseBatch signed.body = some items ∧
      exchange.reply = .pushReceipt accepted rejected ∧ accepted + rejected = items.length

theorem countsItems_handle (site : RouterSite) (owner) (host : Host) (request : OwnerRequest) :
    CountsItems site ⟨request, (host.handle site owner request).2⟩ := by
  intro signed fault pushed code
  have same := pushed
  subst same
  unfold Host.handle at code ⊢
  split at code
  · exact absurd code (by decide : 413 ≠ 202)
  next short =>
    rw [if_neg short]
    rcases pushEvents_cases site host.store owner signed fault with
      ⟨_, refused⟩ | ⟨items, accepts, rejects, parsed, _, batch, receipt⟩
    · exact absurd code refused
    · refine ⟨items, accepts, rejects, parsed, receipt, ?_⟩
      rw [count_storeItems batch, Int.add_zero, Int.zero_add]

/-- After any requests of an Owner that began with no events, the walk of `GET /events`
serves an id exactly if an accepted push had a well-formed item for it since it was last
deleted, and serves that item's type and payload.  Each receipt counts its whole batch. -/
theorem events_forwarded (site : RouterSite) (owner : Bytes32) (start : Host)
    (bare : ∀ id, start.store.eventRows.lookup (owner, id) = none) (requests : List OwnerRequest)
    (maxRows byteBudget : Int) : (∃ pages, eventsWalk maxRows byteBudget owner none
          (List.replicate ((start.serve site owner requests).1.store.countEvents owner + 1)
            (start.serve site owner requests).1.store) = some (pages.map Envelope.ofRows) ∧
      ∀ id item, (∃ event ∈ Catalog.listing pages, event.id = id ∧ event.served = item) ↔
          (firstSince site id (start.serve site owner requests).2).map PushItem.served = some item) ∧
    (∀ exchange, exchange ∈ (start.serve site owner requests).2 -> CountsItems site exchange) := by
  constructor
  · have forwards : Forwards site owner (start.serve site owner requests).1
        (start.serve site owner requests).2 := by
      apply Host.serve_invariant (motive := Forwards site owner) Forwards.handle
      intro id
      rw [bare id]
      rfl
    generalize (start.serve site owner requests).2 = log at forwards ⊢
    generalize (start.serve site owner requests).1 = final at forwards ⊢
    have lossless := (readEvents_sound maxRows byteBudget owner).lossless
    rcases lossless.settles final.store with ⟨pages, walked⟩
    have rows : ((eventCatalog owner).rows final.store).length = final.store.countEvents owner := length_map _
    rw [rows] at walked
    refine ⟨pages, ?_, ?_⟩
    · rw [eventsWalk_eq]
      exact congrArg (Option.map (fun pages => pages.map Envelope.ofRows)) walked
    · intro id item
      have listed := lossless.complete final.store _ pages walked (fun state member =>
        eq_of_mem_replicate (mem_of_mem_take member))
      rw [← forwards id, map_eq_some_iff]
      constructor
      · rintro ⟨event, member, rfl, rfl⟩
        exact ⟨event.row, Store.mem_eventsOf.mp ((listed event).mp member), rfl⟩
      · rintro ⟨row, found, rfl⟩
        exact ⟨⟨id, row⟩, (listed ⟨id, row⟩).mpr (Store.mem_eventsOf.mpr found), rfl, rfl⟩
  · have all : ∀ exchange, exchange ∈ (start.serve site owner requests).2 ->
        CountsItems site exchange := by
      apply Host.serve_invariant (motive := fun _ log =>
        ∀ exchange ∈ log, CountsItems site exchange)
      · intro host log request holds
        have new := countsItems_handle site owner host request
        exact forall_mem_append.mpr ⟨holds, forall_mem_singleton.mpr new⟩
      · exact nofun
    exact all

def pollAgain : List OwnerRequest :=
  [.pushEvents (fromPhone pollBatch) false, .deleteEvents (fromPhone pollDelete) false,
    .pushEvents (fromPhone pollBatch) false]

theorem events_forwarded_poll :
    (firstSince smallRouter "n" (pairedHost.serve smallRouter phoneKey pollAgain).2).map PushItem.served =
      some ⟨"poll", [1]⟩ ∧
    ∃ pages, eventsWalk eventsPageLimit pageByteBudget phoneKey none
          (List.replicate ((pairedHost.serve smallRouter phoneKey pollAgain).1.store.countEvents phoneKey + 1)
            (pairedHost.serve smallRouter phoneKey pollAgain).1.store) = some (pages.map Envelope.ofRows) ∧
      ∃ event ∈ Catalog.listing pages, event.id = "n" ∧ event.served = ⟨"poll", [1]⟩ := by
  have pushed : (firstSince smallRouter "n" (pairedHost.serve smallRouter phoneKey pollAgain).2).map
      served = some ⟨"poll", [1]⟩ := by decide +kernel
  have bare : ∀ id, pairedHost.store.eventRows.lookup (phoneKey, id) = none := fun _ => rfl
  rcases (events_forwarded smallRouter phoneKey pairedHost bare pollAgain eventsPageLimit
    pageByteBudget).1 with ⟨pages, walked, served⟩
  exact ⟨pushed, pages, walked, (served "n" ⟨"poll", [1]⟩).mpr pushed⟩

end Starling.Http
