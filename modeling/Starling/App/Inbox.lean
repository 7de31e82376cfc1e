import Starling.App.Phone
import Mathlib.Data.List.Induction

namespace Starling.App

open List Option Table AList App.Small

/-!
# Feed events in an envelope

The loop over a pulled envelope looks an event of a third party up against the table that the
earlier items of the same envelope have changed.  The peer sends the newest rows first, so a
comment comes before the post it refers to.  The order does not show if and only if no such
event depends on an item of the envelope.

A pushed envelope is checked against the author that the wrapper names, and the row is stored
for the author that has signed.
-/

namespace Phone

section Turns

variable (K : EventCrypto)

def opened (phone : Phone) (follow : Follow) : EnvelopeItem -> Option Event
  | .event (some encrypted) => phone.openPulled K follow encrypted
  | _ => none

def pullItem (now : Int) (follow : Follow) (phone : Phone) : EnvelopeItem -> Phone
  | .event payload => (phone.processEventItem K now follow payload).1
  | _ => phone

end Turns

variable {K : EventCrypto}

theorem syncEnvelope_eq_foldl (now phone follow) (items : List EnvelopeItem) :
    phone.syncEnvelope K now follow items = items.foldl (pullItem K now follow) phone := by
  induction items generalizing phone with
  | nil => rfl
  | cons item rest ih =>
    rw [foldl_cons, ← ih]
    cases item with
    | _ => rfl

theorem syncEnvelope_append (now : Int) (phone : Phone) (follow : Follow) (first second : List EnvelopeItem) :
    phone.syncEnvelope K now follow (first ++ second) =
      (phone.syncEnvelope K now follow first).syncEnvelope K now follow second := by
  rw [syncEnvelope_eq_foldl, syncEnvelope_eq_foldl, syncEnvelope_eq_foldl, foldl_append]

def Fits (phone : Phone) (follow : Follow) (event : Event) : Prop :=
  event.pubkey = follow.pubkey ∨ phone.anchors follow event.ref = true

inductive Pulled (K : EventCrypto) (phone : Phone) (follow : Follow) (item : EnvelopeItem) (next : Phone) : Prop where
  | skipped (same : next.events = phone.events)
      (unfit : ∀ event, phone.opened K follow item = some event -> ¬ phone.Fits follow event)
  | saved (event : Event) (row : EventEntry) (read : phone.opened K follow item = some event)
      (fits : phone.Fits follow event) (author : row.pubkey = event.pubkey)
      (inserted : next.events = phone.events.insert event.id row)

theorem pulled_pullItem (now follow phone item) : Pulled K phone follow item (pullItem K now follow phone item) := by
  cases item with
  | event payload =>
    cases payload with
    | none =>
      refine .skipped rfl ?_
      rintro _ ⟨⟩
    | some encrypted =>
      have table := events_processItem now phone (.pulled follow (some encrypted)) (K := K)
      cases found : phone.openPulled K follow encrypted with
      | none =>
        simp only [stores, bind_eq_bind, bind_some, found, bind_none] at table
        refine .skipped table ?_
        intro event read
        rw [opened, found] at read
        cases read
      | some event =>
        simp only [stores, bind_eq_bind, bind_some, found] at table
        by_cases foreign : event.pubkey ≠ follow.pubkey ∧ phone.anchors follow event.ref = false
        · rw [if_pos foreign] at table
          refine .skipped table ?_
          intro other read fits
          rw [opened, found] at read
          cases read
          rcases fits with source | anchored
          · exact foreign.1 source
          · rw [foreign.2] at anchored
            cases anchored
        · rw [if_neg foreign] at table
          refine .saved event _ found ?_ rfl table
          by_cases source : event.pubkey = follow.pubkey
          · exact .inl source
          · refine Or.inr ?_
            rw [← Bool.not_eq_false]
            exact fun unanchored => foreign ⟨source, unanchored⟩
  | _ =>
    refine .skipped rfl ?_
    rintro _ ⟨⟩

variable {event : Event} {follow : Follow} {phone : Phone} {id : String} {items : List EnvelopeItem}
variable {now : Int}

theorem pullItem_of_fits (now) {item} (read : phone.opened K follow item = some event)
    (fits : phone.Fits follow event) : ∃ row, row.pubkey = event.pubkey ∧
      (pullItem K now follow phone item).events = phone.events.insert event.id row := by
  rcases pulled_pullItem now follow phone item (K := K) with
    ⟨_, unfit⟩ | ⟨_, row, savedRead, _, author, inserted⟩
  · exact (unfit event read fits).elim
  · rw [read, some.injEq] at savedRead
    subst savedRead
    exact ⟨row, author, inserted⟩

theorem accounts_pullItem (now follow phone item) : SameAccounts phone (pullItem K now follow phone item) := by
  cases item with
  | event payload => exact (writes_processItem now phone (.pulled follow payload)).accounts
  | _ => exact Writes.refl.accounts

theorem accounts_syncEnvelope (now phone follow) (items : List EnvelopeItem) :
    SameAccounts phone (phone.syncEnvelope K now follow items) := by
  rw [syncEnvelope_eq_foldl]
  induction items generalizing phone with
  | nil => exact Writes.refl.accounts
  | cons item rest ih => exact (accounts_pullItem now follow phone item).trans (ih _)

theorem SameAccounts.opened {next} (same : SameAccounts phone next) (follow : Follow)
    (item : EnvelopeItem) : next.opened K follow item = phone.opened K follow item := by
  cases item with
  | event payload =>
    cases payload with
    | none => rfl
    | some encrypted => exact same.openPulled follow encrypted
  | _ => rfl

theorem SameAccounts.anchorAuthor {next} (same : SameAccounts phone next) (follow : Follow)
    (author : Pubkey) : next.anchorAuthor follow author = phone.anchorAuthor follow author := by
  rw [Phone.anchorAuthor, Phone.anchorAuthor, same.ownPubkey]

theorem anchors_eq_true {ref} : phone.anchors follow ref = true ↔ ∃ target row, ref = some target ∧
      phone.events.lookup target = some row ∧ phone.anchorAuthor follow row.pubkey = true := by
  cases ref with
  | none => simp [anchors]
  | some target =>
    cases found : phone.events.lookup target with
    | none | some => simp [anchors, found]

def AnchorAmong (K : EventCrypto) (phone : Phone) (follow : Follow) (items : List EnvelopeItem)
    (ref : Option String) : Prop :=
  ∃ target item anchor, ref = some target ∧ item ∈ items ∧ phone.opened K follow item = some anchor ∧
    anchor.id = target ∧ phone.anchorAuthor follow anchor.pubkey = true

theorem found_pullItem {item row} (found : (pullItem K now follow phone item).events.lookup id = some row) :
    phone.events.lookup id = some row ∨ ∃ event, phone.opened K follow item = some event ∧ event.id = id ∧
      row.pubkey = event.pubkey ∧ phone.Fits follow event := by
  rcases pulled_pullItem now follow phone item with ⟨same, _⟩ | ⟨event, _, read, fits, author, inserted⟩
  · rw [same] at found
    exact .inl found
  · rw [inserted, lookup_insert_eq] at found
    split at found
    next here =>
      cases found
      exact .inr ⟨event, read, here.symm, author, fits⟩
    · exact .inl found

theorem found_syncEnvelope {row} (found : (phone.syncEnvelope K now follow items).events.lookup id = some row) :
    phone.events.lookup id = some row ∨ ∃ earlier item later event, items = earlier ++ item :: later ∧
      phone.opened K follow item = some event ∧ event.id = id ∧ row.pubkey = event.pubkey ∧
        (phone.syncEnvelope K now follow earlier).Fits follow event := by
  induction items using reverseRecOn with
  | nil => exact .inl found
  | append_singleton earlier item ih =>
    rw [syncEnvelope_append, syncEnvelope_eq_foldl now _ follow [item]] at found
    rcases found_pullItem found with before | ⟨event, read, stored⟩
    · rcases ih before with old | ⟨first, other, later, event, rfl, rest⟩
      · exact .inl old
      · exact .inr ⟨first, other, later ++ [item], event, by simp, rest⟩
    · rw [(accounts_syncEnvelope now phone follow earlier).opened] at read
      exact .inr ⟨earlier, item, [], event, rfl, read, stored⟩

theorem row_of_syncEnvelope {row} (found : (phone.syncEnvelope K now follow items).events.lookup id = some row) :
    phone.events.lookup id = some row ∨
      ∃ item event, item ∈ items ∧ phone.opened K follow item = some event ∧ event.id = id ∧
        row.pubkey = event.pubkey := by
  rcases found_syncEnvelope found with old | ⟨_, item, _, event, rfl, read, named, author, _⟩
  · exact .inl old
  · exact .inr ⟨item, event, mem_append_right _ mem_cons_self, read, named, author⟩

theorem mem_syncEnvelope_of_mem (member : id ∈ phone.events) :
    id ∈ (phone.syncEnvelope K now follow items).events := by
  rw [syncEnvelope_eq_foldl]
  induction items generalizing phone with
  | nil => exact member
  | cons item rest ih =>
    apply ih
    rcases pulled_pullItem now follow phone item (K := K) with ⟨same, _⟩ | ⟨_, _, _, _, _, inserted⟩
    · rw [same]
      exact member
    · rw [inserted, mem_insert]
      exact .inr member

section Known

variable {known : Set Event} {phone : Phone} {follow : Follow} {items : List EnvelopeItem}

theorem verifies_of_opened {item event} (read : phone.opened K follow item = some event) : event.verifies K = true := by
  cases item with
  | event payload =>
    cases payload with
    | none => cases read
    | some =>
      rcases List.exists_of_findSome?_eq_some read with ⟨_, _, decrypted⟩
      exact verifies_of_decryptEvent decrypted
  | _ => cases read

variable (faithful : Faithful K known) (authentic : phone.Authentic K known)
  (covered : ∀ item event, item ∈ items -> phone.opened K follow item = some event -> event ∈ known)

include faithful authentic covered

variable {now : Int}

theorem author_of_syncEnvelope {id before after} (old : phone.events.lookup id = some before)
    (new : (phone.syncEnvelope K now follow items).events.lookup id = some after) :
    after.pubkey = before.pubkey := by
  rcases row_of_syncEnvelope new with same | ⟨item, event, member, read, named, author⟩
  · rw [old, some.injEq] at same
    rw [same]
  · rw [← named] at old
    rcases authentic.fields_eq faithful (covered item event member read) (verifies_of_opened read) old with
      ⟨_, storedRead, fields⟩
    rw [author, ← (columns_of_eventFromRow storedRead).2.1]
    exact (congrArg (fun signed : SignedFields => signed.pubkey) fields).symm

theorem anchors_syncEnvelope {ref} (anchored : phone.anchors follow ref = true) :
    (phone.syncEnvelope K now follow items).anchors follow ref = true := by
  rcases anchors_eq_true.mp anchored with ⟨target, row, named, found, trusted⟩
  have present : target ∈ (phone.syncEnvelope K now follow items).events :=
    mem_syncEnvelope_of_mem (mem_iff_lookup.mpr ⟨row, found⟩)
  rcases mem_iff_lookup.mp present with ⟨later, reached⟩
  refine anchors_eq_true.mpr ⟨target, later, named, reached, ?_⟩
  rw [(accounts_syncEnvelope now phone follow items).anchorAuthor,
    author_of_syncEnvelope faithful authentic covered found reached]
  exact trusted

omit covered in
theorem stored_of_fits {item event}
    (covered : ∀ item event, item ∈ items -> phone.opened K follow item = some event -> event ∈ known)
    (member : item ∈ items) (read : phone.opened K follow item = some event) (fits : phone.Fits follow event) :
    event.id ∈ (phone.syncEnvelope K now follow items).events := by
  rcases append_of_mem member with ⟨before, _, split⟩
  have early : ∀ other one, other ∈ before -> phone.opened K follow other = some one -> one ∈ known :=
    fun other one inside => covered other one (by rw [split]; exact mem_append_left _ inside)
  have accounts := accounts_syncEnvelope now phone follow before (K := K)
  have fitsThen : (phone.syncEnvelope K now follow before).Fits follow event := by
    rcases fits with source | anchored
    · exact .inl source
    · exact .inr (anchors_syncEnvelope faithful authentic early anchored)
  rw [split, ← singleton_append, syncEnvelope_append, syncEnvelope_append]
  apply mem_syncEnvelope_of_mem
  rw [syncEnvelope_eq_foldl, foldl_cons, foldl_nil]
  rcases pullItem_of_fits now ((accounts.opened follow item).trans read) fitsThen with
    ⟨_, _, inserted⟩
  rw [inserted, mem_insert]
  exact .inl rfl

end Known

theorem of_mem_syncEnvelope (member : id ∈ (phone.syncEnvelope K now follow items).events) :
    id ∈ phone.events ∨ ∃ item event, item ∈ items ∧ phone.opened K follow item = some event ∧
      event.id = id ∧
        (phone.Fits follow event ∨ phone.AnchorAmong K follow items event.ref) := by
  rcases mem_iff_lookup.mp member with ⟨row, found⟩
  rcases found_syncEnvelope found with old | ⟨earlier, item, _, event, rfl, read, named, _, fits⟩
  · exact .inl (mem_iff_lookup.mpr ⟨row, old⟩)
  · refine Or.inr ⟨item, event, mem_append_right _ mem_cons_self, read, named, ?_⟩
    rcases fits with source | anchored
    · exact .inl (.inl source)
    · rcases anchors_eq_true.mp anchored with ⟨target, row, refers, found, trusted⟩
      rw [(accounts_syncEnvelope now phone follow earlier).anchorAuthor] at trusted
      rcases row_of_syncEnvelope found with old | ⟨source, anchor, inside, sourceRead, named, author⟩
      · exact .inl (.inr (anchors_eq_true.mpr ⟨target, row, refers, old, trusted⟩))
      · rw [author] at trusted
        exact .inr ⟨target, source, anchor, refers, mem_append_left _ inside, sourceRead, named, trusted⟩

/-- The stored ids do not depend on the order, and an event with an anchor in the table or in the
envelope is kept. -/
structure OrderFree (K : EventCrypto) (now : Int) (phone : Phone) (follow : Follow)
    (items : List EnvelopeItem) : Prop where
  order : ∀ other, other.Perm items -> ∀ id, id ∈ (phone.syncEnvelope K now follow other).events ↔
      id ∈ (phone.syncEnvelope K now follow items).events
  kept : ∀ item event, item ∈ items -> phone.opened K follow item = some event -> event.pubkey ≠ follow.pubkey ->
    phone.anchors follow event.ref = true ∨ phone.AnchorAmong K follow items event.ref ->
    event.id ∈ (phone.syncEnvelope K now follow items).events

/-- Every event of a third party whose anchor is in the envelope is stored already, or its anchor
is. -/
def AnchorsStored (K : EventCrypto) (phone : Phone) (follow : Follow) (items : List EnvelopeItem) : Prop :=
  ∀ item event, item ∈ items -> phone.opened K follow item = some event ->
    event.pubkey ≠ follow.pubkey -> phone.AnchorAmong K follow items event.ref ->
    event.id ∈ phone.events ∨ phone.anchors follow event.ref = true

section Order

variable {known : Set Event} {now : Int} {phone : Phone} {follow : Follow} {items : List EnvelopeItem}
  (faithful : Faithful K known) (authentic : phone.Authentic K known)
  (covered : ∀ item event, item ∈ items -> phone.opened K follow item = some event -> event ∈ known)

include faithful authentic covered

theorem mem_syncEnvelope_iff (stored : phone.AnchorsStored K follow items) (id : String) :
    id ∈ (phone.syncEnvelope K now follow items).events ↔
      id ∈ phone.events ∨ ∃ item event, item ∈ items ∧ phone.opened K follow item = some event ∧
        event.id = id ∧ phone.Fits follow event := by
  constructor
  · intro member
    rcases of_mem_syncEnvelope member with old | ⟨item, event, inside, read, named, fits | among⟩
    · exact .inl old
    · exact .inr ⟨item, event, inside, read, named, fits⟩
    · by_cases source : event.pubkey = follow.pubkey
      · exact .inr ⟨item, event, inside, read, named, .inl source⟩
      · rcases stored item event inside read source among with old | anchored
        · exact .inl (named ▸ old)
        · exact .inr ⟨item, event, inside, read, named, .inr anchored⟩
  · rintro (old | ⟨_, _, inside, read, named, fits⟩)
    · exact mem_syncEnvelope_of_mem old
    · exact named ▸ stored_of_fits faithful authentic covered inside read fits

omit authentic in
theorem events_of_copies {event} (member : event ∈ known) (verified : event.verifies K = true)
    (unfit : ¬ phone.Fits follow event)
    (copies : ∀ item ∈ items, ∃ copy, phone.opened K follow item = some copy ∧ copy.id = event.id) :
    (phone.syncEnvelope K now follow items).events = phone.events := by
  induction items using reverseRecOn with
  | nil => rfl
  | append_singleton earlier item ih =>
    have accounts := accounts_syncEnvelope now phone follow earlier (K := K)
    have before := ih (fun other one inside => covered other one (mem_append_left _ inside))
      (fun other inside => copies other (mem_append_left _ inside))
    rw [syncEnvelope_append, syncEnvelope_eq_foldl now _ follow [item]]
    rcases pulled_pullItem now follow (phone.syncEnvelope K now follow earlier) item with
      ⟨same, _⟩ | ⟨saved, _, read, fits, _, _⟩
    · exact same.trans before
    · have inside : item ∈ earlier ++ [item] := mem_append_right _ mem_cons_self
      rw [accounts.opened] at read
      rcases copies item inside with ⟨_, copyRead, named⟩
      rw [read, some.injEq] at copyRead
      have fields : saved.toSignedFields = event.toSignedFields := by
        apply faithful.fields_of_id (covered item saved inside read) member
        rw [← Event.id_of_verifies (verifies_of_opened read), ← Event.id_of_verifies verified, copyRead, named]
      refine (unfit ?_).elim
      rcases fits with source | anchored
      · exact .inl ((congrArg (fun signed : SignedFields => signed.pubkey) fields).symm.trans source)
      · refine Or.inr ?_
        have refs : saved.ref = event.ref := congrArg (fun signed : SignedFields => signed.ref) fields
        rw [refs] at anchored
        rcases anchors_eq_true.mp anchored with ⟨target, anchor, refers, found, trusted⟩
        rw [before] at found
        rw [accounts.anchorAuthor] at trusted
        exact anchors_eq_true.mpr ⟨target, anchor, refers, found, trusted⟩

/-- The loop does not depend on the order of its items if and only if the anchors of third-party
events are in the table before it. -/
theorem orderFree_iff_anchorsStored : phone.OrderFree K now follow items ↔ phone.AnchorsStored K follow items := by
  constructor
  · intro free item event inside read foreign among
    by_cases old : event.id ∈ phone.events
    · exact .inl old
    · refine Or.inr ?_
      cases anchored : phone.anchors follow event.ref with
      | true => rfl
      | false =>
        -- with all copies of the event in front none of them finds an anchor
        let copy : EnvelopeItem -> Bool := fun other =>
          decide ((phone.opened K follow other).map Event.id = some event.id)
        have perm := filter_append_perm copy items
        have unfit : ¬ phone.Fits follow event := by
          rintro (source | found)
          · exact foreign source
          · rw [anchored] at found
            cases found
        have front : (phone.syncEnvelope K now follow (items.filter copy)).events = phone.events := by
          refine events_of_copies faithful ?_ (covered item event inside read) (verifies_of_opened read) unfit ?_
          · exact fun other one member => covered other one (mem_of_mem_filter member)
          · intro other member
            exact map_eq_some_iff.mp (of_decide_eq_true (mem_filter.mp member).2)
        have kept := (free.order _ perm event.id).mpr (free.kept item event inside read foreign (.inr among))
        rw [syncEnvelope_append] at kept
        rcases of_mem_syncEnvelope kept with present | ⟨_, _, member, otherRead, named, _⟩
        · rw [front] at present
          exact (old present).elim
        · have late := (mem_filter.mp member).2
          rw [(accounts_syncEnvelope now phone follow (items.filter copy)).opened] at otherRead
          simp only [copy, otherRead, map_some, named, decide_true, Bool.not_true, Bool.false_eq_true] at late
  · intro stored
    constructor
    · intro other perm id
      have sameItems : ∀ item, item ∈ other ↔ item ∈ items := fun item => perm.mem_iff
      have otherCovered : ∀ item event, item ∈ other -> phone.opened K follow item = some event ->
          event ∈ known := fun item event member => covered item event ((sameItems item).mp member)
      have otherStored : phone.AnchorsStored K follow other := by
        rintro item event member read foreign ⟨target, source, anchor, refers, sourceMember, rest⟩
        exact stored item event ((sameItems item).mp member) read foreign
          ⟨target, source, anchor, refers, (sameItems source).mp sourceMember, rest⟩
      rw [mem_syncEnvelope_iff faithful authentic otherCovered otherStored,
        mem_syncEnvelope_iff faithful authentic covered stored]
      simp [sameItems]
    · intro item event inside read foreign reason
      have settled : event.id ∈ phone.events ∨ phone.anchors follow event.ref = true := by
        rcases reason with anchored | among
        · exact .inr anchored
        · exact stored item event inside read foreign among
      rcases settled with old | anchored
      · exact mem_syncEnvelope_of_mem old
      · exact stored_of_fits faithful authentic covered inside read (.inr anchored)

end Order

/-! A comment of a third party on a post, both in one envelope. -/

namespace Thread

def post : Event := Small.event "1" 1 1 none []
def comment : Event := Small.event "2" 2 4 (some post.id) []
def crypto : EventCrypto := Small.crypto [post, comment] []
def source : Follow := Small.follow "1" [7]
def receiver : Phone := Small.phone [("1", [7])]
def postItem : EnvelopeItem := .event (some (encryptEvent crypto post [7] 0 0 []))
def commentItem : EnvelopeItem := .event (some (encryptEvent crypto comment [7] 0 1 []))

theorem faithful : Faithful crypto { event | event ∈ [post, comment] } := by
  refine Small.faithful (by decide) ?_
  intro event member
  rcases mem_pair.mp member with rfl | rfl <;> exact ⟨rfl, rfl⟩

theorem opened_post (phone : Phone) : phone.opened crypto source postItem = some post := by
  apply openPulled_of_current
  exact faithful.decryptEvent_encryptEvent mem_cons_self (verifies_event (by decide)) _ _ _ _

theorem opened_comment (phone : Phone) : phone.opened crypto source commentItem = some comment := by
  apply openPulled_of_current
  exact faithful.decryptEvent_encryptEvent (mem_cons_of_mem _ mem_cons_self) (verifies_event (by decide)) _ _ _ _

/-- The receiver has the post already. -/
def informed : Phone :=
  { receiver with events := receiver.events.insert post.id (eventToCompanion crypto post none false none) }

theorem authentic_informed : informed.Authentic crypto { event | event ∈ [post, comment] } := by
  constructor
  intro id row found
  rw [informed, lookup_insert_eq] at found
  split at found
  next same =>
    cases found
    exact ⟨same.symm, post, mem_cons_self, faithful.eventFromRow_eventToCompanion mem_cons_self none false none,
      verifies_event (by decide)⟩
  · cases found

/-- Newest first or oldest first, the comment on a post that is stored is kept. -/
theorem orderFree_informed : comment.id ∉ informed.events ∧
    informed.OrderFree crypto 0 source [commentItem, postItem] := by
  have apart : comment.id ≠ post.id := event_id_ne rfl rfl (by decide)
  refine ⟨fun member => ?_, (orderFree_iff_anchorsStored faithful authentic_informed ?_).mpr ?_⟩
  · rcases (AList.mem_insert _).mp member with same | none
    · exact apart same
    · cases none
  · intro item event member read
    rcases mem_pair.mp member with rfl | rfl
    · cases (opened_comment informed).symm.trans read
      exact mem_cons_of_mem _ mem_cons_self
    · cases (opened_post informed).symm.trans read
      exact mem_cons_self
  · intro item event member read foreign _
    rcases mem_pair.mp member with rfl | rfl
    · cases (opened_comment informed).symm.trans read
      exact .inr (anchors_eq_true.mpr ⟨post.id, _, rfl, lookup_insert _, rfl⟩)
    · cases (opened_post informed).symm.trans read
      exact (foreign rfl).elim

/-- Newest first, as a peer sends them, the comment is dropped; the other way round it is kept. -/
theorem comment_before_post_dropped :
    comment.id ∉ (receiver.syncEnvelope crypto 0 source [commentItem, postItem]).events ∧
      comment.id ∈ (receiver.syncEnvelope crypto 0 source [postItem, commentItem]).events := by
  have apart : comment.id ≠ post.id := event_id_ne rfl rfl (by decide)
  have own : ∀ phone : Phone, phone.Fits source post := fun _ => Or.inl rfl
  rw [syncEnvelope_eq_foldl, syncEnvelope_eq_foldl]
  simp only [foldl_cons, foldl_nil]
  constructor
  · rcases pullItem_of_fits 0 (opened_post _) (own (pullItem crypto 0 source receiver commentItem)) with
      ⟨_, _, inserted⟩
    rw [inserted, mem_insert]
    rintro (same | none)
    · exact apart same
    · cases none
  · rcases pullItem_of_fits 0 (opened_post receiver) (own receiver) with ⟨row, author, inserted⟩
    have anchored : (pullItem crypto 0 source receiver postItem).Fits source comment := by
      refine Or.inr (anchors_eq_true.mpr ⟨post.id, row, rfl, ?_, ?_⟩)
      · rw [inserted]
        exact lookup_insert _
      · rw [anchorAuthor, author, Bool.or_eq_true]
        exact .inl (decide_eq_true rfl)
    rcases pullItem_of_fits 0 (opened_comment _) anchored with ⟨_, _, stored⟩
    rw [stored, mem_insert]
    exact .inl rfl

end Thread

/-! ## Pushed envelopes -/

section Pushes

variable (K : EventCrypto)

def executed (now : Int) (phone : Phone) : List Item -> List Item
  | [] => []
  | item :: rest =>
    item ::
      if (phone.processItem K now item).threw then []
      else (phone.processItem K now item).phone.executed now rest

def storedLog (now : Int) (phone : Phone) : List Item -> List (Item × Event)
  | [] => []
  | item :: rest =>
    ((phone.stores K item).map (fun stored => (item, stored.1))).toList ++
      if (phone.processItem K now item).threw then []
      else (phone.processItem K now item).phone.storedLog now rest

end Pushes

theorem mem_storedLog_pushed {items encrypted} :
    (.pushed (some encrypted), event) ∈ phone.storedLog K now items ↔
      .pushed (some encrypted) ∈ phone.executed K now items ∧ phone.openPushed K encrypted = some event := by
  induction items generalizing phone with
  | nil => simp [storedLog, executed]
  | cons item rest ih =>
    have accounts := (writes_processItem now phone item (K := K)).accounts
    have later : (.pushed (some encrypted), event) ∈ (if (phone.processItem K now item).threw then []
          else (phone.processItem K now item).phone.storedLog K now rest) ↔
        .pushed (some encrypted) ∈ (if (phone.processItem K now item).threw then []
            else (phone.processItem K now item).phone.executed K now rest) ∧
          phone.openPushed K encrypted = some event := by
      split
      · simp
      · rw [ih, accounts.openPushed]
    have first : (.pushed (some encrypted), event) ∈
        ((phone.stores K item).map (fun stored => (item, stored.1))).toList ↔
        .pushed (some encrypted) = item ∧ phone.openPushed K encrypted = some event := by
      rw [mem_toList, map_eq_some_iff]
      constructor
      · rintro ⟨⟨_, _⟩, stored, same⟩
        rcases same with ⟨rfl, rfl⟩
        refine ⟨rfl, ?_⟩
        cases stores_eq_some stored with
        | pushed opened => exact opened
      · rintro ⟨rfl, opened⟩
        exact ⟨_, (Stores.pushed opened).eq_some, rfl⟩
    rw [storedLog, executed, mem_append, mem_cons, later, first, or_and_right]

/-- What is stored from the feed items of a pushed envelope belongs to a follow, under whose key it
was sealed, and who is named on the wrapper. -/
def FollowedOnly (K : EventCrypto) (now : Int) (phone : Phone) (items : List Item) : Prop :=
  ∀ encrypted event, (.pushed (some encrypted), event) ∈ phone.storedLog K now items ->
    encrypted.pubkey = event.pubkey ∧ ∃ entry, phone.follows.lookup event.pubkey = some entry ∧
      decryptEvent K encrypted entry.follow.feedKey = some event

/-- The wrapper of every item that opens under the key of the named follow names the signer. -/
def WrappersNameSigners (K : EventCrypto) (now : Int) (phone : Phone) (items : List Item) : Prop :=
  ∀ encrypted entry event, .pushed (some encrypted) ∈ phone.executed K now items ->
    phone.follows.lookup encrypted.pubkey = some entry ->
    decryptEvent K encrypted entry.follow.feedKey = some event -> event.pubkey = encrypted.pubkey

theorem followedOnly_iff_wrappersNameSigners (now : Int) (phone : Phone) (secretKeyLoaded : Bool)
    (envelope : List EnvelopeItem) :
    phone.FollowedOnly K now (pushedItems (secretKeyLoaded && phone.identity.isSome) envelope) ↔
      phone.WrappersNameSigners K now (pushedItems (secretKeyLoaded && phone.identity.isSome) envelope) := by
  constructor
  · intro only encrypted entry event reached found opened
    have stored := mem_storedLog_pushed.mpr ⟨reached, (show phone.openPushed K encrypted = some event by
        rw [openPushed, found, bind_eq_bind, bind_some, opened])⟩
    exact (only encrypted event stored).1.symm
  · intro honest encrypted event stored
    rcases mem_storedLog_pushed.mp stored with ⟨reached, opened⟩
    rw [openPushed, bind_eq_bind, bind_eq_some_iff] at opened
    rcases opened with ⟨entry, found, decrypted⟩
    have signer := honest encrypted entry event reached found decrypted
    exact ⟨signer.symm, entry, by rw [signer]; exact found, decrypted⟩

namespace Thread

/-- A follow wraps a comment of somebody whom we do not follow in their own name. -/
def disguised : SealedEvent := { encryptEvent crypto comment [7] 0 1 [] with pubkey := "1" }

/-- The comment of a stranger is stored from a pushed envelope. -/
theorem stranger_stored :
    comment.id ∈ (receiver.ingestPushedEnvelope crypto 0 true [.event (some disguised)]).events ∧
      comment.pubkey = "2" ∧ receiver.follows.lookup "2" = none := by
  have opened : receiver.openPushed crypto disguised = some comment := by
    have sealed := faithful.decryptEvent_encryptEvent (mem_cons_of_mem post mem_cons_self)
      (verifies_event (by decide)) [7] 0 1 []
    exact sealed
  refine ⟨?_, rfl, by decide⟩
  have table := events_processItem 0 receiver (.pushed (some disguised)) (K := crypto)
  rw [(Stores.pushed opened).eq_some] at table
  change comment.id ∈ (receiver.processItem crypto 0 (.pushed (some disguised))).phone.events
  rw [table, mem_insert]
  exact .inl rfl

end Thread

end Phone

end Starling.App
