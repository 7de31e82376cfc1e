import Starling.App.Inbox

namespace Starling.App

open List Option Table AList App.Small

/-!
# Authentic rows, and the rows that we have written ourselves

Own events are signed and stored with the bytes that go over the wire; all other rows come from
items.  Every row holds an event that verifies, and its id fixes every signed field, so a row can
be overwritten without changing them.  What an overwriting does change are the other columns: an
item that carries an event of our own takes the payload away, or the mark that it is ours.
-/

/-- An event that a service of the app publishes, under a feed key or a room key. -/
structure Draft where
  fields : SignedFields
  chainRoot : FeedKey
  epoch : Int
  msgSeq : Nat
  nonce : Bytes

inductive PhoneInput where
  | publish (draft : Draft)
  | receive (now : Int) (item : Item)

namespace Phone

section Machine

variable (K : EventCrypto) (secretKey : Bytes)

def signOwn (phone : Phone) (fields : SignedFields) : Option Event := do
  let own ← phone.identity
  signEvent K secretKey { fields with pubkey := own.pubkey }

def publish (phone : Phone) (draft : Draft) : Phone :=
  match phone.signOwn K secretKey draft.fields with
  | none => phone
  | some event =>
    phone.saveOwnEventWithEncrypted K event draft.msgSeq
      (encryptEvent K event draft.chainRoot draft.epoch draft.msgSeq draft.nonce)

def phoneStep (phone : Phone) : PhoneInput -> Except Empty Phone
  | .publish draft => .ok (phone.publish K secretKey draft)
  | .receive now item => itemStep K phone (now, item)

end Machine

def SignsFor (K : EventCrypto) (secretKey : Bytes) (pubkey : Pubkey) : Prop :=
  ∃ bytes, crockfordBase32Decode pubkey = some bytes ∧
    ∀ message, K.verify bytes message (K.sign secretKey message) = true

def Within (K : EventCrypto) (secretKey : Bytes) (known : Set Event) (phone : Phone) : PhoneInput -> Prop
  | .publish draft => ∀ event, phone.signOwn K secretKey draft.fields = some event -> event ∈ known
  | .receive _ item => Brings K known item

variable {K : EventCrypto} {secretKey : Bytes} {known : Set Event}

variable {event : Event} {phone : Phone}

theorem Authentic.upsert (faithful : Faithful K known) {next : Phone} (authentic : phone.Authentic K known)
    (member : event ∈ known) (verified : event.verifies K = true) {msgSeq isOwn}
    {payload : Option SealedEvent}
    (inserted : next.events = phone.events.insert event.id (eventToCompanion K event msgSeq isOwn payload)) :
    next.Authentic K known := by
  constructor
  rw [inserted]
  refine of_lookup_insert authentic.rows ⟨rfl, event, member, ?_, verified⟩
  exact faithful.eventFromRow_eventToCompanion member msgSeq isOwn payload

theorem Authentic.processItem (faithful : Faithful K known) (authentic : phone.Authentic K known)
    (now : Int) {item : Item} (brings : Brings K known item) :
    (phone.processItem K now item).phone.Authentic K known := by
  have table := events_processItem now phone item (K := K)
  cases stored : phone.stores K item with
  | none =>
    rw [stored] at table
    constructor
    intro id row found
    rw [table] at found
    exact authentic.rows id row found
  | some pair =>
    rcases pair with ⟨event, row⟩
    have stores := stores_eq_some stored
    rcases stores.row with ⟨_, _, _, rfl⟩
    rcases stores.decrypted with ⟨encrypted, key, wrapped, decrypted⟩
    rw [stored] at table
    exact authentic.upsert faithful (brings encrypted key event wrapped decrypted)
      (verifies_of_decryptEvent decrypted) table

theorem Authentic.phoneStep (faithful : Faithful K known) {identity : Identity}
    (keyPair : SignsFor K secretKey identity.pubkey) (phone : Phone) (input : PhoneInput) (next : Phone)
    (kept : phone.identity = some identity ∧ phone.Authentic K known)
    (within : phone.Within K secretKey known input) (stepped : phone.phoneStep K secretKey input = .ok next) :
    next.identity = some identity ∧ next.Authentic K known := by
  cases input with cases stepped
  | publish =>
    unfold publish
    split
    · exact kept
    next event signed =>
      have granted := within event signed
      rcases keyPair with ⟨_, decoded, verifies⟩
      rw [signOwn, kept.1] at signed
      exact ⟨kept.1, kept.2.upsert faithful granted (verifies_of_signEvent signed decoded verifies) rfl⟩
  | receive now item =>
    exact ⟨(writes_processItem now phone item).accounts.identity.trans kept.1,
      kept.2.processItem faithful now within⟩

/-- Stored events are authentic, keep their signed fields, and open again after they have been
sealed anew. -/
theorem stored_events_authentic (faithful : Faithful K known) {identity : Identity}
    (keyPair : SignsFor K secretKey identity.pubkey) {start middle final : Phone}
    (own : start.identity = some identity) (authentic : start.Authentic K known)
    {before after : List PhoneInput}
    (within : Along (phoneStep K secretKey) (Within K secretKey known) start (before ++ after))
    (reachedMiddle : run (phoneStep K secretKey) start before = .ok middle)
    (reachedFinal : run (phoneStep K secretKey) middle after = .ok final) :
    (∀ id row, final.events.lookup id = some row -> ∃ event, eventFromRow K row = some event ∧ event.id = id ∧
        event.id = computeEventId K event.toSignedFields ∧ event.verifies K = true) ∧
    (∀ id old new, middle.events.lookup id = some old -> final.events.lookup id = some new ->
      ∃ event later, eventFromRow K old = some event ∧ eventFromRow K new = some later ∧
        later.toSignedFields = event.toSignedFields) ∧
    (∀ id row, final.events.lookup id = some row -> ¬ (100 ≤ row.kind ∧ row.kind ≤ 103) ->
      ∀ chainRoot epoch msgSeq nonce, ∃ event reopened, eventFromRow K row = some event ∧
        decryptEvent K (encryptEvent K event chainRoot epoch msgSeq nonce) chainRoot = some reopened ∧
        reopened.id = event.id ∧ reopened.toSignedFields = event.toSignedFields) := by
  have atMiddle := run_invariant (Authentic.phoneStep faithful keyPair) ⟨own, authentic⟩ within.left reachedMiddle
  have atFinal := run_invariant (Authentic.phoneStep faithful keyPair) atMiddle
    (within.right reachedMiddle) reachedFinal
  refine ⟨?_, ?_, ?_⟩
  · intro id row found
    rcases atFinal.2.rows id row found with ⟨named, event, _, read, verified⟩
    exact ⟨event, read, (columns_of_eventFromRow read).1.trans named, Event.id_of_verifies verified, verified⟩
  · intro id old new oldFound newFound
    rcases atFinal.2.rows id new newFound with ⟨named, later, member, read, verified⟩
    have laterId : later.id = id := (columns_of_eventFromRow read).1.trans named
    rw [← laterId] at oldFound
    rcases atMiddle.2.fields_eq faithful member verified oldFound with ⟨event, eventRead, fields⟩
    exact ⟨event, later, eventRead, read, fields.symm⟩
  · intro id row found _ chainRoot epoch msgSeq nonce
    rcases atFinal.2.rows id row found with ⟨_, event, member, read, verified⟩
    exact ⟨event, event, read,
      faithful.decryptEvent_encryptEvent member verified chainRoot epoch msgSeq nonce, rfl, rfl⟩

namespace Thread

def reply : Event := Small.event "0" 3 4 (some post.id) []
def message : Event := Small.event "0" 4 102 (some "r") []
def world : EventCrypto := Small.crypto [post, reply, message] []

def pull : PhoneInput := .receive 0 (.pulled source (some (encryptEvent world post [7] 0 0 [])))
def write : PhoneInput := .publish ⟨reply.toSignedFields, [9], 0, 1, []⟩

theorem world_faithful : Faithful world { event | event ∈ [post, reply, message] } := by
  refine Small.faithful (by decide) ?_
  intro event member
  simp only [mem_cons, not_mem_nil, or_false] at member
  rcases member with rfl | rfl | rfl <;> exact ⟨rfl, rfl⟩

theorem signsFor_identity : SignsFor world [] Small.identity.pubkey := by
  have readable : (crockfordBase32Decode "0").isSome = true := by decide
  rcases isSome_iff_exists.mp readable with ⟨bytes, decoded⟩
  exact ⟨bytes, decoded, fun _ => rfl⟩

theorem within_pull (phone : Phone) : phone.Within world [] { event | event ∈ [post, reply, message] } pull := by
  intro encrypted key event wrapped decrypted
  cases wrapped
  rw [world_faithful.eq_of_decryptEvent mem_cons_self decrypted]
  exact mem_cons_self

theorem within_write {phone : Phone} (own : phone.identity = some Small.identity) :
    phone.Within world [] { event | event ∈ [post, reply, message] } write := by
  intro event signed
  rw [signOwn, own, bind_eq_bind, bind_some, signEvent, bind_eq_bind, bind_eq_some_iff] at signed
  rcases signed with ⟨_, _, whole⟩
  cases whole
  exact mem_cons_of_mem post mem_cons_self

/-- A pulled post and a reply to it are authentic rows. -/
theorem authentic_post_and_reply :
    ((finalState (phoneStep world []) receiver [pull, write]).events.lookup post.id).isSome = true ∧
    ((finalState (phoneStep world []) receiver [pull, write]).events.lookup reply.id).isSome = true ∧
    ∀ id row, (finalState (phoneStep world []) receiver [pull, write]).events.lookup id = some row ->
      ∃ event, eventFromRow world row = some event ∧ event.id = id ∧
        event.id = computeEventId world event.toSignedFields ∧ event.verifies world = true := by
  have along : Along (phoneStep world []) (Within world [] { event | event ∈ [post, reply, message] })
      receiver ([pull, write] ++ []) := by
    apply Along.cons (within_pull receiver)
    intro next stepped
    cases stepped
    exact Along.cons (within_write rfl) (fun _ _ => Along.nil)
  refine ⟨by decide, by decide, ?_⟩
  exact (stored_events_authentic world_faithful signsFor_identity rfl (authentic_phone _ _ _) along
    (run_finalState rfl) rfl).1

end Thread

/-- A row that `saveOwnEventWithEncrypted` has written. -/
def Authored (row : EventEntry) : Prop := row.isOwn = true ∧ row.encryptedPayload.isSome = true

/-- Every authored row keeps its payload, its sequence number and its mark in every state of the
run. -/
def KeepsAuthored (K : EventCrypto) (start : Phone) (inputs : List (Int × Item)) : Prop :=
  ∀ before after middle, inputs = before ++ after -> run (itemStep K) start before = .ok middle ->
    ∀ id row, start.events.lookup id = some row -> Authored row ->
      ∃ later, middle.events.lookup id = some later ∧ later.encryptedPayload = row.encryptedPayload ∧
        later.msgSeq = row.msgSeq ∧ later.isOwn = true

def NoEcho (K : EventCrypto) (start : Phone) : Phone -> Int × Item -> Prop :=
  fun phone input => ∀ event stored row, Stores K phone input.2 event stored ->
    start.events.lookup event.id = some row -> ¬ Authored row

theorem Stores.not_authored {item row} (stores : Stores K phone item event row) :
    row.id = event.id ∧ ¬ Authored row := by
  cases stores with
  | pulled | pushed => exact ⟨rfl, fun authored => nomatch authored.2⟩
  | room => exact ⟨rfl, fun authored => nomatch authored.1⟩

theorem NoEcho.keeps {start next input} (noEcho : NoEcho K start phone input)
    {id row} (found : start.events.lookup id = some row) (authored : Authored row)
    (here : phone.events.lookup id = some row) (stepped : itemStep K phone input = .ok next) :
    next.events.lookup id = some row := by
  cases stepped
  rw [events_processItem]
  cases stored : phone.stores K input.2 with
  | none => exact here
  | some pair =>
    rcases pair with ⟨event, echo⟩
    have stores := stores_eq_some stored
    rw [lookup_insert_eq]
    split
    next same =>
      rw [same, stores.not_authored.1] at found
      exact (noEcho event echo row stores found authored).elim
    · exact here

/-- Authored rows survive a run if and only if nothing that is stored on the way is one of them. -/
theorem keepsAuthored_iff_noEcho (start : Phone) (inputs : List (Int × Item)) :
    KeepsAuthored K start inputs ↔ Along (itemStep K) (NoEcho K start) start inputs := by
  constructor
  · intro keeps before input after middle split reached event stored row stores found authored
    have stepped : run (itemStep K) start (before ++ [input]) = .ok (middle.processItem K input.1 input.2).phone := by
      rw [run_append [input] reached]
      rfl
    have whole : inputs = (before ++ [input]) ++ after := by
      rw [split, append_assoc, singleton_append]
    rcases keeps (before ++ [input]) after _ whole stepped event.id row found authored with
      ⟨_, laterFound, payload, _, mark⟩
    have overwritten := stores.not_authored
    rw [events_processItem, stores.eq_some, ← overwritten.1] at laterFound
    rw [lookup_insert] at laterFound
    cases laterFound
    exact overwritten.2 ⟨mark, by rw [payload]; exact authored.2⟩
  · intro along before after middle split reached id row found authored
    have same : middle.events.lookup id = some row := by
      rw [split] at along
      have kept : ∀ phone input next, phone.events.lookup id = some row ->
          NoEcho K start phone input -> itemStep K phone input = .ok next ->
          next.events.lookup id = some row :=
        fun _ _ _ here noEcho stepped => noEcho.keeps found authored here stepped
      exact run_invariant kept found along.left reached
    exact ⟨row, same, rfl, rfl, authored.1⟩

namespace Thread

def replied : Phone :=
  (receiver.saveEvent world post 0).saveOwnEventWithEncrypted world reply 1 (encryptEvent world reply [9] 0 1 [])

def inRoom : Phone :=
  ((receiver.saveRoom "r" ⟨"", "1", 0, 0, [8], 0, 0, 2, 0, true, 0⟩).saveRoomMember "r" "0"
    ⟨0, none⟩).saveOwnEventWithEncrypted world message 1 (encryptEvent world message [8] 0 1 [])

def replyEcho : Item := .pulled source (some (encryptEvent world reply [7] 0 5 []))

def messageEcho : Item := .roomEvent (some ⟨"r", some (encryptEvent world message [8] 0 1 [])⟩)

/-- The echo of a reply takes its payload and its number; the echo of a message in a room takes
the mark that it is ours. -/
theorem echo_degrades_own_rows :
    ¬ KeepsAuthored world replied [(0, replyEcho)] ∧ ¬ KeepsAuthored world inRoom [(0, messageEcho)] := by
  constructor
  · intro keeps
    rcases keeps [(0, replyEcho)] [] _ rfl rfl reply.id _ (lookup_insert _) ⟨rfl, rfl⟩ with
      ⟨_, found, payload, _, _⟩
    cases (lookup_insert _).symm.trans found
    cases payload
  · intro keeps
    rcases keeps [(0, messageEcho)] [] _ rfl rfl message.id _ (lookup_insert _) ⟨rfl, rfl⟩ with
      ⟨_, found, _, _, own⟩
    have table := events_processItem 0 inRoom messageEcho (K := world)
    rw [table] at found
    cases (lookup_insert _).symm.trans found
    cases own

end Thread

end Phone

end Starling.App
