import Starling.App.Handshake
import Starling.Wire.Signature
import Mathlib.Data.List.Nodup
import Mathlib.Data.Set.Function

namespace Starling.App

open List

/-!
# Signed events, their wire form and their rows

An event is signed over its id, and its id is a digest of all other fields.  The event is
encrypted as one CBOR map, opened with the checks of `decryptEvent`, and stored in columns of
its own, with the media references as JSON and the extensions as CBOR.  The primitives and the
encodings are a parameter.  What `cbor.decode` gives for the bytes of an attacker can be
anything, so the reader of a map works on dynamic values and may fail at every field.
-/

/-- A key of a decoded map.  One that is no string counts by what `toString` gives for it. -/
inductive DynamicKey where
  | text (value : String)
  | other (shown : String)

def DynamicKey.shown : DynamicKey -> String
  | .text value => value
  | .other shown => shown

/-- A value as `cbor.decode` returns it. -/
inductive Dynamic where
  | null
  | int (value : Int)
  | text (value : String)
  | bytes (value : Bytes)
  | list (items : List Dynamic)
  | map (entries : List (DynamicKey × Dynamic))
  /-- Anything else: a double, a boolean, a date, a number that is too large. -/
  | other

namespace Dynamic

/-- `map[key]`, which is null when the key is missing. -/
def entry (key : String) : List (DynamicKey × Dynamic) -> Dynamic
  | [] => .null
  | (.text name, value) :: rest => if name = key then value else entry key rest
  | (.other _, _) :: rest => entry key rest

/-- `as String`; `none` stands for the `TypeError`. -/
def asText : Dynamic -> Option String
  | .text value => some value
  | _ => none

/-- `as String?`. -/
def asOptionalText : Dynamic -> Option (Option String)
  | .null => some none
  | .text value => some (some value)
  | _ => none

/-- `as int`. -/
def asInt : Dynamic -> Option Int
  | .int value => some value
  | _ => none

/-- `as List<dynamic>`. -/
def asList : Dynamic -> Option (List Dynamic)
  | .list items => some items
  | _ => none

/-- `as Map<dynamic, dynamic>`. -/
def asMap : Dynamic -> Option (List (DynamicKey × Dynamic))
  | .map entries => some entries
  | _ => none

/-- `_toUint8List`: a list of numbers counts as bytes, each number modulo 256. -/
def toUint8List : Dynamic -> Option Bytes
  | .bytes value => some value
  | .list items =>
    items.mapM (fun item => item.asInt.map (fun number => UInt8.ofNat (number % 256).toNat))
  | _ => none

/-! The value that comes back for what was encoded, if nothing is lost. -/

mutual

def ofCbor : Wire.Cbor -> Dynamic
  | .int value => .int value
  | .text value => .text value
  | .bytes value => .bytes value
  | .array items => .list (ofCborItems items)
  | .map entries => .map (ofCborEntries entries)

def ofCborItems : List Wire.Cbor -> List Dynamic
  | [] => []
  | item :: rest => ofCbor item :: ofCborItems rest

def ofCborEntries : List (String × Wire.Cbor) -> List (DynamicKey × Dynamic)
  | [] => []
  | (key, value) :: rest => (.text key, ofCbor value) :: ofCborEntries rest

end

end Dynamic

/-- `map[key] = value` in a Dart map: a key keeps the place where it first came. -/
def putExtension (entries : List (String × Bytes)) (key : String) (value : Bytes) : List (String × Bytes) :=
  match entries with
  | [] => [(key, value)]
  | (name, old) :: rest =>
    if name = key then (name, value) :: rest else (name, old) :: putExtension rest key value

variable {entries : List (String × Bytes)} {chainRoot : FeedKey}

theorem mem_keys_putExtension {key name value} : name ∈ (putExtension entries key value).map Prod.fst ↔
      name ∈ entries.map Prod.fst ∨ name = key := by
  induction entries with
  | nil => simp [putExtension]
  | cons entry rest ih =>
    rw [putExtension]
    split
    next same =>
      simp only [map_cons, mem_cons]
      constructor
      · exact .inl
      · rintro (found | rfl)
        · exact found
        · exact .inl same.symm
    · simp [ih, or_assoc]

theorem putExtension_nodup (distinct : (entries.map Prod.fst).Nodup) (key value) :
    ((putExtension entries key value).map Prod.fst).Nodup := by
  induction entries with
  | nil => simp [putExtension]
  | cons entry rest ih =>
    rw [map_cons, nodup_cons] at distinct
    rw [putExtension]
    split
    · rw [map_cons, nodup_cons]
      exact distinct
    next other =>
      rw [map_cons, nodup_cons, mem_keys_putExtension]
      refine ⟨?_, ih distinct.2⟩
      rintro (found | same)
      · exact distinct.1 found
      · exact other same

theorem putExtension_new {key value} (fresh : key ∉ entries.map Prod.fst) :
    putExtension entries key value = entries ++ [(key, value)] := by
  induction entries with
  | nil => rfl
  | cons entry rest ih =>
    rw [map_cons, mem_cons, not_or] at fresh
    rw [putExtension, if_neg (Ne.symm fresh.1), ih fresh.2, cons_append]

def collectExtensions (entries : List (String × Bytes)) : List (String × Bytes) :=
  entries.foldl (fun map entry => putExtension map entry.1 entry.2) []

theorem collectExtensions_nodup (entries) : ((collectExtensions entries).map Prod.fst).Nodup := by
  have turns : ∀ start : List (String × Bytes), (start.map Prod.fst).Nodup ->
      ((entries.foldl (fun map entry => putExtension map entry.1 entry.2) start).map Prod.fst).Nodup := by
    induction entries with
    | nil => exact fun _ distinct => distinct
    | cons entry rest ih =>
      intro start distinct
      exact ih _ (putExtension_nodup distinct entry.1 entry.2)
  exact turns [] nodup_nil

theorem collectExtensions_of_nodup (distinct : (entries.map Prod.fst).Nodup) : collectExtensions entries = entries := by
  have turns : ∀ rest start : List (String × Bytes), ((start ++ rest).map Prod.fst).Nodup ->
      rest.foldl (fun map entry => putExtension map entry.1 entry.2) start = start ++ rest := by
    intro rest
    induction rest with
    | nil => exact fun start _ => (append_nil start).symm
    | cons entry later ih =>
      intro start separate
      have fresh : entry.1 ∉ start.map Prod.fst := by
        rw [map_append] at separate
        exact fun found => (nodup_append.mp separate).2.2 _ found _ mem_cons_self rfl
      rw [foldl_cons, putExtension_new fresh, ih, append_assoc]
      · rfl
      · rw [append_assoc]
        exact separate
  exact turns entries [] distinct

deriving instance DecidableEq for Wire.MediaRef
deriving instance DecidableEq for Wire.Event

/-- The signed fields.  The extensions are a map, so their names are distinct. -/
structure SignedFields extends Wire.Event where
  distinct : (extensions.map Prod.fst).Nodup
  deriving DecidableEq

/-- An event with its id and its signature.  The local sequence number of `Event` stands in the
rows only. -/
structure Event extends SignedFields where
  id : String
  sig : Bytes
  deriving DecidableEq

/-- `isRoomScoped`. -/
def Event.roomScoped (event : Event) : Bool := decide (100 ≤ event.kind ∧ event.kind ≤ 103)

def extensionsToSerializable (extensions : List (String × Bytes)) : Wire.Cbor :=
  .map (extensions.map (fun entry => (entry.1, .bytes entry.2)))

def Event.toMap (event : Event) : Wire.Cbor :=
  .map ([("version", .text event.version), ("id", .text event.id), ("pubkey", .text event.pubkey),
      ("created_at", .int event.createdAt), ("kind", .int event.kind)] ++
    (match event.ref with
      | some ref => [("ref", .text ref)]
      | none => []) ++
    [("content", .bytes event.content), ("media", .array (event.media.map Wire.MediaRef.toMap)),
      ("extensions", extensionsToSerializable event.extensions), ("sig", .bytes event.sig)])

/-- `MediaRef.fromMap`. -/
def mediaRefFromMap (value : Dynamic) : Option Wire.MediaRef := do
  let entries ← value.asMap
  let hash ← (Dynamic.entry "hash" entries).asText
  let mimeType ← (Dynamic.entry "mime_type" entries).asText
  let size ← (Dynamic.entry "size" entries).asInt
  some ⟨hash, mimeType, size⟩

/-- `_extensionsFromMap`: null and values that are no map count as no extensions. -/
def extensionsFromMap (value : Dynamic) : Option { entries : List (String × Bytes) // (entries.map Prod.fst).Nodup } :=
  match value with
  | .map entries => do
      let values ← entries.mapM (fun entry => entry.2.toUint8List.map (fun bytes => (entry.1.shown, bytes)))
      some ⟨collectExtensions values, collectExtensions_nodup values⟩
  | _ => some ⟨[], nodup_nil⟩

/-- The fields of `fromMap` that are signed. -/
def SignedFields.fromMap (entries : List (DynamicKey × Dynamic)) : Option SignedFields := do
  let version ← (Dynamic.entry "version" entries).asText
  let pubkey ← (Dynamic.entry "pubkey" entries).asText
  let createdAt ← (Dynamic.entry "created_at" entries).asInt
  let kind ← (Dynamic.entry "kind" entries).asInt
  let ref ← (Dynamic.entry "ref" entries).asOptionalText
  let content ← (Dynamic.entry "content" entries).toUint8List
  let items ← (Dynamic.entry "media" entries).asList
  let media ← items.mapM mediaRefFromMap
  let extensions ← extensionsFromMap (Dynamic.entry "extensions" entries)
  some ⟨⟨version, pubkey, createdAt, kind, ref, content, media, extensions.val⟩, extensions.property⟩

def Event.fromMap (entries : List (DynamicKey × Dynamic)) : Option Event := do
  let fields ← SignedFields.fromMap entries
  let id ← (Dynamic.entry "id" entries).asText
  let sig ← (Dynamic.entry "sig" entries).toUint8List
  some ⟨fields, id, sig⟩

theorem mapM_mediaRefFromMap (media) :
    (Dynamic.ofCborItems (media.map Wire.MediaRef.toMap)).mapM mediaRefFromMap = some media := by
  induction media with
  | nil => rfl
  | cons first rest ih =>
    rw [map_cons, Dynamic.ofCborItems, mapM_cons, ih]
    rfl

theorem extensionsFromMap_ofCbor {extensions} (distinct) :
    extensionsFromMap (Dynamic.ofCbor (extensionsToSerializable extensions)) = some ⟨extensions, distinct⟩ := by
  have values : (Dynamic.ofCborEntries (extensions.map (fun entry => (entry.1, .bytes entry.2)))).mapM
      (fun entry => entry.2.toUint8List.map (fun bytes => (entry.1.shown, bytes))) = some extensions := by
    clear distinct
    induction extensions with
    | nil => rfl
    | cons first rest ih =>
      rw [map_cons, Dynamic.ofCborEntries, mapM_cons, ih]
      rfl
  simp only [extensionsToSerializable, Dynamic.ofCbor, extensionsFromMap, values, Option.bind_eq_bind,
    Option.bind_some, Option.some.injEq]
  exact Subtype.ext (collectExtensions_of_nodup distinct)

structure SignedFields.StandIn (fields : SignedFields) (entries : List (DynamicKey × Dynamic)) : Prop where
  version : Dynamic.entry "version" entries = .text fields.version
  pubkey : Dynamic.entry "pubkey" entries = .text fields.pubkey
  createdAt : Dynamic.entry "created_at" entries = .int fields.createdAt
  kind : Dynamic.entry "kind" entries = .int fields.kind
  ref : (Dynamic.entry "ref" entries).asOptionalText = some fields.ref
  content : Dynamic.entry "content" entries = .bytes fields.content
  media : Dynamic.entry "media" entries = .list (Dynamic.ofCborItems (fields.media.map Wire.MediaRef.toMap))
  extensions : Dynamic.entry "extensions" entries = Dynamic.ofCbor (extensionsToSerializable fields.extensions)

theorem SignedFields.StandIn.fromMap {fields entries}
    (stand : fields.StandIn entries) : fromMap entries = some fields := by
  simp only [SignedFields.fromMap, stand.version, stand.pubkey, stand.createdAt, stand.kind, stand.ref,
    stand.content, stand.media, stand.extensions, Dynamic.asText, Dynamic.asInt, Dynamic.asList,
    Dynamic.toUint8List, mapM_mediaRefFromMap, extensionsFromMap_ofCbor fields.distinct,
    Option.bind_eq_bind, Option.bind_some]

theorem SignedFields.fromMap_toIdFields (fields) :
    ∃ entries, Dynamic.ofCbor fields.toIdFields = .map entries ∧ fromMap entries = some fields := by
  rcases fields with ⟨⟨_, _, _, _, ref, _, _, _⟩, _⟩
  refine ⟨_, rfl, StandIn.fromMap ?_⟩
  cases ref with
  | none | some => exact ⟨rfl, rfl, rfl, rfl, rfl, rfl, rfl, rfl⟩

theorem Event.fromMap_toMap (event) :
    ∃ entries, Dynamic.ofCbor event.toMap = .map entries ∧ fromMap entries = some event := by
  rcases event with
    ⟨⟨⟨_, _, _, _, ref, _, _, _⟩, _⟩, _, _⟩
  refine ⟨_, rfl, ?_⟩
  rw [fromMap]
  cases ref with
  | _ =>
    rw [SignedFields.StandIn.fromMap ⟨rfl, rfl, rfl, rfl, rfl, rfl, rfl, rfl⟩]
    rfl

/-- The primitives and the encodings.  `verify` is also false where the library throws, for a
key or a signature of another length. -/
structure EventCrypto where
  cborEncode : Wire.Cbor -> Bytes
  cborDecode : Bytes -> Option Dynamic
  jsonEncode : List Wire.MediaRef -> String
  jsonDecode : String -> Option (List Wire.MediaRef)
  blake2b256 : Bytes -> Bytes32
  sign : Bytes -> Bytes -> Bytes
  verify : Bytes -> Bytes -> Bytes -> Bool

variable (K : EventCrypto)

def computeEventId (fields : SignedFields) : String :=
  crockfordBase32Encode (K.blake2b256 (K.cborEncode fields.toIdFields)).val

/-- The two checks of `decryptEvent`.  A text that is no base32 makes them fail. -/
def Event.verifies (event : Event) : Bool :=
  decide (event.id = computeEventId K event.toSignedFields) &&
    match crockfordBase32Decode event.id, crockfordBase32Decode event.pubkey with
    | some idBytes, some pubkeyBytes => K.verify pubkeyBytes idBytes event.sig
    | _, _ => false

def Event.toBytes (event : Event) : Bytes := K.cborEncode event.toMap

def Event.fromBytes (bytes : Bytes) : Option Event := do
  let decoded ← K.cborDecode bytes
  let entries ← decoded.asMap
  Event.fromMap entries

/-- `signAndEncryptForAudience` and `signAndEncryptForRoom` up to the encryption. -/
def signEvent (secretKey : Bytes) (fields : SignedFields) : Option Event := do
  let id := computeEventId K fields
  let idBytes ← crockfordBase32Decode id
  some ⟨fields, id, K.sign secretKey idBytes⟩

/-- An `EncryptedEvent` with its payload, which opens under one chain root and sequence
number.  All other fields are readable and nothing protects them. -/
structure SealedEvent where
  pubkey : Pubkey
  createdAt : Int
  epoch : Int
  msgSeq : Int
  nonce : Bytes
  payload : Ciphertext Sealing Bytes Bytes
  deriving DecidableEq

def encryptEvent (event : Event) (chainRoot : FeedKey) (epoch : Int) (msgSeq : Nat) (nonce : Bytes) : SealedEvent where
  pubkey := event.pubkey
  createdAt := event.createdAt
  epoch := epoch
  msgSeq := msgSeq
  nonce := nonce
  payload := .box ⟨⟨chainRoot, msgSeq⟩, nonce, event.toBytes K⟩

/-- `deriveMsgKey` refuses negative sequence numbers. -/
def decryptEvent (encrypted : SealedEvent) (chainRoot : FeedKey) : Option Event :=
  if encrypted.msgSeq < 0 then none
  else do
    let serialized ← encrypted.payload.decrypt ⟨chainRoot, encrypted.msgSeq.toNat⟩ encrypted.nonce
    let event ← Event.fromBytes K serialized
    if event.verifies K then some event else none

variable {K}

/-- What `decryptEvent` returns was sealed under that chain root and passes both checks. -/
theorem decryptEvent_eq_some {encrypted event} : decryptEvent K encrypted chainRoot = some event ↔
      0 ≤ encrypted.msgSeq ∧ ∃ serialized,
        encrypted.payload = .box ⟨⟨chainRoot, encrypted.msgSeq.toNat⟩, encrypted.nonce, serialized⟩ ∧
          Event.fromBytes K serialized = some event ∧ event.verifies K = true := by
  rw [decryptEvent]
  split
  next =>
    constructor
    · rintro ⟨⟩
    · rintro ⟨_, _⟩
      omega
  next =>
    rw [Option.bind_eq_bind, Option.bind_eq_some_iff]
    constructor
    · rintro ⟨serialized, opened, rest⟩
      rw [Option.bind_eq_bind, Option.bind_eq_some_iff] at rest
      rcases rest with ⟨_, read, checked⟩
      split at checked
      next verified =>
        cases checked
        exact ⟨by omega, serialized, Ciphertext.decrypt_eq_some.mp opened, read, verified⟩
      · cases checked
    · rintro ⟨_, serialized, sealed, read, verified⟩
      refine ⟨serialized, Ciphertext.decrypt_eq_some.mpr sealed, ?_⟩
      rw [read, Option.bind_eq_bind, Option.bind_some, if_pos verified]

theorem verifies_of_decryptEvent {encrypted event}
    (opened : decryptEvent K encrypted chainRoot = some event) : event.verifies K = true := by
  rcases decryptEvent_eq_some.mp opened with ⟨_, _, _, _, verified⟩
  exact verified

theorem chainRoot_of_decryptEvent {event opened key epoch msgSeq nonce}
    (decrypted : decryptEvent K (encryptEvent K event chainRoot epoch msgSeq nonce) key = some opened) :
    key = chainRoot := by
  rcases decryptEvent_eq_some.mp decrypted with ⟨_, _, sealed, _⟩
  injection sealed with sealed
  injection sealed with keys
  injection keys with root
  exact root.symm

theorem Event.id_of_verifies {event : Event} (verified : event.verifies K = true) :
    event.id = computeEventId K event.toSignedFields := by
  rw [verifies, Bool.and_eq_true] at verified
  exact of_decide_eq_true verified.1

theorem verifies_of_signEvent {secretKey fields event} (signed : signEvent K secretKey fields = some event)
    {pubkeyBytes} (decoded : crockfordBase32Decode fields.pubkey = some pubkeyBytes)
    (keyPair : ∀ message, K.verify pubkeyBytes message (K.sign secretKey message) = true) :
    event.verifies K = true := by
  rw [signEvent, Option.bind_eq_bind, Option.bind_eq_some_iff] at signed
  rcases signed with ⟨_, readable, whole⟩
  cases whole
  simp [Event.verifies, readable, decoded, keyPair]

/-- A row of `event_entries`. -/
structure EventEntry where
  id : String
  pubkey : Pubkey
  createdAt : Int
  kind : Int
  refId : Option String
  content : Bytes
  mediaRefs : Option String
  sig : Bytes
  isOwn : Bool
  version : String
  extensions : Option Bytes
  msgSeq : Option Int
  encryptedPayload : Option SealedEvent
  deriving DecidableEq

variable (K)

def encodeMediaRefs (media : List Wire.MediaRef) : Option String :=
  if media = [] then none else some (K.jsonEncode media)

def decodeMediaRefs (json : Option String) : Option (List Wire.MediaRef) :=
  match json with
  | none => some []
  | some text => if text = "" then some [] else K.jsonDecode text

def encodeExtensions (extensions : List (String × Bytes)) : Option Bytes :=
  if extensions = [] then none else some (K.cborEncode (extensionsToSerializable extensions))

def decodeExtensions (blob : Option Bytes) :
    Option { entries : List (String × Bytes) // (entries.map Prod.fst).Nodup } :=
  match blob with
  | none => some ⟨[], nodup_nil⟩
  | some bytes => if bytes = [] then some ⟨[], nodup_nil⟩ else do
      let decoded ← K.cborDecode bytes
      extensionsFromMap decoded

def eventToCompanion (event : Event) (msgSeq : Option Int) (isOwn : Bool)
    (encryptedPayload : Option SealedEvent) : EventEntry where
  id := event.id
  pubkey := event.pubkey
  createdAt := event.createdAt
  kind := event.kind
  refId := event.ref
  content := event.content
  mediaRefs := encodeMediaRefs K event.media
  sig := event.sig
  isOwn := isOwn
  version := event.version
  extensions := encodeExtensions K event.extensions
  msgSeq := msgSeq
  encryptedPayload := encryptedPayload

def eventFromRow (row : EventEntry) : Option Event := do
  let media ← decodeMediaRefs K row.mediaRefs
  let extensions ← decodeExtensions K row.extensions
  some ⟨⟨⟨row.version, row.pubkey, row.createdAt, row.kind, row.refId, row.content, media,
    extensions.val⟩, extensions.property⟩, row.id, row.sig⟩

variable {K}

theorem columns_of_eventFromRow {row event} (read : eventFromRow K row = some event) :
    event.id = row.id ∧ event.pubkey = row.pubkey ∧ event.kind = row.kind ∧ event.ref = row.refId := by
  rw [eventFromRow, Option.bind_eq_bind, Option.bind_eq_some_iff] at read
  rcases read with ⟨_, _, rest⟩
  rw [Option.bind_eq_bind, Option.bind_eq_some_iff] at rest
  rcases rest with ⟨_, _, whole⟩
  cases whole
  exact ⟨rfl, rfl, rfl, rfl⟩

/-! ## Encodings that lose nothing -/

/-- The encodings are lossless and the digest has no collision, on some events. -/
structure Faithful (K : EventCrypto) (events : Set Event) : Prop where
  event : ∀ event ∈ events, K.cborDecode (event.toBytes K) = some (Dynamic.ofCbor event.toMap)
  idFields : ∀ event ∈ events, K.cborDecode (K.cborEncode event.toIdFields) = some (Dynamic.ofCbor event.toIdFields)
  extensions : ∀ event ∈ events, K.cborEncode (extensionsToSerializable event.extensions) ≠ [] ∧
      K.cborDecode (K.cborEncode (extensionsToSerializable event.extensions)) =
        some (Dynamic.ofCbor (extensionsToSerializable event.extensions))
  media : ∀ event ∈ events, K.jsonEncode event.media ≠ "" ∧
    K.jsonDecode (K.jsonEncode event.media) = some event.media
  collisionFree : Set.InjOn K.blake2b256
    { bytes | ∃ event ∈ events, K.cborEncode event.toIdFields = bytes }

namespace Faithful

variable {events : Set Event} (faithful : Faithful K events)
include faithful

theorem fields_of_id {left right} (leftKnown : left ∈ events) (rightKnown : right ∈ events)
    (same : computeEventId K left.toSignedFields = computeEventId K right.toSignedFields) :
    left.toSignedFields = right.toSignedFields := by
  have digests := Subtype.ext (crockfordBase32Encode_injective same)
  have encodings : K.cborEncode left.toIdFields = K.cborEncode right.toIdFields :=
    faithful.collisionFree ⟨left, leftKnown, rfl⟩ ⟨right, rightKnown, rfl⟩ digests
  have maps := faithful.idFields left leftKnown
  rw [encodings, faithful.idFields right rightKnown, Option.some.injEq] at maps
  rcases left.fromMap_toIdFields with ⟨_, leftMap, leftRead⟩
  rcases right.fromMap_toIdFields with ⟨_, rightMap, rightRead⟩
  rw [leftMap, rightMap, Dynamic.map.injEq] at maps
  rw [maps, leftRead, Option.some.injEq] at rightRead
  exact rightRead

theorem fromBytes_toBytes {event} (known : event ∈ events) : Event.fromBytes K (event.toBytes K) = some event := by
  rcases event.fromMap_toMap with ⟨_, map, read⟩
  rw [Event.fromBytes, faithful.event event known, map]
  exact read

theorem decryptEvent_encryptEvent {event} (known : event ∈ events)
    (verified : event.verifies K = true) (chainRoot epoch msgSeq nonce) :
    decryptEvent K (encryptEvent K event chainRoot epoch msgSeq nonce) chainRoot = some event := by
  refine decryptEvent_eq_some.mpr ⟨Int.natCast_nonneg msgSeq, event.toBytes K, rfl, ?_, verified⟩
  exact faithful.fromBytes_toBytes known

theorem eq_of_decryptEvent {event opened} (known : event ∈ events) {chainRoot key epoch msgSeq nonce}
    (decrypted : decryptEvent K (encryptEvent K event chainRoot epoch msgSeq nonce) key = some opened) :
    opened = event := by
  rcases decryptEvent_eq_some.mp decrypted with ⟨_, _, sealed, read, _⟩
  injection sealed with sealed
  injection sealed with _ _ contents
  rw [← contents, faithful.fromBytes_toBytes known, Option.some.injEq] at read
  exact read.symm

theorem eventFromRow_eventToCompanion {event} (known : event ∈ events) (msgSeq isOwn payload) :
    eventFromRow K (eventToCompanion K event msgSeq isOwn payload) = some event := by
  have media : decodeMediaRefs K (encodeMediaRefs K event.media) = some event.media := by
    rw [encodeMediaRefs]
    split
    next none => rw [none, decodeMediaRefs]
    · rw [decodeMediaRefs, if_neg (faithful.media event known).1, (faithful.media event known).2]
  have extensions : decodeExtensions K (encodeExtensions K event.extensions) =
      some ⟨event.extensions, event.distinct⟩ := by
    rw [encodeExtensions]
    split
    next none =>
      rw [decodeExtensions, Option.some.injEq]
      exact Subtype.ext none.symm
    · rw [decodeExtensions, if_neg (faithful.extensions event known).1,
        (faithful.extensions event known).2, Option.bind_eq_bind, Option.bind_some,
        extensionsFromMap_ofCbor event.distinct]
  rw [eventFromRow]
  simp [eventToCompanion, media, extensions]

end Faithful

/-! ## A small world -/

/-! The runs on fixed inputs use a world with a few events, told apart by their second, and with
a codec that keeps a table of what it has encoded. -/

namespace Small

def second : Wire.Cbor -> Option Int
  | .map entries =>
    match (entries.find? (fun entry => entry.1 = "created_at")).map Prod.snd with
    | some (.int value) => some value
    | _ => none
  | _ => none

def signed : Wire.Cbor -> Bool
  | .map entries => entries.any (fun entry => entry.1 = "sig")
  | _ => false

def encode (value : Wire.Cbor) : Bytes :=
  match second value with
  | some number => [if signed value then 1 else 2, UInt8.ofNat number.toNat]
  | none => [3]

def digest (bytes : Bytes) : Bytes32 := Bytes32.fill (bytes.getLastD 0)

def decode (events : List Event) (contents : List (Bytes × Dynamic)) (bytes : Bytes) : Option Dynamic :=
  match bytes with
  | [3] => some (.map [])
  | [shape, number] =>
    if shape = 1 then
      (events.find? (fun event => UInt8.ofNat event.createdAt.toNat = number)).map
        (fun event => Dynamic.ofCbor event.toMap)
    else if shape = 2 then
      (events.find? (fun event => UInt8.ofNat event.createdAt.toNat = number)).map
        (fun event => Dynamic.ofCbor event.toIdFields)
    else (contents.find? (fun content => content.1 = bytes)).map Prod.snd
  | _ => none

def crypto (events : List Event) (contents : List (Bytes × Dynamic)) : EventCrypto where
  cborEncode := encode
  cborDecode := decode events contents
  jsonEncode := fun _ => "[]"
  jsonDecode := fun _ => some []
  blake2b256 := digest
  sign := fun _ _ => []
  verify := fun _ _ _ => true

def event (pubkey : Pubkey) (createdAt : Int) (kind : Int) (ref : Option String) (content : Bytes) : Event :=
  let fields : SignedFields := ⟨⟨"1", pubkey, createdAt, kind, ref, content, [], []⟩, nodup_nil⟩
  ⟨fields, computeEventId (crypto [] []) fields, []⟩

theorem encode_toMap (one : Event) : encode one.toMap = [1, UInt8.ofNat one.createdAt.toNat] := by
  rcases one with ⟨⟨⟨_, _, _, _, ref, _, _, _⟩, _⟩, _, _⟩
  cases ref with
  | none | some => rfl

theorem encode_toIdFields (one : Event) : encode one.toIdFields = [2, UInt8.ofNat one.createdAt.toNat] := by
  rcases one with ⟨⟨⟨_, _, _, _, ref, _, _, _⟩, _⟩, _, _⟩
  cases ref with
  | none | some => rfl

variable {events : List Event}

theorem find_second {one} (member : one ∈ events)
    (apart : (events.map (fun event => UInt8.ofNat event.createdAt.toNat)).Nodup) :
    events.find? (fun event => UInt8.ofNat event.createdAt.toNat = UInt8.ofNat one.createdAt.toNat) = some one := by
  cases found : events.find? (fun event =>
      decide (UInt8.ofNat event.createdAt.toNat = UInt8.ofNat one.createdAt.toNat)) with
  | none =>
    rw [List.find?_eq_none] at found
    exact (found one member (decide_eq_true rfl)).elim
  | some other =>
    have same : UInt8.ofNat other.createdAt.toNat = UInt8.ofNat one.createdAt.toNat := by
      simpa using List.find?_some found
    rw [inj_on_of_nodup_map apart (mem_of_find?_eq_some found) member same]

theorem faithful {contents} (apart : (events.map (fun event => UInt8.ofNat event.createdAt.toNat)).Nodup)
    (plain : ∀ event ∈ events, event.media = [] ∧ event.extensions = []) :
    Faithful (crypto events contents) { event | event ∈ events } where
  event := by
    intro one member
    change decode events contents (encode one.toMap) = _
    rw [encode_toMap]
    simp [decode, find_second member apart]
  idFields := by
    intro one member
    change decode events contents (encode one.toIdFields) = _
    rw [encode_toIdFields]
    simp [decode, show ¬ (2 : UInt8) = 1 by decide, find_second member apart]
  extensions := by
    intro one member
    rw [(plain one member).2]
    exact ⟨cons_ne_nil 3 [], rfl⟩
  media := by
    intro one member
    rw [(plain one member).1]
    have brackets : "[]" ≠ "" := by decide
    exact ⟨brackets, rfl⟩
  collisionFree := by
    rintro _ ⟨left, _, rfl⟩ _ ⟨right, _, rfl⟩ same
    change digest (encode left.toIdFields) = digest (encode right.toIdFields) at same
    change encode left.toIdFields = encode right.toIdFields
    rw [encode_toIdFields, encode_toIdFields] at same ⊢
    have heads := congrArg (fun bytes : Bytes32 => bytes.val.head?) same
    have seconds : UInt8.ofNat left.createdAt.toNat = UInt8.ofNat right.createdAt.toNat := by
      simpa [digest, Bytes32.fill] using heads
    rw [seconds]

theorem verifies_event {contents pubkey createdAt kind ref content}
    (author : (crockfordBase32Decode pubkey).isSome = true) :
    (event pubkey createdAt kind ref content).verifies (crypto events contents) = true := by
  rcases Option.isSome_iff_exists.mp author with ⟨pubkeyBytes, key⟩
  have idDecoded : crockfordBase32Decode (event pubkey createdAt kind ref content).id = some _ :=
    crockfordBase32Decode_encode _
  have keyDecoded : crockfordBase32Decode (event pubkey createdAt kind ref content).pubkey = some pubkeyBytes := key
  rw [Event.verifies, idDecoded, keyDecoded, Bool.and_eq_true]
  exact ⟨decide_eq_true rfl, rfl⟩

theorem event_id_ne {left right : Event} (leftId : left.id = computeEventId (crypto [] []) left.toSignedFields)
    (rightId : right.id = computeEventId (crypto [] []) right.toSignedFields)
    (apart : UInt8.ofNat left.createdAt.toNat ≠ UInt8.ofNat right.createdAt.toNat) : left.id ≠ right.id := by
  rw [leftId, rightId]
  intro same
  have digests : digest (encode left.toIdFields) = digest (encode right.toIdFields) :=
    Subtype.ext (crockfordBase32Encode_injective same)
  rw [encode_toIdFields, encode_toIdFields] at digests
  have heads := congrArg (fun bytes : Bytes32 => bytes.val.head?) digests
  exact apart (by simpa [digest, Bytes32.fill] using heads)

end Small

end Starling.App
