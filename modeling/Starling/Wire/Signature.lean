import Starling.Wire.Bytes
import Mathlib.Data.Set.Function

namespace Starling.Wire

open List

/-!
# Digests and signatures of the Owner

`sig.rs` and `pairing.rs` of the wire crate, and the event ids of the phone.  One
Ed25519 key signs three kinds of digests: event ids, pairing claims and bound
requests.  The primitives themselves are a parameter.  The lemmas say that the
three kinds of preimages are never equal and that the preimage of a bound request
determines the request.
-/

/-- `i64`. -/
abbrev I64 := BitVec 64

/-- The primitives.  `verifyStrict` covers the parsing of the key as well. -/
structure Crypto where
  blake2b256 : Bytes -> Bytes32
  verifyStrict : Bytes32 -> Bytes -> Bytes -> Bool

def ascii (text : String) : Bytes := text.toList.map (fun character => UInt8.ofNat character.toNat)

/-- The byte `/`. -/
def slash : UInt8 := 47

/-! ## sig.rs -/

section

variable (K : Crypto)

def verifyEd25519 (pubkey msg sig : Bytes) : Bool :=
  match Bytes32.ofBytes pubkey with
  | none => false
  | some pk => if sig.length = 64 then K.verifyStrict pk msg sig else false

/-- The legacy scheme: a signature over the digest of the body. -/
def verifyOwnerSig (pubkey body sig : Bytes) : Bool := verifyEd25519 K pubkey (K.blake2b256 body).val sig

def ownerReqDomain : Bytes := ascii "starling-owner-req-v1"

/-- What `owner_request_digest` hashes. -/
def ownerRequestPreimage (method path : Bytes) (unixTs : I64) (body : Bytes) : Bytes :=
  ownerReqDomain ++ method ++ path ++ toBeBytes unixTs.toNat ++ (K.blake2b256 body).val

def ownerRequestDigest (method path : Bytes) (unixTs : I64) (body : Bytes) : Bytes32 :=
  K.blake2b256 (ownerRequestPreimage K method path unixTs body)

def verifyOwnerRequestSig (pubkey method path : Bytes) (unixTs : I64) (body sig : Bytes) : Bool :=
  verifyEd25519 K pubkey (ownerRequestDigest K method path unixTs body).val sig

/-! ## pairing.rs -/

def pairingClaimTag : Bytes := ascii "starling-relay-pair-v1"

/-- What `compute_pair_claim` hashes. -/
def pairClaimPreimage (ownerPubkey : Bytes32) (relayOnion token : Bytes) : Bytes :=
  pairingClaimTag ++ ownerPubkey.val ++ relayOnion ++ token

def computePairClaim (ownerPubkey : Bytes32) (relayOnion token : Bytes) : Bytes32 :=
  K.blake2b256 (pairClaimPreimage ownerPubkey relayOnion token)

/-- The CBOR values that events are made of. -/
inductive Cbor where
  | int (value : Int)
  | text (value : String)
  | bytes (value : Bytes)
  | array (items : List Cbor)
  | map (entries : List (String × Cbor))

structure MediaRef where
  hash : String
  mimeType : String
  size : Int

def MediaRef.toMap (media : MediaRef) : Cbor :=
  .map [("hash", .text media.hash), ("mime_type", .text media.mimeType), ("size", .int media.size)]

/-- The fields of an event that its id covers. -/
structure Event where
  version : String
  pubkey : String
  createdAt : Int
  kind : Int
  ref : Option String
  content : Bytes
  media : List MediaRef
  extensions : List (String × Bytes)

/-- `toIdFields`: everything except the id and the signature. -/
def Event.toIdFields (event : Event) : Cbor :=
  .map ([("version", .text event.version), ("pubkey", .text event.pubkey),
      ("created_at", .int event.createdAt), ("kind", .int event.kind)] ++
    (match event.ref with
      | some ref => [("ref", .text ref)]
      | none => []) ++
    [("content", .bytes event.content), ("media", .array (event.media.map MediaRef.toMap)),
      ("extensions", .map (event.extensions.map (fun entry => (entry.1, .bytes entry.2))))])

/-- An encoder of CBOR.  The first byte of an encoded map has major type five. -/
structure CborEncoder where
  encode : Cbor -> Bytes
  mapHead : ∀ entries, ∃ head rest, encode (.map entries) = head :: rest ∧ 160 ≤ head.toNat ∧
    head.toNat ≤ 191

/-- A method and a path as HTTP has them: no slash in the method, and a slash in
front of the path. -/
structure RequestLine where
  method : Bytes
  path : Bytes
  plainMethod : slash ∉ method
  rootedPath : path.head? = some slash

/-- What an Owner signs when it follows the code. -/
inductive SignedItem where
  | event (published : Event)
  | pairClaim (ownerPubkey : Bytes32) (relayOnion token : Bytes)
  | request (line : RequestLine) (unixTs : I64) (body : Bytes)

def SignedItem.preimage (cbor : CborEncoder) : SignedItem -> Bytes
  | .event published => cbor.encode published.toIdFields
  | .pairClaim ownerPubkey relayOnion token => pairClaimPreimage ownerPubkey relayOnion token
  | .request line unixTs body => ownerRequestPreimage K line.method line.path unixTs body

/-! ## The preimage of a bound request -/

theorem shiftRight_step (number shift) :
    number >>> (shift + 8) * 256 + (UInt8.ofNat (number >>> shift)).toNat = number >>> shift := by
  rw [UInt8.toNat_ofNat', Nat.shiftRight_add, Nat.shiftRight_eq_div_pow (number >>> shift) 8]
  omega

theorem toBeBytes_injective {left right : I64}
    (same : toBeBytes left.toNat = toBeBytes right.toNat) : left = right := by
  let join (start : Nat) (bytes : Bytes) : Nat :=
    bytes.foldl (fun total byte => total * 256 + byte.toNat) start
  have value : ∀ number : Nat, join (number >>> 64) (toBeBytes number) = number := by
    intro number
    simp only [join, toBeBytes, map_cons, map_nil, foldl_cons, foldl_nil]
    rw [shiftRight_step _ 56, shiftRight_step _ 48, shiftRight_step _ 40, shiftRight_step _ 32,
      shiftRight_step _ 24, shiftRight_step _ 16, shiftRight_step _ 8, shiftRight_step _ 0,
      Nat.shiftRight_zero]
  apply BitVec.eq_of_toNat_eq
  rw [← value left.toNat, ← value right.toNat, same,
    Nat.shiftRight_eq_zero _ _ left.isLt, Nat.shiftRight_eq_zero _ _ right.isLt]

theorem RequestLine.split {left right : RequestLine}
    (same : left.method ++ left.path = right.method ++ right.path) : left = right := by
  have cut : ∀ line : RequestLine, (line.method ++ line.path).takeWhile (fun byte => byte ≠ slash) =
      line.method := by
    intro line
    rcases head?_eq_some_iff.mp line.rootedPath with ⟨_, shape⟩
    have plain : ∀ byte ∈ line.method, decide (byte ≠ slash) = true := by
      intro byte member
      apply decide_eq_true
      intro equal
      exact line.plainMethod (equal ▸ member)
    rw [takeWhile_append_of_pos plain, shape, takeWhile_cons_of_neg (by decide), append_nil]
  have methods : left.method = right.method := by rw [← cut left, ← cut right, same]
  rw [methods] at same
  have paths : left.path = right.path := append_cancel_left same
  cases left
  cases right
  simp only [mk.injEq]
  exact ⟨methods, paths⟩

theorem ownerRequestPreimage_injective {K : Crypto} {left right : RequestLine} {leftTs rightTs : I64}
    {leftBody rightBody : Bytes} (same : ownerRequestPreimage K left.method left.path leftTs leftBody =
      ownerRequestPreimage K right.method right.path rightTs rightBody) :
    left = right ∧ leftTs = rightTs ∧ K.blake2b256 leftBody = K.blake2b256 rightBody := by
  simp only [ownerRequestPreimage] at same
  have digests := append_inj' same ((K.blake2b256 leftBody).property.trans (K.blake2b256 rightBody).property.symm)
  have times := append_inj' digests.1 rfl
  rw [append_assoc, append_assoc] at times
  exact ⟨RequestLine.split (append_cancel_left times.1), toBeBytes_injective times.2, Subtype.ext digests.2⟩

theorem ownerRequestPreimage_ne_pairClaim (method path unixTs body ownerPubkey relayOnion token) :
    ownerRequestPreimage K method path unixTs body ≠ pairClaimPreimage ownerPubkey relayOnion token := by
  intro same
  have tags := congrArg (take 10) same
  simp only [ownerRequestPreimage, pairClaimPreimage, append_assoc] at tags
  rw [take_append_of_le_length (by decide), take_append_of_le_length (by decide)] at tags
  revert tags
  decide

theorem ownerRequestPreimage_ne_event (cbor : CborEncoder) (method path unixTs body)
    (event : Event) : ownerRequestPreimage K method path unixTs body ≠ cbor.encode event.toIdFields := by
  intro same
  rcases cbor.mapHead _ with ⟨head, _, encoded, atLeast, _⟩
  rw [Event.toIdFields, encoded] at same
  have first := congrArg head? same
  have letter : (ownerRequestPreimage K method path unixTs body).head? = some 115 := rfl
  rw [letter, head?_cons, Option.some.injEq] at first
  rw [← first] at atLeast
  revert atLeast
  decide

end

/-! ## relay_push_service.dart -/

/-- `ByteData.setUint64`: the low 64 bits of a Dart integer, the most significant byte first. -/
def setUint64 (value : Int) : Bytes :=
  [56, 48, 40, 32, 24, 16, 8, 0].map (fun shift : Nat => UInt8.ofNat ((value >>> shift) % 256).toNat)

/-- What the phone's `ownerRequestDigest` hashes. -/
def phoneRequestPreimage (K : Crypto) (method path : Bytes) (unixTs : Int) (body : Bytes) : Bytes :=
  ascii "starling-owner-req-v1" ++ method ++ path ++ setUint64 unixTs ++ (K.blake2b256 body).val

theorem setUint64_toInt (unixTs : I64) : setUint64 unixTs.toInt = toBeBytes unixTs.toNat := by
  apply map_congr_left
  intro shift member
  apply UInt8.toNat_inj.mp
  rw [UInt8.toNat_ofNat', UInt8.toNat_ofNat', Int.shiftRight_eq_div_pow, Nat.shiftRight_eq_div_pow,
    BitVec.toInt_eq_toNat_cond]
  simp only [mem_cons, not_mem_nil, or_false] at member
  rcases member with rfl | rfl | rfl | rfl | rfl | rfl | rfl | rfl <;> split <;> omega

/-- The digest determines the request, as far as no two of the hashed texts collide, and the phone hashes
what the relay hashes. -/
theorem digest_binds_request (K : Crypto) (left right : RequestLine) (leftTs rightTs : I64) (leftBody rightBody : Bytes)
    (free : Set.InjOn K.blake2b256 {leftBody, rightBody, ownerRequestPreimage K left.method left.path leftTs leftBody,
      ownerRequestPreimage K right.method right.path rightTs rightBody}) :
    (ownerRequestDigest K left.method left.path leftTs leftBody =
        ownerRequestDigest K right.method right.path rightTs rightBody ->
      left = right ∧ leftTs = rightTs ∧ leftBody = rightBody) ∧
    phoneRequestPreimage K left.method left.path leftTs.toInt leftBody =
      ownerRequestPreimage K left.method left.path leftTs leftBody := by
  constructor
  · intro same
    rcases ownerRequestPreimage_injective (free (by simp) (by simp) same) with ⟨line, time, digest⟩
    exact ⟨line, time, free (by simp) (by simp) digest⟩
  · rw [phoneRequestPreimage, setUint64_toInt]
    rfl

def lengthCrypto : Crypto := ⟨fun bytes => Bytes32.fill (UInt8.ofNat bytes.length), fun _ _ _ => true⟩

theorem digest_binds_request_status :
    ownerRequestDigest lengthCrypto (ascii "GET") (ascii "/status") (-1) [] ≠
        ownerRequestDigest lengthCrypto (ascii "POST") (ascii "/events") 5 [1] ∧
      phoneRequestPreimage lengthCrypto (ascii "GET") (ascii "/status") (-1) [] =
        ownerRequestPreimage lengthCrypto (ascii "GET") (ascii "/status") (-1) [] := by
  let status : RequestLine := ⟨ascii "GET", ascii "/status", by decide, by decide⟩
  let push : RequestLine := ⟨ascii "POST", ascii "/events", by decide, by decide⟩
  have binds := digest_binds_request lengthCrypto status push (-1) 5 [] [1] (by
    rintro _ (rfl | rfl | rfl | rfl) _ (rfl | rfl | rfl | rfl) same <;> first | rfl | (revert same; decide))
  exact ⟨(fun same => nomatch (binds.1 same).2.2), binds.2⟩

end Starling.Wire
