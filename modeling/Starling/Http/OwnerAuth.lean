import Mathlib.Algebra.Ring.Int.Defs
import Mathlib.Algebra.Ring.Nat
import Mathlib.Data.Set.Function
import Starling.Foundation.Base64
import Starling.Wire.Signature

namespace Starling.Http

open List Option Wire

/-!
# Owner authentication of HTTP requests

`middleware.rs` and the `/unpair` route that depends on it.  A request is bound to
its method, path, time and body when it carries a timestamp header.  Without that
header the signature is checked against the body alone, and the body is chosen by
whoever sends the request.
-/

/-- The headers in order, with lower-case names and raw values. -/
abbrev HeaderMap := List (String × Bytes)

/-- `HeaderMap::get`: the first value under the name. -/
def HeaderMap.get (headers : HeaderMap) (name : String) : Option Bytes :=
  (headers.find? (fun header => header.1 = name)).map Prod.snd

/-- `HeaderValue::to_str`: visible ASCII, blanks and tabs only. -/
def toStr (value : Bytes) : Option Bytes :=
  if value.all (fun byte => 32 ≤ byte.toNat ∧ byte.toNat < 127 ∨ byte.toNat = 9) then
    some value
  else none

def parseDigits (text : Bytes) : Option Nat :=
  if text ≠ [] ∧ text.all (fun byte => 48 ≤ byte.toNat ∧ byte.toNat ≤ 57) then
    some (text.foldl (fun total byte => total * 10 + (byte.toNat - 48)) 0)
  else none

/-- `str::parse::<i64>`: an optional sign, digits, and a value in range. -/
def parseI64 (text : Bytes) : Option Wire.I64 :=
  match text with
  | 45 :: digits =>
    (parseDigits digits).bind (fun value =>
      if value ≤ 2 ^ 63 then some (-(BitVec.ofNat 64 value)) else none)
  | 43 :: digits =>
    (parseDigits digits).bind (fun value =>
      if value < 2 ^ 63 then some (BitVec.ofNat 64 value) else none)
  | digits =>
    (parseDigits digits).bind (fun value =>
      if value < 2 ^ 63 then some (BitVec.ofNat 64 value) else none)

/-- A response: the status code and the text. -/
abbrev Failure := Nat × String

def unauthorized : Nat := 401

def forbidden : Nat := 403

/-! ## middleware.rs -/

def maxTsSkewSecs : Int := 600

/-- `i64::abs`, which leaves the least number as it is. -/
def i64Abs (value : Wire.I64) : Wire.I64 := if value.toInt < 0 then -value else value

/-- `(now - ts).abs() > MAX_TS_SKEW_SECS` in wrapping arithmetic. -/
def stale (now unixTs : Wire.I64) : Bool := decide (maxTsSkewSecs < (i64Abs (now - unixTs)).toInt)

/-- `ok_or` and `map_err`: the value, or a failure. -/
def orFail {α : Type} (value : Option α) (failure : Failure) : Except Failure α :=
  match value with
  | some found => .ok found
  | none => .error failure

/-- The signature check of the scheme that the headers select. -/
def checkSignature (K : Wire.Crypto) (now : Wire.I64) (headers : HeaderMap)
    (method path body pubkey sig : Bytes) : Except Failure Bool :=
  match headers.get "x-starling-ts" with
  | some tsHeader => do
      let unixTs <- orFail ((toStr tsHeader).bind parseI64) (unauthorized, "bad x-starling-ts")
      if stale now unixTs then .error (unauthorized, "stale x-starling-ts")
      else .ok (Wire.verifyOwnerRequestSig K pubkey method path unixTs body sig)
  | none => .ok (Wire.verifyOwnerSig K pubkey body sig)

def verifyOwnerRequest (K : Wire.Crypto) (now : Wire.I64) (headers : HeaderMap)
    (method path body : Bytes) (ownerPubkey : Bytes32) : Except Failure Unit := do
  let pubkeyB64 <- orFail ((headers.get "x-starling-pubkey").bind toStr) (unauthorized, "missing x-starling-pubkey")
  let sigB64 <- orFail ((headers.get "x-starling-sig").bind toStr) (unauthorized, "missing x-starling-sig")
  let pubkey <- orFail (Base64.decode pubkeyB64) (unauthorized, "bad x-starling-pubkey base64")
  let sig <- orFail (Base64.decode sigB64) (unauthorized, "bad x-starling-sig base64")
  let valid <- checkSignature K now headers method path body pubkey sig
  if valid = false then .error (unauthorized, "invalid signature")
  else if pubkey ≠ ownerPubkey.val then .error (forbidden, "pubkey is not this relay owner")
  else .ok ()

/-! ## routes/unpair.rs -/

/-- The answer to `POST /unpair` and whether the wipe was triggered. -/
def unpairHandler (K : Wire.Crypto) (now : Wire.I64) (wired : Bool) (headers : HeaderMap)
    (body : Bytes) (ownerPubkey : Bytes32) : Failure × Bool :=
  match verifyOwnerRequest K now headers (Wire.ascii "POST") (Wire.ascii "/unpair") body
      ownerPubkey with
  | .error failure => (failure, false)
  | .ok () => if wired then ((200, ""), true) else ((501, "unpair not wired"), false)

/-! ## What acceptance means -/

def HeaderMap.base64 (headers : HeaderMap) (name : String) : Option Bytes :=
  ((headers.get name).bind toStr).bind Base64.decode

def HeaderMap.timestamp (headers : HeaderMap) : Option Wire.I64 :=
  ((headers.get "x-starling-ts").bind toStr).bind parseI64

theorem orFail_bind_ok {α β : Type} {value : Option α} {failure next}
    {result : β} : (orFail value failure >>= next) = .ok result ↔
      ∃ found, value = some found ∧ next found = .ok result := by
  cases value with
  | none =>
    constructor
    · exact nofun
    · rintro ⟨_, never, _⟩
      cases never
  | some stored =>
    constructor
    · intro done
      exact ⟨stored, rfl, done⟩
    · rintro ⟨_, same, done⟩
      cases same
      exact done

variable {body method path sig : Bytes} {headers : HeaderMap} {now : Wire.I64} {error : Failure}

theorem verifyOwnerRequest_ok {K : Wire.Crypto} {ownerPubkey : Bytes32} :
    verifyOwnerRequest K now headers method path body ownerPubkey = .ok () ↔
      headers.base64 "x-starling-pubkey" = some ownerPubkey.val ∧
        ∃ sig, headers.base64 "x-starling-sig" = some sig ∧
          checkSignature K now headers method path body ownerPubkey.val sig = .ok true := by
  simp only [verifyOwnerRequest, orFail_bind_ok, HeaderMap.base64, bind_eq_some_iff]
  constructor
  · rintro ⟨pubkeyText, ⟨pubkeyValue, atPubkey, pubkeyStr⟩, sigText, ⟨sigValue, atSig, sigStr⟩,
      pubkey, pubkeyDecoded, sig, sigDecoded, checked⟩
    cases valid : checkSignature K now headers method path body pubkey sig with rw [valid] at checked
    | error => cases checked
    | ok verdict =>
      change (if verdict = false then _ else if pubkey ≠ ownerPubkey.val then _ else _) = _ at checked
      split at checked
      · cases checked
      next genuine =>
        split at checked
        · cases checked
        next same =>
          rw [not_not] at same
          subst same
          rw [Bool.not_eq_false] at genuine
          subst genuine
          exact ⟨⟨pubkeyText, ⟨pubkeyValue, atPubkey, pubkeyStr⟩, pubkeyDecoded⟩, sig,
            ⟨sigText, ⟨sigValue, atSig, sigStr⟩, sigDecoded⟩, valid⟩
  · rintro ⟨⟨pubkeyText, pubkeyParts, pubkeyDecoded⟩, sig, ⟨sigText, sigParts, sigDecoded⟩, valid⟩
    refine ⟨pubkeyText, pubkeyParts, sigText, sigParts, ownerPubkey.val, pubkeyDecoded, sig, sigDecoded, ?_⟩
    rw [valid]
    simp [bind, Except.bind]

theorem orFail_bind_error {α β : Type} {value failure} {next : α -> Except Failure β}
    (failed : (orFail value failure >>= next) = .error error) :
    error = failure ∨ ∃ found, next found = .error error := by
  cases value with
  | none =>
    cases failed
    exact .inl rfl
  | some stored => exact .inr ⟨stored, failed⟩

theorem checkSignature_error {K} {pubkey : Bytes}
    (failed : checkSignature K now headers method path body pubkey sig = .error error) :
    error.1 = unauthorized := by
  unfold checkSignature at failed
  split at failed
  · rcases orFail_bind_error failed with same | ⟨_, later⟩
    · rw [same]
    · split at later
      · cases later
        rfl
      · cases later
  · cases failed

theorem verifyOwnerRequest_error {K} {ownerPubkey : Bytes32}
    (failed : verifyOwnerRequest K now headers method path body ownerPubkey = .error error) :
    error.1 = unauthorized ∨ error.1 = forbidden := by
  rcases orFail_bind_error failed with same | ⟨_, failed⟩
  · exact .inl (by rw [same])
  rcases orFail_bind_error failed with same | ⟨_, failed⟩
  · exact .inl (by rw [same])
  rcases orFail_bind_error failed with same | ⟨pubkey, failed⟩
  · exact .inl (by rw [same])
  rcases orFail_bind_error failed with same | ⟨sig, failed⟩
  · exact .inl (by rw [same])
  cases checked : checkSignature K now headers method path body pubkey sig with rw [checked] at failed
  | error =>
    cases failed
    exact .inl (checkSignature_error checked)
  | ok valid =>
    change (if valid = false then _ else if pubkey ≠ ownerPubkey.val then _ else _) = _ at failed
    split at failed
    · cases failed
      exact .inl rfl
    · split at failed
      · cases failed
        exact .inr rfl
      · cases failed

theorem checkSignature_ok_true {K : Wire.Crypto} {pubkey : Bytes} :
    checkSignature K now headers method path body pubkey sig = .ok true ↔
      (∃ unixTs, headers.timestamp = some unixTs ∧ stale now unixTs = false ∧
        verifyOwnerRequestSig K pubkey method path unixTs body sig = true) ∨
      (headers.get "x-starling-ts" = none ∧ verifyOwnerSig K pubkey body sig = true) := by
  unfold checkSignature HeaderMap.timestamp
  cases header : headers.get "x-starling-ts" with
  | none =>
    simp [bind_none]
  | some =>
    simp only [orFail_bind_ok, bind_some, reduceCtorEq, false_and, or_false]
    apply exists_congr
    intro unixTs
    apply and_congr_right
    intro _
    cases stale now unixTs with
    | true | false => simp

/-! ## Replays -/

structure Request where
  line : Wire.RequestLine
  headers : HeaderMap
  body : Bytes

def Request.verdict (K : Wire.Crypto) (now : Wire.I64) (request : Request)
    (ownerPubkey : Bytes32) : Except Failure Unit :=
  verifyOwnerRequest K now request.headers request.line.method request.line.path request.body ownerPubkey

/-- Everything that the Owner has signed so far.  Only these messages verify under
the Owner's key. -/
structure OwnerSignatures (K : Wire.Crypto) (cbor : Wire.CborEncoder) (ownerPubkey : Bytes32) where
  signed : List Wire.SignedItem
  genuine : ∀ message sig, Wire.verifyEd25519 K ownerPubkey.val message sig = true ->
    ∃ item ∈ signed, message = (K.blake2b256 (item.preimage K cbor)).val

variable {K : Wire.Crypto} {cbor : Wire.CborEncoder} {ownerPubkey : Bytes32}

/-- The bytes are a signature of the Owner for an item that it signed. -/
def OwnerSignatures.Made (signatures : OwnerSignatures K cbor ownerPubkey)
    (item : Wire.SignedItem) (sig : Bytes) : Prop :=
  item ∈ signatures.signed ∧
    Wire.verifyEd25519 K ownerPubkey.val (K.blake2b256 (item.preimage K cbor)).val sig = true

/-- The Owner itself made this request: it signed this line, time and body. -/
def OwnerSignatures.MadeRequest (signatures : OwnerSignatures K cbor ownerPubkey) (request : Request) : Prop :=
  ∃ unixTs, request.headers.timestamp = some unixTs ∧
    .request request.line unixTs request.body ∈ signatures.signed

/-- The messages whose digests the verdict on a request compares. -/
inductive OwnerSignatures.InPlay (signatures : OwnerSignatures K cbor ownerPubkey)
    (request : Request) : Bytes -> Prop where
  | body : InPlay signatures request request.body
  | bound (unixTs : Wire.I64) (claimed : request.headers.timestamp = some unixTs) :
      InPlay signatures request (Wire.ownerRequestPreimage K request.line.method request.line.path unixTs request.body)
  | signed (item : Wire.SignedItem) (listed : item ∈ signatures.signed) :
      InPlay signatures request (item.preimage K cbor)
  | signedBody (line : Wire.RequestLine) (unixTs : Wire.I64) (body : Bytes)
      (listed : .request line unixTs body ∈ signatures.signed) :
      InPlay signatures request body

/-- No two different messages in play have the same digest. -/
def OwnerSignatures.CollisionFree (signatures : OwnerSignatures K cbor ownerPubkey) (request : Request) : Prop :=
  Set.InjOn K.blake2b256 {message | signatures.InPlay request message}

theorem OwnerSignatures.madeRequest_of_bound (signatures : OwnerSignatures K cbor ownerPubkey)
    {request} (collisionFree : signatures.CollisionFree request) {unixTs}
    (claimed : request.headers.timestamp = some unixTs)
    (valid : verifyOwnerRequestSig K ownerPubkey.val request.line.method request.line.path unixTs
      request.body sig = true) : signatures.MadeRequest request := by
  rcases signatures.genuine _ sig valid with ⟨item, listed, digest⟩
  have same := collisionFree (.bound unixTs claimed) (.signed item listed) (Subtype.ext digest)
  cases item with
  | event => exact (ownerRequestPreimage_ne_event K cbor _ _ _ _ _ same).elim
  | pairClaim => exact (ownerRequestPreimage_ne_pairClaim K _ _ _ _ _ _ _ same).elim
  | request line signedTs signedBody =>
    have fields := ownerRequestPreimage_injective same
    have bodies : request.body = signedBody :=
      collisionFree .body (.signedBody line signedTs signedBody listed) fields.2.2
    rw [← fields.1, ← fields.2.1, ← bodies] at listed
    exact ⟨unixTs, claimed, listed⟩

theorem OwnerSignatures.legacy_iff (signatures : OwnerSignatures K cbor ownerPubkey)
    {request} (collisionFree : signatures.CollisionFree request) (sig : Bytes) :
    verifyOwnerSig K ownerPubkey.val request.body sig = true ↔
      ∃ item, signatures.Made item sig ∧ request.body = item.preimage K cbor := by
  constructor
  · intro valid
    rcases signatures.genuine _ sig valid with ⟨item, listed, digest⟩
    have same := collisionFree .body (.signed item listed) (Subtype.ext digest)
    rw [same] at valid
    exact ⟨item, ⟨listed, valid⟩, same⟩
  · rintro ⟨_, made, same⟩
    rw [same]
    exact made.2

/-- A request that the Owner did not make, carrying one of its signatures, is
refused unless it takes the legacy scheme, names the Owner's key and has as its
body the very bytes that the signature was made over. -/
theorem foreign_request_refused_iff (signatures : OwnerSignatures K cbor ownerPubkey) (now : Wire.I64)
    {request : Request} {sig : Bytes} (carried : request.headers.base64 "x-starling-sig" = some sig)
    (foreign : ¬ signatures.MadeRequest request) (collisionFree : signatures.CollisionFree request) :
    (∃ failure, request.verdict K now ownerPubkey = .error failure) ↔
      ¬ (request.headers.get "x-starling-ts" = none ∧
        request.headers.base64 "x-starling-pubkey" = some ownerPubkey.val ∧
        ∃ item, signatures.Made item sig ∧ request.body = item.preimage K cbor) := by
  have accepted : request.verdict K now ownerPubkey = .ok () ↔ (request.headers.get "x-starling-ts" = none ∧
        request.headers.base64 "x-starling-pubkey" = some ownerPubkey.val ∧
        ∃ item, signatures.Made item sig ∧ request.body = item.preimage K cbor) := by
    rw [Request.verdict, verifyOwnerRequest_ok]
    constructor
    · rintro ⟨named, _, decoded, valid⟩
      rw [carried, some.injEq] at decoded
      subst decoded
      rcases checkSignature_ok_true.mp valid with ⟨_, claimed, _, bound⟩ | ⟨absent, legacy⟩
      · exact False.elim (foreign (signatures.madeRequest_of_bound collisionFree claimed bound))
      · exact ⟨absent, named, (signatures.legacy_iff collisionFree sig).mp legacy⟩
    · rintro ⟨absent, named, fits⟩
      exact ⟨named, sig, carried, checkSignature_ok_true.mpr
        (.inr ⟨absent, (signatures.legacy_iff collisionFree sig).mpr fits⟩)⟩
  rw [← accepted]
  cases request.verdict K now ownerPubkey with
  | error => simp [Except.error.injEq, exists_eq']
  | ok => simp

/-! ## A captured signature -/

def phoneKey : Bytes32 := Bytes32.fill 3

def phoneSignature : Bytes := List.replicate 64 9

def manifestRequest : Wire.SignedItem :=
  .request ⟨Wire.ascii "GET", Wire.ascii "/media-manifest", by decide, by decide⟩ 1750000000 []

def lengthDigest (message : Bytes) : Bytes32 :=
  ⟨UInt8.ofNat message.length :: List.replicate 31 0, by
    rw [length_cons, length_replicate]⟩

def plainCbor : Wire.CborEncoder where
  encode := fun _ => [160]
  mapHead := fun _ => ⟨160, [], rfl, by decide, by decide⟩

def manifestPreimage : Bytes :=
  Wire.ascii "starling-owner-req-v1" ++ Wire.ascii "GET" ++ Wire.ascii "/media-manifest" ++
    toBeBytes 1750000000 ++ (lengthDigest []).val

def phoneCrypto : Wire.Crypto where
  blake2b256 := lengthDigest
  verifyStrict := fun pubkey message sig =>
    decide (pubkey = phoneKey ∧ message = (lengthDigest manifestPreimage).val ∧ sig = phoneSignature)

def phoneSignatures : OwnerSignatures phoneCrypto plainCbor phoneKey where
  signed := [manifestRequest]
  genuine := by
    intro message sig valid
    rw [Wire.verifyEd25519, Bytes32.ofBytes_val] at valid
    change (if sig.length = 64 then phoneCrypto.verifyStrict phoneKey message sig else false) = true at valid
    split at valid
    · exact ⟨manifestRequest, mem_singleton_self _, (of_decide_eq_true valid).2.1⟩
    · cases valid

def unpairLine : Wire.RequestLine := ⟨Wire.ascii "POST", Wire.ascii "/unpair", by decide, by decide⟩

def capturedHeaders : HeaderMap :=
  [("x-starling-pubkey", Base64.encode phoneKey.val), ("x-starling-sig", Base64.encode phoneSignature)]

/-- The captured signature on `/unpair`, with the timestamp it was made for. -/
def boundReplay : Request where
  line := unpairLine
  headers := capturedHeaders ++ [("x-starling-ts", Wire.ascii "1750000000")]
  body := []

theorem boundReplay_collisionFree : phoneSignatures.CollisionFree boundReplay := by
  have claimed : boundReplay.headers.timestamp = some 1750000000 := by decide
  let unpairPreimage := ownerRequestPreimage phoneCrypto unpairLine.method unpairLine.path 1750000000 []
  have listed : ∀ message, phoneSignatures.InPlay boundReplay message ->
      message ∈ [[], unpairPreimage, manifestPreimage] := by
    intro message inPlay
    cases inPlay with
    | body => exact mem_cons_self
    | bound _ other =>
      rw [claimed, some.injEq] at other
      subst other
      exact mem_cons_of_mem _ mem_cons_self
    | signed _ made =>
      rw [mem_singleton.mp made]
      exact mem_cons_of_mem _ (mem_cons_of_mem _ mem_cons_self)
    | signedBody _ _ _ made =>
      have same := mem_singleton.mp made
      rw [manifestRequest, Wire.SignedItem.request.injEq] at same
      rw [same.2.2]
      exact mem_cons_self
  have apart : ∀ left, left ∈ [[], unpairPreimage, manifestPreimage] ->
      ∀ right, right ∈ [[], unpairPreimage, manifestPreimage] ->
        lengthDigest left = lengthDigest right -> left = right := by decide
  intro left leftInPlay right rightInPlay same
  exact apart left (listed left leftInPlay) right (listed right rightInPlay) same

theorem foreign_request_refused_bound_replay :
    ∃ failure, boundReplay.verdict phoneCrypto 1750000001 phoneKey = .error failure := by
  have carried : boundReplay.headers.base64 "x-starling-sig" = some phoneSignature := by decide
  have foreign : ¬ phoneSignatures.MadeRequest boundReplay := by
    rintro ⟨_, _, listed⟩
    have same := mem_singleton.mp listed
    rw [manifestRequest, Wire.SignedItem.request.injEq] at same
    have methods : boundReplay.line.method ≠ ascii "GET" := by decide
    exact methods (congrArg Wire.RequestLine.method same.1)
  refine (foreign_request_refused_iff phoneSignatures 1750000001 carried foreign boundReplay_collisionFree).mpr ?_
  rintro ⟨absent, _⟩
  have present : boundReplay.headers.get "x-starling-ts" ≠ none := by decide
  exact present absent

/-- The captured signature on `/unpair` without a timestamp, with the signed bytes
as the body. -/
def legacyReplay : Request where
  line := unpairLine
  headers := capturedHeaders
  body := manifestPreimage

/-- The relay accepts it, although the Owner signed a manifest request only, and
wipes the Owner. -/
theorem legacy_replay_unpairs : phoneSignatures.Made manifestRequest phoneSignature ∧
      legacyReplay.headers.base64 "x-starling-sig" = some phoneSignature ∧
      ¬ phoneSignatures.MadeRequest legacyReplay ∧
      legacyReplay.verdict phoneCrypto 1750090000 phoneKey = .ok () ∧
      unpairHandler phoneCrypto 1750090000 true legacyReplay.headers legacyReplay.body phoneKey =
        ((200, ""), true) := by
  refine ⟨⟨mem_singleton_self _, rfl⟩, by decide, ?_, rfl, rfl⟩
  rintro ⟨_, claimed, _⟩
  cases claimed

/-! ## The staleness test -/

/-- The difference is not the mathematical one, or `abs` leaves it negative. -/
def skewOverflows (now unixTs : Wire.I64) : Bool :=
  (now - unixTs).toInt ≠ now.toInt - unixTs.toInt ∨ (i64Abs (now - unixTs)).toInt < 0

theorem toInt_i64Abs (value : Wire.I64) : 0 ≤ value.toInt ∧ (i64Abs value).toInt = value.toInt ∨
    value.toInt < 0 ∧ -2 ^ 63 < value.toInt ∧ (i64Abs value).toInt = -value.toInt ∨
    value.toInt = -2 ^ 63 ∧ (i64Abs value).toInt = -2 ^ 63 := by
  have least := value.le_toInt
  rw [i64Abs]
  split
  · rw [BitVec.toInt_neg, Int.bmod_def]
    omega
  · omega

theorem toInt_skew (now unixTs : Wire.I64) (clock : 0 ≤ now.toInt) :
    now.toInt - unixTs.toInt < 2 ^ 63 ∧ (now - unixTs).toInt = now.toInt - unixTs.toInt ∨
    2 ^ 63 ≤ now.toInt - unixTs.toInt ∧ (now - unixTs).toInt = now.toInt - unixTs.toInt - 2 ^ 64 := by
  have recent := now.toInt_lt
  have least := unixTs.le_toInt
  have greatest := unixTs.toInt_lt
  rw [BitVec.toInt_sub, Int.bmod_def]
  omega

/-- The test of the timestamp is exact, and computed without an overflow, as long as the claimed time is
less than `2 ^ 63` seconds back. -/
theorem staleness_exact (K : Wire.Crypto) {unixTs : Wire.I64} (clock : 0 ≤ now.toInt)
    (sent : headers.timestamp = some unixTs) (pubkey : Bytes) :
    (((checkSignature K now headers method path body pubkey sig).toBool = true ↔
        (now.toInt - unixTs.toInt).natAbs ≤ 600) ∧ skewOverflows now unixTs = false) ↔
      now.toInt - unixTs.toInt < 2 ^ 63 := by
  have past : (checkSignature K now headers method path body pubkey sig).toBool = !stale now unixTs := by
    rw [HeaderMap.timestamp, bind_eq_some_iff] at sent
    rcases sent with ⟨_, readable, parsed⟩
    rcases bind_eq_some_iff.mp readable with ⟨_, found, shown⟩
    simp only [checkSignature, found, shown, bind_some, parsed, orFail, bind, Except.bind]
    cases stale now unixTs <;> rfl
  have atMost := unixTs.toInt_lt
  have skew := toInt_skew now unixTs clock
  have magnitude := toInt_i64Abs (now - unixTs)
  rw [past, stale, skewOverflows, Bool.not_eq_true', decide_eq_false_iff_not, decide_eq_false_iff_not, maxTsSkewSecs]
  constructor
  · rintro ⟨_, _⟩
    omega
  · intro recent
    refine ⟨⟨fun few => ?_, fun few => ?_⟩, ?_⟩ <;> omega

theorem staleness_exact_now : (checkSignature ⟨fun _ => Bytes32.fill 0, fun _ _ _ => true⟩ 5
    [("x-starling-ts", [53])] [] [] [] [] []).toBool = true :=
  ((staleness_exact _ (by decide) (rfl : HeaderMap.timestamp _ = some 5) _).mpr (by decide)).1.mpr (by decide)

/-- A time of `2 ^ 63` seconds ago passes. -/
theorem far_past_not_stale : HeaderMap.timestamp [("x-starling-ts", Wire.ascii "-9223372035104775808")] =
      some (1750000000 - BitVec.intMin 64) ∧
    stale 1750000000 (1750000000 - BitVec.intMin 64) = false ∧
    skewOverflows 1750000000 (1750000000 - BitVec.intMin 64) = true := by
  decide

end Starling.Http
