import Starling.App.Handshake
import Starling.Foundation.Base64

namespace Starling.App

open List

/-!
# The upgrade request of the signaling channel

`WsSignalingService.connect` names itself in a header by the stored text of its public key, which is
Crockford base32.  `signalingHandler` reads the same header as base64.  Each side is translated from
its own file.
-/

/-- `utf8.encode`. -/
def utf8 (text : String) : Bytes := text.toList.flatMap String.utf8EncodeChar

def base64Encode (bytes : Bytes) : String :=
  String.ofList ((Base64.encode bytes).map (fun byte => Char.ofNat byte.toNat))

/-- `base64.decode`, for the standard alphabet; `none` is its exception. -/
def base64Decode (text : String) : Option Bytes := Base64.decode (utf8 text)

/-- The crypto service.  `verify` answers false where the library throws, which it does for a public
key that has not 32 bytes. -/
structure Signer where
  sign : Bytes -> Bytes -> Bytes
  verify : Bytes -> Bytes -> Bytes -> Bool
  publicKey : Bytes -> Bytes
  publicKey_length : ∀ secretKey, (publicKey secretKey).length = 32
  verifies : ∀ secretKey data, verify (publicKey secretKey) data (sign secretKey data) = true
  sized : ∀ key data signature, verify key data signature = true -> key.length = 32

structure UpgradeHeaders where
  pubkey : Option String
  sig : Option String
  timestamp : Option String

/-- The headers that `connect` sends at some second. -/
def connectHeaders (K : Signer) (localPubkey : String) (localSecretKey : Bytes) (now : Int) : UpgradeHeaders :=
  let timestamp := toString now
  ⟨some localPubkey,
    some (base64Encode (K.sign localSecretKey (utf8 ("websocket-upgrade" ++ timestamp)))), some timestamp⟩

/-- What the handler does with the request: a channel for a remote pubkey, or a response. -/
inductive UpgradeAnswer where
  | channel (remotePubkey : String)
  | response (status : Nat) (body : String)
  deriving DecidableEq

/-- `signalingHandler`.  `tryParse` is `int.tryParse`. -/
def signalingHandler (K : Signer) (tryParse : String -> Option Int) (now : Int) (headers : UpgradeHeaders) :
    UpgradeAnswer :=
  match headers.pubkey, headers.sig, headers.timestamp with
  | some pubkeyHeader, some sigHeader, some timestampHeader =>
    match tryParse timestampHeader with
    | none => .response 401 "Invalid timestamp"
    | some timestamp =>
      if (now - timestamp).natAbs > 30 then .response 401 "Timestamp expired"
      else
        match base64Decode pubkeyHeader, base64Decode sigHeader with
        | some pubkeyBytes, some sigBytes =>
          if K.verify pubkeyBytes (utf8 ("websocket-upgrade" ++ timestampHeader)) sigBytes then
            .channel pubkeyHeader
          else .response 401 "Invalid signature"
        | _, _ => .response 401 "Invalid base64 encoding"
  | _, _, _ => .response 401 "Missing auth headers"

/-! ## Two readings of one header -/

theorem utf8_ofList {chars code} (single : ∀ char ∈ chars, String.utf8EncodeChar char = [code char]) :
    utf8 (String.ofList chars) = chars.map code := by
  rw [utf8, String.toList_ofList]
  induction chars with
  | nil => rfl
  | cons char rest ih =>
    rw [flatMap_cons, single char mem_cons_self, ih (fun other member => single other (mem_cons_of_mem char member))]
    rfl

def IsDigit (char : Char) : Prop :=
  String.utf8EncodeChar char = [UInt8.ofNat char.toNat] ∧ (Base64.digit (UInt8.ofNat char.toNat)).isSome = true

instance (char : Char) : Decidable (IsDigit char) := inferInstanceAs (Decidable (_ ∧ _))

theorem isDigit_crockfordChar {value} (bound : value < 32) : IsDigit (crockfordChar value) := by
  have letters : ∀ value : Fin 32, IsDigit (crockfordChar value) := by decide
  exact letters ⟨value, bound⟩

theorem base64Decode_crockford {key} (sized : key.length = 32) :
    ∃ bytes, base64Decode (crockfordBase32Encode key) = some bytes ∧ bytes.length = 39 := by
  have letters : ∀ char ∈ crockfordEncodeLoop key 0 0, IsDigit char :=
    fun char member => crockfordEncodeLoop_letters IsDigit (fun _ => isDigit_crockfordChar) member
  rw [base64Decode, crockfordBase32Encode, utf8_ofList (fun char member => (letters char member).1)]
  have full : ((crockfordEncodeLoop key 0 0).map (fun char => UInt8.ofNat char.toNat)).length = 4 * 13 := by
    rw [length_map, length_crockfordEncodeLoop key (by decide), sized]
  apply Base64.decode_of_digits full
  intro character member
  rcases mem_map.mp member with ⟨char, written, rfl⟩
  exact (letters char written).2

/-- The server refuses every client that names itself as the app stores its key, whatever the clocks
say. -/
theorem upgrade_refused (K : Signer) (tryParse : String -> Option Int) (secretKey : Bytes) (sent now : Int) :
    ∃ body, signalingHandler K tryParse now
      (connectHeaders K (crockfordBase32Encode (K.publicKey secretKey)) secretKey sent) = .response 401 body := by
  rcases base64Decode_crockford (K.publicKey_length secretKey) with ⟨bytes, decoded, _⟩
  have refused : ∀ data signature, K.verify bytes data signature = false := by
    intro data signature
    apply Bool.eq_false_iff.mpr
    intro accepted
    have short := K.sized bytes data signature accepted
    omega
  simp only [signalingHandler, connectHeaders, decoded]
  split
  · exact ⟨_, rfl⟩
  · split
    · exact ⟨_, rfl⟩
    · split
      next same _ =>
        cases same
        exact ⟨_, by rw [refused, if_neg Bool.false_ne_true]⟩
      · exact ⟨_, rfl⟩

def plainSigner : Signer where
  sign := fun secretKey data => (secretKey ++ List.replicate 32 0).take 32 ++ data
  verify := fun key data signature => decide (key.length = 32) && decide (signature = key ++ data)
  publicKey := fun secretKey => (secretKey ++ List.replicate 32 0).take 32
  publicKey_length := by simp
  verifies := by simp
  sized := by
    intro key data signature accepted
    rw [Bool.and_eq_true, decide_eq_true_eq] at accepted
    exact accepted.1

/-- The clocks agree, and the key is the right one. -/
theorem upgrade_refused_at_once : signalingHandler plainSigner (fun _ => some 1000) 1000
      (connectHeaders plainSigner (crockfordBase32Encode (plainSigner.publicKey [7])) [7] 1000) =
        .response 401 "Invalid signature" := by
  decide +kernel

end Starling.App
