import Starling.App.Records
import Starling.Foundation.Boxes
import Mathlib.Tactic.IntervalCases

namespace Starling.App

open List Option

/-!
# Keys and messages of the follow handshake

Both messages of a handshake are encrypted under `deriveSharedKey`, with the requester
first and the time of the request last.  The derived key is kept as the triple that it is
derived from: the holders of the two secret keys can compute it and nobody else can.
Public keys are strings everywhere else, and different strings may stand for one key.
-/

/-! ## Crockford base32 -/

def crockfordAlphabet : List Char := "0123456789abcdefghjkmnpqrstvwxyz".toList

/-- `_charValue`: upper case letters count as lower case, `i` and `l` as 1, `o` as 0. -/
def crockfordValue (char : Char) : Option Nat :=
  let lower := char.toLower
  let normal := if lower = 'i' ∨ lower = 'l' then '1' else if lower = 'o' then '0' else lower
  crockfordAlphabet.idxOf? normal

/-- The loop of the decoder: the bits read so far, their number, and the bytes written. -/
def crockfordLoop : List Char -> Nat -> Nat -> Option Bytes
  | [], _, _ => some []
  | char :: rest, buffer, bits => do
      let value ← crockfordValue char
      let wider := buffer * 32 + value
      if bits + 5 ≥ 8 then
        let left := bits + 5 - 8
        let later ← crockfordLoop rest (wider % 2 ^ left) left
        some (UInt8.ofNat (wider / 2 ^ left) :: later)
      else crockfordLoop rest wider (bits + 5)

/-- `none` stands for the `FormatException` of a letter outside the alphabet. -/
def crockfordBase32Decode (encoded : String) : Option Bytes := crockfordLoop encoded.toList 0 0

def crockfordChar (value : Nat) : Char := crockfordAlphabet.getD value '0'

/-- The loop of the encoder.  Fewer than five bits wait when a byte comes, so a byte writes
one letter or two. -/
def crockfordEncodeLoop : Bytes -> Nat -> Nat -> List Char
  | [], buffer, bits => if 0 < bits then [crockfordChar (buffer * 2 ^ (5 - bits) % 32)] else []
  | byte :: rest, buffer, bits =>
    let wider := buffer * 256 + byte.toNat
    if bits + 3 ≥ 5 then
      crockfordChar (wider / 2 ^ (bits + 3) % 32) :: crockfordChar (wider / 2 ^ (bits - 2) % 32) ::
        crockfordEncodeLoop rest (wider % 2 ^ (bits - 2)) (bits - 2)
    else
      crockfordChar (wider / 2 ^ (bits + 3) % 32) :: crockfordEncodeLoop rest (wider % 2 ^ (bits + 3)) (bits + 3)

def crockfordBase32Encode (bytes : Bytes) : String := String.ofList (crockfordEncodeLoop bytes 0 0)

theorem crockfordLoop_letter (value rest buffer bits) :
    crockfordLoop (crockfordChar (value % 32) :: rest) buffer bits = if bits + 5 ≥ 8 then
        (crockfordLoop rest ((buffer * 32 + value % 32) % 2 ^ (bits + 5 - 8)) (bits + 5 - 8)).map
          (UInt8.ofNat ((buffer * 32 + value % 32) / 2 ^ (bits + 5 - 8)) :: ·)
      else crockfordLoop rest (buffer * 32 + value % 32) (bits + 5) := by
  have letters : ∀ letter : Fin 32, crockfordValue (crockfordChar letter) = some letter.val := by decide
  have letter := letters ⟨value % 32, Nat.mod_lt _ (by decide)⟩
  rw [crockfordLoop, letter]
  simp only [bind_eq_bind, bind_some, map_eq_bind]
  rfl

theorem ofNat_of_eq {value} {byte : UInt8} (same : value = byte.toNat) : UInt8.ofNat value = byte := by
  rw [same, UInt8.ofNat_toNat]

/-- The decoder has taken in all of the `head` but the bits that wait in the encoder. -/
theorem crockfordLoop_encodeLoop {bits} (few : bits < 5) {waiting taken} {head : UInt8} (waits : waiting < 2 ^ bits)
    (takes : taken < 2 ^ ((8 - bits) % 8)) (whole : taken * 2 ^ bits + waiting = head.toNat) (bytes) :
    crockfordLoop (crockfordEncodeLoop bytes waiting bits) taken ((8 - bits) % 8) =
      some ((if bits = 0 then [] else [head]) ++ bytes) := by
  induction bytes generalizing waiting taken bits head with
  | nil =>
    interval_cases bits <;> simp [crockfordEncodeLoop, crockfordLoop_letter, crockfordLoop] at waits takes ⊢ <;>
      exact ofNat_of_eq (by omega)
  | cons byte rest ih =>
    have bound := byte.toNat_lt
    -- A byte completes the head and leaves `bits + 3` of its own to wait, less five if they make a letter.
    interval_cases bits <;> simp [crockfordEncodeLoop, crockfordLoop_letter, -UInt8.ofNat_add] at waits takes ⊢
    · exact ih (by decide : 3 < 5) (by omega) (by simp; omega) (by omega)
    · exact ⟨ih (by decide : 4 < 5) (by omega) (by simp; omega) (by omega), ofNat_of_eq (by omega)⟩
    · exact ⟨@ih 0 (by decide) _ _ 0 (by omega) (by simp; omega) (by simp; omega), ofNat_of_eq (by omega),
        ofNat_of_eq (by omega)⟩
    · exact ⟨ih (by decide : 1 < 5) (by omega) (by simp; omega) (by omega), ofNat_of_eq (by omega)⟩
    · exact ⟨ih (by decide : 2 < 5) (by omega) (by simp; omega) (by omega), ofNat_of_eq (by omega)⟩

theorem crockfordBase32Decode_encode (bytes) : crockfordBase32Decode (crockfordBase32Encode bytes) = some bytes := by
  rw [crockfordBase32Decode, crockfordBase32Encode, String.toList_ofList]
  exact @crockfordLoop_encodeLoop 0 (by decide) 0 0 0 (by decide) (by decide) rfl bytes

theorem crockfordBase32Encode_injective : Function.Injective crockfordBase32Encode := by
  intro left right same
  have decoded := crockfordBase32Decode_encode left
  rw [same, crockfordBase32Decode_encode, some.injEq] at decoded
  exact decoded.symm

theorem crockfordEncodeLoop_letters (holds : Char -> Prop) {bytes buffer bits}
    (alphabet : ∀ value, value < 32 -> holds (crockfordChar value)) {char}
    (member : char ∈ crockfordEncodeLoop bytes buffer bits) : holds char := by
  have letter : ∀ value : Nat, holds (crockfordChar (value % 32)) :=
    fun value => alphabet _ (Nat.mod_lt value (by decide))
  induction bytes generalizing buffer bits with
  | nil =>
    rw [crockfordEncodeLoop] at member
    split at member
    · rw [mem_singleton.mp member]
      exact letter _
    · cases member
  | cons byte rest ih =>
    simp only [crockfordEncodeLoop] at member
    split at member
    · rcases mem_cons.mp member with rfl | later
      · exact letter _
      · rcases mem_cons.mp later with rfl | last
        · exact letter _
        · exact ih last
    · rcases mem_cons.mp member with rfl | later
      · exact letter _
      · exact ih later

theorem length_crockfordEncodeLoop (bytes) {buffer bits} (few : bits < 5) :
    (crockfordEncodeLoop bytes buffer bits).length = (8 * bytes.length + bits + 4) / 5 := by
  induction bytes generalizing buffer bits with
  | nil =>
    rw [crockfordEncodeLoop]
    split
    · simp
      omega
    · simp
      omega
  | cons byte rest ih =>
    simp only [crockfordEncodeLoop]
    split
    · rw [length_cons, length_cons, ih (by omega), length_cons]
      omega
    · rw [length_cons, ih (by omega), length_cons]
      omega

example : crockfordBase32Encode [255, 0, 17] = "zw012" := by decide

structure SharedKey where
  requester : Bytes
  responder : Bytes
  timestamp : Int
  deriving DecidableEq

def SharedKey.computedBy (key : SharedKey) (holder : Bytes) : Bool :=
  decide (key.requester = holder ∨ key.responder = holder)

/-- `deriveSharedKey` with both public keys decoded. -/
def deriveSharedKey (requester responder : Pubkey) (timestamp : Int) : Option SharedKey := do
  let requesterKey ← crockfordBase32Decode requester
  let responderKey ← crockfordBase32Decode responder
  some ⟨requesterKey, responderKey, timestamp⟩

theorem deriveSharedKey_eq_some {requester responder timestamp key} :
    deriveSharedKey requester responder timestamp = some key ↔
      crockfordBase32Decode requester = some key.requester ∧
        crockfordBase32Decode responder = some key.responder ∧ key.timestamp = timestamp := by
  rw [deriveSharedKey]
  constructor
  · intro derived
    rw [bind_eq_bind, bind_eq_some_iff] at derived
    rcases derived with ⟨_, first, rest⟩
    rw [bind_eq_some_iff] at rest
    rcases rest with ⟨_, second, whole⟩
    rw [some.injEq] at whole
    rw [← whole]
    exact ⟨first, second, rfl⟩
  · rintro ⟨first, second, same⟩
    rw [first, second, ← same]
    rfl

/-- A ciphertext with its 24 byte nonce next to it. -/
abbrev Sealed := Ciphertext SharedKey Bytes Bytes

/-- A well-formed body of `POST /follow-request`. -/
structure RequestBody where
  requesterPubkey : Pubkey
  encryptedReturnEndpoints : Sealed
  nonce : Bytes
  timestamp : Int
  deriving DecidableEq

/-- A well-formed body of `POST /follow-accept`. -/
structure AcceptBody where
  ownerPubkey : Pubkey
  encryptedFeedKey : Sealed
  nonce : Bytes
  epoch : Int
  timestamp : Int
  deriving DecidableEq

/-- `_buildAcceptBody`: the feed key goes to the public key of the card.  `none` stands for
the exception of a public key that cannot be decoded. -/
def buildAcceptBody (identity : Identity) (requesterCard : ConnectionCard) (timestamp : Int)
    (nonce : Bytes) : Option AcceptBody := do
  let sharedKey ← deriveSharedKey requesterCard.pubkey identity.pubkey timestamp
  some ⟨identity.pubkey, .box ⟨sharedKey, nonce, identity.feedKey⟩, nonce, identity.feedKeyEpoch, timestamp⟩

theorem buildAcceptBody_eq_some {identity card timestamp nonce body}
    (built : buildAcceptBody identity card timestamp nonce = some body) :
    ∃ sharedKey, deriveSharedKey card.pubkey identity.pubkey timestamp = some sharedKey ∧
      body.encryptedFeedKey = .box ⟨sharedKey, nonce, identity.feedKey⟩ := by
  rw [buildAcceptBody, bind_eq_bind, bind_eq_some_iff] at built
  rcases built with ⟨sharedKey, derived, whole⟩
  rw [some.injEq] at whole
  exact ⟨sharedKey, derived, by rw [← whole]⟩

/-- `_decryptInner` and the decoding of the card in it: the outer public key decides which
key is tried. -/
def decryptInner (decodeInner : Bytes -> Option ConnectionCard) (outer : RequestBody)
    (identity : Identity) (timestamp : Int) : Option ConnectionCard := do
  let sharedKey ← deriveSharedKey outer.requesterPubkey identity.pubkey timestamp
  let plaintext ← outer.encryptedReturnEndpoints.decrypt sharedKey outer.nonce
  decodeInner plaintext

end Starling.App
