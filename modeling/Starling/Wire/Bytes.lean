import Mathlib.Data.List.Basic

namespace Starling

open List

/-!
# Byte strings of the wire format

The relay and the phone exchange raw bytes: 32-byte keys and digests, fixed-width
big-endian integers and text in hexadecimal.  A 32-byte array is a subtype of the
byte lists, so a key of another length cannot be built.
-/

abbrev Bytes := List UInt8

/-- `[u8; 32]`: a public key, a token hash or a BLAKE2b-256 digest. -/
abbrev Bytes32 := { bytes : Bytes // bytes.length = 32 }

namespace Bytes32

def fill (byte : UInt8) : Bytes32 := ⟨List.replicate 32 byte, length_replicate⟩

/-- `<[u8; 32]>::try_from(bytes)`. -/
def ofBytes (bytes : Bytes) : Option Bytes32 :=
  if length : bytes.length = 32 then some ⟨bytes, length⟩ else none

theorem ofBytes_val (array) : ofBytes array.val = some array := by
  rw [ofBytes, dif_pos array.property]

theorem val_of_ofBytes {bytes array} (parsed : ofBytes bytes = some array) : array.val = bytes := by
  unfold ofBytes at parsed
  split at parsed
  · cases parsed
    rfl
  · cases parsed

end Bytes32

/-- `u64::to_be_bytes`: eight bytes, the most significant one first. -/
def toBeBytes (value : Nat) : Bytes := [56, 48, 40, 32, 24, 16, 8, 0].map (fun shift => UInt8.ofNat (value >>> shift))

def hexDigits (byte : UInt8) : List Char := [Nat.digitChar (byte.toNat / 16), Nat.digitChar (byte.toNat % 16)]

/-- `hex::encode`. -/
def hexEncode (bytes : Bytes) : String := String.ofList (bytes.flatMap hexDigits)

example : hexEncode [0, 255, 26] = "00ff1a" := by decide

theorem hexDigits_length (bytes : Bytes) : (bytes.flatMap hexDigits).length = 2 * bytes.length := by
  induction bytes with
  | nil => rfl
  | cons byte rest ih =>
    rw [flatMap_cons, length_append, ih, length_cons, hexDigits]
    simp only [length_cons, length_nil]
    omega

theorem hexDigits_byte_injective {left right} (same : hexDigits left = hexDigits right) : left = right := by
  have digits : ∀ high low : Fin 16, Nat.digitChar high = Nat.digitChar low -> high = low := by
    decide
  have digit : ∀ high low : Nat, high < 16 -> low < 16 -> Nat.digitChar high = Nat.digitChar low -> high = low := by
    intro high low highBound lowBound equal
    exact congrArg Fin.val (digits ⟨high, highBound⟩ ⟨low, lowBound⟩ equal)
  have leftBound := left.toNat_lt
  have rightBound := right.toNat_lt
  rw [hexDigits, hexDigits, cons.injEq, cons.injEq] at same
  have high := digit _ _ (by omega) (by omega) same.1
  have low := digit _ _ (by omega) (by omega) same.2.1
  apply UInt8.toNat_inj.mp
  omega

theorem hexDigits_injective {left right : Bytes}
    (same : left.flatMap hexDigits = right.flatMap hexDigits) : left = right := by
  induction left generalizing right with
  | nil =>
    cases right with
    | nil => rfl
    | cons => cases same
  | cons byte rest ih =>
    cases right with
    | nil => cases same
    | cons =>
      rw [flatMap_cons, flatMap_cons] at same
      rcases append_inj same rfl with ⟨first, later⟩
      rw [hexDigits_byte_injective first, ih later]

end Starling
