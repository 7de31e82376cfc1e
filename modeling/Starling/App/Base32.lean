import Starling.App.Handshake
import Mathlib.Data.Int.ModEq

namespace Starling.App

open List Option

/-!
# Crockford base32 in Rust and in Dart

The loops of `base32.rs` and `crockford_base32.dart` differ in what they read and how wide the buffer is.
Rust reads the bytes of UTF-8 into 32 bits, Dart the code units of UTF-16 into 64.  Nothing cuts the buffer
back, so the high bits fall out.
-/

/-- `char_value` and `_charValue`. -/
def unitValue (unit : Nat) : Option Nat :=
  let lower := if 0x41 ≤ unit ∧ unit ≤ 0x5a then unit + 0x20 else unit
  let one := if lower = 0x69 ∨ lower = 0x6c then 0x31 else lower
  let normal := if one = 0x6f then 0x30 else one
  if 0x30 ≤ normal ∧ normal ≤ 0x39 then some (normal - 0x30)
  else if 0x61 ≤ normal ∧ normal ≤ 0x7a then crockfordAlphabet.idxOf? (Char.ofNat normal)
  else none

def decodeUnits (width : Nat) : List Nat -> Nat -> Nat -> Option Bytes
  | [], _, _ => some []
  | unit :: rest, buffer, bits => do
      let value ← unitValue unit
      let wider := (buffer * 32 + value) % 2 ^ width
      if bits + 5 ≥ 8 then
        let later ← decodeUnits width rest wider (bits + 5 - 8)
        some (UInt8.ofNat (wider / 2 ^ (bits + 5 - 8) % 256) :: later)
      else decodeUnits width rest wider (bits + 5)

def encodeUnits (width : Nat) : Bytes -> Nat -> Nat -> List Char
  | [], buffer, bits =>
    if 0 < bits then [crockfordChar (buffer * 2 ^ (5 - bits) % 2 ^ width % 32)] else []
  | byte :: rest, buffer, bits =>
    let wider := (buffer * 256 + byte.toNat) % 2 ^ width
    if bits + 3 ≥ 5 then
      crockfordChar (wider / 2 ^ (bits + 3) % 32) :: crockfordChar (wider / 2 ^ (bits - 2) % 32) ::
        encodeUnits width rest wider (bits - 2)
    else crockfordChar (wider / 2 ^ (bits + 3) % 32) :: encodeUnits width rest wider (bits + 3)

def utf8Units (char : Char) : List Nat := (String.utf8EncodeChar char).map UInt8.toNat

def utf16Units (char : Char) : List Nat :=
  if char.toNat < 0x10000 then [char.toNat]
  else [0xd800 + (char.toNat - 0x10000) / 0x400, 0xdc00 + (char.toNat - 0x10000) % 0x400]

/-- `base32.rs` -/
def rustDecode (encoded : String) : Option Bytes := decodeUnits 32 (encoded.toList.flatMap utf8Units) 0 0

def rustEncode (bytes : Bytes) : String := String.ofList (encodeUnits 32 bytes 0 0)

/-- `crockford_base32.dart` -/
def dartDecode (encoded : String) : Option Bytes := decodeUnits 64 (encoded.toList.flatMap utf16Units) 0 0

def dartEncode (bytes : Bytes) : String := String.ofList (encodeUnits 64 bytes 0 0)

theorem unitValue_of_le {unit} (high : 128 ≤ unit) : unitValue unit = none := by
  simp only [unitValue]
  grind

/-- Letters outside of ASCII have no case. -/
theorem caseless_of_le {char : Char} (high : 128 ≤ char.toNat) : char.toLower = char ∧ char.toUpper = char := by
  constructor
  · refine dif_neg ?_
    rintro ⟨_, below⟩
    have : char.toNat ≤ 90 := below
    omega
  · refine dif_neg ?_
    rintro ⟨_, below⟩
    have : char.toNat ≤ 122 := below
    omega

theorem crockfordValue_of_le {char : Char} (high : 128 ≤ char.toNat) : crockfordValue char = none := by
  have letters : ('i' :: 'l' :: 'o' :: crockfordAlphabet).all (·.toNat < 128) = true := by decide
  have lower := (caseless_of_le high).1
  rw [crockfordValue]
  grind

theorem unitValue_toNat (char : Char) : unitValue char.toNat = crockfordValue char := by
  by_cases high : 128 ≤ char.toNat
  · rw [unitValue_of_le high, crockfordValue_of_le high]
  · have ascii : ∀ unit : Fin 128, unitValue unit = crockfordValue (Char.ofNat unit) := by decide +kernel
    have same := ascii ⟨char.toNat, Nat.lt_of_not_le high⟩
    rw [Char.ofNat_toNat] at same
    exact same

/-! ## Only the low bits matter -/

theorem window_eq {left right high} (same : left ≡ right [MOD 2 ^ high]) {low size} (inside : low + size ≤ high) :
    left / 2 ^ low % 2 ^ size = right / 2 ^ low % 2 ^ size := by
  have cut := same.of_dvd (pow_dvd_pow 2 inside)
  rw [← Nat.mod_mul_right_div_self, ← Nat.mod_mul_right_div_self, ← pow_add, cut]

theorem widen_modEq {left right bits} (same : left ≡ right [MOD 2 ^ bits]) (shift value) {width}
    (fits : bits + shift ≤ width) :
    (left * 2 ^ shift + value) % 2 ^ width ≡ right * 2 ^ shift + value [MOD 2 ^ (bits + shift)] := by
  have wide := (same.mul_right' (2 ^ shift)).add_right value
  rw [← pow_add] at wide
  exact ((Nat.mod_modEq _ _).of_dvd (pow_dvd_pow 2 fits)).trans wide

theorem encodeUnits_eq {width} (wide : 32 ≤ width) {bits} (few : bits < 5) {buffer low}
    (same : buffer ≡ low [MOD 2 ^ bits]) (bytes) :
    encodeUnits width bytes buffer bits = crockfordEncodeLoop bytes low bits := by
  induction bytes generalizing buffer low bits with
  | nil =>
    have last := widen_modEq same (5 - bits) 0 (by omega : bits + (5 - bits) ≤ width)
    rw [Nat.add_sub_cancel' (by omega : bits ≤ 5)] at last
    have letter : buffer * 2 ^ (5 - bits) % 2 ^ width % 32 = low * 2 ^ (5 - bits) % 32 := last
    rw [encodeUnits, crockfordEncodeLoop, letter]
  | cons byte rest ih =>
    have next := widen_modEq same 8 byte.toNat (by omega : bits + 8 ≤ width)
    have later : ∀ left, left ≤ bits + 8 -> (buffer * 256 + byte.toNat) % 2 ^ width ≡
        (low * 256 + byte.toNat) % 2 ^ left [MOD 2 ^ left] :=
      fun left short => (next.of_dvd (pow_dvd_pow 2 short)).trans (Nat.mod_modEq _ _).symm
    have letter : ∀ from', from' + 5 ≤ bits + 8 -> (buffer * 256 + byte.toNat) % 2 ^ width / 2 ^ from' % 32 =
        (low * 256 + byte.toNat) / 2 ^ from' % 32 := fun _ inside => window_eq next inside
    simp only [encodeUnits, crockfordEncodeLoop]
    split
    · rw [letter _ (by omega), letter _ (by omega), ih (by omega) (later _ (by omega))]
    · rw [letter _ (by omega), ih (by omega) (later _ (by omega))]

/-- A letter outside of ASCII is more than one unit, or one that is too high. -/
def Plain (units : Char -> List Nat) : Prop :=
  ∀ char, units char = [char.toNat] ∨ 128 ≤ char.toNat ∧ ∃ unit ∈ (units char).head?, 128 ≤ unit

theorem decodeUnits_eq {units} (plain : Plain units) {width} (wide : 32 ≤ width) {bits} (few : bits < 8)
    {buffer low} (same : buffer ≡ low [MOD 2 ^ bits]) (chars) :
    decodeUnits width (chars.flatMap units) buffer bits = crockfordLoop chars low bits := by
  induction chars generalizing buffer low bits with
  | nil => rfl
  | cons char rest ih =>
    rw [flatMap_cons, crockfordLoop]
    rcases plain char with one | ⟨high, _, first, above⟩
    · rw [one, cons_append, nil_append, decodeUnits, unitValue_toNat]
      cases crockfordValue char with
      | none => rfl
      | some value =>
        have next : (buffer * 32 + value) % 2 ^ width ≡ low * 32 + value [MOD 2 ^ (bits + 5)] :=
          widen_modEq same 5 value (by omega)
        simp only [bind_eq_bind, bind_some]
        split
        · have byte : (buffer * 32 + value) % 2 ^ width / 2 ^ (bits + 5 - 8) % 256 =
              (low * 32 + value) / 2 ^ (bits + 5 - 8) % 256 := window_eq next (by omega : bits + 5 - 8 + 8 ≤ _)
          have later := ih (by omega) ((next.of_dvd (pow_dvd_pow 2 (by omega : bits + 5 - 8 ≤ _))).trans
            (Nat.mod_modEq _ _).symm)
          rw [byte, UInt8.ofNat_mod_size, later]
        · exact ih (by omega) next
    · rcases head?_eq_some_iff.mp first with ⟨_, shape⟩
      rw [shape, cons_append, decodeUnits, unitValue_of_le above, crockfordValue_of_le high]
      rfl

theorem utf8_plain : Plain utf8Units := by
  intro char
  simp only [utf8Units, String.utf8EncodeChar, show char.val.toNat = char.toNat from rfl]
  split
  · left
    simp
    omega
  · refine .inr ⟨by omega, ?_⟩
    split
    · exact ⟨_, rfl, by simp; omega⟩
    · split <;> exact ⟨_, rfl, by simp; omega⟩

theorem utf16_plain : Plain utf16Units := by
  intro char
  rw [utf16Units]
  split
  · exact .inl rfl
  · exact .inr ⟨by omega, _, rfl, by omega⟩

theorem rustDecode_eq (encoded) : rustDecode encoded = crockfordBase32Decode encoded :=
  decodeUnits_eq utf8_plain (by decide) (by decide) (refl 0) _

theorem dartDecode_eq (encoded) : dartDecode encoded = crockfordBase32Decode encoded :=
  decodeUnits_eq utf16_plain (by decide) (by decide) (refl 0) _

theorem rustEncode_eq (bytes) : rustEncode bytes = crockfordBase32Encode bytes :=
  congrArg String.ofList (encodeUnits_eq (by decide) (by decide) (refl 0) bytes)

theorem dartEncode_eq (bytes) : dartEncode bytes = crockfordBase32Encode bytes :=
  congrArg String.ofList (encodeUnits_eq (by decide) (by decide) (refl 0) bytes)

theorem length_decodeUnits {width units buffer bits bytes} (few : bits < 8)
    (decoded : decodeUnits width units buffer bits = some bytes) :
    bytes.length = (units.length * 5 + bits) / 8 := by
  induction units generalizing buffer bits bytes with
  | nil =>
    cases decoded
    simp
    omega
  | cons unit rest ih =>
    rcases bind_eq_some_iff.mp decoded with ⟨_, _, later⟩
    split at later
    · rcases bind_eq_some_iff.mp later with ⟨_, tail, ⟨⟩⟩
      rw [length_cons, length_cons, ih (by omega) tail]
      omega
    · rw [length_cons, ih (by omega) later]
      omega

def Alike (char other : Char) : Prop :=
  other = char.toUpper ∨ other = char.toLower ∨ char.toLower ∈ ['i', 'l'] ∧ other = '1' ∨
    char.toLower = 'o' ∧ other = '0' ∨ other = char

theorem crockfordValue_case (char : Char) :
    crockfordValue char.toUpper = crockfordValue char ∧ crockfordValue char.toLower = crockfordValue char := by
  by_cases high : 128 ≤ char.toNat
  · rw [(caseless_of_le high).1, (caseless_of_le high).2]
    exact ⟨rfl, rfl⟩
  · have ascii : ∀ unit : Fin 128, crockfordValue (Char.ofNat unit).toUpper = crockfordValue (Char.ofNat unit) ∧
        crockfordValue (Char.ofNat unit).toLower = crockfordValue (Char.ofNat unit) := by decide +kernel
    have same := ascii ⟨char.toNat, Nat.lt_of_not_le high⟩
    rw [Char.ofNat_toNat] at same
    exact same

theorem Alike.value {char other} (alike : Alike char other) : crockfordValue other = crockfordValue char := by
  rcases alike with rfl | rfl | ⟨one, rfl⟩ | ⟨zero, rfl⟩ | rfl
  · exact (crockfordValue_case char).1
  · exact (crockfordValue_case char).2
  · have lower : char.toLower = 'i' ∨ char.toLower = 'l' := by simpa using one
    simp only [crockfordValue, if_pos lower]
    rfl
  · rw [crockfordValue, crockfordValue, zero]
    rfl
  · rfl

theorem crockfordLoop_alike {left right} (alike : Forall₂ Alike left right) (buffer bits) :
    crockfordLoop right buffer bits = crockfordLoop left buffer bits := by
  induction alike generalizing buffer bits with
  | nil => rfl
  | cons same _ ih => simp [crockfordLoop, same.value, ih]

theorem crockford_agree (bytes) {encoded other : String} (alike : Forall₂ Alike encoded.toList other.toList) :
    (rustDecode (rustEncode bytes) = some bytes ∧ dartDecode (dartEncode bytes) = some bytes ∧
      dartEncode bytes = rustEncode bytes ∧ (rustEncode bytes).length = (8 * bytes.length + 4) / 5 ∧
      ∀ char ∈ (rustEncode bytes).toList, char ∈ crockfordAlphabet) ∧
    (rustDecode encoded = dartDecode encoded ∧ rustDecode other = rustDecode encoded ∧
      ∀ decoded ∈ dartDecode encoded, decoded.length = (encoded.toList.flatMap utf16Units).length * 5 / 8) := by
  simp only [rustEncode_eq, dartEncode_eq, rustDecode_eq]
  refine ⟨⟨crockfordBase32Decode_encode bytes, ?_, trivial, ?_, ?_⟩, ?_, crockfordLoop_alike alike 0 0, ?_⟩
  · rw [dartDecode_eq, crockfordBase32Decode_encode]
  · rw [crockfordBase32Encode, String.length_ofList, length_crockfordEncodeLoop bytes (by decide)]
  · rw [crockfordBase32Encode, String.toList_ofList]
    have letters : ∀ letter : Fin 32, crockfordChar letter ∈ crockfordAlphabet := by decide
    exact fun char => crockfordEncodeLoop_letters (· ∈ crockfordAlphabet)
      (fun value bound => letters ⟨value, bound⟩)
  · rw [dartDecode_eq]
  · exact fun decoded found => length_decodeUnits (by decide) found

theorem crockford_agree_zoo : Forall₂ Alike "Zoo".toList "z0O".toList ∧ rustDecode "z0O" = rustDecode "Zoo" := by
  have alike : Forall₂ Alike "Zoo".toList "z0O".toList := by simp [Alike]
  exact ⟨alike, (crockford_agree [] alike).2.2.1⟩

end Starling.App
