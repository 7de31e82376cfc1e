import Mathlib.Data.List.Basic

namespace Starling

open List Option

/-!
# Base64 with canonical padding

The standard alphabet, four characters for three bytes.  The decoder takes
canonical text only: the length is a multiple of four, padding stands at the very
end, and the bits that the last character does not need are zero.  Text and bytes
are both byte lists here, because that is what a header value carries.
-/

namespace Base64

/-- The character `=`. -/
def pad : UInt8 := 61

def digit (character : UInt8) : Option Nat :=
  let code := character.toNat
  if 65 ≤ code ∧ code ≤ 90 then some (code - 65)
  else if 97 ≤ code ∧ code ≤ 122 then some (code - 71)
  else if 48 ≤ code ∧ code ≤ 57 then some (code + 4)
  else if code = 43 then some 62
  else if code = 47 then some 63
  else none

def letter (value : Nat) : UInt8 :=
  if value < 26 then UInt8.ofNat (value + 65)
  else if value < 52 then UInt8.ofNat (value + 71)
  else if value < 62 then UInt8.ofNat (value - 4)
  else if value = 62 then 43
  else 47

def group (a b c d : UInt8) : Option (List UInt8) := do
  let first <- digit a
  let second <- digit b
  let third <- digit c
  let fourth <- digit d
  some [UInt8.ofNat (first * 4 + second / 16), UInt8.ofNat (second % 16 * 16 + third / 4),
    UInt8.ofNat (third % 4 * 64 + fourth)]

def lastGroup (a b c d : UInt8) : Option (List UInt8) :=
  if d = pad then
    if c = pad then do
      let first <- digit a
      let second <- digit b
      if second % 16 = 0 then some [UInt8.ofNat (first * 4 + second / 16)] else none
    else do
      let first <- digit a
      let second <- digit b
      let third <- digit c
      if third % 4 = 0 then
        some [UInt8.ofNat (first * 4 + second / 16), UInt8.ofNat (second % 16 * 16 + third / 4)]
      else none
  else group a b c d

def decode : List UInt8 -> Option (List UInt8)
  | [] => some []
  | a :: b :: c :: d :: rest =>
    if rest = [] then lastGroup a b c d
    else do
      let first <- group a b c d
      let later <- decode rest
      some (first ++ later)
  | _ => none

def encode : List UInt8 -> List UInt8
  | [] => []
  | [x] => [letter (x.toNat / 4), letter (x.toNat % 4 * 16), pad, pad]
  | [x, y] =>
    [letter (x.toNat / 4), letter (x.toNat % 4 * 16 + y.toNat / 16), letter (y.toNat % 16 * 4), pad]
  | x :: y :: z :: rest =>
    letter (x.toNat / 4) :: letter (x.toNat % 4 * 16 + y.toNat / 16) ::
      letter (y.toNat % 16 * 4 + z.toNat / 64) :: letter (z.toNat % 64) :: encode rest

theorem group_isSome {a b c d} (digits : ∀ character, character ∈ [a, b, c, d] -> (digit character).isSome = true) :
    ∃ bytes, group a b c d = some bytes ∧ bytes.length = 3 := by
  simp only [mem_cons, not_mem_nil, or_false, forall_eq_or_imp, forall_eq, isSome_iff_exists] at digits
  rcases digits with ⟨⟨_, atFirst⟩, ⟨_, atSecond⟩, ⟨_, atThird⟩, _, atFourth⟩
  simp [group, atFirst, atSecond, atThird, atFourth]

theorem decode_of_digits {text count} (full : text.length = 4 * count)
    (digits : ∀ character ∈ text, (digit character).isSome = true) :
    ∃ bytes, decode text = some bytes ∧ bytes.length = 3 * count := by
  induction count generalizing text with
  | zero =>
    rw [eq_nil_of_length_eq_zero full]
    exact ⟨[], rfl, rfl⟩
  | succ count ih =>
    match text, full with
    | a :: b :: c :: d :: rest, full =>
      have fewer : rest.length = 4 * count := by
        simp only [length_cons] at full
        omega
      rcases group_isSome (fun character member => digits character (mem_append_left rest member))
        with ⟨bytes, grouped, _⟩
      rw [decode]
      split
      next last =>
        have unpadded : d ≠ pad := by
          rintro rfl
          have never := digits pad (by simp)
          cases never
        rw [lastGroup, if_neg unpadded]
        rw [last] at fewer
        exact ⟨bytes, grouped, by simp at fewer; omega⟩
      · rcases ih fewer (fun character member => digits character (by simp [member]))
          with ⟨later, decoded, _⟩
        refine ⟨bytes ++ later, by simp [grouped, decoded], ?_⟩
        rw [length_append]
        omega

end Base64

end Starling
