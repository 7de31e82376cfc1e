import Mathlib.Data.List.Basic

namespace Starling

/-!
# Sealed boxes

Authenticated encryption as a symbol.  A box remembers the key and the nonce that it was
made with, and gives its content to nobody else.  `canSend` is what an attacker can put on
the wire: whatever is no box at all, a box under a key that they know, and every box that
they have seen.  So a box that opens under a key they lack was made by somebody who has it.
-/

structure Box (K N M : Type) where
  key : K
  nonce : N
  content : M
  deriving DecidableEq

inductive Ciphertext (K N M : Type) where
  | box (box : Box K N M)
  | noise (bytes : M)
  deriving DecidableEq

namespace Ciphertext

variable {K N M : Type} [DecidableEq K] [DecidableEq N] [DecidableEq M]

def decrypt (key : K) (nonce : N) : Ciphertext K N M -> Option M
  | .box made => if made.key = key ∧ made.nonce = nonce then some made.content else none
  | .noise _ => none

variable {ciphertext : Ciphertext K N M}

omit [DecidableEq M] in
theorem decrypt_eq_some {key nonce content} :
    ciphertext.decrypt key nonce = some content ↔ ciphertext = .box ⟨key, nonce, content⟩ := by
  cases ciphertext with
  | noise =>
    constructor <;> exact nofun
  | box =>
    rw [decrypt]
    constructor
    · intro opened
      split at opened
      next fits =>
        rw [Option.some.injEq] at opened
        rw [← fits.1, ← fits.2, ← opened]
      · cases opened
    · intro same
      cases same
      rw [if_pos ⟨rfl, rfl⟩]

/-- What an attacker can send who knows some keys and has seen some ciphertexts. -/
def canSend (known : K -> Bool) (seen : List (Ciphertext K N M)) : Ciphertext K N M -> Bool
  | .noise _ => true
  | .box made => known made.key || decide (.box made ∈ seen)

theorem canSend_mono {known seen later} (grows : seen ⊆ later)
    (sends : ciphertext.canSend known seen = true) : ciphertext.canSend known later = true := by
  cases ciphertext with
  | noise => rfl
  | box =>
    rw [canSend, Bool.or_eq_true, decide_eq_true_eq] at sends ⊢
    rcases sends with hasKey | saw
    · exact .inl hasKey
    · exact .inr (grows saw)

/-- What opens under a key that the attacker lacks is something that they have seen. -/
theorem seen_of_canSend {known seen} (sends : ciphertext.canSend known seen = true) {key nonce content}
    (lacks : known key = false) (opens : ciphertext.decrypt key nonce = some content) : ciphertext ∈ seen := by
  rw [decrypt_eq_some] at opens
  subst opens
  rw [canSend, Bool.or_eq_true, decide_eq_true_eq, lacks] at sends
  rcases sends with hasKey | saw
  · cases hasKey
  · exact saw

end Ciphertext

end Starling
