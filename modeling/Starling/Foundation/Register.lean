import Mathlib.Order.Lattice

namespace Starling

/-!
# A register that keeps the newest version

A value is offered together with a version, and it replaces the held one if its version is
newer.  If no two offers share a version, the order in which they come does not show, nor does
it show how often they come.
-/

variable {T V : Type}

structure Versioned (T V : Type) where
  version : T
  value : V

namespace Versioned

variable [LinearOrder T]

/-- The offer wins if its version is newer. -/
def offer (held offered : Versioned T V) : Versioned T V :=
  if held.version < offered.version then offered else held

def offerAll (held : Versioned T V) (offers : List (Versioned T V)) : Versioned T V := offers.foldl offer held

theorem version_le_offer (held offered : Versioned T V) : held.version ≤ (held.offer offered).version := by
  rw [offer]
  split
  next newer => exact le_of_lt newer
  · exact le_refl _

theorem offered_le_offer (held offered : Versioned T V) : offered.version ≤ (held.offer offered).version := by
  rw [offer]
  split
  · exact le_refl _
  next older => exact not_lt.mp older

section

variable (held : Versioned T V)
include held

theorem offerAll_mem (offers : List (Versioned T V)) :
    held.offerAll offers = held ∨ held.offerAll offers ∈ offers := by
  induction offers generalizing held with
  | nil => exact .inl rfl
  | cons first rest ih =>
    rcases ih (held.offer first) with same | offered
    · change (held.offer first).offerAll rest = held ∨ (held.offer first).offerAll rest ∈ first :: rest
      rw [same]
      rw [offer]
      split
      · exact .inr List.mem_cons_self
      · exact .inl rfl
    · exact .inr (List.mem_cons_of_mem first offered)

theorem version_le_offerAll (offers : List (Versioned T V)) : held.version ≤ (held.offerAll offers).version := by
  induction offers generalizing held with
  | nil => exact le_refl _
  | cons first rest ih => exact le_trans (held.version_le_offer first) (ih (held.offer first))

theorem offered_le_offerAll {offers offered}
    (member : offered ∈ offers) : offered.version ≤ (held.offerAll offers).version := by
  induction offers generalizing held with
  | nil => cases member
  | cons first rest ih =>
    rcases List.mem_cons.mp member with rfl | later
    · exact le_trans (held.offered_le_offer offered) (version_le_offerAll (held.offer offered) rest)
    · exact ih (held.offer first) later

theorem offerAll_mem_of_newer {offers offered}
    (member : offered ∈ offers) (newer : held.version < offered.version) : held.offerAll offers ∈ offers := by
  rcases held.offerAll_mem offers with same | taken
  · have bounded := held.offered_le_offerAll member
    rw [same] at bounded
    exact (not_lt_of_ge bounded newer).elim
  · exact taken

end

end Versioned

end Starling
