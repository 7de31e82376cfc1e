import Mathlib.Data.Set.Insert
import Mathlib.Logic.Relation

namespace Starling

/-!
# Names that are listed in one place and kept in another

A catalogue lists names, and a shelf keeps the things that they name.  The two are
changed at different moments: a thing is placed before its name is listed, and it is
removed after its name has been struck off.  In between, a placed name is claimed by
the one who will list it, and a struck name is condemned.  What is listed stays on the
shelf as long as nobody places a name that is still condemned.
-/

variable {N : Type}

structure Shelf (N : Type) where
  listed : Set N
  placed : Set N
  claimed : Set N
  condemned : Set N

namespace Shelf

/-- What may happen to the catalogue and the shelf. -/
inductive Step (shelf : Shelf N) : Shelf N -> Prop where
  /-- A thing is placed, under a name that nobody is about to remove. -/
  | place (name) (safe : name ∉ shelf.condemned) :
      Step shelf
        { shelf with
          placed := insert name shelf.placed
          claimed := insert name shelf.claimed }
  /-- The name of a claimed thing is listed. -/
  | list (name) (claimed : name ∈ shelf.claimed) (left) (fewer : left ⊆ shelf.claimed) :
      Step shelf
        { shelf with
          listed := insert name shelf.listed
          claimed := left }
  /-- A claim is given up. -/
  | abandon (left) (fewer : left ⊆ shelf.claimed) : Step shelf { shelf with claimed := left }
  /-- Names are struck off while nothing is claimed. -/
  | condemn (names) (known : names ⊆ shelf.listed) (idle : shelf.claimed = ∅) :
      Step shelf
        { shelf with
          listed := shelf.listed \ names
          condemned := shelf.condemned ∪ names }
  /-- A condemned thing is removed. -/
  | remove (name) (due : name ∈ shelf.condemned) (left) (fewer : left ⊆ shelf.condemned) :
      Step shelf
        { shelf with
          placed := shelf.placed \ {name}
          condemned := left }
  /-- A condemned thing is left where it is. -/
  | spare (left) (fewer : left ⊆ shelf.condemned) :
      Step shelf { shelf with condemned := left }
  /-- Something under a name that is neither listed nor claimed comes or goes. -/
  | tidy (placed) (kept : shelf.listed ∪ shelf.claimed ⊆ placed) :
      Step shelf { shelf with placed := placed }

/-- Listed and claimed things are there, and nobody is about to remove them. -/
structure Sound (shelf : Shelf N) : Prop where
  placed : shelf.listed ∪ shelf.claimed ⊆ shelf.placed
  safe : ∀ name ∈ shelf.listed ∪ shelf.claimed, name ∉ shelf.condemned

theorem Step.sound {before after : Shelf N} (step : Step before after) (sound : before.Sound) :
    after.Sound := by
  cases step with
  | place _ safe =>
    constructor
    · rintro _ (listed | rfl | claimed)
      · exact Set.mem_insert_of_mem _ (sound.placed (.inl listed))
      · exact Set.mem_insert _ _
      · exact Set.mem_insert_of_mem _ (sound.placed (.inr claimed))
    · rintro other (listed | rfl | claimed)
      · exact sound.safe other (.inl listed)
      · exact safe
      · exact sound.safe other (.inr claimed)
  | list _ claimed _ fewer =>
    constructor
    · rintro _ ((rfl | listed) | kept)
      · exact sound.placed (.inr claimed)
      · exact sound.placed (.inl listed)
      · exact sound.placed (.inr (fewer kept))
    · rintro other ((rfl | listed) | kept)
      · exact sound.safe other (.inr claimed)
      · exact sound.safe other (.inl listed)
      · exact sound.safe other (.inr (fewer kept))
  | abandon _ fewer =>
    constructor
    · rintro _ (listed | kept)
      · exact sound.placed (.inl listed)
      · exact sound.placed (.inr (fewer kept))
    · rintro other (listed | kept)
      · exact sound.safe other (.inl listed)
      · exact sound.safe other (.inr (fewer kept))
  | condemn _ _ idle =>
    constructor
    · rintro _ (listed | claimed)
      · exact sound.placed (.inl listed.1)
      · exact sound.placed (.inr claimed)
    · rintro other (listed | claimed)
      · rintro (condemned | struck)
        · exact sound.safe other (.inl listed.1) condemned
        · exact listed.2 struck
      · rw [idle] at claimed
        exact False.elim claimed
  | remove _ due _ fewer =>
    constructor
    · intro other member
      refine ⟨sound.placed member, ?_⟩
      rintro rfl
      exact sound.safe other member due
    · intro other member condemned
      exact sound.safe other member (fewer condemned)
  | spare _ fewer =>
    constructor
    · exact sound.placed
    · intro other member condemned
      exact sound.safe other member (fewer condemned)
  | tidy _ kept =>
    constructor
    · exact kept
    · exact sound.safe

theorem sound_of_steps {before after : Shelf N} (steps : Relation.ReflTransGen Step before after)
    (sound : before.Sound) : after.Sound := by
  induction steps with
  | refl => exact sound
  | tail _ last ih => exact last.sound ih

end Shelf

end Starling
