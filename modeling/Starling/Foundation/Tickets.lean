import Mathlib.Data.List.Basic
import Mathlib.Data.Set.Insert

namespace Starling

open List

/-!
# Single-use tickets

An office issues tickets and redeems them.  Issuing a ticket voids the one before, so
only the last ticket can be live, and redeeming a ticket voids it.  The record of the
redeemed tickets, followed by a live one, is then part of the record of the issued
tickets in the same order.  This bounds the redemptions, and with tickets that are
never issued twice it says that none is redeemed twice.
-/

variable {H T : Type}

structure Tickets (H T : Type) where
  issued : List T
  live : Set T
  redeemed : List (H × T)

namespace Tickets

inductive Step (tickets : Tickets H T) : Tickets H T -> Prop where
  /-- A new ticket is issued and the others are void. -/
  | issue (ticket) :
      Step tickets { tickets with issued := tickets.issued ++ [ticket], live := {ticket} }
  /-- A holder redeems a live ticket. -/
  | redeem (holder ticket) (valid : ticket ∈ tickets.live) :
      Step tickets
        { tickets with
          live := tickets.live \ {ticket}
          redeemed := tickets.redeemed ++ [(holder, ticket)] }
  /-- Live tickets are withdrawn. -/
  | withdraw (left) (fewer : left ⊆ tickets.live) : Step tickets { tickets with live := left }

def spent (tickets : Tickets H T) : List T := tickets.redeemed.map Prod.snd

structure Sound (tickets : Tickets H T) : Prop where
  last : ∀ ticket ∈ tickets.live, tickets.issued.getLast? = some ticket
  live : ∀ ticket ∈ tickets.live, (tickets.spent ++ [ticket]).Sublist tickets.issued
  spent : tickets.spent.Sublist tickets.issued

theorem Step.sound {before after : Tickets H T} (step : Step before after) (sound : before.Sound) :
    after.Sound := by
  cases step with
  | issue ticket =>
    refine ⟨?_, ?_, ?_⟩
    · intro other member
      rw [Set.mem_singleton_iff.mp member]
      exact getLast?_concat
    · intro other member
      rw [Set.mem_singleton_iff.mp member]
      exact sound.spent.append (List.Sublist.refl [ticket])
    · exact sound.spent.trans (sublist_append_left _ _)
  | redeem holder ticket valid =>
    have record : (before.redeemed ++ [(holder, ticket)]).map Prod.snd = before.spent ++ [ticket] := map_append
    refine ⟨fun other member => sound.last other member.1, ?_, ?_⟩
    · intro other member
      have same := (sound.last ticket valid).symm.trans (sound.last other member.1)
      exact (member.2 (Option.some.inj same).symm).elim
    · rw [spent, record]
      exact sound.live ticket valid
  | withdraw _ fewer =>
    exact ⟨fun other member => sound.last other (fewer member),
      fun other member => sound.live other (fewer member), sound.spent⟩

variable {tickets : Tickets H T} {ticket : T}

theorem Sound.redeemed_le (sound : tickets.Sound) : tickets.redeemed.length ≤ tickets.issued.length := by
  have length := sound.spent.length_le
  rw [Tickets.spent, length_map] at length
  exact length

/-- Void: issued once and not live. -/
def Void (tickets : Tickets H T) (ticket : T) : Prop := ticket ∈ tickets.issued ∧ ticket ∉ tickets.live

theorem Sound.void_of_superseded (sound : tickets.Sound) (distinct : tickets.issued.Nodup) {earlier later}
    (record : tickets.issued = earlier ++ ticket :: later) (followed : later ≠ []) : tickets.Void ticket := by
  constructor
  · rw [record]
    exact mem_append_right _ mem_cons_self
  · intro live
    have last := sound.last ticket live
    rw [record, getLast?_append_cons, getLast?_cons_of_ne_nil followed] at last
    rw [record] at distinct
    have apart := (nodup_cons.mp (nodup_append.mp distinct).2.1).1
    exact apart (mem_of_getLast? last)

theorem Sound.void_of_spent (sound : tickets.Sound) (distinct : tickets.issued.Nodup)
    (spent : ticket ∈ tickets.spent) : tickets.Void ticket := by
  refine ⟨sound.spent.subset spent, ?_⟩
  intro live
  have nodup := distinct.sublist (sound.live ticket live)
  exact (nodup_append.mp nodup).2.2 ticket spent ticket (mem_singleton_self ticket) rfl

/-- A void ticket stays void and is not redeemed, as long as it is not issued again. -/
theorem Step.void {before after : Tickets H T} (step : Step before after) (distinct : after.issued.Nodup)
    (void : before.Void ticket) : after.Void ticket ∧
      ∀ holder, (holder, ticket) ∈ after.redeemed -> (holder, ticket) ∈ before.redeemed := by
  cases step with
  | issue other =>
    refine ⟨⟨mem_append_left _ void.1, ?_⟩, fun holder member => member⟩
    intro live
    exact (nodup_append.mp distinct).2.2 ticket void.1 other (mem_singleton_self other) live
  | redeem _ _ valid =>
    refine ⟨⟨void.1, fun live => void.2 live.1⟩, ?_⟩
    intro someone member
    rcases mem_append.mp member with old | new
    · exact old
    · rw [mem_singleton, Prod.mk.injEq] at new
      exact (void.2 (new.2 ▸ valid)).elim
  | withdraw _ fewer =>
    exact ⟨⟨void.1, fun live => void.2 (fewer live)⟩, fun holder member => member⟩

end Tickets

end Starling
