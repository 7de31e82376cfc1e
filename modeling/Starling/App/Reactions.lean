import Mathlib.Data.Nat.Pairing
import Mathlib.Logic.Equiv.Nat
import Starling.App.Retention

namespace Starling.App.EventTable

open List

/-!
# Likes

A like and its tombstone are own events without content, so their ids are hashes of the signed
columns alone, with a time in seconds.
-/

structure Liker where
  me : Pubkey
  columns : String -> SignedColumns
  computeEventId : SignedColumns -> String
  hashed : ∀ now kind ref, columns (computeEventId ⟨me, now, kind, some ref⟩) = ⟨me, now, kind, some ref⟩

def Liker.idOf (liker : Liker) (now : Int) (kind : Nat) (ref : String) : String :=
  liker.computeEventId ⟨liker.me, now, kind, some ref⟩

inductive Reaction where
  | like (now : Int)
  | unlike (now : Int)

def Reaction.wants : Reaction -> Bool
  | .like _ => true
  | .unlike _ => false

section

variable (liker : Liker) (target : String) (events : EventTable)

def getEventsByRef (refId : String) (kind : Nat) : List String :=
  inOrder (fun id => (liker.columns id).createdAt) (events.keys.filter (fun id =>
    decide ((liker.columns id).ref = some refId) && decide ((liker.columns id).kind = kind)))

/-- The events by ourselves of `getEventsByRef`. -/
def ownByRef (refId : String) (kind : Nat) : List String :=
  (getEventsByRef liker events refId kind).filter (fun id => decide ((liker.columns id).pubkey = liker.me))

def withdrawn (like : String) : Bool := !(ownByRef liker events like 6).isEmpty

def findActiveLike : Option String := (ownByRef liker events target 5).find? (fun like => !withdrawn liker events like)

def isLikedByMe : Bool := (findActiveLike liker target events).isSome

def react : Reaction -> EventTable
  | .like now =>
    match findActiveLike liker target events with
    | some _ => events
    | none => upsertEvent events (liker.idOf now 5 target) true
  | .unlike now =>
    match findActiveLike liker target events with
    | some like => upsertEvent events (liker.idOf now 6 like) true
    | none => events

def reactStep (reaction : Reaction) : Except Empty EventTable := .ok (react liker target events reaction)

def Active (like : String) : Prop := like ∈ ownByRef liker events target 5 ∧ withdrawn liker events like = false

def Single : Prop := ∀ first second, Active liker target events first -> Active liker target events second ->
  first = second

def Switched (reaction : Reaction) : Prop :=
  isLikedByMe liker target (react liker target events reaction) = reaction.wants ∧
    Single liker target (react liker target events reaction)

/-- A like that is to be made has no tombstone from an earlier like of the same second. -/
def Fresh : Reaction -> Prop
  | .like now => isLikedByMe liker target events = false ->
      withdrawn liker events (liker.idOf now 5 target) = false
  | .unlike _ => True

end

variable {liker : Liker} {target id : String} {events : EventTable}

theorem mem_ownByRef {refId kind} : id ∈ ownByRef liker events refId kind ↔ id ∈ events ∧
    let signed := liker.columns id
    signed.ref = some refId ∧ signed.kind = kind ∧ signed.pubkey = liker.me := by
  simp [ownByRef, getEventsByRef, mem_inOrder, AList.mem_keys, and_assoc]

theorem withdrawn_iff {like} : withdrawn liker events like = true ↔ ∃ id, id ∈ ownByRef liker events like 6 := by
  simp [withdrawn, eq_nil_iff_forall_not_mem]

theorem isLikedByMe_iff : isLikedByMe liker target events = true ↔ ∃ like, Active liker target events like := by
  simp [isLikedByMe, findActiveLike, Active]

theorem mem_ownByRef_upsertEvent {refId kind now sort ref} :
    id ∈ ownByRef liker (upsertEvent events (liker.idOf now sort ref) true) refId kind ↔
      (id = liker.idOf now sort ref ∧ ref = refId ∧ sort = kind) ∨ id ∈ ownByRef liker events refId kind := by
  have stored : id ∈ upsertEvent events (liker.idOf now sort ref) true ↔
      id = liker.idOf now sort ref ∨ id ∈ events := by
    unfold upsertEvent
    split <;> exact AList.mem_insert _
  rw [mem_ownByRef, mem_ownByRef, stored]
  grind [liker.hashed now sort ref, Liker.idOf]

theorem active_like {now like} (nobody : ∀ like, ¬ Active liker target events like) :
    Active liker target (upsertEvent events (liker.idOf now 5 target) true) like ↔
      like = liker.idOf now 5 target ∧ withdrawn liker events like = false := by
  have same : withdrawn liker (upsertEvent events (liker.idOf now 5 target) true) like =
      withdrawn liker events like := by
    rw [Bool.eq_iff_iff, withdrawn_iff, withdrawn_iff]
    simp [mem_ownByRef_upsertEvent]
  rw [Active, same, mem_ownByRef_upsertEvent]
  grind [nobody like, Active]

theorem active_unlike (now) {old} (single : Single liker target events)
    (active : Active liker target events old) (like) :
    ¬ Active liker target (upsertEvent events (liker.idOf now 6 old) true) like := by
  rintro ⟨mine, kept⟩
  rw [← Bool.not_eq_true, withdrawn_iff] at kept
  simp only [mem_ownByRef_upsertEvent] at mine kept
  have before : Active liker target events like := by
    refine ⟨by simpa using mine, ?_⟩
    rw [← Bool.not_eq_true, withdrawn_iff]
    exact fun ⟨id, member⟩ => kept ⟨id, .inr member⟩
  exact kept ⟨_, .inl ⟨rfl, single old like active before, trivial⟩⟩

theorem switched_iff (single : Single liker target events) (reaction) :
    Switched liker target events reaction ↔ Fresh liker target events reaction := by
  have liked : isLikedByMe liker target events = true ↔ _ := isLikedByMe_iff
  cases reaction with
  | like now =>
    rw [Switched, react, Fresh]
    split
    next old found =>
      have shown : isLikedByMe liker target events = true := by rw [isLikedByMe, found]; rfl
      simp [shown, Reaction.wants, single]
    next none =>
      have hidden : isLikedByMe liker target events = false := by rw [isLikedByMe, none]; rfl
      have nobody : ∀ like, ¬ Active liker target events like := by simpa [hidden] using liked
      simp only [hidden, Reaction.wants, isLikedByMe_iff, Single, active_like nobody]
      grind
  | unlike now =>
    simp only [Switched, react, Fresh, Reaction.wants, iff_true, ← Bool.not_eq_true]
    split
    next old found =>
      have active : Active liker target events old := ⟨mem_of_find?_eq_some found, by simpa using find?_some found⟩
      have nobody := active_unlike now single active
      rw [isLikedByMe_iff]
      exact ⟨fun ⟨like, shown⟩ => nobody like shown, fun first _ shown => (nobody first shown).elim⟩
    next none => exact ⟨by rw [isLikedByMe, none]; nofun, single⟩

/-- Likes are a switch exactly if no like is made in a second in which the post was liked and unliked. -/
theorem likes_switch_iff (liker : Liker) (target : String) {start : EventTable} (single : Single liker target start)
    (reactions : List Reaction) : Along (reactStep liker target) (Switched liker target) start reactions ↔
      Along (reactStep liker target) (Fresh liker target) start reactions := by
  apply Along.iff_of_invariant _ _ single (fun _ _ _ _ _ _ => trivial)
  · exact fun _ _ single _ => switched_iff single _
  · rintro events reaction next _ switched ⟨⟩
    exact switched.2

def smallLiker : Liker where
  me := "me"
  columns id :=
    let marks := (id.toList.takeWhile (· = 'x')).length
    ⟨"me", Equiv.intEquivNat.symm marks.unpair.2, marks.unpair.1, some (String.ofList (id.toList.drop (marks + 1)))⟩
  computeEventId signed := String.ofList
    (replicate (Nat.pair signed.kind (Equiv.intEquivNat signed.createdAt)) 'x' ++ '-' :: (signed.ref.getD "").toList)
  hashed := by simp [drop_append]

theorem single_empty : Single liker target ∅ := fun _ _ first => by simp [Active, mem_ownByRef] at first

theorem likes_switch_once :
    Along (reactStep smallLiker "post") (Switched smallLiker "post") ∅ [.like 0, .unlike 1, .like 2] := by
  refine (likes_switch_iff smallLiker "post" single_empty _).mpr (Along.cons (fun _ => rfl) ?_)
  rintro _ ⟨⟩
  refine Along.cons trivial ?_
  rintro _ ⟨⟩
  exact Along.cons (fun _ => by decide +kernel) (fun _ _ => Along.nil)

/-- Liked, unliked and liked again within a second. -/
theorem second_like_is_lost : isLikedByMe smallLiker "post"
    (finalState (reactStep smallLiker "post") ∅ [.like 0, .unlike 0, .like 0]) = false := by
  decide +kernel

end Starling.App.EventTable
