import Starling.Voice.EventLoop

namespace Starling.Voice

open Table

/-!
# The limit on concurrent calls

The limit is looked at when a call is created, and a call that has emptied stays
in the map until it is reaped.  Every move except an entry keeps the number of
live calls or lowers it.  The bound therefore holds along every run in which no
newcomer revives an empty call at the limit, and fails in a run where one does.
-/

variable {C : Crates}

namespace Server

def WithinLimit (server : Server C) : Prop := server.liveCalls ≤ server.cfg.maxConcurrentCalls

variable {now : Instant} {server : Server C} {sid : Sid} {after before : Mark × Server C}

theorem Leaves.liveCalls_le {left gone} (leaves : Leaves server left sid gone now) :
    left.liveCalls ≤ server.liveCalls := by
  apply count_le_of_selected
  intro key live
  rcases mem_selected.mp live with ⟨_, found, inhabited⟩
  rw [leaves.calls, Option.map_eq_some_iff] at found
  rcases found with ⟨stored, present, same⟩
  refine mem_selected.mpr ⟨stored, present, ?_⟩
  rw [Call.isLive_iff] at inhabited ⊢
  -- A roster that is inhabited after a removal was inhabited before it.
  intro empty
  apply inhabited
  rw [← same]
  split
  · rw [Call.remove, empty, List.filter_nil]
  · exact empty

theorem selected_admitted {key session call} (target)
    (live : target ∈ (server.admitted sid key session call now).calls.selected isLive) :
    target = key ∨ target ∈ server.calls.selected isLive := by
  rcases mem_selected.mp live with ⟨stored, found, inhabited⟩
  have lookup := lookup_insert_eq server.calls key target (call.join sid)
  by_cases same : target = key
  · exact .inl same
  · rw [if_neg same] at lookup
    exact .inr (mem_selected.mpr ⟨stored, lookup ▸ found, inhabited⟩)

theorem withinLimit_admitted {key session call}
    (within : server.WithinLimit) (inCall : server.calls.lookup key = some call)
    (limit : call.participants ≠ [] ∨ server.liveCalls < server.cfg.maxConcurrentCalls) :
    (server.admitted sid key session call now).WithinLimit := by
  rcases limit with inhabited | below
  · -- The call was live already, so the set of live calls is the same.
    refine le_trans (count_le_of_selected ?_) within
    intro target live
    rcases selected_admitted target live with same | old
    · rw [same]
      exact mem_selected.mpr ⟨call, inCall, Call.isLive_iff.mpr inhabited⟩
    · exact old
  · exact le_trans (count_le_succ_of_selected key selected_admitted) below

theorem Move.withinLimit (move : Move true before after) (within : before.2.WithinLimit) :
    after.2.WithinLimit := by
  cases move with
  | quiet quiet | update _ _ quiet =>
    rw [WithinLimit, liveCalls, quiet.calls, quiet.cfg]
    exact within
  | @connect _ server owner client waiting =>
    have frame := openSession_frame server owner client waiting
    rw [WithinLimit, liveCalls, frame.1, frame.2.2.2.1]
    exact within
  | leave leaves | reshelve leaves =>
    rw [WithinLimit, leaves.cfg]
    exact le_trans leaves.liveCalls_le within
  | enter _ _ _ inCall _ limit =>
    exact withinLimit_admitted within inCall (limit rfl)
  | rename | rest => exact within

theorem Moves.withinLimit (moves : Moves true before after) (within : before.2.WithinLimit) :
    after.2.WithinLimit :=
  keeps (fun _ _ move kept => move.withinLimit kept) moves within

theorem Move.cfg {strict} (move : Move strict before after) : after.2.cfg = before.2.cfg := by
  cases move with
  | quiet quiet | leave quiet | update _ _ quiet | reshelve quiet => exact quiet.cfg
  | @connect _ server owner client waiting =>
    exact (openSession_frame server owner client waiting).2.2.2.1
  | _ => rfl

theorem Moves.cfg {strict} (moves : Moves strict before after) : after.2.cfg = before.2.cfg :=
  keeps (fun _ _ move kept => move.cfg.trans kept) moves rfl

/-- The live calls stay within the limit along every run in which no join revives
an empty call at the limit. -/
theorem liveCalls_le_of_no_revival {cfg : VoiceServerCfg} {destAddr : SocketAddr}
    {candidateStrings : List String} {idSeed : Nat} {inputs : List LoopInput} {final : Server C}
    (along : Along step (fun server input => ¬ server.RevivesCall input)
      (Server.new C cfg destAddr candidateStrings idSeed) inputs)
    (reached : run step (Server.new C cfg destAddr candidateStrings idSeed) inputs = .ok final) :
    final.liveCalls ≤ cfg.maxConcurrentCalls := by
  let good : Server C -> Prop := fun server =>
    Roster server ∧ server.WithinLimit ∧ server.cfg = cfg
  have preserved : ∀ state input next, good state -> ¬ state.RevivesCall input ->
      step state input = .ok next -> good next := by
    rintro state _ next ⟨roster, within, same⟩ fresh stepped
    have moved : Moves true (Mark.idle, state) (Mark.idle, next) := roster.moves_step (fun _ => fresh) stepped
    exact ⟨moved.roster roster, moved.withinLimit within, moved.cfg.trans same⟩
  have initial : good (new C cfg destAddr candidateStrings idSeed) :=
    ⟨Roster.new C cfg destAddr candidateStrings idSeed, Nat.zero_le _, rfl⟩
  have result := run_invariant preserved initial along reached
  exact result.2.2 ▸ result.2.1

def belowAtJoins (server : Server C) : LoopInput -> Bool
  | .command (.sessionFrame _ (.join _)) _ =>
    decide (server.liveCalls < server.cfg.maxConcurrentCalls)
  | _ => true

theorem not_revivesCall_of_below (server : Server C) (input : LoopInput)
    (below : server.belowAtJoins input = true) : ¬ server.RevivesCall input := by
  rintro ⟨_, _, _, _, rfl, _, _, atLimit, _⟩
  exact not_lt_of_ge atLimit (of_decide_eq_true below)

def leaveAndReplace : List LoopInput :=
  turns [registerRoom, .openSession roomOwner [] true, .sessionFrame 1 (.join roomToken),
    .sessionFrame 1 .bye, .openSession roomOwner [] true, .sessionFrame 2 (.join roomToken)]

theorem liveCalls_le_of_no_revival_replaced : (run step smallRelay leaveAndReplace).toBool = true ∧
      (relayAfter leaveAndReplace).participantsOf roomKey = [2] ∧
      (relayAfter leaveAndReplace).liveCalls ≤ smallRelay.cfg.maxConcurrentCalls :=
  ⟨rfl, rfl, liveCalls_le_of_no_revival (Along.of_check not_revivesCall_of_below rfl) (run_finalState rfl)⟩

def secondToken : Bytes := List.replicate 32 8

def secondKey : CallKey := (roomOwner, quietCrates.blake2b256 secondToken)

/-- The first room empties, a second one takes the only live call, and then a
client returns to the first room, which is still in the map. -/
def returnToEmptyRoom : List LoopInput :=
  turns [.registerSlots roomOwner [⟨roomKey.2.val, none⟩, ⟨secondKey.2.val, none⟩],
    .openSession roomOwner [] true, .sessionFrame 1 (.join roomToken), .sessionFrame 1 .bye,
    .openSession roomOwner [] true, .sessionFrame 2 (.join secondToken),
    .openSession roomOwner [] true, .sessionFrame 3 (.join roomToken)]

theorem liveCalls_exceed_limit : (run step smallRelay returnToEmptyRoom).toBool = true ∧
      smallRelay.cfg.maxConcurrentCalls = 1 ∧
      (relayAfter returnToEmptyRoom).liveCalls = 2 :=
  ⟨rfl, rfl, rfl⟩

end Server

end Starling.Voice
