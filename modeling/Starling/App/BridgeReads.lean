import Mathlib.Algebra.Ring.Nat
import Starling.Foundation.Run

namespace Starling.App

open List

/-!
# Reads over the bridge

`pending_frame` is behind a lock that its holder cannot take again.  The guard of an `if let` lives to
the end of its block.
-/

inductive ReadEvent where
  | frame (bytes : List UInt8)
  | closed
  | error

/-- Only one caller reads, so `read_rx` is the queue alone; `ended` if its sender is dropped. -/
structure StreamHandle where
  readRx : List ReadEvent
  ended : Bool
  pendingFrame : Option (List UInt8)
  locked : Bool

inductive ReadResult where
  | data (bytes : List UInt8)
  | bufferTooSmall
  | streamClosed
  | timeout

inductive StreamInput where
  | receive (event : ReadEvent)
  | hangUp
  | read (bufLen : Nat)

namespace StreamHandle

variable (stream : StreamHandle) (bufLen : Nat)

/-- `none` waits for ever. -/
def lock : Option StreamHandle := if stream.locked then none else some { stream with locked := true }

def unlock : StreamHandle := { stream with locked := false }

def stash (bytes : List UInt8) : Option (ReadResult × StreamHandle) := do
  let held <- stream.lock
  return (.bufferTooSmall, { held with pendingFrame := some bytes }.unlock)

def lpStreamRead : Option (ReadResult × StreamHandle) := do
  let held <- stream.lock
  match held.pendingFrame with
  | some bytes =>
    let taken := { held with pendingFrame := none }
    if bufLen < bytes.length then taken.stash bytes else return (.data bytes, taken.unlock)
  | none =>
    let free := held.unlock
    match free.readRx with
    | [] => return (if free.ended then .streamClosed else .timeout, free)
    | .frame bytes :: rest =>
      let received := { free with readRx := rest }
      if bufLen < bytes.length then received.stash bytes else return (.data bytes, received)
    | _ :: rest => return (.streamClosed, { free with readRx := rest })

/-- The loop of `_streamRead`; `none` for a frame that is too large. -/
def streamRead (stream : StreamHandle) : List Nat -> Option (Option ReadResult × StreamHandle)
  | [] => some (none, stream)
  | bufSize :: larger => do
    match <- stream.lpStreamRead bufSize with
    | (.bufferTooSmall, after) => after.streamRead larger
    | (result, after) => return (some result, after)

/-- From 64 KiB to 16 MiB. -/
def bufSizes : List Nat := (range 9).map (fun doubled => 64 * 1024 * 2 ^ doubled)

def step : StreamInput -> Except Unit StreamHandle
  | .receive event => .ok { stream with readRx := stream.readRx ++ [event] }
  | .hangUp => .ok { stream with ended := true }
  | .read bufLen =>
    match stream.lpStreamRead bufLen with
    | none => .error ()
    | some (_, after) => .ok after

def unread : List ReadEvent := (stream.pendingFrame.map ReadEvent.frame).toList ++ stream.readRx

def expected (ended : Bool) : List ReadEvent -> ReadResult × List ReadEvent
  | [] => (if ended then .streamClosed else .timeout, [])
  | .frame bytes :: rest =>
    if bufLen < bytes.length then (.bufferTooSmall, .frame bytes :: rest) else (.data bytes, rest)
  | _ :: rest => (.streamClosed, rest)

def Serves : StreamInput -> Prop
  | .read bufLen => (stream.lpStreamRead bufLen).map (fun (result, after) => (result, after.unread)) =
      some (expected bufLen stream.ended stream.unread)
  | _ => True

def Fits : StreamInput -> Prop
  | .read bufLen => ∀ bytes, stream.pendingFrame = some bytes -> bytes.length ≤ bufLen
  | _ => True

def new : StreamHandle := ⟨[], false, none, false⟩

variable {stream bufLen}

theorem serves_iff (free : stream.locked = false) (input) : stream.Serves input ↔ stream.Fits input := by
  obtain ⟨rx, _, pending, _⟩ := stream
  cases free
  cases input with
  | receive | hangUp => rfl
  | read bufLen =>
    cases pending with
    | some bytes =>
      by_cases small : bufLen < bytes.length
      · simp [Serves, Fits, lpStreamRead, lock, stash, small]
      · simp [Serves, Fits, lpStreamRead, lock, unlock, unread, expected, small]
        exact Nat.not_lt.mp small
    | none =>
      simp only [Serves, Fits, reduceCtorEq, false_implies, implies_true, iff_true]
      cases rx with
      | nil => rfl
      | cons event rest =>
        cases event with
        | frame bytes =>
          by_cases small : bufLen < bytes.length <;> simp [lpStreamRead, lock, unlock, stash, unread, expected, small]
        | _ => rfl

theorem unlocked_step {input next} (free : stream.locked = false) (stepped : stream.step input = .ok next) :
    next.locked = false := by
  cases input with
  | receive | hangUp => cases stepped; exact free
  | read =>
    rw [step] at stepped
    split at stepped
    · cases stepped
    next returned =>
      cases stepped
      simp only [lpStreamRead, lock, free, unlock, stash] at returned
      grind

theorem streamRead_iff {bytes rest} :
    (({ new with readRx := .frame bytes :: rest } : StreamHandle).streamRead bufSizes).map Prod.fst =
      some (some (.data bytes)) ↔ bytes.length ≤ 128 * 1024 := by
  have sizes : bufSizes = 65536 :: 131072 :: (bufSizes.drop 2) := rfl
  rw [sizes]
  by_cases first : 65536 < bytes.length
  · by_cases second : 131072 < bytes.length
    · simp [streamRead, lpStreamRead, lock, unlock, stash, new, first, second]
    · simp [streamRead, lpStreamRead, lock, unlock, stash, new, first, second]
      exact Nat.not_lt.mp second
  · simp [streamRead, lpStreamRead, lock, unlock, new, first]
    omega

/-- The calls serve the frames in order exactly if none repeats with a small buffer, and the worker
gets the frames up to 128 KiB. -/
theorem reads_return_every_frame_iff (inputs : List StreamInput) (bytes : List UInt8) (rest : List ReadEvent) :
    (Along step Serves new inputs ↔ Along step Fits new inputs) ∧
      ((({ new with readRx := .frame bytes :: rest } : StreamHandle).streamRead bufSizes).map Prod.fst =
        some (some (.data bytes)) ↔ bytes.length ≤ 128 * 1024) := by
  refine ⟨?_, streamRead_iff⟩
  exact Along.iff_of_invariant (fun _ input free _ => serves_iff free input)
    (fun _ _ _ free _ stepped => unlocked_step free stepped) rfl (fun _ _ _ _ _ _ => trivial)

/-- The second call for a frame of three bytes waits for its own lock. -/
theorem second_small_read_blocks :
    (run step new [.receive (.frame [1, 2, 3]), .read 1]).toBool = true ∧
      (run step new [.receive (.frame [1, 2, 3]), .read 1, .read 2]).toBool = false := ⟨rfl, rfl⟩

end StreamHandle

/-! ## Frames on a stream -/

/-- The kind and the text of an `io::Error`. -/
inductive FrameError where
  | unexpectedEof (text : String)
  | invalidInput (text : String)

/-- `u32::to_be_bytes`. -/
def u32ToBe (value : Nat) : List UInt8 := [24, 16, 8, 0].map (fun shift : Nat => .ofNat (value >>> shift))

/-- `u32::from_be_bytes`. -/
def u32FromBe (bytes : List UInt8) : Nat := bytes.foldl (fun value byte => value * 256 + byte.toNat) 0

def writeOneFrame (data : List UInt8) : Except FrameError (List UInt8) :=
  if data.length < 2 ^ 32 then .ok (u32ToBe data.length ++ data) else .error (.invalidInput "frame too large")

/-- A loop of `read_one_frame`: what it has read and what is left of the pieces, unless they end before. -/
def fillTo (need : Nat) (accum : List UInt8) : List (List UInt8) -> Option (List UInt8 × List (List UInt8))
  | [] => if need ≤ accum.length then some (accum, []) else none
  | piece :: rest =>
    if need ≤ accum.length then some (accum, piece :: rest)
    else if piece = [] then none
    else fillTo need (accum ++ piece) rest

def readOneFrame (accum : List UInt8) (pieces : List (List UInt8)) :
    Except FrameError (List UInt8 × List UInt8 × List (List UInt8)) :=
  match fillTo 4 accum pieces with
  | none => .error (.unexpectedEof "eof")
  | some (accum, pieces) =>
    let len := u32FromBe (accum.take 4)
    match fillTo (4 + len) accum pieces with
    | none => .error (.unexpectedEof "eof mid-frame")
    | some (accum, pieces) => .ok ((accum.drop 4).take len, accum.drop (4 + len), pieces)

def readFrames : Nat -> List UInt8 -> List (List UInt8) -> List (List UInt8) × Option FrameError
  | 0, _, _ => ([], none)
  | calls + 1, accum, pieces =>
    match readOneFrame accum pieces with
    | .error error => ([], some error)
    | .ok (frame, accum, pieces) =>
      let (frames, error) := readFrames calls accum pieces
      (frame :: frames, error)

def complete (bytes : Nat) : List (List UInt8) -> List (List UInt8)
  | [] => []
  | frame :: rest =>
    if bytes < 4 + frame.length then [] else frame :: complete (bytes - (4 + frame.length)) rest

theorem u32FromBe_u32ToBe {value} (small : value < 2 ^ 32) : u32FromBe (u32ToBe value) = value := by
  simp only [u32FromBe, u32ToBe, map_cons, map_nil, foldl_cons, foldl_nil, UInt8.toNat_ofNat',
    Nat.shiftRight_eq_div_pow]
  omega

variable {need cut : Nat} {accum data tail : List UInt8} {pieces frames : List (List UInt8)}

theorem fillTo_cases (filled : [] ∉ pieces) :
    if (accum ++ pieces.flatten).length < need then fillTo need accum pieces = none
    else ∃ more rest, fillTo need accum pieces = some (more, rest) ∧ need ≤ more.length ∧ [] ∉ rest ∧
      more ++ rest.flatten = accum ++ pieces.flatten := by
  induction pieces generalizing accum with
  | nil => grind [fillTo]
  | cons piece rest ih =>
    rw [fillTo]
    by_cases there : need ≤ accum.length
    · rw [if_pos there, if_neg (by grind)]
      exact ⟨accum, piece :: rest, rfl, there, filled, rfl⟩
    · have read : piece ≠ [] := by grind
      rw [if_neg there, if_neg read]
      simpa using @ih (accum ++ piece) (by grind)

theorem readOneFrame_cut (filled : [] ∉ pieces) (small : data.length < 2 ^ 32)
    (bytes : accum ++ pieces.flatten = (u32ToBe data.length ++ data ++ tail).take cut) :
    if cut < 4 + data.length then ∃ text, readOneFrame accum pieces = .error (.unexpectedEof text)
    else ∃ more rest, readOneFrame accum pieces = .ok (data, more, rest) ∧ [] ∉ rest ∧
      more ++ rest.flatten = tail.take (cut - (4 + data.length)) := by
  have width : (u32ToBe data.length).length = 4 := rfl
  have total := congrArg length bytes
  simp only [length_take, length_append, width] at total
  have start := @fillTo_cases 4 accum pieces filled
  split at start
  · rw [if_pos (by grind)]
    exact ⟨"eof", by simp [readOneFrame, start]⟩
  obtain ⟨first, others, started, long, filledOthers, same⟩ := start
  have len : u32FromBe (first.take 4) = data.length := by
    have front := congrArg (List.take 4) (same.trans bytes)
    rw [take_append_of_le_length long, take_take, min_eq_left (by grind), append_assoc, take_left' width] at front
    rw [front, u32FromBe_u32ToBe small]
  have body := @fillTo_cases (4 + data.length) first others filledOthers
  split at body
  · rw [if_pos (by grind)]
    exact ⟨"eof mid-frame", by simp [readOneFrame, started, len, body]⟩
  · obtain ⟨more, rest, ended, longer, filledRest, sameMore⟩ := body
    have whole := sameMore.trans (same.trans bytes)
    rw [take_append, take_of_length_le (by grind), ← take_append_drop (4 + data.length) more, append_assoc] at whole
    obtain ⟨front, back⟩ := append_inj whole (by grind)
    rw [if_neg (by grind)]
    refine ⟨more.drop (4 + data.length), rest, ?_, filledRest, by grind⟩
    have frame : (more.drop 4).take data.length = data := by
      have dropped := congrArg (List.drop 4) front
      rw [drop_take, drop_left' width] at dropped
      simpa using dropped
    simp [readOneFrame, started, len, ended, frame]

def frameBytes (data : List UInt8) : List UInt8 := u32ToBe data.length ++ data

theorem readFrames_cut (small : ∀ data ∈ frames, data.length < 2 ^ 32) {calls} (filled : [] ∉ pieces)
    (enough : (complete cut frames).length < calls)
    (bytes : accum ++ pieces.flatten = (frames.flatMap frameBytes).take cut) :
    ∃ text, readFrames calls accum pieces = (complete cut frames, some (.unexpectedEof text)) := by
  obtain ⟨calls, rfl⟩ := Nat.exists_eq_add_one.mpr (Nat.zero_lt_of_lt enough)
  induction frames generalizing cut calls accum pieces with
  | nil =>
    have short := @fillTo_cases 4 accum pieces filled
    rw [if_pos (by simp [bytes])] at short
    exact ⟨"eof", by simp [readFrames, readOneFrame, short, complete]⟩
  | cons data rest ih =>
    have first := readOneFrame_cut filled (small data mem_cons_self) bytes
    rw [complete] at enough ⊢
    split at first
    next early =>
      obtain ⟨text, read⟩ := first
      exact ⟨text, by simp [readFrames, read, early]⟩
    next behind =>
      obtain ⟨more, others, read, filledOthers, left⟩ := first
      rw [if_neg behind, length_cons] at enough
      obtain ⟨calls, rfl⟩ := Nat.exists_eq_add_one.mpr (show 0 < calls by omega)
      obtain ⟨text, later⟩ := ih (fun data member => small data (mem_cons_of_mem _ member)) filledOthers left calls
        (by omega)
      refine ⟨text, ?_⟩
      rw [if_neg behind, readFrames, read]
      dsimp only
      rw [later]

theorem complete_all (whole : (frames.flatMap frameBytes).length ≤ cut) : complete cut frames = frames := by
  induction frames generalizing cut with
  | nil => rfl
  | cons data rest ih =>
    have width : (frameBytes data).length = 4 + data.length := length_append
    simp only [flatMap_cons, length_append, width] at whole
    rw [complete, if_neg (by omega), ih (by omega)]

/-- Whatever the pieces and wherever the stream is cut, the calls return the complete frames. -/
theorem frames_lossless (frames : List (List UInt8)) (small : ∀ data ∈ frames, data.length < 2 ^ 32) (cut : Nat)
    (pieces : List (List UInt8)) (filled : [] ∉ pieces)
    (stream : pieces.flatten = (frames.flatMap frameBytes).take cut) :
    (∀ data ∈ frames, writeOneFrame data = .ok (frameBytes data)) ∧
    (∀ calls, (complete cut frames).length < calls ->
      ∃ text, readFrames calls [] pieces = (complete cut frames, some (.unexpectedEof text))) ∧
    ((frames.flatMap frameBytes).length ≤ cut -> complete cut frames = frames) := by
  refine ⟨fun data member => if_pos (small data member), ?_, complete_all⟩
  exact fun calls enough => readFrames_cut small filled enough stream

theorem frames_lossless_cut : ∃ text, readFrames 3 [] [[0, 0], [0, 1, 1, 0, 0, 0, 0, 0], [0, 0, 2, 2]] =
    ([[1], []], some (.unexpectedEof text)) :=
  (frames_lossless [[1], [], [2, 3]] (by decide) 14 _ (by decide) (by decide)).2.1 3 (by decide)

end Starling.App
