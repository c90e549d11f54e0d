import LineFrame.Wire.Buffer
import LineFrame.Wire.CommandLine
import LineFrame.Wire.Frame

/-!
# The frame reader

A reader turns received bytes into frames.  It keeps what has to survive between two receptions:
the text of an unfinished line, whether the last byte was a carriage return, how much of a payload
is still owed, and the line that announced it.

Every step returns what it found together with the reader after it, also when it fails: a reader
goes on from wherever an error left it.  `nextFrame_shrinks` says that a step that finds a frame or
fails has consumed a byte, which is why draining a reader ends.
-/

namespace LineFrame

namespace Reader

/-- What the reader is in the middle of. -/
inductive Phase where
  | line
  /-- `remaining` of the `declared` bytes of a payload are still owed. -/
  | payload (declared remaining : Nat)
  /-- The terminator of a payload of `declared` bytes is owed. -/
  | trailer (declared : Nat)
deriving DecidableEq, Repr, Inhabited

def defaultCapacity : Nat := 16 * 1024

def defaultLimit : Nat := 1024 * 1024

end Reader

structure Reader where
  buffer : Buffer
  /-- The largest payload that may be declared. -/
  limit : Nat
  /-- The bytes of the unfinished line, last byte first. -/
  line : Bytes := []
  /-- Whether a carriage return was read whose line feed is owed. -/
  pendingCr : Bool := false
  phase : Reader.Phase := .line
  /-- The line that announced the payload being read. -/
  announced : Option CommandLine := none
  /-- The bytes of the unfinished payload, last byte first. -/
  payload : Bytes := []
deriving DecidableEq, Repr, Inhabited

namespace Reader

def new (capacity : Nat := defaultCapacity) (limit : Nat := defaultLimit) : Reader :=
  { buffer := .empty capacity, limit }

def unread (r : Reader) : Bytes := r.buffer.unread

def hasUnread (r : Reader) : Bool := !r.unread.isEmpty

def readsPayload (r : Reader) : Bool := r.phase != .line

/-- Nothing of a frame is held: the next byte starts a line. -/
def idle (r : Reader) : Bool :=
  r.phase == .line && r.line.isEmpty && !r.pendingCr && !r.hasUnread

/-- Forgets all partial state and all unread bytes. -/
def reset (r : Reader) : Reader :=
  { buffer := r.buffer.clear, limit := r.limit }

/-- Takes as much of a chunk as there is space for. -/
def feed (r : Reader) (chunk : Bytes) : Reader := { r with buffer := r.buffer.feed chunk }

/-- How many bytes the reader can take now. -/
def space (r : Reader) : Nat := r.buffer.space

def consume (r : Reader) (n : Nat) : Reader := { r with buffer := r.buffer.consume n }

def Phase.describe : Phase → String
  | line => "Line"
  | payload declared remaining =>
    s!"Payload \x7b declared: {declared}, remaining: {remaining} \x7d"
  | trailer declared => s!"Trailer \x7b declared: {declared} \x7d"

def describe (r : Reader) : String :=
  "FrameReader \x7b" ++ s!" capacity: {r.buffer.capacity}, buffered: {r.unread.length}" ++
    s!", line: {r.line.length}, pending_cr: {r.pendingCr}, phase: {r.phase.describe}" ++
    s!", max_payload: {r.limit} \x7d"

/-! ## Lines -/

/-- Moves the unread bytes before the first carriage return to the line, and the carriage return
with them. -/
def scanLine (r : Reader) : Reader :=
  let text := r.unread.takeWhile (· ≠ Bytes.cr)
  let r := { r.consume text.length with line := text.reverse ++ r.line }
  match r.unread with
  | [] => r
  | _ :: _ => { r.consume 1 with pendingCr := true }

/-- The byte after a line's carriage return. -/
def endLine (r : Reader) : Except FrameError (Option (List String)) × Reader :=
  match r.unread with
  | [] => (.ok none, r)
  | b :: _ =>
    let r := { r.consume 1 with pendingCr := false }
    if b = Bytes.lf then
      ((CommandLine.tokenize r.line.reverse).map some, { r with line := [] })
    else
      (.error .incompleteCommandTerminator, r)

/-- The tokens of the next line, or nothing if the unread bytes do not complete it. -/
def nextLine (r : Reader) : Except FrameError (Option (List String)) × Reader :=
  let r := if r.pendingCr then r else r.scanLine
  if r.pendingCr then r.endLine else (.ok none, r)

/-! ## Payloads -/

/-- Starts a payload.  One that is longer than the limit is refused before any of it is read. -/
def beginPayload (r : Reader) (length : Nat) : Except FrameError Unit × Reader :=
  if r.limit < length then
    (.error (.payloadTooLarge length r.limit), r)
  else
    let phase := if length = 0 then .trailer 0 else .payload length length
    (.ok (), { r with payload := [], phase })

/-- The byte after the carriage return of a payload's terminator. -/
def endTrailer (r : Reader) (declared : Nat) : Except FrameError (Option Bytes) × Reader :=
  match r.unread with
  | [] => (.ok none, r)
  | b :: _ =>
    let r := { r.consume 1 with pendingCr := false }
    if b = Bytes.lf then
      let received := r.payload.length
      let found := if received = declared then .ok (some r.payload.reverse)
        else .error (.payloadLengthMismatch declared received)
      (found, { r with phase := .line, payload := [] })
    else
      (.error .dataTerminatorMissing, r)

/-- The terminator of a payload. -/
def readTrailer (r : Reader) (declared : Nat) : Except FrameError (Option Bytes) × Reader :=
  if r.pendingCr then r.endTrailer declared
  else
    match r.unread with
    | [] => (.ok none, r)
    | b :: _ =>
      let r := r.consume 1
      if b = Bytes.cr then { r with pendingCr := true }.endTrailer declared
      else if b = Bytes.lf then (.error .dataTerminatorMissing, r)
      else (.error (.payloadOverrun declared), r)

/-- The payload being read, or nothing if the unread bytes do not complete it. -/
def nextPayload (r : Reader) : Except FrameError (Option Bytes) × Reader :=
  match r.phase with
  | .line => (.ok none, r)
  | .payload declared remaining =>
    let chunk := r.unread.take remaining
    let r := { r.consume chunk.length with payload := chunk.reverse ++ r.payload }
    if chunk.length < remaining then
      (.ok none, { r with phase := .payload declared (remaining - chunk.length) })
    else
      { r with phase := .trailer declared }.readTrailer declared
  | .trailer declared => r.readTrailer declared

/-! ## Frames -/

/-- Finishes the frame whose line has been read. -/
def finishFrame (r : Reader) : Except FrameError (Option Frame) × Reader :=
  match r.nextPayload with
  | (.error e, r) => (.error e, r)
  | (.ok none, r) => (.ok none, r)
  | (.ok (some data), r) =>
    match r.announced with
    | some line => (.ok (some ⟨line.name, line.args, some data⟩), { r with announced := none })
    | none => (.error .dataTerminatorMissing, r)

/-- What a line with these tokens expects, given what its first token expects. -/
def expectationOf (expect : String → Expectation) : List String → Expectation
  | [] => .never
  | name :: _ => expect name

/-- What follows once a line has been read. -/
def startFrame (r : Reader) (line : CommandLine) : Except FrameError (Option Frame) × Reader :=
  match line.length with
  | none => (.ok (some ⟨line.name, line.args, none⟩), r)
  | some n =>
    match r.beginPayload n with
    | (.error e, r) => (.error e, r)
    | (.ok (), r) => { r with announced := some line }.finishFrame

/-- The next frame, or nothing if the unread bytes do not complete one.  `expect` tells what a
command expects after its line. -/
def nextFrame (r : Reader) (expect : String → Expectation) :
    Except FrameError (Option Frame) × Reader :=
  if r.phase = .line then
    match r.nextLine with
    | (.error e, r) => (.error e, r)
    | (.ok none, r) => (.ok none, r)
    | (.ok (some tokens), r) =>
      match (expectationOf expect tokens).resolve tokens with
      | .error e => (.error e, r)
      | .ok line => r.startFrame line
  else
    r.finishFrame

/-! ## Progress -/

/-- How many results a step reports: none if it found nothing, else one. -/
def results {α : Type} : Except FrameError (Option α) → Nat
  | .ok none => 0
  | _ => 1

theorem results_le_one {α : Type} (found : Except FrameError (Option α)) : results found ≤ 1 := by
  unfold results
  split <;> omega

@[simp] theorem unread_consume (r : Reader) (n : Nat) :
    (r.consume n).unread = r.unread.drop n := r.buffer.unread_consume n

theorem scanLine_shrinks (r : Reader) : r.scanLine.unread.length ≤ r.unread.length := by
  unfold scanLine
  dsimp only
  split <;> simp only [unread, consume, Buffer.unread_consume, List.length_drop] <;> omega

theorem endLine_shrinks (r : Reader) :
    r.endLine.2.unread.length + results r.endLine.1 ≤ r.unread.length := by
  unfold endLine
  split
  · simp [results]
  · next b rest h =>
    have left : (r.consume 1).unread.length + 1 = r.unread.length := by simp [h]
    have := results_le_one ((CommandLine.tokenize r.line.reverse).map some)
    dsimp only
    split <;> simp only [unread, consume, results] at * <;> omega

theorem nextLine_shrinks (r : Reader) :
    r.nextLine.2.unread.length + results r.nextLine.1 ≤ r.unread.length := by
  unfold nextLine
  have scanned : (if r.pendingCr then r else r.scanLine).unread.length ≤ r.unread.length := by
    split
    · exact Nat.le_refl _
    · exact r.scanLine_shrinks
  generalize (if r.pendingCr then r else r.scanLine) = s at scanned
  dsimp only
  split
  · exact Nat.le_trans s.endLine_shrinks scanned
  · simpa [results] using scanned

theorem endTrailer_shrinks (r : Reader) (declared : Nat) :
    (r.endTrailer declared).2.unread.length + results (r.endTrailer declared).1 ≤
      r.unread.length := by
  unfold endTrailer
  split
  · simp [results]
  · next b rest h =>
    have left : (r.consume 1).unread.length + 1 = r.unread.length := by simp [h]
    dsimp only
    split
    · split <;> simp only [unread, consume, results] at * <;> omega
    · simp only [unread, consume, results] at *
      omega

theorem readTrailer_shrinks (r : Reader) (declared : Nat) :
    (r.readTrailer declared).2.unread.length + results (r.readTrailer declared).1 ≤
      r.unread.length := by
  unfold readTrailer
  split
  · exact r.endTrailer_shrinks declared
  · split
    · simp [results]
    · next b rest h =>
      have left : (r.consume 1).unread.length + 1 = r.unread.length := by simp [h]
      have closed := ({ r.consume 1 with pendingCr := true } : Reader).endTrailer_shrinks declared
      dsimp only at *
      split
      · simp only [unread, consume] at *
        omega
      · split <;> simp only [unread, consume, results] at * <;> omega

theorem nextPayload_shrinks (r : Reader) :
    r.nextPayload.2.unread.length + results r.nextPayload.1 ≤ r.unread.length := by
  unfold nextPayload
  split
  · simp [results]
  · next declared remaining _ =>
    have left (n : Nat) : (r.consume n).unread.length ≤ r.unread.length := by simp
    dsimp only
    split
    · simp [results, unread, consume]
    · exact Nat.le_trans (readTrailer_shrinks _ _) (left _)
  · exact r.readTrailer_shrinks _

theorem finishFrame_shrinks (r : Reader) :
    r.finishFrame.2.unread.length + results r.finishFrame.1 ≤ r.unread.length := by
  have step := r.nextPayload_shrinks
  unfold finishFrame
  split
  · next h => simpa [h, results] using step
  · next h => simpa [h, results] using step
  · next h =>
    rw [h] at step
    split <;> simpa [results, unread] using step

@[simp] theorem unread_beginPayload (r : Reader) (n : Nat) :
    (r.beginPayload n).2.unread = r.unread := by
  unfold beginPayload
  split <;> rfl

theorem startFrame_shrinks (r : Reader) (line : CommandLine) :
    (r.startFrame line).2.unread.length ≤ r.unread.length := by
  unfold startFrame
  split
  · exact Nat.le_refl _
  · next n _ =>
    have kept := r.unread_beginPayload n
    split
    · next h => simpa [h] using Nat.le_of_eq (congrArg List.length kept)
    · next s h =>
      have := ({ s with announced := some line } : Reader).finishFrame_shrinks
      rw [h] at kept
      simp only [unread] at *
      rw [← kept]
      omega

/-- A step that finds a frame or fails has consumed a byte. -/
theorem nextFrame_shrinks (r : Reader) (expect : String → Expectation) :
    (r.nextFrame expect).2.unread.length + results (r.nextFrame expect).1 ≤ r.unread.length := by
  have step := r.nextLine_shrinks
  unfold nextFrame
  split
  · split
    · next h => simpa [h, results] using step
    · next h => simpa [h, results] using step
    · next tokens s h =>
      rw [h] at step
      simp only [results] at step
      split
      · simpa [results] using step
      · next line _ =>
        have := s.startFrame_shrinks line
        have := results_le_one (s.startFrame line).1
        omega
  · exact r.finishFrame_shrinks

theorem nextFrame_lt {r s : Reader} {expect : String → Expectation}
    {found : Except FrameError (Option Frame)} (h : r.nextFrame expect = (found, s))
    (hf : found ≠ .ok none) : s.unread.length < r.unread.length := by
  have step := r.nextFrame_shrinks expect
  rw [h] at step
  have : results found = 1 := by
    unfold results
    split
    · exact absurd rfl hf
    · rfl
  simp only at step
  omega

/-- Adds the frames until the unread bytes complete no more, or until an error, to those in `found`,
the last of which comes first. -/
def drainOnto (found : List Frame) (r : Reader) (expect : String → Expectation) :
    List Frame × Option FrameError × Reader :=
  match _h : r.nextFrame expect with
  | (.ok none, s) => (found.reverse, none, s)
  | (.error e, s) => (found.reverse, some e, s)
  | (.ok (some f), s) => s.drainOnto (f :: found) expect
termination_by r.unread.length
decreasing_by exact nextFrame_lt _h (by simp)

/-- Frames until the unread bytes complete no more, or until an error. -/
def drain (r : Reader) (expect : String → Expectation) :
    List Frame × Option FrameError × Reader :=
  r.drainOnto [] expect

end Reader

end LineFrame
