import LineFrame.Wire.Buffer

/-!
# The memory of a buffer

A buffer is kept in a memory of fixed size, in which two places are marked: where the unread bytes
begin, and where they end.  What moves the marks reaches for bytes by their places, and fails if
there are no such places.  As long as nothing more is consumed than is unread and nothing more is
received than there is space for, no motion fails, and the memory holds the same as the buffer
(`Memory.holds_move`).
-/

namespace LineFrame

namespace Buffer

theorem commit_nil (b : Buffer) : b.commit [] = b :=
  congrArg (Buffer.mk _ _) (List.append_nil _)

/-- What can happen to a buffer. -/
inductive Motion where
  /-- So many of the unread bytes are consumed. -/
  | consume (n : Nat)
  /-- The unread bytes are moved to the front, and these come behind them. -/
  | receive (chunk : Bytes)
  | clear

def move (b : Buffer) : Motion → Buffer
  | .consume n => b.consume n
  | .receive chunk => b.compact.commit chunk
  | .clear => b.clear

/-- Nothing is taken that is not there, and nothing is given that there is no space for. -/
def Allows (b : Buffer) : Motion → Prop
  | .consume n => n ≤ b.unread.length
  | .receive chunk => chunk.length ≤ b.space
  | .clear => True

theorem capacity_move (b : Buffer) (motion : Motion) : (b.move motion).capacity = b.capacity := by
  cases motion <;> rfl

structure Memory where
  bytes : Bytes
  /-- Where the unread bytes begin. -/
  position : Nat
  /-- Where they end. -/
  filled : Nat
deriving DecidableEq, Repr

namespace Memory

def blank (capacity : Nat) : Memory := ⟨List.replicate capacity 0, 0, 0⟩

/-- The bytes from one place up to another, if these are places of the memory, in this order. -/
def slice? (m : Memory) (start stop : Nat) : Option Bytes :=
  if start ≤ stop ∧ stop ≤ m.bytes.length then some ((m.bytes.take stop).drop start) else none

def unread? (m : Memory) : Option Bytes := m.slice? m.position m.filled

def consume? (m : Memory) (n : Nat) : Option Memory := do
  let unread ← m.unread?
  if n ≤ unread.length then some { m with position := m.position + n } else none

/-- Copies the unread bytes to the front, over those that are there. -/
def compact? (m : Memory) : Option Memory := do
  let unread ← m.unread?
  some ⟨unread ++ m.bytes.drop unread.length, 0, m.filled - m.position⟩

/-- Writes bytes behind those that are there. -/
def commit? (m : Memory) (chunk : Bytes) : Option Memory :=
  let stop := m.filled + chunk.length
  if stop ≤ m.bytes.length then
    some { m with bytes := m.bytes.take m.filled ++ chunk ++ m.bytes.drop stop, filled := stop }
  else none

def clear (m : Memory) : Memory := { m with position := 0, filled := 0 }

def move? (m : Memory) : Motion → Option Memory
  | .consume n => m.consume? n
  | .receive chunk => do (← m.compact?).commit? chunk
  | .clear => some m.clear

/-- The memory of a buffer. -/
structure Holds (m : Memory) (b : Buffer) : Prop where
  capacity : m.bytes.length = b.capacity
  position : m.position = b.position
  filled : m.filled = b.filled
  unread : m.unread? = some b.unread

theorem slice?_eq_some_iff {m : Memory} {start stop : Nat} {bytes : Bytes} :
    m.slice? start stop = some bytes ↔
      (start ≤ stop ∧ stop ≤ m.bytes.length) ∧ (m.bytes.take stop).drop start = bytes := by
  rw [slice?, Option.ite_none_right_eq_some, Option.some_inj]

theorem holds_blank (capacity : Nat) : (blank (max capacity 1)).Holds (empty capacity) where
  capacity := List.length_replicate
  position := rfl
  filled := rfl
  unread := rfl

namespace Holds

variable {m : Memory} {b : Buffer}

theorem filled_le (h : m.Holds b) : b.filled ≤ b.capacity := by
  obtain ⟨⟨-, hle⟩, -⟩ := slice?_eq_some_iff.mp h.unread
  rw [← h.filled, ← h.capacity]
  exact hle

theorem consume (h : m.Holds b) {n : Nat} (hn : n ≤ b.unread.length) :
    ∃ m', m.consume? n = some m' ∧ m'.Holds (b.consume n) := by
  have hend : b.filled = b.position + b.unread.length := rfl
  obtain ⟨hplaces, hunread⟩ := slice?_eq_some_iff.mp h.unread
  have hposition := h.position
  have hfilled := h.filled
  refine ⟨{ m with position := m.position + n }, ?_, ?_⟩
  · rw [consume?, h.unread]
    exact if_pos hn
  · exact {
      capacity := h.capacity
      position := congrArg (· + n) hposition
      filled := by rw [filled_consume hn]; exact hfilled
      unread := by
        refine slice?_eq_some_iff.mpr ⟨⟨?_, hplaces.2⟩, ?_⟩
        · show m.position + n ≤ m.filled
          omega
        · rw [Buffer.unread_consume, ← hunread, List.drop_drop] }

theorem compact (h : m.Holds b) : ∃ m', m.compact? = some m' ∧ m'.Holds b.compact := by
  have hend : b.filled = b.position + b.unread.length := rfl
  have hroom := h.filled_le
  have hcapacity := h.capacity
  have hlength : m.filled - m.position = b.unread.length := by
    rw [h.filled, h.position]
    omega
  refine ⟨⟨b.unread ++ m.bytes.drop b.unread.length, 0, m.filled - m.position⟩, ?_, ?_⟩
  · rw [compact?, h.unread]
    rfl
  · exact {
      capacity := by
        show (b.unread ++ m.bytes.drop b.unread.length).length = b.capacity
        rw [List.length_append, List.length_drop]
        omega
      position := rfl
      filled := by
        show m.filled - m.position = 0 + b.unread.length
        omega
      unread := by
        refine slice?_eq_some_iff.mpr ⟨⟨Nat.zero_le _, ?_⟩, ?_⟩
        · show m.filled - m.position ≤ (b.unread ++ m.bytes.drop b.unread.length).length
          rw [List.length_append]
          omega
        · show ((b.unread ++ m.bytes.drop b.unread.length).take (m.filled - m.position)).drop 0 =
            b.unread
          rw [hlength, List.take_left, List.drop_zero] }

theorem commit (h : m.Holds b) {chunk : Bytes} (hc : b.filled + chunk.length ≤ b.capacity) :
    ∃ m', m.commit? chunk = some m' ∧ m'.Holds (b.commit chunk) := by
  obtain ⟨hplaces, hunread⟩ := slice?_eq_some_iff.mp h.unread
  have hfilled := h.filled
  have hcapacity := h.capacity
  have hhead : (m.bytes.take m.filled).length = m.filled := by
    rw [List.length_take]
    omega
  refine ⟨{ m with
    bytes := m.bytes.take m.filled ++ chunk ++ m.bytes.drop (m.filled + chunk.length)
    filled := m.filled + chunk.length }, if_pos (by omega), ?_⟩
  have hlength : (m.bytes.take m.filled ++ chunk ++
      m.bytes.drop (m.filled + chunk.length)).length = m.bytes.length := by
    rw [List.length_append, List.length_append, List.length_drop, hhead]
    omega
  exact {
    capacity := hlength.trans hcapacity
    position := h.position
    filled := by
      show m.filled + chunk.length = b.position + (b.unread ++ chunk).length
      rw [List.length_append, hfilled, Buffer.filled, Nat.add_assoc]
    unread := by
      refine slice?_eq_some_iff.mpr ⟨⟨?_, ?_⟩, ?_⟩
      · show m.position ≤ m.filled + chunk.length
        omega
      · show m.filled + chunk.length ≤ _
        rw [hlength]
        omega
      · show ((m.bytes.take m.filled ++ chunk ++ _).take (m.filled + chunk.length)).drop
          m.position = b.unread ++ chunk
        rw [List.take_left' (by rw [List.length_append, hhead]),
          List.drop_append_of_le_length (by omega), hunread] }

theorem clear (h : m.Holds b) : m.clear.Holds b.clear where
  capacity := h.capacity
  position := rfl
  filled := rfl
  unread := rfl

end Holds

/-- **A motion that is allowed does not fail**, and the memory holds the same as the buffer after
it. -/
theorem holds_move {m : Memory} {b : Buffer} (h : m.Holds b) {motion : Motion}
    (hm : b.Allows motion) : ∃ m', m.move? motion = some m' ∧ m'.Holds (b.move motion) := by
  cases motion with
  | consume n => exact h.consume hm
  | receive chunk =>
    have hroom := h.filled_le
    have hfits : b.compact.filled + chunk.length ≤ b.compact.capacity := by
      have hspace : chunk.length ≤ b.capacity - b.unread.length := hm
      show 0 + b.unread.length + chunk.length ≤ b.capacity
      rw [Buffer.filled] at hroom
      omega
    obtain ⟨m', hcompact, hm'⟩ := h.compact
    obtain ⟨m'', hcommit, hm''⟩ := hm'.commit hfits
    refine ⟨m'', ?_, hm''⟩
    rw [move?, hcompact]
    exact hcommit
  | clear => exact ⟨m.clear, rfl, h.clear⟩

end Memory

end Buffer

end LineFrame
