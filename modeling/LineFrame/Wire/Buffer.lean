import LineFrame.Bytes

/-!
# The receive buffer

A buffer of fixed capacity.  Bytes are received behind those it holds and consumed from the front.
Before anything is received the unread bytes are moved to the front (`compact`), so the whole of the
capacity that is not taken up by unread bytes can be received into.

`unread` is what a reader of the buffer sees; the lemmas say what each operation does to it.
-/

namespace LineFrame

structure Buffer where
  capacity : Nat
  /-- How many bytes were consumed since the unread ones were last moved to the front. -/
  position : Nat
  unread : Bytes
deriving DecidableEq, Repr, Inhabited

namespace Buffer

/-- An empty buffer.  It has room for one byte at least. -/
def empty (capacity : Nat) : Buffer := ⟨max capacity 1, 0, []⟩

/-- How much of the capacity is taken up, by consumed bytes or by unread ones. -/
def filled (b : Buffer) : Nat := b.position + b.unread.length

/-- Moves the unread bytes to the front. -/
def compact (b : Buffer) : Buffer := { b with position := 0 }

/-- How many bytes can be received once the unread ones are at the front. -/
def space (b : Buffer) : Nat := b.capacity - b.unread.length

/-- Appends received bytes. -/
def commit (b : Buffer) (chunk : Bytes) : Buffer := { b with unread := b.unread ++ chunk }

/-- Receives as much of a chunk as there is space for. -/
def feed (b : Buffer) (chunk : Bytes) : Buffer := b.compact.commit (chunk.take b.space)

def consume (b : Buffer) (n : Nat) : Buffer :=
  { b with position := b.position + n, unread := b.unread.drop n }

/-- Forgets all bytes, consumed or not. -/
def clear (b : Buffer) : Buffer := { b with position := 0, unread := [] }

@[simp] theorem unread_empty (n : Nat) : (empty n).unread = [] := rfl

@[simp] theorem unread_clear (b : Buffer) : b.clear.unread = [] := rfl

@[simp] theorem unread_compact (b : Buffer) : b.compact.unread = b.unread := rfl

@[simp] theorem unread_consume (b : Buffer) (n : Nat) :
    (b.consume n).unread = b.unread.drop n := rfl

@[simp] theorem unread_commit (b : Buffer) (chunk : Bytes) :
    (b.commit chunk).unread = b.unread ++ chunk := rfl

@[simp] theorem unread_feed (b : Buffer) (chunk : Bytes) :
    (b.feed chunk).unread = b.unread ++ chunk.take b.space := rfl

/-- Consuming unread bytes takes up no other part of the capacity. -/
theorem filled_consume {b : Buffer} {n : Nat} (h : n ≤ b.unread.length) :
    (b.consume n).filled = b.filled := by
  simp only [filled, consume, List.length_drop]
  omega

end Buffer

end LineFrame
