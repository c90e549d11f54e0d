import LineFrame.Transport.Basic

/-!
# Sockets of a pool

A socket is a transport that can be disposed of.  Every error but an interrupt disposes of it, since
it leaves the stream in an unknown state; from then on nothing reaches the transport.
-/

namespace LineFrame

namespace Pool

structure Socket (τ : Type) where
  transport : τ
  disposed : Bool := false

namespace Socket

variable {τ : Type}

def dispose (s : Socket τ) : Socket τ := { s with disposed := true }

/-- Whether an operation that ended like this leaves the stream in an unknown state. -/
def spoils {α : Type} : Except IoError α → Bool
  | .ok _ => false
  | .error e => !e.isInterrupted

/-- Runs an operation of the transport, unless the socket was disposed of. -/
def run {α : Type} (op : τ → Except IoError α × τ) (s : Socket τ) : Except IoError α × Socket τ :=
  if s.disposed then (.error .disposed, s)
  else
    let (found, transport) := op s.transport
    (found, { transport, disposed := spoils found })

variable [Transport τ]

def connected (s : Socket τ) : Bool := !s.disposed && Transport.connected s.transport

/-- A closed socket is never used again. -/
def close (s : Socket τ) : Socket τ :=
  { transport := Transport.close s.transport, disposed := true }

/-- **Closing a socket closes its transport, and disposes of it.** -/
theorem close_eq (s : Socket τ) : s.close = ⟨Transport.close s.transport, true⟩ := rfl

instance : Transport (Socket τ) where
  read n := run (Transport.read n)
  write bs := run (Transport.write bs)
  flush := run Transport.flush
  connected := connected
  close := close
  budget s := Transport.budget s.transport
  read_length n s chunk h := by
    unfold run at h
    split at h
    · cases h
    · exact Transport.read_length n s.transport chunk h
  read_budget n s := by
    unfold run
    split
    · exact Nat.le_refl _
    · exact Transport.read_budget n s.transport
  write_budget bs s := by
    unfold run
    split
    · exact Nat.le_refl _
    · exact Transport.write_budget bs s.transport
  flush_budget s := by
    unfold run
    split
    · exact Nat.le_refl _
    · exact Transport.flush_budget s.transport

end Socket

end Pool

end LineFrame
