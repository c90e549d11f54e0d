import LineFrame.Text.Quoted
import LineFrame.Wire.FrameError

/-!
# Faults

How a handler fails, and how its call ends: with a value, with a fault it raises, or in a panic.
A panic is contained: it counts as a fault of kind `Panic` (`Outcome.contain`).
-/

namespace LineFrame

structure Fault where
  kind : String
  message : String
deriving DecidableEq, Repr, Inhabited

/-- What a panicking handler leaves behind: a text or something else. -/
inductive Panic where
  | text (message : String)
  | other
deriving DecidableEq, Repr, Inhabited

namespace Fault

def text (f : Fault) : String := s!"{f.kind}: {f.message}"

def ofPanic : Panic → Fault
  | .text message => ⟨"Panic", message⟩
  | .other => ⟨"Panic", "handler panicked"⟩

def ofFrameError (e : FrameError) : Fault := ⟨e.kind, e.message⟩

/-- The fault of an error value.  Its kind is the last part of the qualified name of its type. -/
def ofError (typeName message : String) : Fault :=
  ⟨(typeName.splitOn "::").getLastD typeName, message⟩

/-- The fault's fields, with its texts quoted. -/
def describe (f : Fault) : String :=
  "HandlerError \x7b kind: " ++ Text.quote f.kind ++ ", message: " ++ Text.quote f.message ++ " \x7d"

end Fault

/-- How a call of handler code ends. -/
inductive Outcome (α : Type) where
  | returned (value : α)
  | faulted (fault : Fault)
  | panicked (cause : Panic)
deriving Repr

namespace Outcome

def map {α β : Type} (f : α → β) : Outcome α → Outcome β
  | returned value => .returned (f value)
  | faulted fault => .faulted fault
  | panicked cause => .panicked cause

def contain {α : Type} : Outcome α → Except Fault α
  | returned value => .ok value
  | faulted fault => .error fault
  | panicked cause => .error (.ofPanic cause)

end Outcome

end LineFrame
