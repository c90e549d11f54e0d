/-!
# Framing and usage errors

What can go wrong while frames are read.  A usage error (`invalidCommand`, `emptyCommand`) concerns
one line and leaves the stream in step; every other error is fatal, because the place where the
next frame starts is no longer known.
-/

namespace LineFrame

inductive FrameError where
  /-- A carriage return in a line is not followed by a line feed. -/
  | incompleteCommandTerminator
  /-- A payload is not followed by its terminator. -/
  | dataTerminatorMissing
  /-- Bytes other than a terminator follow the declared payload. -/
  | payloadOverrun (declared : Nat)
  | payloadLengthMismatch (declared received : Nat)
  /-- More bytes are declared than the reader accepts. -/
  | payloadTooLarge (declared limit : Nat)
  /-- The line does not fit what its command expects. -/
  | invalidCommand (reason : String)
  /-- The line has no token. -/
  | emptyCommand
  /-- The line is not text. -/
  | invalidUtf8
deriving DecidableEq, Repr, Inhabited

namespace FrameError

def message : FrameError → String
  | incompleteCommandTerminator => "incomplete command terminator"
  | dataTerminatorMissing => "data terminator missing"
  | payloadOverrun declared => s!"payload exceeds declared length of {declared} bytes"
  | payloadLengthMismatch declared received =>
    s!"payload length mismatch: declared {declared}, received {received}"
  | payloadTooLarge declared limit =>
    s!"declared payload of {declared} bytes exceeds limit of {limit}"
  | invalidCommand reason => s!"invalid command: {reason}"
  | emptyCommand => "empty command"
  | invalidUtf8 => "command line is not valid UTF-8"

/-- The name of the cause, as it is told to the peer. -/
def kind : FrameError → String
  | incompleteCommandTerminator => "IncompleteCommandTerminator"
  | dataTerminatorMissing => "DataTerminatorMissing"
  | payloadOverrun _ => "PayloadOverrun"
  | payloadLengthMismatch _ _ => "PayloadLengthMismatch"
  | payloadTooLarge _ _ => "PayloadTooLarge"
  | invalidCommand _ => "InvalidCommand"
  | emptyCommand => "EmptyCommand"
  | invalidUtf8 => "InvalidUtf8"

/-- Whether the stream is out of step after this error. -/
def fatal : FrameError → Bool
  | invalidCommand _ | emptyCommand => false
  | _ => true

end FrameError

end LineFrame
