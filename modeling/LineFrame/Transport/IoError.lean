/-!
# Input and output errors

What a transport reports when a read, a write or a connect fails.
-/

namespace LineFrame

namespace IoError

inductive Kind where
  | brokenPipe
  | connectionRefused
  | connectionReset
  | connectionAborted
  | notConnected
  | addrNotAvailable
  | wouldBlock
  | timedOut
  | interrupted
  | unexpectedEof
  | permissionDenied
  | invalidData
  | writeZero
  | networkUnreachable
  /-- Any other kind, by its description. -/
  | other (description : String)
deriving DecidableEq, Repr, Inhabited

def Kind.text : Kind → String
  | brokenPipe => "broken pipe"
  | connectionRefused => "connection refused"
  | connectionReset => "connection reset"
  | connectionAborted => "connection aborted"
  | notConnected => "not connected"
  | addrNotAvailable => "address not available"
  | wouldBlock => "operation would block"
  | timedOut => "timed out"
  | interrupted => "operation interrupted"
  | unexpectedEof => "unexpected end of file"
  | permissionDenied => "permission denied"
  | invalidData => "invalid data"
  | writeZero => "write zero"
  | networkUnreachable => "network unreachable"
  | other description => description

end IoError

inductive IoError where
  /-- Nothing is known but the kind. -/
  | plain (kind : IoError.Kind)
  /-- A write that should have taken all bytes took none of those left. -/
  | stalled
  /-- The socket was given up before. -/
  | disposed
  /-- Reported by the host, with its number for the cause. -/
  | host (kind : IoError.Kind) (reason : String) (code : Nat)
deriving DecidableEq, Repr, Inhabited

namespace IoError

def kind : IoError → Kind
  | plain kind => kind
  | stalled => .writeZero
  | disposed => .notConnected
  | host kind _ _ => kind

def message : IoError → String
  | plain kind => kind.text
  | stalled => "failed to write whole buffer"
  | disposed => "socket disposed"
  | host _ reason code => s!"{reason} (os error {code})"

/-- An interrupted operation has done nothing and can be tried again. -/
def isInterrupted (e : IoError) : Bool := e.kind == .interrupted

/-- The host has no route to the address. -/
def unreachable : IoError := .host .networkUnreachable "Network is unreachable" 101

/-- Nobody listens at the address. -/
def refused : IoError := .host .connectionRefused "Connection refused" 111

end IoError

end LineFrame
