import LineFrame.Wire.Frame

/-!
# Requests and responses

Both are frames; a request's name is its command, a response's name its status.
-/

namespace LineFrame

structure Request where
  command : String
  args : List String := []
  payload : Option Bytes := none
deriving DecidableEq, Repr, Inhabited

namespace Request

def toFrame (r : Request) : Frame := ⟨r.command, r.args, r.payload⟩

def ofFrame (f : Frame) : Request := ⟨f.name, f.args, f.payload⟩

def encode (r : Request) : Bytes := r.toFrame.encode

end Request

structure Response where
  status : String
  args : List String := []
  payload : Option Bytes := none
deriving DecidableEq, Repr, Inhabited

namespace Response

def toFrame (r : Response) : Frame := ⟨r.status, r.args, r.payload⟩

def ofFrame (f : Frame) : Response := ⟨f.name, f.args, f.payload⟩

def encode (r : Response) : Bytes := r.toFrame.encode

/-- The status of a response that reports a fault. -/
def errorStatus : String := "ERROR"

/-- Reports a fault: its kind is the argument, its message the payload. -/
def error (kind message : String) : Response :=
  { status := errorStatus, args := [kind], payload := some (Text.encode message) }

def isError (r : Response) : Bool := r.status == errorStatus

end Response

/-- A request that is answered by several responses: any number with an expected status, then one
with the terminator's. -/
structure MultiRequest where
  request : Request
  expected : List String
  terminator : String
deriving DecidableEq, Repr, Inhabited

/-- Whether responses with this status may come before the terminator. -/
def MultiRequest.expects (m : MultiRequest) (status : String) : Bool := m.expected.contains status

end LineFrame
