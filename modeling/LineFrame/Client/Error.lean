import LineFrame.Pool.Config
import LineFrame.Wire.FrameError

/-!
# How a client's call fails
-/

namespace LineFrame

namespace Client

inductive Error where
  | io (e : IoError)
  /-- The peer closed before its answer was complete. -/
  | closed
  | frame (e : FrameError)
  /-- The pool gave no socket. -/
  | pool (e : Pool.Error)
deriving DecidableEq, Repr, Inhabited

namespace Error

def message : Error → String
  | io e => s!"I/O error: {e.message}"
  | closed => "connection closed by peer"
  | frame e => s!"protocol error: {e.message}"
  | pool e => e.message

/-- The socket itself failed, rather than the conversation on it. -/
def isConnectionLevel : Error → Bool
  | io _ | closed => true
  | frame _ | pool _ => false

end Error

end Client

end LineFrame
