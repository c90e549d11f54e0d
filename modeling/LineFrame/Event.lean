import LineFrame.Net.Address

/-!
# Lifecycle events

What a server tells its sink about a connection and the commands on it.
-/

namespace LineFrame

inductive Event where
  | opened (peer : Option Net.SocketAddress)
  | closed (peer : Option Net.SocketAddress)
  | received (command : String)
  | dispatched (command : String)
  | completed (command : String)
deriving DecidableEq, Repr, Inhabited

namespace Event

/-- The peer's address, or a dash if there is none. -/
def peerText (peer : Option Net.SocketAddress) : String :=
  (peer.map Net.SocketAddress.text).getD "-"

def text : Event → String
  | opened peer => s!"opened {peerText peer}"
  | closed peer => s!"closed {peerText peer}"
  | received command => s!"received {command}"
  | dispatched command => s!"dispatched {command}"
  | completed command => s!"completed {command}"

end Event

end LineFrame
