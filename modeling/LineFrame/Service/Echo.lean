import LineFrame.Service.Basic

/-!
# The echo service

Answers every command with itself, and `PING` with `PONG`.
-/

namespace LineFrame.Service

variable {σ : Type}

/-- The request itself, as a response. -/
def echoed (request : Request) : Call σ Response := .pure (.ofFrame request.toFrame)

def echo (disconnectCommand : String) (maxPayload : Nat) : Service σ :=
  { Service.empty with disconnectCommand, maxPayload, fallback := echoed }.command "PING" .never
    fun _ => .pure { status := "PONG" }

end LineFrame.Service
