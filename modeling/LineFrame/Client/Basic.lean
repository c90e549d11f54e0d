import LineFrame.Client.Exchange
import LineFrame.Pool.Basic

/-!
# Clients

A client runs requests on the sockets of a pool.  It borrows one for each call.  When the socket
fails, as opposed to the conversation on it, the request is sent once more on another one.
-/

namespace LineFrame

structure Client where
  /-- Whether a call is tried again when its socket fails. -/
  retry : Bool := true
  /-- What responses of a status expect after their line, the last set first. -/
  expectations : List (String × Expectation) := [(Response.errorStatus, .always)]
  /-- The largest payload that a response may declare. -/
  maxPayload : Nat := Reader.defaultLimit
deriving DecidableEq, Repr, Inhabited

namespace Client

variable {κ τ α : Type} [Connector κ τ] [Transport τ]

def expect (c : Client) (status : String) (expectation : Expectation) : Client :=
  { c with expectations := (status, expectation) :: c.expectations }

def expectationFor (c : Client) (status : String) : Expectation :=
  (c.expectations.lookup status).getD .auto

/-- One attempt on the socket of a handle, which goes back to the pool. -/
def attempt (request : Request) (read : Reading τ α) (h : Pool.Handle) (r : Reader)
    (p : Pool κ τ) : Except Error α × Reader × Pool κ τ :=
  match p.socket? h.socket with
  | none => (.error .closed, r, p.reclaim h)
  | some s =>
    let (answer, r, s) := exchange request read r s
    (answer, r, (p.update h.socket fun _ => s).reclaim h)

/-- One attempt on a socket that is borrowed for it. -/
def once (request : Request) (read : Reading τ α) (r : Reader) (p : Pool κ τ) :
    Except Error α × Reader × Pool κ τ :=
  match p.acquire with
  | (.error e, p) => (.error (.pool e), r, p)
  | (.ok h, p) => attempt request read h r p

/-- Whether an attempt that ended like this is followed by another one. -/
def retries (c : Client) (first : Bool) : Except Error α → Bool
  | .ok _ => false
  | .error e => first && c.retry && e.isConnectionLevel

theorem first_of_retries {c : Client} {first : Bool} {answer : Except Error α}
    (h : c.retries first answer = true) : first = true := by
  cases answer with
  | ok a => cases h
  | error e =>
    simp only [retries, Bool.and_eq_true] at h
    exact h.1.1

/-- The attempts of a call, which share a reader. -/
def tryFrom (c : Client) (request : Request) (read : Reading τ α) (first : Bool) (r : Reader)
    (p : Pool κ τ) : Except Error α × Pool κ τ :=
  let (answer, r, p) := once request read r p
  if _h : c.retries first answer then c.tryFrom request read false r p else (answer, p)
termination_by first.toNat
decreasing_by simp [first_of_retries _h]

def run (c : Client) (request : Request) (read : Reading τ α) (p : Pool κ τ) :
    Except Error α × Pool κ τ :=
  c.tryFrom request read true (.new bufferSize c.maxPayload) p

/-- Sends a request and reads one response. -/
def exec (c : Client) (request : Request) (p : Pool κ τ) : Except Error Response × Pool κ τ :=
  c.run request (readResponse c.expectationFor) p

/-- Sends a request and reads its responses. -/
def execMulti (c : Client) (m : MultiRequest) (p : Pool κ τ) :
    Except Error (List Response) × Pool κ τ :=
  c.run m.request (readAll m c.expectationFor []) p

end Client

end LineFrame
