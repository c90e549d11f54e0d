import LineFrame.Duration
import LineFrame.Transport.IoError

/-!
# Settings and errors of a pool
-/

namespace LineFrame

namespace Pool

structure Config where
  /-- The most sockets that may be parked, lent or being connected. -/
  maxConnections : Nat := 100
  /-- How long a socket may stay parked. -/
  idleTimeout : Duration := .ofSecs 30
  /-- How long a connect may take, and how long a call waits for a socket. -/
  connectTimeout : Duration := .ofSecs 10
  /-- A socket that was parked for as long is checked before it is lent again. -/
  checkInterval : Duration := .ofSecs 10
  /-- How often the reaper runs. -/
  cleanupInterval : Duration := .ofSecs 60
deriving DecidableEq, Repr, Inhabited

/-- Why a call got no socket. -/
inductive Error where
  /-- None became free in time. -/
  | exhausted (timeout : Duration)
  /-- The connect took too long. -/
  | timedOut (timeout : Duration)
  | connect (cause : IoError)
  /-- The pool is shut down. -/
  | shutdown
deriving DecidableEq, Repr, Inhabited

def Error.message : Error → String
  | exhausted timeout => s!"no connection available within {timeout.text}"
  | timedOut timeout => s!"connect timed out after {timeout.text}"
  | connect cause => s!"connect failed: {cause.message}"
  | shutdown => "pool is shut down"

/-- How many sockets are parked, how many seats are taken, and how many calls wait. -/
structure Stats where
  available : Nat
  busy : Nat
  waiters : Nat
deriving DecidableEq, Repr, Inhabited

def Stats.describe (s : Stats) : String :=
  "PoolStats \x7b" ++ s!" available: {s.available}, busy: {s.busy}, waiters: {s.waiters} \x7d"

end Pool

end LineFrame
