import LineFrame.Pool.Ledger
import LineFrame.Pool.Socket
import LineFrame.Text.Quoted

/-!
# Pools

A bounded pool of client sockets to one endpoint.  Sockets are lent out as handles; one that comes
back is given to the oldest call that waits, parked, or closed.  Parked sockets are lent again, the
last parked first.

A pool is its ledger, together with all that lives outside the ledger's lock: the sockets, the
connector, the grants on their way, and the clock that the reaper goes by.  `Pool.enter`,
`Pool.connect`, `Pool.take` and `Pool.leave` are the steps of a call that wants a socket.  They are
separate because other calls come between them; `Pool.acquire` takes them in a row.
-/

namespace LineFrame

/-- Opens transports. -/
class Connector (κ : Type) (τ : outParam Type) where
  connect : Duration → κ → Except Pool.Error τ × κ
  endpoint : κ → String

namespace Pool

inductive Event where
  | created (socket : Nat)
  | closed (socket : Nat)
deriving DecidableEq, Repr, Inhabited

def Event.text (endpoint : String) : Event → String
  | created _ => s!"created {endpoint}"
  | closed _ => s!"closed {endpoint}"

/-- The right to use a socket, and the seat it takes. -/
structure Handle where
  key : Nat
  socket : Nat
deriving DecidableEq, Repr, Inhabited

end Pool

structure Pool (κ τ : Type) where
  ledger : Pool.Ledger
  connector : κ
  /-- All sockets that were ever connected, the first one first.  Their numbers start at one. -/
  sockets : List (Pool.Socket τ) := []
  /-- The grants that were sent and not yet taken. -/
  mail : List Pool.Delivery := []
  shut : Bool := false
  clock : Nat := 0
  /-- When the reaper runs next. -/
  reapAt : Nat
  /-- The lifecycle events, the latest first. -/
  events : List Pool.Event := []

namespace Pool

variable {κ τ : Type} [Transport τ]

/-- The reaper never rests for less than a millisecond. -/
def leastRest : Duration := .ofMillis 1

/-- How long the reaper rests. -/
def Config.rest (c : Config) : Nat := max c.cleanupInterval.nanos leastRest.nanos

theorem Config.rest_pos (c : Config) : 0 < c.rest :=
  Nat.lt_of_lt_of_le (by decide) (Nat.le_max_right _ _)

/-- A pool without sockets. -/
def create (connector : κ) (config : Config := {}) : Pool κ τ :=
  { ledger := { config }, connector, reapAt := config.rest }

def endpoint [Connector κ τ] (p : Pool κ τ) : String := Connector.endpoint p.connector

def config (p : Pool κ τ) : Config := p.ledger.config

def stats (p : Pool κ τ) : Stats := p.ledger.stats

def describe [Connector κ τ] (p : Pool κ τ) : String :=
  "Pool \x7b endpoint: " ++ Text.quote p.endpoint ++ ", stats: " ++ p.stats.describe ++ " \x7d"

/-! ## Sockets -/

def socket? (p : Pool κ τ) (id : Nat) : Option (Socket τ) :=
  if id = 0 then none else p.sockets[id - 1]?

/-- Changes a socket. -/
def update (p : Pool κ τ) (id : Nat) (f : Socket τ → Socket τ) : Pool κ τ :=
  if id = 0 then p else { p with sockets := p.sockets.modify (id - 1) f }

def health (p : Pool κ τ) : Health where
  disposed id := (p.socket? id).all (·.disposed)
  connected id := (p.socket? id).any Socket.connected

def close (p : Pool κ τ) (id : Nat) : Pool κ τ :=
  let p := p.update id Socket.close
  { p with events := .closed id :: p.events }

/-- Does what a visit to the ledger has left to do. -/
def discharge (p : Pool κ τ) (duties : Ledger.Duties) : Pool κ τ :=
  duties.close.foldl close { p with mail := p.mail ++ duties.send }

/-! ## Getting a socket -/

/-- The visit of a call that wants a socket. -/
def enter (p : Pool κ τ) : Ledger.Entry × Pool κ τ :=
  let (entry, duties, ledger) := p.ledger.enter p.health p.clock
  (entry, { p with ledger }.discharge duties)

/-- Connects a socket for a seat. -/
def connect [Connector κ τ] (p : Pool κ τ) (key : Nat) (timeout : Duration) :
    Except Error Handle × Pool κ τ :=
  match Connector.connect timeout p.connector with
  | (.ok transport, connector) =>
    -- The seat is filled even if the pool was shut down meanwhile; the socket is closed when it
    -- comes back.
    let socket := p.sockets.length + 1
    (.ok { key, socket },
      { p with
        connector
        sockets := p.sockets ++ [{ transport }]
        ledger := p.ledger.fill key socket
        events := .created socket :: p.events })
  | (.error e, connector) =>
    let (send, ledger) := p.ledger.abandon key
    (.error e, { p with connector, ledger }.discharge { send })

/-- The grant that was sent to a call, if one was. -/
def granted? (p : Pool κ τ) (waiter : Nat) : Option Grant := p.mail.lookup waiter

/-- Takes the grant that was sent to a call, and connects a socket if it is a seat. -/
def take [Connector κ τ] (p : Pool κ τ) (waiter : Nat) (grant : Grant)
    (timeout : Duration) : Except Error Handle × Pool κ τ :=
  let p := { p with mail := p.mail.filter (·.1 != waiter) }
  match grant with
  | .socket key socket => (.ok { key, socket }, p)
  | .seat key => p.connect key timeout

/-- A call stops waiting.  It takes the grant that was sent to it all the same, if one was. -/
def leave [Connector κ τ] (p : Pool κ τ) (waiter : Nat) (timeout : Duration) :
    Except Error Handle × Pool κ τ :=
  let p := { p with ledger := p.ledger.leave waiter }
  match p.granted? waiter with
  | some grant => p.take waiter grant timeout
  | none => (.error (.exhausted timeout), p)

/-! ## Giving a socket back -/

/-- The socket of a handle comes back. -/
def reclaim (p : Pool κ τ) (h : Handle) : Pool κ τ :=
  let (fate, send, ledger) := p.ledger.reclaim p.shut p.health p.clock h.key h.socket
  let close := if fate = .closed then [h.socket] else []
  { p with ledger }.discharge { close, send }

/-- Marks the socket of a handle as failed. -/
def discard (p : Pool κ τ) (h : Handle) : Pool κ τ := p.update h.socket Socket.dispose

def isDisposed (p : Pool κ τ) (h : Handle) : Bool := p.health.disposed h.socket

def describeHandle (p : Pool κ τ) (h : Handle) : String :=
  s!"PooledConnection \x7b socket: Some(PooledSocket \x7b id: {h.socket}" ++
    s!", disposed: {p.isDisposed h} \x7d), key: {h.key} \x7d"

/-- Uses the socket of a handle. -/
def use {α : Type} (p : Pool κ τ) (h : Handle)
    (op : Socket τ → Except IoError α × Socket τ) : Except IoError α × Pool κ τ :=
  match p.socket? h.socket with
  | none => (.error .disposed, p)
  | some s =>
    let (found, s) := op s
    (found, p.update h.socket fun _ => s)

/-! ## Upkeep -/

/-- Runs the reaper, and says how many sockets it has closed. -/
def reap (p : Pool κ τ) : Nat × Pool κ τ :=
  let (duties, ledger) := p.ledger.clean p.health p.clock
  (duties.close.length, { p with ledger }.discharge duties)

def configure (p : Pool κ τ) (config : Config) : Pool κ τ :=
  { p with ledger := p.ledger.configure config }

/-- Closes the parked sockets and dismisses the calls that wait. -/
def drain (p : Pool κ τ) : Pool κ τ :=
  let (close, ledger) := p.ledger.drain
  { p with ledger }.discharge { close }

/-- Takes the pool out of use.  Lent sockets are closed when they come back. -/
def shutdown (p : Pool κ τ) : Pool κ τ := if p.shut then p else { p with shut := true }.drain

/-! ## Time -/

/-- How many sockets were closed. -/
def closedCount (p : Pool κ τ) : Nat :=
  p.events.countP fun
    | .closed _ => true
    | .created _ => false

/-- The next run of the reaper, at its time or as soon as it can be. -/
def tick (p : Pool κ τ) : Pool κ τ :=
  let at_ := p.reapAt
  let p := ({ p with clock := max p.clock at_ } : Pool κ τ).reap.2
  { p with reapAt := at_ + p.config.rest }

theorem reapAt_tick (p : Pool κ τ) : p.reapAt < p.tick.reapAt :=
  Nat.lt_add_of_pos_right (Config.rest_pos _)

/-- Lets time pass until an instant, but stops at once when `stop` holds.  The reaper of a pool that
is not shut down runs whenever its time has come. -/
def passUntil (p : Pool κ τ) (limit : Nat) (stop : Pool κ τ → Bool) : Pool κ τ :=
  if stop p then p
  else if _h : p.shut ∨ limit < p.reapAt then { p with clock := max p.clock limit }
  else p.tick.passUntil limit stop
termination_by limit + 1 - p.reapAt
decreasing_by
  have := p.reapAt_tick
  have := Nat.not_lt.1 (not_or.1 _h).2
  omega

/-- Gets a socket: a parked one, a new one, or the first that comes back in time.  Nothing but time
and the reaper goes on meanwhile. -/
def acquire [Connector κ τ] (p : Pool κ τ) : Except Error Handle × Pool κ τ :=
  if p.shut then (.error .shutdown, p)
  else
    match p.enter with
    | (.ready key socket, p) => (.ok { key, socket }, p)
    | (.connect key timeout, p) => p.connect key timeout
    | (.wait waiter timeout, p) =>
      let p := p.passUntil (p.clock + timeout.nanos) fun p => (p.granted? waiter).isSome
      p.leave waiter timeout

end Pool

end LineFrame
