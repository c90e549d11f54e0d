import LineFrame.Pool.Config
import LineFrame.Pool.Slab

/-!
# The ledger of a pool

What a pool keeps behind its lock: the sockets that are parked, a table of busy seats, and the
queue of the calls that wait.  Each definition here is one visit to the ledger, made while the lock
is held.  Nothing is connected, closed or waited for in a visit; it says what to do afterwards.

Sockets, seats and waiting calls are named by numbers, a seat's number being its key; instants are
in nanoseconds.  Whether a socket was disposed of, and whether its peer is still there, is known
outside of the ledger and asked for in a visit.

A free seat is never kept from a call that waits: every visit that frees one passes it on
(`Ledger.grantSeats`), the oldest call first.
-/

namespace LineFrame

namespace Pool

/-- A busy seat. -/
inductive Seat where
  /-- Taken for a socket that is being connected. -/
  | connecting
  | lent (socket : Nat)
deriving DecidableEq, Repr, Inhabited

structure Parked where
  socket : Nat
  since : Nat
deriving DecidableEq, Repr, Inhabited

/-- What a call that waited is given: a socket in its seat, or a seat to connect one for. -/
inductive Grant where
  | socket (key : Nat) (socket : Nat)
  | seat (key : Nat)
deriving DecidableEq, Repr, Inhabited

/-- A grant on its way to the call that waits for it. -/
abbrev Delivery := Nat × Grant

/-- What is known about sockets outside of the ledger. -/
structure Health where
  disposed : Nat → Bool
  /-- Whether the peer appears to be there. -/
  connected : Nat → Bool

structure Ledger where
  config : Config
  /-- The parked sockets, the last parked first. -/
  parked : List Parked := []
  busy : Slab Seat := .empty
  /-- The calls that wait, the oldest first. -/
  waiters : List Nat := []
  /-- The number of the next call that waits. -/
  nextWaiter : Nat := 0
deriving Inhabited

namespace Ledger

/-- How many sockets are parked or busy. -/
def occupied (l : Ledger) : Nat := l.parked.length + l.busy.size

def hasCapacity (l : Ledger) : Bool := l.occupied < l.config.maxConnections

def stats (l : Ledger) : Stats := ⟨l.parked.length, l.busy.size, l.waiters.length⟩

/-- Whether the seat is this socket's. -/
def holds (l : Ledger) (key : Nat) (socket : Nat) : Bool :=
  l.busy.get? key == some (.lent socket)

/-- Gives up the seat, if it is this socket's. -/
def release (l : Ledger) (key : Nat) (socket : Nat) : Ledger :=
  if l.holds key socket then { l with busy := l.busy.remove key } else l

/-- Takes a seat.  Its key is `l.busy.nextKey`. -/
def seat (l : Ledger) (s : Seat) : Ledger := { l with busy := l.busy.insert s }

/-- Gives seats to calls that wait, while there are both. -/
def grantSeats (l : Ledger) : List Delivery × Ledger :=
  match _h : l.waiters with
  | [] => ([], l)
  | w :: rest =>
    if l.hasCapacity then
      let (sent, l') := ({ l with waiters := rest }.seat .connecting).grantSeats
      ((w, .seat l.busy.nextKey) :: sent, l')
    else ([], l)
termination_by l.waiters.length
decreasing_by simp [seat, _h]

/-! ## Calls that want a socket -/

/-- Whether a parked socket has to be passed over: it was disposed of, or it was parked for so long
that it is checked, and its peer is gone. -/
def isStale (l : Ledger) (health : Health) (now : Nat) (p : Parked) : Bool :=
  health.disposed p.socket ||
    (l.config.checkInterval.nanos ≤ now - p.since && !health.connected p.socket)

/-- Whether a parked socket has been idle for too long. -/
def isExpired (l : Ledger) (now : Nat) (p : Parked) : Bool :=
  l.config.idleTimeout.nanos ≤ now - p.since

/-- Frees the seats of sockets that were disposed of, and unparks the sockets that were idle for too
long or disposed of.  These are given in the order in which they are to be closed. -/
def reap (l : Ledger) (health : Health) (now : Nat) : List Nat × Ledger :=
  let zombie : Seat → Bool
    | .connecting => false
    | .lent socket => health.disposed socket
  let oldest := l.parked.reverse
  -- Sockets are parked in the order of time, so those idle for too long come first.
  let expired := oldest.takeWhile (l.isExpired now)
  let (dead, left) := (oldest.dropWhile (l.isExpired now)).partition (health.disposed ·.socket)
  ((expired ++ dead).map (·.socket),
    { l with busy := l.busy.removeAll zombie, parked := left.reverse })

/-- How a call that wants a socket goes on. -/
inductive Entry where
  /-- It has one. -/
  | ready (key : Nat) (socket : Nat)
  /-- It has a seat, and connects. -/
  | connect (key : Nat) (timeout : Duration)
  /-- It waits. -/
  | wait (waiter : Nat) (timeout : Duration)
deriving DecidableEq, Repr, Inhabited

/-- What has to be done after a visit: the sockets to close, in order, and the grants to send. -/
structure Duties where
  close : List Nat := []
  send : List Delivery := []
deriving DecidableEq, Repr, Inhabited

/-- A seat for a call that found no parked socket, or a place in the queue.  When there is no
capacity a reap may make some; what it makes beyond this call's seat goes to the calls that wait. -/
def enterWithout (l : Ledger) (health : Health) (now : Nat) : Entry × Duties × Ledger :=
  let timeout := l.config.connectTimeout
  let (close, l) := if l.hasCapacity then ([], l) else l.reap health now
  if l.hasCapacity then
    let (send, l') := (l.seat .connecting).grantSeats
    (.connect l.busy.nextKey timeout, { close, send }, l')
  else
    let waiter := l.nextWaiter
    (.wait waiter timeout, { close },
      { l with waiters := l.waiters ++ [waiter], nextWaiter := waiter + 1 })

/-- The visit of a call that wants a socket.  It gets the one parked last that is not stale; those
passed over are closed. -/
def enter (l : Ledger) (health : Health) (now : Nat) : Entry × Duties × Ledger :=
  let stale := (l.parked.takeWhile (l.isStale health now)).map (·.socket)
  match l.parked.dropWhile (l.isStale health now) with
  | p :: rest =>
    (.ready l.busy.nextKey p.socket, { close := stale },
      { l with parked := rest }.seat (.lent p.socket))
  | [] =>
    let (entry, duties, l) := { l with parked := [] }.enterWithout health now
    (entry, { duties with close := stale ++ duties.close }, l)

/-- The call that wanted a socket has connected one. -/
def fill (l : Ledger) (key : Nat) (socket : Nat) : Ledger :=
  { l with busy := l.busy.set key (.lent socket) }

/-- The call that wanted a socket could not connect one. -/
def abandon (l : Ledger) (key : Nat) : List Delivery × Ledger :=
  { l with busy := l.busy.remove key }.grantSeats

/-- A call stops waiting. -/
def leave (l : Ledger) (waiter : Nat) : Ledger :=
  { l with waiters := l.waiters.filter (· != waiter) }

/-! ## Sockets that come back -/

/-- What becomes of a socket that comes back. -/
inductive Fate where
  | closed
  /-- It was given to a call that waited. -/
  | granted
  | parked
deriving DecidableEq, Repr, Inhabited

/-- The visit of a socket that comes back.  A socket that works is given to the oldest call that
waits, or parked if none does and there is room; any other is closed, and its seat passed on. -/
def reclaim (l : Ledger) (shut : Bool) (health : Health) (now : Nat) (key : Nat)
    (socket : Nat) : Fate × List Delivery × Ledger :=
  let l := l.release key socket
  -- A pool that is shut down passes nothing on.
  if shut then (.closed, [], l)
  else if health.disposed socket || !health.connected socket then
    let (send, l) := l.grantSeats
    (.closed, send, l)
  else
    match l.waiters with
    | w :: rest =>
      -- The socket keeps working in a seat of its own, which may have another key than before.
      (.granted, [(w, .socket l.busy.nextKey socket)],
        { l with waiters := rest }.seat (.lent socket))
    | [] =>
      if l.hasCapacity then (.parked, [], { l with parked := ⟨socket, now⟩ :: l.parked })
      else (.closed, [], l)

/-! ## Upkeep -/

/-- Reaps, and passes the freed seats on. -/
def clean (l : Ledger) (health : Health) (now : Nat) : Duties × Ledger :=
  let (close, l) := l.reap health now
  let (send, l) := l.grantSeats
  ({ close, send }, l)

/-- Unparks every socket and dismisses every call that waits.  The sockets are given in the order in
which they are to be closed. -/
def drain (l : Ledger) : List Nat × Ledger :=
  ((l.parked.map (·.socket)).reverse, { l with parked := [], waiters := [] })

/-- Puts other settings in place.  Nothing is passed on until the next visit that frees a seat. -/
def configure (l : Ledger) (config : Config) : Ledger := { l with config }

end Ledger

end Pool

end LineFrame
