import LineFrame.Client.Basic
import LineFrame.Pool.Dialer

/-!
# Sessions

One caller uses a pool, and a client on it, step by step.  It keeps its handles under names.  Other
callers, started on the way, want a socket of the same pool and may have to wait for it.

Between two steps the other callers get on as far as they can (`Session.settle`), in the order in
which they were started.  One pass over them is enough: seats that are passed on because a caller
could not connect go to callers that were started later.
-/

namespace LineFrame

namespace Session

/-- How far another caller has got. -/
inductive Progress where
  | waiting (waiter : Nat) (deadline : Nat) (timeout : Duration)
  | done (result : Except Pool.Error Pool.Handle)

structure Caller where
  name : String
  progress : Progress

end Session

structure Session where
  pool : Pool Pool.Dialer Link
  client : Client := {}
  handles : List (String × Pool.Handle) := []
  /-- The other callers that have not been joined, in the order in which they were started. -/
  callers : List Session.Caller := []
  /-- How many of the pool's events were taken. -/
  taken : Nat := 0

namespace Session

open Pool (Handle)

/-- The events since they were last taken. -/
def takeEvents (s : Session) : List Pool.Event × Session :=
  let events := s.pool.events
  ((events.take (events.length - s.taken)).reverse, { s with taken := events.length })

/-! ## The other callers -/

/-- Lets a caller get on as far as it can. -/
def Caller.proceed (c : Caller) (p : Pool Pool.Dialer Link) : Caller × Pool Pool.Dialer Link :=
  match c.progress with
  | .done _ => (c, p)
  | .waiting waiter deadline timeout =>
    match p.granted? waiter with
    | some grant =>
      let (result, p) := p.take waiter grant timeout
      ({ c with progress := .done result }, p)
    | none =>
      if !p.ledger.waiters.contains waiter then
        ({ c with progress := .done (.error .shutdown) }, p)
      else if deadline ≤ p.clock then
        let (result, p) := p.leave waiter timeout
        ({ c with progress := .done result }, p)
      else (c, p)

/-- Lets callers get on, one after the other. -/
def proceedAll (callers : List Caller) (p : Pool Pool.Dialer Link) :
    List Caller × Pool Pool.Dialer Link :=
  match callers with
  | [] => ([], p)
  | c :: rest =>
    let (c, p) := c.proceed p
    let (rest, p) := proceedAll rest p
    (c :: rest, p)

def settle (s : Session) : Session :=
  let (callers, pool) := proceedAll s.callers s.pool
  { s with callers, pool }

/-- Starts another caller, which goes as far as it can at once. -/
def spawn (s : Session) (name : String) : Session :=
  let (progress, pool) : Progress × Pool Pool.Dialer Link :=
    if s.pool.shut then (.done (.error .shutdown), s.pool)
    else
      match s.pool.enter with
      | (.ready key socket, p) => (.done (.ok { key, socket }), p)
      | (.connect key timeout, p) =>
        let (result, p) := p.connect key timeout
        (.done result, p)
      | (.wait waiter timeout, p) => (.waiting waiter (p.clock + timeout.nanos) timeout, p)
  { s with pool, callers := s.callers ++ [⟨name, progress⟩] }

/-! ## Handles -/

/-- Gives the socket of a named handle back, if there is such a handle. -/
def drop (s : Session) (name : String) : Bool × Session :=
  match s.handles.lookup name with
  | none => (false, s)
  | some h =>
    (true, { s with
      pool := s.pool.reclaim h
      handles := s.handles.filter (·.1 != name) })

/-- Keeps a handle under a name, in place of an older one. -/
def keep (s : Session) (name : String) (h : Handle) : Session :=
  let (_, s) := s.drop name
  { s with handles := (name, h) :: s.handles }

/-- Keeps the handle that a caller got. -/
def keepResult (s : Session) (name : String) :
    Except Pool.Error Handle → Except Pool.Error Handle × Session
  | .ok h => (.ok h, s.keep name h)
  | .error e => (.error e, s)

def acquire (s : Session) (name : String) : Except Pool.Error Handle × Session :=
  let (result, pool) := s.pool.acquire
  { s with pool }.keepResult name result

def discard (s : Session) (h : Handle) : Session := { s with pool := s.pool.discard h }

/-- Uses the socket of a handle. -/
def use {α : Type} (s : Session) (h : Handle)
    (op : Pool.Socket Link → Except IoError α × Pool.Socket Link) : Except IoError α × Session :=
  let (found, pool) := s.pool.use h op
  (found, { s with pool })

/-! ## Time -/

/-- When the callers that wait give up, the first one first, as far as that is before an instant. -/
def deadlines (s : Session) (limit : Nat) : List Nat :=
  let all := s.callers.filterMap fun c =>
    match c.progress with
    | .waiting _ deadline _ => if deadline < limit then some deadline else none
    | .done _ => none
  all.mergeSort (· ≤ ·)

/-- Lets time pass until an instant, unless `stop` holds before. -/
def passUntil (s : Session) (limit : Nat) (stop : Pool Pool.Dialer Link → Bool) : Session :=
  (s.deadlines limit ++ [limit]).foldl
    (fun s instant => ({ s with pool := s.pool.passUntil instant stop } : Session).settle) s

def sleep (s : Session) (d : Duration) : Session :=
  s.passUntil (s.pool.clock + d.nanos) fun _ => false

/-- How long it is waited for sockets to be closed. -/
def patience : Duration := .ofSecs 10

/-- Waits until so many sockets were closed in all, and says how many were. -/
def awaitClosed (s : Session) (n : Nat) : Nat × Session :=
  let s := s.passUntil (s.pool.clock + patience.nanos) fun p => n ≤ p.closedCount
  (s.pool.closedCount, s)

/-! ## Joining -/

/-- What joining another caller finds. -/
inductive Joined where
  /-- There is no such caller. -/
  | unknown
  /-- It still waits. -/
  | waiting
  | finished (result : Except Pool.Error Handle)

/-- Waits until a caller is done. -/
def finish (s : Session) (c : Caller) : Session :=
  match c.progress with
  | .done _ => s
  | .waiting waiter deadline _ => s.passUntil deadline fun p => !p.ledger.waiters.contains waiter

/-- Joins another caller if it is done, and keeps its handle under its name. -/
def join (s : Session) (name : String) (patient : Bool := false) : Joined × Session :=
  let s := match s.callers.find? (·.name == name) with
    | some c => if patient then s.finish c else s
    | none => s
  match s.callers.find? (·.name == name) with
  | none => (.unknown, s)
  | some c =>
    match c.progress with
    | .waiting .. => (.waiting, s)
    | .done result =>
      let s := { s with callers := s.callers.eraseP (·.name == name) }
      let (result, s) := s.keepResult name result
      (.finished result, s)

/-! ## Links -/

/-- Other behaviour for a link. -/
structure Patch where
  /-- What arrives after all that was to arrive before. -/
  arrivals : List Arrival := []
  writes : Option WriteScript := none
  up : Option Bool := none

def Patch.apply (patch : Patch) (l : Link) : Link :=
  let l := { l with arrivals := l.arrivals ++ patch.arrivals, up := patch.up.getD l.up }
  match patch.writes with
  | some writes => l.rewire writes
  | none => l

/-- The links made so far, the first one first. -/
def links (s : Session) : List Link := s.pool.sockets.map (·.transport)

/-- Patches the link of a socket. -/
def patch (s : Session) (socket : Nat) (patch : Patch) : Session :=
  let change (x : Pool.Socket Link) := { x with transport := patch.apply x.transport }
  { s with pool := s.pool.update socket change }

/-- Changes what the next connects find. -/
def redial (s : Session) (f : Pool.Dialer → Pool.Dialer) : Session :=
  { s with pool := { s.pool with connector := f s.pool.connector } }

/-! ## The client -/

def exec (s : Session) (request : Request) : Except Client.Error Response × Session :=
  let (answer, pool) := s.client.exec request s.pool
  (answer, { s with pool })

def execMulti (s : Session) (m : MultiRequest) : Except Client.Error (List Response) × Session :=
  let (answer, pool) := s.client.execMulti m s.pool
  (answer, { s with pool })

end Session

end LineFrame
