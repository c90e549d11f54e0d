import Mathlib.Data.List.TakeWhile
import LineFrame.Proofs.Pool.Moves
import LineFrame.Proofs.Pool.Visits

/-!
# Getting a socket from a pool that nobody else uses

`Pool.acquire` as one equation for each way that it can go when there is room: it gives the socket
parked last that is not stale (`acquire_of_parked`), or a new one if all are (`acquire_of_stale`).

A pool that only one caller uses has one socket at most, which is either parked (`Rests`) or lent
(`Lends`).
-/

namespace LineFrame

namespace Pool

namespace Ledger

/-- The parked sockets that are passed over, because they come before the first that works. -/
def passed (l : Ledger) (health : Health) (now : Nat) : List Nat :=
  (l.parked.takeWhile (l.isStale health now)).map (·.socket)

theorem enter_of_parked {l : Ledger} {health : Health} {now : Nat} {d : Parked}
    {rest : List Parked} (h : l.parked.dropWhile (l.isStale health now) = d :: rest) :
    l.enter health now = (.ready l.busy.nextKey d.socket, { close := l.passed health now },
      { l with parked := rest }.seat (.lent d.socket)) := by
  rw [enter]
  split
  · next p kept hp =>
    rw [h] at hp
    cases hp
    rfl
  · next hp =>
    rw [h] at hp
    cases hp

/-- The ledger after a call has taken a seat to connect for, and what it sent. -/
def reserved (l : Ledger) : List Delivery × Ledger :=
  ({ l with parked := [] }.seat .connecting).grantSeats

theorem enter_of_stale {l : Ledger} {health : Health} {now : Nat}
    (hstale : ∀ d ∈ l.parked, l.isStale health now d = true) (hroom : l.hasCapacity = true) :
    l.enter health now = (.connect l.busy.nextKey l.config.connectTimeout,
      { close := l.passed health now, send := l.reserved.1 }, l.reserved.2) := by
  have hparked : l.parked.dropWhile (l.isStale health now) = [] :=
    List.dropWhile_eq_nil_iff.2 hstale
  have hempty : ({ l with parked := [] } : Ledger).hasCapacity = true := by
    rw [hasCapacity_iff, occupied] at hroom ⊢
    exact Nat.lt_of_le_of_lt (by simp) hroom
  rw [enter]
  split
  · next p kept hp =>
    rw [hparked] at hp
    cases hp
  · rw [enterWithout]
    simp only [hempty, if_true]
    rw [List.append_nil]
    rfl

end Ledger

section

variable {κ τ : Type} [Connector κ τ] [Transport τ] {p : Pool κ τ}

/-- The sockets that an `acquire` passes over. -/
def passed (p : Pool κ τ) : List Nat := p.ledger.passed p.health p.clock

/-- Whether a parked socket is passed over. -/
def isStale (p : Pool κ τ) (d : Parked) : Bool := p.ledger.isStale p.health p.clock d

theorem acquire_of_parked {d : Parked} {rest : List Parked} (hopen : p.shut = false)
    (h : p.ledger.parked.dropWhile p.isStale = d :: rest) :
    p.acquire = (.ok ⟨p.ledger.busy.nextKey, d.socket⟩,
      { p with ledger := { p.ledger with parked := rest }.seat (.lent d.socket) }.discharge
        { close := p.passed }) := by
  have hgo : ¬ p.shut = true := by simp [hopen]
  rw [acquire, if_neg hgo, enter, Ledger.enter_of_parked h]
  rfl

theorem acquire_of_stale (hopen : p.shut = false) (hroom : p.ledger.hasCapacity = true)
    (hstale : ∀ d ∈ p.ledger.parked, p.isStale d = true) :
    p.acquire = ({ p with ledger := p.ledger.reserved.2 }.discharge
      { close := p.passed, send := p.ledger.reserved.1 }).connect
        p.ledger.busy.nextKey p.config.connectTimeout := by
  have hgo : ¬ p.shut = true := by simp [hopen]
  rw [acquire, if_neg hgo, enter, Ledger.enter_of_stale hstale hroom]
  rfl

end

/-! ## A pool with one socket -/

section

variable {κ τ : Type} {p : Pool κ τ}

/-- Nothing is lent or waited for, and of the sockets in `all`, one at most, each is parked. -/
structure Rests (p : Pool κ τ) (all : List (Socket τ)) : Prop where
  opened : p.shut = false
  waiters : p.ledger.waiters = []
  room : 1 ≤ p.ledger.config.maxConnections
  sockets : p.sockets = all
  parked : p.ledger.parked.map (·.socket) = List.range' 1 all.length
  busy : p.ledger.busy.size = 0

/-- The only socket is lent. -/
structure Lends (p : Pool κ τ) (h : Handle) (s : Socket τ) : Prop where
  opened : p.shut = false
  waiters : p.ledger.waiters = []
  room : 1 ≤ p.ledger.config.maxConnections
  sockets : p.sockets = [s]
  handle : h.socket = 1
  parked : p.ledger.parked = []
  busy : p.ledger.busy.size = 1
  lent : p.ledger.holds h.key h.socket = true

theorem Lends.socket? {h : Handle} {s : Socket τ} (hp : p.Lends h s) :
    p.socket? h.socket = some s := by
  rw [Pool.socket?, hp.handle, hp.sockets]
  rfl

theorem Lends.sockets_update {h : Handle} {s : Socket τ} (hp : p.Lends h s)
    (f : Socket τ → Socket τ) : (p.update h.socket f).sockets = [f s] := by
  rw [Pool.update, hp.handle, if_neg Nat.one_ne_zero]
  dsimp only
  rw [hp.sockets]
  rfl

theorem Lends.update {h : Handle} {s : Socket τ} (hp : p.Lends h s) (s' : Socket τ) :
    (p.update h.socket fun _ => s').Lends h s' where
  opened := by rw [shut_update]; exact hp.opened
  waiters := by rw [ledger_update]; exact hp.waiters
  room := by rw [ledger_update]; exact hp.room
  sockets := hp.sockets_update fun _ => s'
  handle := hp.handle
  parked := by rw [ledger_update]; exact hp.parked
  busy := by rw [ledger_update]; exact hp.busy
  lent := by rw [ledger_update]; exact hp.lent

-- Without its socket the ledger is empty.
theorem Lends.release {h : Handle} {s : Socket τ} (hp : p.Lends h s) :
    (p.ledger.release h.key h.socket).occupied = 0 := by
  have hkey : p.ledger.busy.get? h.key = some (.lent h.socket) := eq_of_beq hp.lent
  have hsize := p.ledger.busy.size_remove h.key
  rw [hkey, hp.busy] at hsize
  rw [Ledger.release, if_pos hp.lent, Ledger.occupied]
  dsimp only
  rw [hp.parked]
  simpa using hsize

end

section

variable {κ τ : Type} [Transport τ] {p : Pool κ τ}

-- A socket that comes back is left as it is, or closed.
theorem reclaim_sockets (p : Pool κ τ) (h : Handle) :
    (p.reclaim h).sockets = p.sockets ∨
      (p.reclaim h).sockets = (p.update h.socket Socket.close).sockets := by
  unfold Pool.reclaim
  dsimp only [discharge]
  split
  · refine .inr ?_
    show (Pool.update _ h.socket Socket.close).sockets = _
    rw [Pool.update, Pool.update]
    split <;> rfl
  · exact .inl rfl

/-- A socket that works is parked when it comes back. -/
theorem Lends.reclaim {h : Handle} {s : Socket τ} (hp : p.Lends h s) (hs : s.connected = true) :
    (p.reclaim h).Rests [s] := by
  have hdisposed : p.health.disposed h.socket = false := by
    show (p.socket? h.socket).all (·.disposed) = false
    rw [hp.socket?]
    simpa using (Bool.and_eq_true_iff.1 hs).1
  have hconnected : p.health.connected h.socket = true := by
    show (p.socket? h.socket).any Socket.connected = true
    rw [hp.socket?]
    exact hs
  let l := p.ledger.release h.key h.socket
  have hempty : l.occupied = 0 := hp.release
  have hconfig : l.config = p.ledger.config := p.ledger.release_config h.key h.socket
  have hwaiters : l.waiters = [] := (p.ledger.release_waiters h.key h.socket).trans hp.waiters
  have hroom : l.hasCapacity = true := by
    rw [Ledger.hasCapacity_iff, hempty, hconfig]
    exact hp.room
  have hparked : l.parked = [] := by
    rw [Ledger.occupied] at hempty
    exact List.eq_nil_of_length_eq_zero (by omega)
  have hvisit : p.ledger.reclaim p.shut p.health p.clock h.key h.socket =
      (.parked, [], { l with parked := [⟨h.socket, p.clock⟩] }) := by
    have hworks : ¬ (false || !true) = true := Bool.false_ne_true
    rw [Ledger.reclaim, hp.opened, hdisposed, hconnected, if_neg Bool.false_ne_true, if_neg hworks]
    split
    · next w rest h =>
      rw [hwaiters] at h
      cases h
    · rw [if_pos hroom, hparked]
  have hreclaim : p.reclaim h =
      { p with ledger := { l with parked := [⟨h.socket, p.clock⟩] }, mail := p.mail ++ [] } := by
    rw [Pool.reclaim, hvisit]
    rfl
  rw [hreclaim]
  exact {
    opened := hp.opened
    waiters := hwaiters
    room := hconfig ▸ hp.room
    sockets := hp.sockets
    parked := by
      show [h.socket] = [1]
      rw [hp.handle]
    busy := by
      rw [Ledger.occupied] at hempty
      show l.busy.size = 0
      omega }

variable [Connector κ τ]

/-- The first call connects the socket. -/
theorem acquire_rests_nil {t : τ} (hp : p.Rests [])
    (hconnect : (Connector.connect p.config.connectTimeout p.connector).1 = .ok t) :
    ∃ h q, p.acquire = (.ok h, q) ∧ q.Lends h { transport := t } := by
  have hparked : p.ledger.parked = [] := List.map_eq_nil_iff.1 hp.parked
  have hroom : p.ledger.hasCapacity = true := by
    rw [Ledger.hasCapacity_iff, Ledger.occupied, hparked, hp.busy]
    exact hp.room
  have hacquire := acquire_of_stale hp.opened hroom (by simp [hparked])
  have hreserved : p.ledger.reserved = ([], { p.ledger with parked := [] }.seat .connecting) := by
    have hwaiters : ({ p.ledger with parked := [] }.seat .connecting).waiters = [] := hp.waiters
    rw [Ledger.reserved, Ledger.grantSeats]
    split
    · rfl
    · next h => rw [hwaiters] at h; cases h
  have hpassed : p.passed = [] := by
    rw [passed, Ledger.passed, hparked]
    rfl
  have hfound : Connector.connect p.config.connectTimeout p.connector =
      (.ok t, (Connector.connect p.config.connectTimeout p.connector).2) := Prod.ext hconnect rfl
  rw [hreserved, hpassed, Pool.connect] at hacquire
  dsimp only [discharge, List.foldl_nil] at hacquire
  rw [hfound] at hacquire
  refine ⟨_, _, hacquire, ?_⟩
  exact {
    opened := hp.opened
    waiters := hp.waiters
    room := hp.room
    sockets := by
      show p.sockets ++ _ = _
      rw [hp.sockets]
      rfl
    handle := by
      show p.sockets.length + 1 = 1
      rw [hp.sockets]
      rfl
    parked := rfl
    busy := by
      show ((p.ledger.busy.insert .connecting).set _ _).size = 1
      rw [Slab.size_set, Slab.size_insert, hp.busy]
    lent := by
      rw [Ledger.holds, Ledger.fill, Ledger.seat]
      dsimp only
      rw [Slab.get?_set, if_pos rfl, Slab.get?_insert_self]
      simp }

/-- Later ones find it parked. -/
theorem acquire_rests_singleton {s : Socket τ} (hp : p.Rests [s]) (hs : s.connected = true) :
    ∃ h q, p.acquire = (.ok h, q) ∧ q.Lends h s := by
  obtain ⟨d, hparked, hd⟩ : ∃ d, p.ledger.parked = [d] ∧ d.socket = 1 := by
    obtain ⟨d, hd, h1⟩ := List.map_eq_singleton_iff.1 hp.parked
    exact ⟨d, hd, h1⟩
  have hsocket : p.socket? d.socket = some s := by
    rw [Pool.socket?, hd, hp.sockets]
    rfl
  have hfresh : p.isStale d = false := by
    have hdisposed : p.health.disposed d.socket = false := by
      show (p.socket? d.socket).all (·.disposed) = false
      rw [hsocket]
      simpa using (Bool.and_eq_true_iff.1 hs).1
    have hconnected : p.health.connected d.socket = true := by
      show (p.socket? d.socket).any Socket.connected = true
      rw [hsocket]
      exact hs
    rw [isStale, Ledger.isStale, hdisposed, hconnected]
    simp
  have hdrop : p.ledger.parked.dropWhile p.isStale = [d] := by
    rw [hparked, List.dropWhile_cons, hfresh]
    rfl
  have hpassed : p.passed = [] := by
    have hstale : p.ledger.isStale p.health p.clock d = false := hfresh
    rw [passed, Ledger.passed, hparked, List.takeWhile_cons, hstale]
    rfl
  have hacquire := acquire_of_parked hp.opened hdrop
  rw [hpassed] at hacquire
  refine ⟨_, _, hacquire, ?_⟩
  exact {
    opened := hp.opened
    waiters := hp.waiters
    room := hp.room
    sockets := hp.sockets
    handle := hd
    parked := rfl
    busy := by
      show (p.ledger.busy.insert _).size = 1
      rw [Slab.size_insert, hp.busy]
    lent := by
      show ((p.ledger.busy.insert _).get? _ == _) = true
      rw [Slab.get?_insert_self]
      simp }

end

end Pool

end LineFrame
