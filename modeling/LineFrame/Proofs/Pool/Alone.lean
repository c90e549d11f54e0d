import LineFrame.Proofs.Pool.Acquire

/-!
# A pool that is used alone

Somebody who uses a pool alone gets sockets and drops them, one at a time, while time passes and the
reaper runs (`Alone`).  If what it gives back works, and the reaper takes none of it, then it is lent
one socket all the time (`run_steady`).
-/

namespace LineFrame

namespace Pool

namespace Ledger

variable {l : Ledger} {health : Health} {now : Nat}

theorem grantSeats_nil (h : l.waiters = []) : l.grantSeats = ([], l) := by
  rw [grantSeats]
  split
  · rfl
  · next hw => rw [h] at hw; cases hw

-- A reap that takes nothing out leaves what is parked as it was.
theorem reap_parked_of_nil (h : (l.reap health now).1 = []) :
    (l.reap health now).2.parked = l.parked := by
  let oldest := l.parked.reverse
  let dead (p : Parked) : Bool := health.disposed p.socket
  have hclose : oldest.takeWhile (l.isExpired now) ++
      (oldest.dropWhile (l.isExpired now)).filter dead = [] := by
    rw [reap, List.partition_eq_filter_filter] at h
    exact List.map_eq_nil_iff.1 h
  obtain ⟨hexpired, hdead⟩ := List.append_eq_nil_iff.1 hclose
  have hall : oldest.takeWhile (l.isExpired now) ++ oldest.dropWhile (l.isExpired now) = oldest :=
    List.takeWhile_append_dropWhile
  rw [hexpired, List.nil_append] at hall
  have hleft : (oldest.dropWhile (l.isExpired now)).filter (not ∘ dead) = oldest := by
    rw [hall] at hdead ⊢
    rw [List.filter_eq_self]
    intro p hp
    simpa using List.filter_eq_nil_iff.1 hdead p hp
  rw [reap, List.partition_eq_filter_filter]
  show (List.filter (not ∘ dead) (oldest.dropWhile (l.isExpired now))).reverse = l.parked
  rw [hleft, List.reverse_reverse]

end Ledger

section

variable {κ τ : Type} [Transport τ] {p : Pool κ τ}

-- Where nobody waits, a reaper that takes nothing out does no more than to free seats.
theorem reap_of_kept (hwaiters : p.ledger.waiters = []) (hkept : p.reap.1 = 0) :
    p.reap.2 = { p with ledger := (p.ledger.reap p.health p.clock).2 } ∧
      (p.ledger.reap p.health p.clock).2.parked = p.ledger.parked := by
  have hclose : (p.ledger.reap p.health p.clock).1 = [] := List.eq_nil_of_length_eq_zero hkept
  have hgrants := Ledger.grantSeats_nil (l := (p.ledger.reap p.health p.clock).2) hwaiters
  refine ⟨?_, Ledger.reap_parked_of_nil hclose⟩
  rw [reap, Ledger.clean]
  dsimp only
  rw [hgrants, hclose]
  show ({ p with ledger := _, mail := p.mail ++ [] } : Pool κ τ) = _
  rw [List.append_nil]

theorem Rests.reap {all : List (Socket τ)} (hp : p.Rests all) (hkept : p.reap.1 = 0) :
    p.reap.2.Rests all := by
  obtain ⟨heq, hparked⟩ := reap_of_kept hp.waiters hkept
  rw [heq]
  exact {
    opened := hp.opened
    waiters := hp.waiters
    room := hp.room
    sockets := hp.sockets
    parked := by
      show (p.ledger.reap p.health p.clock).2.parked.map (·.socket) = _
      rw [hparked]
      exact hp.parked
    busy := by
      have hsize : (p.ledger.reap p.health p.clock).2.busy.size ≤ p.ledger.busy.size :=
        Slab.size_removeAll_le ..
      have hnone := hp.busy
      show (p.ledger.reap p.health p.clock).2.busy.size = 0
      omega }

-- The seat of a socket that works is not freed.
theorem Lends.reap {h : Handle} {s : Socket τ} (hp : p.Lends h s) (hs : s.connected = true)
    (hkept : p.reap.1 = 0) : p.reap.2.Lends h s := by
  obtain ⟨heq, hparked⟩ := reap_of_kept hp.waiters hkept
  let l := (p.ledger.reap p.health p.clock).2
  have hdisposed : p.health.disposed h.socket = false := by
    show (p.socket? h.socket).all (·.disposed) = false
    rw [hp.socket?]
    simpa using (Bool.and_eq_true_iff.1 hs).1
  have hlent : l.busy.get? h.key = some (.lent h.socket) := by
    have hseat : p.ledger.busy.get? h.key = some (.lent h.socket) := eq_of_beq hp.lent
    refine (Ledger.reap_entry hseat).resolve_right fun hzombie => ?_
    rw [Seat.IsZombie, hdisposed] at hzombie
    cases hzombie
  rw [heq]
  exact {
    opened := hp.opened
    waiters := hp.waiters
    room := hp.room
    sockets := hp.sockets
    handle := hp.handle
    parked := hparked.trans hp.parked
    busy := by
      have hmost : l.busy.size ≤ p.ledger.busy.size := Slab.size_removeAll_le ..
      have hleast : [h.key].length ≤ l.busy.size := by
        refine l.busy.length_le_size (List.pairwise_singleton _ _) fun k hk => ?_
        rw [List.mem_singleton.1 hk, hlent]
        rfl
      have hone := hp.busy
      rw [List.length_singleton] at hleast
      show l.busy.size = 1
      omega
    lent := by
      show (l.busy.get? h.key == _) = true
      rw [hlent]
      exact beq_self_eq_true _ }

end

/-- Somebody who uses a pool alone. -/
structure Alone (κ τ : Type) where
  pool : Pool κ τ
  /-- The handle that it holds, if any. -/
  held : Option Handle := none

/-- What somebody who uses a pool alone does, and what goes on meanwhile. -/
inductive Act (τ : Type) where
  /-- Gets a socket, if it holds none. -/
  | acquire
  /-- Uses the socket that it holds. -/
  | use (op : Socket τ → Except IoError Unit × Socket τ)
  /-- Drops the handle that it holds. -/
  | drop
  | pass (d : Duration)
  | reap

/-- Whatever is done with a socket that works, it still works. -/
def Act.Healthy {τ : Type} [Transport τ] : Act τ → Prop
  | .use op => ∀ s : Socket τ, s.connected = true → (op s).2.connected = true
  | _ => True

namespace Alone

variable {κ τ : Type} [Transport τ] [Connector κ τ]

def act (x : Alone κ τ) : Act τ → Alone κ τ
  | .acquire =>
    match x.held, x.pool.acquire with
    | some _, _ => x
    | none, (.ok h, pool) => { pool, held := some h }
    | none, (.error _, pool) => { pool }
  | .use op =>
    match x.held with
    | some h => { x with pool := (x.pool.use h op).2 }
    | none => x
  | .drop =>
    match x.held with
    | some h => { pool := x.pool.reclaim h }
    | none => x
  | .pass d => { x with pool := { x.pool with clock := x.pool.clock + d.nanos } }
  | .reap => { x with pool := x.pool.reap.2 }

def run (x : Alone κ τ) (acts : List (Act τ)) : Alone κ τ := acts.foldl act x

/-- No run of the reaper closes a socket. -/
def Unreaped (x : Alone κ τ) : List (Act τ) → Prop
  | [] => True
  | a :: acts => (a = .reap → x.pool.reap.1 = 0) ∧ (x.act a).Unreaped acts

/-- No socket was connected yet, and the first one is going to work. -/
structure Unused (x : Alone κ τ) : Prop where
  idle : x.held = none
  rests : x.pool.Rests []
  dial : ∃ t, (Connector.connect x.pool.config.connectTimeout x.pool.connector).1 = .ok t ∧
    Transport.connected t = true

/-- There is one socket, which works. -/
inductive Opened : Alone κ τ → Prop
  | resting {p : Pool κ τ} {s : Socket τ} (hp : p.Rests [s]) (hs : s.connected = true) :
      Opened { pool := p }
  | lent {p : Pool κ τ} {h : Handle} {s : Socket τ} (hp : p.Lends h s) (hs : s.connected = true) :
      Opened { pool := p, held := some h }

variable {x : Alone κ τ}

theorem create_unused {connector : κ} {config : Config} {t : τ}
    (hroom : 1 ≤ config.maxConnections)
    (hdial : (Connector.connect config.connectTimeout connector).1 = .ok t)
    (ht : Transport.connected t = true) : Unused { pool := create connector config } where
  idle := rfl
  rests := ⟨rfl, rfl, hroom, rfl, rfl, Slab.size_empty⟩
  dial := ⟨t, hdial, ht⟩

theorem acquire_opened (hx : x.Unused) : (x.act .acquire).Opened := by
  obtain ⟨t, hdial, ht⟩ := hx.dial
  obtain ⟨h, q, hacquire, hq⟩ := acquire_rests_nil hx.rests hdial
  rw [act, hx.idle, hacquire]
  exact .lent hq ht

theorem act_unused (hx : x.Unused) {a : Act τ} (ha : a ≠ .acquire)
    (hkept : a = .reap → x.pool.reap.1 = 0) : (x.act a).Unused := by
  have hrests := hx.rests
  cases a with
  | acquire => exact absurd rfl ha
  | use op =>
    rw [act, hx.idle]
    exact hx
  | drop =>
    rw [act, hx.idle]
    exact hx
  | pass d =>
    exact ⟨hx.idle, ⟨hrests.opened, hrests.waiters, hrests.room, hrests.sockets, hrests.parked,
      hrests.busy⟩, hx.dial⟩
  | reap =>
    refine ⟨hx.idle, hrests.reap (hkept rfl), ?_⟩
    show ∃ t, (Connector.connect x.pool.reap.2.config.connectTimeout x.pool.reap.2.connector).1 =
      .ok t ∧ _
    rw [(reap_of_kept hrests.waiters (hkept rfl)).1]
    exact hx.dial

-- The socket is lent, used, dropped and parked, and works all the time.
theorem act_opened (hx : x.Opened) {a : Act τ} (ha : a.Healthy)
    (hkept : a = .reap → x.pool.reap.1 = 0) : (x.act a).Opened := by
  cases hx with
  | @resting p s hp hs =>
    cases a with
    | acquire =>
      obtain ⟨h, q, hacquire, hq⟩ := acquire_rests_singleton hp hs
      rw [act, hacquire]
      exact .lent hq hs
    | use | drop => exact .resting hp hs
    | pass d => exact .resting ⟨hp.opened, hp.waiters, hp.room, hp.sockets, hp.parked, hp.busy⟩ hs
    | reap => exact .resting (hp.reap (hkept rfl)) hs
  | @lent p h s hp hs =>
    cases a with
    | acquire => exact .lent hp hs
    | use op =>
      have huse : (p.use h op).2 = p.update h.socket fun _ => (op s).2 := by
        unfold Pool.use
        rw [hp.socket?]
      show Opened { pool := (p.use h op).2, held := some h }
      rw [huse]
      exact .lent (hp.update (op s).2) (ha s hs)
    | drop => exact .resting (hp.reclaim hs) hs
    | pass d =>
      exact .lent ⟨hp.opened, hp.waiters, hp.room, hp.sockets, hp.handle, hp.parked, hp.busy,
        hp.lent⟩ hs
    | reap => exact .lent (hp.reap hs (hkept rfl)) hs

theorem run_opened (hx : x.Opened) {acts : List (Act τ)} (hacts : ∀ a ∈ acts, a.Healthy)
    (hkept : x.Unreaped acts) : (x.run acts).Opened := by
  induction acts generalizing x with
  | nil => exact hx
  | cons a acts ih =>
    obtain ⟨ha, hrest⟩ := List.forall_mem_cons.1 hacts
    exact ih (act_opened hx ha hkept.1) hrest hkept.2

/-- **Once a socket was wanted, there is one, and there stays one.** -/
theorem run_unused (hx : x.Unused) {acts : List (Act τ)} (hacts : ∀ a ∈ acts, a.Healthy)
    (hkept : x.Unreaped acts) (hacquire : .acquire ∈ acts) : (x.run acts).Opened := by
  induction acts generalizing x with
  | nil => cases hacquire
  | cons a acts ih =>
    obtain ⟨ha, hrest⟩ := List.forall_mem_cons.1 hacts
    by_cases hnow : a = .acquire
    · subst hnow
      exact run_opened (acquire_opened hx) hrest hkept.2
    · have hlater : .acquire ∈ acts :=
        (List.mem_cons.1 hacquire).resolve_left fun heq => hnow heq.symm
      exact ih (act_unused hx hnow hkept.1) hrest hkept.2 hlater

-- A call is answered at once, with the only socket.
theorem acquire_again (hx : x.Opened) : ∃ key, (x.act .acquire).held = some ⟨key, 1⟩ := by
  have hsocket {p : Pool κ τ} {h : Handle} {s : Socket τ} (hp : p.Lends h s) :
      ∃ key, some h = some (Handle.mk key 1) :=
    ⟨h.key, congrArg some (congrArg (Handle.mk h.key) hp.handle)⟩
  cases hx with
  | resting hp hs =>
    obtain ⟨h, q, hacquire, hq⟩ := acquire_rests_singleton hp hs
    rw [act, hacquire]
    exact hsocket hq
  | lent hp hs => exact hsocket hp

omit [Connector κ τ] in
theorem Opened.sockets (hx : x.Opened) : x.pool.sockets.length = 1 := by
  cases hx with
  | resting hp => rw [hp.sockets]; rfl
  | lent hp => rw [hp.sockets]; rfl

end Alone

end Pool

end LineFrame
