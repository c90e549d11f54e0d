import LineFrame.Proofs.Pool.Acquire
import LineFrame.Proofs.Pool.Custody
import LineFrame.Proofs.Pool.Overtaking

/-!
# What a call for a socket is given

A call that visits the pool is given the socket that was parked last, of those that can be lent
again (`Usable`).  The sockets parked after it are closed, those parked before it stay where they
are, and nothing else happens.  Only when there is no such socket does the call get a seat to
connect one for, or a place in the queue (`enter_picks`).
-/

namespace LineFrame

namespace Pool

namespace Ledger

/-! ## Visits that find no socket -/

variable {l : Ledger} {health : Health} {now : Nat}

-- With nothing parked there is nothing to close in a reap.
theorem room_close (h : l.parked = []) : (l.room health now).1 = [] := by
  unfold room
  split
  · rfl
  · simp [reap, h]

/-- With nothing parked there is room if a seat is free, or if a reap frees one. -/
theorem room_hasCapacity_iff (h : l.parked = []) :
    (l.room health now).2.hasCapacity = true ↔
      l.busy.size < l.config.maxConnections + (l.zombies health).length := by
  have hsize : l.occupied = l.busy.size := by rw [occupied, h, List.length_nil, Nat.zero_add]
  unfold room
  split
  · next hroom =>
    rw [hasCapacity_iff, hsize] at hroom
    show l.hasCapacity = true ↔ _
    rw [hasCapacity_iff, hsize]
    omega
  · have hreap : (l.reap health now).2.occupied + (l.zombies health).length = l.occupied :=
      reap_occupied_of_full h
    have hlimit : (l.reap health now).2.config = l.config := rfl
    rw [hasCapacity_iff, hlimit]
    omega

/-- A seat that is freed to make room was taken by a socket that was disposed of. -/
theorem room_kept (h : l.parked = []) {k : Nat} {e : Seat} (hk : l.busy.get? k = some e) :
    (l.room health now).2.busy.get? k = some e ∨
      e.IsZombie health ∧ l.config.maxConnections ≤ l.busy.size := by
  have hsize : l.occupied = l.busy.size := by rw [occupied, h, List.length_nil, Nat.zero_add]
  unfold room
  split
  · exact .inl hk
  · next hfull =>
    rw [hasCapacity_iff, hsize, Nat.not_lt] at hfull
    exact (reap_entry hk).imp_right fun hzombie => ⟨hzombie, hfull⟩

/-- The ledger without its parked sockets, and with the room that a call can have. -/
def cleared (l : Ledger) (health : Health) (now : Nat) : Ledger :=
  ({ l with parked := [] }.room health now).2

theorem enter_of_none (hstale : ∀ d ∈ l.parked, l.isStale health now d = true) :
    l.enter health now =
      let r := l.cleared health now
      if r.hasCapacity then
        (.connect r.busy.nextKey l.config.connectTimeout,
          { close := l.parked.map (·.socket), send := (r.seat .connecting).grantSeats.1 },
          (r.seat .connecting).grantSeats.2)
      else
        (.wait r.nextWaiter l.config.connectTimeout, { close := l.parked.map (·.socket) },
          { r with waiters := r.waiters ++ [r.nextWaiter], nextWaiter := r.nextWaiter + 1 }) := by
  have hnone : l.parked.dropWhile (l.isStale health now) = [] := List.dropWhile_eq_nil_iff.2 hstale
  have hall : l.parked.takeWhile (l.isStale health now) = l.parked :=
    List.takeWhile_eq_self_iff.2 hstale
  have hroom : { l with parked := [] }.room health now = ([], l.cleared health now) :=
    Prod.ext (room_close rfl) rfl
  rw [enter, hnone, hall]
  dsimp only
  rw [enterWithout_eq]
  dsimp only
  rw [hroom]
  dsimp only
  split <;> simp only [List.append_nil]

end Ledger

variable {κ τ : Type} [Transport τ]

/-! ## The visit -/

/-- What a visit does to the ledger, to the mail and to the sockets. -/
theorem enter_eq (p : Pool κ τ) :
    let seen := p.ledger.enter p.health p.clock
    p.enter.1 = seen.1 ∧ p.enter.2.ledger = seen.2.2 ∧ p.enter.2.mail = p.mail ++ seen.2.1.send ∧
      p.Closes seen.2.1.close p.enter.2 := by
  intro seen
  let visited : Pool κ τ := { p with ledger := seen.2.2 }
  have henter : p.enter = (seen.1, visited.discharge seen.2.1) := rfl
  obtain ⟨hledger, hmail⟩ := visited.discharge_kept seen.2.1
  rw [henter]
  exact ⟨rfl, hledger, hmail, p.visit_closes seen.2.2 seen.2.1⟩

/-- A parked socket that can be lent again: it was not disposed of, and its peer is there, or it
was parked for less time than it takes to be checked. -/
def Usable (p : Pool κ τ) (d : Parked) : Prop :=
  p.health.disposed d.socket = false ∧
    (p.config.checkInterval.nanos ≤ p.clock - d.since → p.health.connected d.socket = true)

theorem isStale_eq_false_iff (p : Pool κ τ) (d : Parked) : p.isStale d = false ↔ p.Usable d := by
  rw [isStale, Ledger.isStale, Usable, Bool.or_eq_false_iff, Bool.and_eq_false_imp]
  simp [config]

theorem isStale_iff (p : Pool κ τ) (d : Parked) : p.isStale d = true ↔ ¬ p.Usable d := by
  rw [← isStale_eq_false_iff, Bool.not_eq_false]

/-- A call was given `d`, which was parked between the sockets in `later` and those in `before`. -/
structure Gives (p : Pool κ τ) (later : List Parked) (d : Parked) (before : List Parked)
    (entry : Ledger.Entry) (q : Pool κ τ) : Prop where
  /-- It has the socket, in a seat that was free; all other seats are as they were. -/
  seat : ∃ key, entry = .ready key d.socket ∧ p.ledger.busy.get? key = none ∧
    ∀ k, q.ledger.busy.get? k = if k = key then some (.lent d.socket) else p.ledger.busy.get? k
  parked : q.ledger.parked = before
  closes : p.Closes (later.map (·.socket)) q
  occupied : q.ledger.occupied + later.length = p.ledger.occupied
  /-- Nobody is queued, and nobody in the queue is given anything. -/
  waiters : q.ledger.waiters = p.ledger.waiters
  mail : q.mail = p.mail

/-- A call found no socket to be given. -/
structure GivesNone (p : Pool κ τ) (entry : Ledger.Entry) (q : Pool κ τ) : Prop where
  parked : q.ledger.parked = []
  closes : p.Closes (p.ledger.parked.map (·.socket)) q
  /-- It is given a seat to connect a socket for if one is free, or if one is once the seats of
  sockets that were disposed of are freed.  What is free beyond this goes to the queue. -/
  seat : p.ledger.busy.size < p.config.maxConnections + (p.ledger.zombies p.health).length →
    ∃ key send, entry = .connect key p.config.connectTimeout ∧
      (∀ e, p.ledger.busy.get? key = some e → e.IsZombie p.health) ∧
      q.ledger.busy.get? key = some .connecting ∧ q.mail = p.mail ++ send ∧
      p.ledger.waiters = send.map (·.1) ++ q.ledger.waiters
  /-- Otherwise it joins the queue at its end. -/
  queue : p.config.maxConnections + (p.ledger.zombies p.health).length ≤ p.ledger.busy.size →
    entry = .wait p.ledger.nextWaiter p.config.connectTimeout ∧ q.mail = p.mail ∧
      q.ledger.waiters = p.ledger.waiters ++ [p.ledger.nextWaiter]
  /-- Seats are freed only if there is no capacity, and only those of sockets that were disposed
  of. -/
  kept : ∀ k e, p.ledger.busy.get? k = some e → q.ledger.busy.get? k = some e ∨
    e.IsZombie p.health ∧ p.config.maxConnections ≤ p.ledger.busy.size

theorem enter_gives (p : Pool κ τ) {later before : List Parked} {d : Parked}
    (hparked : p.ledger.parked = later ++ d :: before) (hlater : ∀ e ∈ later, ¬ p.Usable e)
    (hd : p.Usable d) : p.Gives later d before p.enter.1 p.enter.2 := by
  have hstale : ∀ e ∈ later, p.ledger.isStale p.health p.clock e = true :=
    fun e he => (p.isStale_iff e).2 (hlater e he)
  have hfresh : p.ledger.isStale p.health p.clock d = false := (p.isStale_eq_false_iff d).2 hd
  have hdrop : p.ledger.parked.dropWhile (p.ledger.isStale p.health p.clock) = d :: before := by
    rw [hparked, List.dropWhile_append_of_pos hstale]
    exact List.dropWhile_cons_of_neg (Bool.eq_false_iff.1 hfresh)
  have hpassed : p.ledger.passed p.health p.clock = later.map (·.socket) := by
    rw [Ledger.passed, hparked, List.takeWhile_append_of_pos hstale,
      List.takeWhile_cons_of_neg (Bool.eq_false_iff.1 hfresh), List.append_nil]
  obtain ⟨hentry, hledger, hmail, hcloses⟩ := p.enter_eq
  rw [Ledger.enter_of_parked hdrop] at hentry hledger hmail hcloses
  exact {
    seat := by
      refine ⟨p.ledger.busy.nextKey, hentry, p.ledger.busy.get?_nextKey, fun k => ?_⟩
      rw [hledger]
      exact p.ledger.busy.get?_insert _ k
    parked := by
      rw [hledger]
      rfl
    closes := hpassed ▸ hcloses
    occupied := by
      have hseat := Ledger.occupied_seat { p.ledger with parked := before } (.lent d.socket)
      have hlength := congrArg List.length hparked
      rw [List.length_append, List.length_cons] at hlength
      rw [hledger]
      simp only [Ledger.occupied] at hseat ⊢
      omega
    waiters := by
      rw [hledger]
      rfl
    mail := hmail.trans (List.append_nil _) }

theorem enter_givesNone (p : Pool κ τ) (hnone : ∀ d ∈ p.ledger.parked, ¬ p.Usable d) :
    p.GivesNone p.enter.1 p.enter.2 := by
  have hstale : ∀ d ∈ p.ledger.parked, p.ledger.isStale p.health p.clock d = true :=
    fun d hd => (p.isStale_iff d).2 (hnone d hd)
  let bare : Ledger := { p.ledger with parked := [] }
  let r := p.ledger.cleared p.health p.clock
  have hroom : r.hasCapacity = true ↔
      p.ledger.busy.size < p.config.maxConnections + (p.ledger.zombies p.health).length :=
    Ledger.room_hasCapacity_iff (l := bare) rfl
  have hkept : ∀ k e, p.ledger.busy.get? k = some e → r.busy.get? k = some e ∨
      e.IsZombie p.health ∧ p.config.maxConnections ≤ p.ledger.busy.size :=
    fun k e hk => Ledger.room_kept (l := bare) rfl hk
  have hwaiters : r.waiters = p.ledger.waiters := bare.room_waiters p.health p.clock
  have hnext : r.nextWaiter = p.ledger.nextWaiter := bare.room_nextWaiter p.health p.clock
  have hparked : r.parked = [] := Ledger.room_parked rfl
  obtain ⟨hentry, hledger, hmail, hcloses⟩ := p.enter_eq
  rw [Ledger.enter_of_none hstale] at hentry hledger hmail hcloses
  by_cases hcapacity : r.hasCapacity = true
  · simp only [show (p.ledger.cleared p.health p.clock).hasCapacity = true from hcapacity,
      if_true] at hentry hledger hmail hcloses
    have hgrants := (r.seat .connecting).grantSeats_spec
    exact {
      parked := by
        rw [hledger]
        exact hgrants.parked.trans hparked
      closes := hcloses
      seat := by
        intro _
        refine ⟨r.busy.nextKey, _, hentry, fun e he => ?_, ?_, hmail, ?_⟩
        · -- the key was free once there was room
          refine ((hkept _ e he).resolve_left fun hk => ?_).1
          rw [Slab.get?_nextKey] at hk
          cases hk
        · rw [hledger]
          exact hgrants.entries _ _ (r.busy.get?_insert_self _)
        · rw [hledger, ← hwaiters]
          exact hgrants.waiters
      queue := fun hfull => absurd (hroom.1 hcapacity) (Nat.not_lt.2 hfull)
      kept := by
        intro k e hk
        rw [hledger]
        exact (hkept k e hk).imp_left fun hk => hgrants.entries k e (Ledger.get?_seat hk) }
  · simp only [show (p.ledger.cleared p.health p.clock).hasCapacity = false from
      Bool.eq_false_iff.2 hcapacity, Bool.false_eq_true, if_false] at hentry hledger hmail hcloses
    exact {
      parked := by
        rw [hledger]
        exact hparked
      closes := hcloses
      seat := fun hfree => absurd (hroom.2 hfree) hcapacity
      queue := by
        intro _
        rw [hledger, ← hwaiters, ← hnext]
        exact ⟨hentry, hmail.trans (List.append_nil _), rfl⟩
      kept := by
        intro k e hk
        rw [hledger]
        exact hkept k e hk }

/-- **A call is given the socket parked last of those that can be lent again.**  Those parked after
it are closed, each in its turn and with its transport, and no others; those parked before it stay
parked, in their order; and as many places are freed as sockets are closed.  Nothing is connected,
and nobody is queued.  If there is no such socket then all that were parked are closed, and the call
is given a seat if one is free, or if one is after a reap; otherwise it joins the queue at its
end. -/
theorem enter_picks (p : Pool κ τ) :
    (∃ later d before, p.ledger.parked = later ++ d :: before ∧ (∀ e ∈ later, ¬ p.Usable e) ∧
      p.Usable d ∧ p.Gives later d before p.enter.1 p.enter.2) ∨
    (∀ d ∈ p.ledger.parked, ¬ p.Usable d) ∧ p.GivesNone p.enter.1 p.enter.2 := by
  have hsplit : p.ledger.parked.takeWhile p.isStale ++ p.ledger.parked.dropWhile p.isStale =
      p.ledger.parked := List.takeWhile_append_dropWhile
  have hlater : ∀ e ∈ p.ledger.parked.takeWhile p.isStale, ¬ p.Usable e :=
    fun e he => (p.isStale_iff e).1 (List.mem_takeWhile_imp he)
  cases hdrop : p.ledger.parked.dropWhile p.isStale with
  | nil =>
    rw [hdrop, List.append_nil] at hsplit
    rw [hsplit] at hlater
    exact .inr ⟨hlater, p.enter_givesNone hlater⟩
  | cons d before =>
    have hfirst := List.head?_dropWhile_not p.isStale p.ledger.parked
    rw [hdrop] at hfirst hsplit
    have hd : p.Usable d := (p.isStale_eq_false_iff d).1 hfirst
    exact .inl ⟨_, d, before, hsplit.symm, hlater, hd, p.enter_gives hsplit.symm hlater hd⟩

end Pool

end LineFrame
