import LineFrame.Pool.Basic

/-!
# The books of a pool

What the ledger says of sockets and seats, and what is held outside of it, have to agree: handles
and grants of sockets (leases), seats that a socket is connected for (dials), and sockets that no
one uses any more (loose).  `Books` says how.  Every visit keeps the books, whatever else is held
by others at the time: what the visitor brings and takes is put into the lists, and the rest of each
list is anything.
-/

namespace LineFrame

namespace Pool

/-- The socket that a grant is the right to use. -/
def Grant.lease? : Grant → Option Handle
  | .socket key id => some { key, socket := id }
  | .seat _ => none

/-- The seat that a grant is the right to connect a socket for. -/
def Grant.dial? : Grant → Option Nat
  | .socket _ _ => none
  | .seat key => some key

def leasesOf (mail : List Delivery) : List Handle := mail.filterMap (·.2.lease?)

def dialsOf (mail : List Delivery) : List Nat := mail.filterMap (·.2.dial?)

namespace Ledger

def Entry.leases : Entry → List Handle
  | .ready key socket => [{ key, socket }]
  | .connect _ _ | .wait _ _ => []

def Entry.dials : Entry → List Nat
  | .connect key _ => [key]
  | .ready _ _ | .wait _ _ => []

def parkedIds (l : Ledger) : List Nat := l.parked.map (·.socket)

-- A new seat takes a key that was free.
theorem get?_seat {l : Ledger} {s e : Seat} {k : Nat} (h : l.busy.get? k = some e) :
    (l.seat s).busy.get? k = some e := by
  have hne : k ≠ l.busy.nextKey := by
    intro heq
    rw [heq, Slab.get?_nextKey] at h
    cases h
  rw [seat, Slab.get?_insert, if_neg hne, h]

/-- The ledger agrees with the leases, dials and loose sockets outside of it, when so many sockets
were ever made. -/
structure Books (l : Ledger) (disposed : Nat → Bool) (leases : List Handle) (dials loose : List Nat)
    (made : Nat) : Prop where
  /-- Every socket is in one place, and there only. -/
  sockets : (l.parkedIds ++ leases.map (·.socket) ++ loose).Perm (List.range' 1 made)
  /-- The seats taken for a connect are those of the dials, one each. -/
  connecting : ∀ k, dials.count k = if l.busy.get? k = some .connecting then 1 else 0
  /-- A seat that is lent is that of a lease. -/
  lent : ∀ k s, l.busy.get? k = some (.lent s) → { key := k, socket := s } ∈ leases
  /-- A lease keeps its seat until its socket is disposed of. -/
  held : ∀ h ∈ leases, disposed h.socket = false → l.busy.get? h.key = some (.lent h.socket)

/-- The books, once what a visit has sent and taken out is reckoned with. -/
def BooksWith (l : Ledger) (duties : Duties) (disposed : Nat → Bool) (leases : List Handle)
    (dials loose : List Nat) (made : Nat) : Prop :=
  l.Books disposed (leasesOf duties.send ++ leases) (dialsOf duties.send ++ dials)
    (duties.close ++ loose) made

namespace Books

variable {l : Ledger} {d : Nat → Bool} {leases : List Handle} {dials loose : List Nat} {n : Nat}

theorem empty (config : Config) (d : Nat → Bool) :
    ({ config } : Ledger).Books d [] [] [] 0 where
  sockets := .rfl
  connecting k := by
    have hnone : ({ config } : Ledger).busy.get? k = none := Slab.get?_empty k
    rw [hnone]
    rfl
  lent k s hk := by
    have hnone : ({ config } : Ledger).busy.get? k = none := Slab.get?_empty k
    rw [hnone] at hk
    cases hk
  held := nofun

/-! ## What follows from the books -/

theorem nodup (h : l.Books d leases dials loose n) :
    (l.parkedIds ++ leases.map (·.socket) ++ loose).Nodup :=
  h.sockets.nodup_iff.2 (List.nodup_range' 1)

theorem nodup_leases (h : l.Books d leases dials loose n) :
    (leases.map (·.socket)).Nodup :=
  (List.nodup_append.1 (List.nodup_append.1 h.nodup).1).2.1

theorem made (h : l.Books d leases dials loose n) {id : Nat}
    (hid : id ∈ l.parkedIds ++ leases.map (·.socket) ++ loose) : 1 ≤ id ∧ id ≤ n := by
  have hmem := List.mem_range'_1.1 (h.sockets.mem_iff.1 hid)
  omega

theorem le_made (h : l.Books d leases dials loose n) {lease : Handle} (hl : lease ∈ leases) :
    lease.socket ≤ n :=
  (h.made (List.mem_append_left _ (List.mem_append_right _ (List.mem_map_of_mem hl)))).2

theorem loose_made (h : l.Books d leases dials loose n) {id : Nat} (hid : id ∈ loose) :
    1 ≤ id ∧ id ≤ n :=
  h.made (List.mem_append_right _ hid)

-- No other lease is one of the same socket.
theorem socket_ne {lease other : Handle} (h : l.Books d (lease :: leases) dials loose n)
    (ho : other ∈ leases) : other.socket ≠ lease.socket := by
  have hnodup := h.nodup_leases
  rw [List.map_cons, List.nodup_cons] at hnodup
  intro heq
  exact hnodup.1 (heq ▸ List.mem_map_of_mem ho)

theorem get?_of_mem_dials (h : l.Books d leases dials loose n) {k : Nat} (hk : k ∈ dials) :
    l.busy.get? k = some .connecting := by
  have hpos : 0 < dials.count k := List.count_pos_iff.2 hk
  rw [h.connecting k] at hpos
  by_cases hseat : l.busy.get? k = some .connecting
  · exact hseat
  · rw [if_neg hseat] at hpos
    cases hpos

theorem get?_of_dial {k : Nat} (h : l.Books d leases (k :: dials) loose n) :
    l.busy.get? k = some .connecting :=
  h.get?_of_mem_dials List.mem_cons_self

-- The seat of a dial is no lease's.
theorem key_ne {lease : Handle} {k : Nat} (h : l.Books d leases (k :: dials) loose n)
    (hl : lease ∈ leases) (hlive : d lease.socket = false) : lease.key ≠ k := by
  have hseat := h.held lease hl hlive
  intro heq
  rw [heq, h.get?_of_dial] at hseat
  cases hseat

/-! ## What is held outside -/

-- The books do not depend on the queue, nor on the settings.
theorem congr {l' : Ledger} (h : l.Books d leases dials loose n) (hparked : l'.parked = l.parked)
    (hbusy : l'.busy = l.busy) : l'.Books d leases dials loose n where
  sockets := by
    rw [parkedIds, hparked]
    exact h.sockets
  connecting k := by
    rw [hbusy]
    exact h.connecting k
  lent k s hk := by
    rw [hbusy] at hk
    exact h.lent k s hk
  held lease hl hlive := by
    rw [hbusy]
    exact h.held lease hl hlive

-- The order of what is held does not matter.
theorem perm {leases' : List Handle} {dials' loose' : List Nat}
    (h : l.Books d leases dials loose n) (hleases : leases'.Perm leases)
    (hdials : dials'.Perm dials) (hloose : loose'.Perm loose) :
    l.Books d leases' dials' loose' n where
  sockets := (((hleases.map _).append_left _).append hloose).trans h.sockets
  connecting k := (hdials.count_eq k).trans (h.connecting k)
  lent k s hk := hleases.mem_iff.2 (h.lent k s hk)
  held lease hl := h.held lease (hleases.mem_iff.1 hl)

-- Sockets may be disposed of at any time.
theorem dispose {d' : Nat → Bool} (h : l.Books d leases dials loose n)
    (hd : ∀ s, d s = true → d' s = true) : l.Books d' leases dials loose n where
  sockets := h.sockets
  connecting := h.connecting
  lent := h.lent
  held lease hl hlive := by
    apply h.held lease hl
    cases hdisposed : d lease.socket with
    | false => rfl
    | true => rw [hd _ hdisposed] at hlive; cases hlive

/-! ## Parking -/

theorem park {s : Nat} (now : Nat) (h : l.Books d leases dials (s :: loose) n) :
    { l with parked := ⟨s, now⟩ :: l.parked }.Books d leases dials loose n where
  sockets := List.perm_middle.symm.trans h.sockets
  connecting := h.connecting
  lent := h.lent
  held := h.held

theorem unpark {out : List Nat} {kept : List Parked} (h : l.Books d leases dials loose n)
    (hout : (out ++ kept.map (·.socket)).Perm l.parkedIds) :
    { l with parked := kept }.Books d leases dials (out ++ loose) n where
  sockets := by
    refine List.Perm.trans ?_ h.sockets
    refine List.Perm.trans ?_ ((hout.append_right _).append_right _)
    rw [List.perm_iff_count]
    intro id
    simp only [parkedIds, List.count_append]
    omega
  connecting := h.connecting
  lent := h.lent
  held := h.held

/-! ## Seats -/

theorem seat_connecting (h : l.Books d leases dials loose n) :
    (l.seat .connecting).Books d leases (l.busy.nextKey :: dials) loose n where
  sockets := h.sockets
  connecting k := by
    have hcount := h.connecting k
    by_cases hk : k = l.busy.nextKey
    · subst hk
      simp only [Slab.get?_nextKey] at hcount
      simp [seat, hcount]
    · have hne : ¬ l.busy.nextKey = k := fun e => hk e.symm
      simp [seat, Slab.get?_insert, hk, hne, hcount]
  lent k s hk := by
    by_cases hnew : k = l.busy.nextKey
    · simp [seat, Slab.get?_insert, hnew] at hk
    · simp only [seat, Slab.get?_insert, if_neg hnew] at hk
      exact h.lent k s hk
  held lease hl hlive := get?_seat (h.held lease hl hlive)

-- A socket that nobody has is given a seat.
theorem seat_lent {s : Nat} (h : l.Books d leases dials (s :: loose) n) :
    (l.seat (.lent s)).Books d ({ key := l.busy.nextKey, socket := s } :: leases) dials loose
      n where
  sockets := by
    refine List.Perm.trans ?_ h.sockets
    rw [List.perm_iff_count]
    intro id
    simp only [parkedIds, seat, List.map_cons, List.count_append, List.count_cons]
    omega
  connecting k := by
    rw [h.connecting k]
    by_cases hk : k = l.busy.nextKey
    · subst hk
      simp [seat]
    · simp [seat, Slab.get?_insert, hk]
  lent k t hk := by
    by_cases hnew : k = l.busy.nextKey
    · simp only [seat, Slab.get?_insert, if_pos hnew, Option.some.injEq, Seat.lent.injEq] at hk
      rw [hnew, ← hk]
      exact List.mem_cons_self
    · simp only [seat, Slab.get?_insert, if_neg hnew] at hk
      exact List.mem_cons_of_mem _ (h.lent k t hk)
  held lease hl hlive := by
    rcases List.mem_cons.1 hl with rfl | hl
    · exact Slab.get?_insert_self _ _
    · exact get?_seat (h.held lease hl hlive)

-- A lease is given up: its seat is freed if it is still its own, and the socket is loose.
theorem release {lease : Handle} (h : l.Books d (lease :: leases) dials loose n) :
    (l.release lease.key lease.socket).Books d leases dials (lease.socket :: loose) n := by
  have hsockets : ∀ b : Slab Seat, ({ l with busy := b }.parkedIds ++ leases.map (·.socket) ++
      lease.socket :: loose).Perm (List.range' 1 n) := by
    intro b
    refine List.Perm.trans ?_ h.sockets
    rw [List.perm_iff_count]
    intro id
    simp only [parkedIds, List.map_cons, List.count_append, List.count_cons]
    omega
  have hother : ∀ other ∈ leases, other.socket ≠ lease.socket := fun other ho => h.socket_ne ho
  unfold Ledger.release
  split
  · next hholds =>
    have hown : l.busy.get? lease.key = some (.lent lease.socket) := by
      simpa [holds] using hholds
    exact {
      sockets := hsockets _
      connecting := fun k => by
        rw [h.connecting k, Slab.get?_remove]
        by_cases hk : k = lease.key
        · rw [if_pos hk, hk, hown]
          simp
        · rw [if_neg hk]
      lent := fun k s hk => by
        rw [Slab.get?_remove] at hk
        by_cases hkey : k = lease.key
        · rw [if_pos hkey] at hk
          cases hk
        · rw [if_neg hkey] at hk
          rcases List.mem_cons.1 (h.lent k s hk) with heq | hmem
          · exact absurd (congrArg Handle.key heq) hkey
          · exact hmem
      held := fun other ho hlive => by
        have hseat := h.held other (List.mem_cons_of_mem _ ho) hlive
        rw [Slab.get?_remove, if_neg, hseat]
        intro hkey
        rw [hkey, hown, Option.some.injEq, Seat.lent.injEq] at hseat
        exact hother other ho hseat.symm }
  · next hholds =>
    exact {
      sockets := hsockets l.busy
      connecting := h.connecting
      lent := fun k s hk => by
        rcases List.mem_cons.1 (h.lent k s hk) with heq | hmem
        · refine absurd ?_ hholds
          rw [← heq]
          simp [holds, hk]
        · exact hmem
      held := fun other ho => h.held other (List.mem_cons_of_mem _ ho) }

-- A connect has failed, and its seat is freed.
theorem vacate {k : Nat} (h : l.Books d leases (k :: dials) loose n) :
    { l with busy := l.busy.remove k }.Books d leases dials loose n where
  sockets := h.sockets
  connecting j := by
    have hcount := h.connecting j
    rw [Slab.get?_remove]
    by_cases hj : j = k
    · subst hj
      rw [if_pos h.get?_of_dial, List.count_cons_self] at hcount
      simp only [if_true]
      simp only [reduceCtorEq, if_false]
      omega
    · have hne : ¬ k = j := fun e => hj e.symm
      rw [if_neg hj, ← hcount, List.count_cons_of_ne hne]
  lent j s hj := by
    rw [Slab.get?_remove] at hj
    by_cases hk : j = k
    · rw [if_pos hk] at hj
      cases hj
    · rw [if_neg hk] at hj
      exact h.lent j s hj
  held lease hl hlive := by
    rw [Slab.get?_remove, if_neg (h.key_ne hl hlive), h.held lease hl hlive]

-- A connect has succeeded: its seat is filled with a new socket.
theorem fill {k : Nat} {d' : Nat → Bool} (h : l.Books d leases (k :: dials) loose n)
    (hd : ∀ s, s ≤ n → d' s = d s) :
    (l.fill k (n + 1)).Books d' ({ key := k, socket := n + 1 } :: leases) dials loose (n + 1) where
  sockets := by
    have hrange : (List.range' 1 (n + 1)).Perm ((n + 1) :: List.range' 1 n) := by
      rw [List.range'_1_concat, Nat.add_comm 1 n]
      exact List.perm_append_comm
    refine List.Perm.trans ?_ ((h.sockets.cons (n + 1)).trans hrange.symm)
    rw [List.perm_iff_count]
    intro id
    simp only [parkedIds, Ledger.fill, List.map_cons, List.count_append, List.count_cons]
    omega
  connecting j := by
    have hcount := h.connecting j
    rw [Ledger.fill, Slab.get?_set]
    by_cases hj : j = k
    · subst hj
      rw [h.get?_of_dial, if_pos rfl, List.count_cons_self] at hcount
      rw [h.get?_of_dial, if_pos rfl]
      simp only [Option.map_some, Option.some.injEq, reduceCtorEq, if_false]
      omega
    · have hne : ¬ k = j := fun e => hj e.symm
      rw [if_neg hj, ← hcount, List.count_cons_of_ne hne]
  lent j s hj := by
    rw [Ledger.fill, Slab.get?_set] at hj
    by_cases hk : j = k
    · rw [if_pos hk, h.get?_of_dial, Option.map_some, Option.some.injEq, Seat.lent.injEq] at hj
      rw [hk, ← hj]
      exact List.mem_cons_self
    · rw [if_neg hk] at hj
      exact List.mem_cons_of_mem _ (h.lent j s hj)
  held lease hl hlive := by
    rw [Ledger.fill, Slab.get?_set]
    rcases List.mem_cons.1 hl with rfl | hl
    · rw [if_pos rfl, h.get?_of_dial, Option.map_some]
    · rw [hd _ (h.le_made hl)] at hlive
      rw [if_neg (h.key_ne hl hlive), h.held lease hl hlive]

-- The seats of sockets that were disposed of are freed, their leases notwithstanding.
theorem removeAll {p : Seat → Bool} (h : l.Books d leases dials loose n)
    (hconnecting : p .connecting = false) (hlent : ∀ s, p (.lent s) = true → d s = true) :
    { l with busy := l.busy.removeAll p }.Books d leases dials loose n where
  sockets := h.sockets
  connecting k := by
    rw [h.connecting k, Slab.get?_removeAll]
    cases hk : l.busy.get? k with
    | none => simp
    | some e =>
      cases e with
      | connecting => simp [Option.filter, hconnecting]
      | lent s => cases hp : p (.lent s) <;> simp [Option.filter, hp]
  lent k s hk := by
    rw [Slab.get?_removeAll, Option.filter_eq_some_iff] at hk
    exact h.lent k s hk.1
  held lease hl hlive := by
    rw [Slab.get?_removeAll, h.held lease hl hlive, Option.filter_eq_some_iff]
    refine ⟨rfl, ?_⟩
    cases hp : p (.lent lease.socket) with
    | false => rfl
    | true =>
      rw [hlent _ hp] at hlive
      cases hlive

end Books

/-! ## What visits send and take out -/

-- Seats are passed on to calls, and nothing else is.
theorem leasesOf_grantSeats (l : Ledger) : leasesOf l.grantSeats.1 = [] := by
  fun_induction Ledger.grantSeats l with
  | case1 l hw => rfl
  | case2 l w rest hw hroom sent l' hsent ih =>
    rw [hsent] at ih
    exact ih
  | case3 l w rest hw hfull => rfl

theorem reap_parkedIds (l : Ledger) (health : Health) (now : Nat) :
    ((l.reap health now).1 ++ (l.reap health now).2.parkedIds).Perm l.parkedIds := by
  let oldest := l.parked.reverse
  let rest := oldest.dropWhile (l.isExpired now)
  let dead := rest.filter (health.disposed ·.socket)
  let left := rest.filter (not ∘ (health.disposed ·.socket))
  have hrest : (dead ++ left.reverse).Perm rest :=
    (List.Perm.append_left _ left.reverse_perm).trans (List.filter_append_perm _ _)
  have hall : (oldest.takeWhile (l.isExpired now) ++ (dead ++ left.reverse)).Perm l.parked := by
    have holdest : oldest.takeWhile (l.isExpired now) ++ rest = oldest :=
      List.takeWhile_append_dropWhile
    refine (List.Perm.append_left _ hrest).trans ?_
    rw [holdest]
    exact l.parked.reverse_perm
  have hmap := hall.map (·.socket)
  simp only [List.map_append] at hmap
  simp only [reap, List.partition_eq_filter_filter, parkedIds, List.map_append, List.append_assoc]
  exact hmap

/-- What a call that found no parked socket does first: it reaps, unless there is capacity. -/
def room (l : Ledger) (health : Health) (now : Nat) : List Nat × Ledger :=
  if l.hasCapacity then ([], l) else l.reap health now

theorem enterWithout_eq (l : Ledger) (health : Health) (now : Nat) :
    l.enterWithout health now =
      let r := l.room health now
      if r.2.hasCapacity then
        let granted := (r.2.seat .connecting).grantSeats
        (.connect r.2.busy.nextKey l.config.connectTimeout,
          { close := r.1, send := granted.1 }, granted.2)
      else
        let waiter := r.2.nextWaiter
        (.wait waiter l.config.connectTimeout, { close := r.1 },
          { r.2 with waiters := r.2.waiters ++ [waiter], nextWaiter := waiter + 1 }) := rfl

theorem leasesOf_enterWithout (l : Ledger) (health : Health) (now : Nat) :
    leasesOf (l.enterWithout health now).2.1.send = [] := by
  rw [enterWithout_eq]
  dsimp only
  split
  · exact leasesOf_grantSeats _
  · rfl

namespace Books

variable {l : Ledger} {d : Nat → Bool} {leases : List Handle} {dials loose : List Nat} {n : Nat}
  {health : Health}

/-! ## Visits -/

theorem grantSeats (h : l.Books d leases dials loose n) :
    l.grantSeats.2.Books d leases (dialsOf l.grantSeats.1 ++ dials) loose n := by
  fun_induction Ledger.grantSeats l generalizing dials with
  | case1 l hw => exact h
  | case2 l w rest hw hroom sent l' hsent ih =>
    have hwithout : { l with waiters := rest }.Books d leases dials loose n := h.congr rfl rfl
    have hlater := ih hwithout.seat_connecting
    rw [hsent] at hlater
    exact hlater.perm .rfl List.perm_middle.symm .rfl
  | case3 l w rest hw hfull => exact h

theorem reap (now : Nat) (h : l.Books d leases dials loose n)
    (hseen : ∀ s, health.disposed s = true → d s = true) :
    (l.reap health now).2.Books d leases dials ((l.reap health now).1 ++ loose) n :=
  (h.removeAll rfl hseen).unpark (l.reap_parkedIds health now)

theorem room (now : Nat) (h : l.Books d leases dials loose n)
    (hseen : ∀ s, health.disposed s = true → d s = true) :
    (l.room health now).2.Books d leases dials ((l.room health now).1 ++ loose) n := by
  unfold Ledger.room
  split
  · exact h
  · exact h.reap now hseen

theorem enterWithout (now : Nat) (h : l.Books d leases dials loose n)
    (hseen : ∀ s, health.disposed s = true → d s = true) :
    let seen := l.enterWithout health now
    seen.2.2.BooksWith seen.2.1 d (seen.1.leases ++ leases) (seen.1.dials ++ dials) loose n := by
  have hroom := h.room now hseen
  rw [BooksWith, leasesOf_enterWithout, enterWithout_eq]
  dsimp only
  split
  · exact hroom.seat_connecting.grantSeats
  · exact hroom.congr rfl rfl

theorem enter (now : Nat) (h : l.Books d leases dials loose n)
    (hseen : ∀ s, health.disposed s = true → d s = true) :
    let seen := l.enter health now
    seen.2.2.BooksWith seen.2.1 d (seen.1.leases ++ leases) (seen.1.dials ++ dials) loose n := by
  let stale := l.parked.takeWhile (l.isStale health now)
  have hsplit : stale ++ l.parked.dropWhile (l.isStale health now) = l.parked :=
    List.takeWhile_append_dropWhile
  unfold Ledger.enter
  split
  · next p rest hfound =>
    have hparked : (stale.map (·.socket) ++ [p.socket] ++ rest.map (·.socket)).Perm
        l.parkedIds := by
      rw [parkedIds, ← hsplit, hfound]
      simp
    have hout := h.unpark hparked
    have hloose : (p.socket :: (stale.map (·.socket) ++ loose)).Perm
        (stale.map (·.socket) ++ [p.socket] ++ loose) := by
      rw [List.append_assoc]
      exact List.perm_middle.symm
    exact (hout.perm .rfl .rfl hloose).seat_lent
  · next hnone =>
    have hparked : (stale.map (·.socket) ++ [].map Parked.socket).Perm l.parkedIds := by
      rw [parkedIds, ← hsplit, hnone]
      simp
    have hwithout := (h.unpark hparked).enterWithout now hseen
    refine hwithout.perm .rfl .rfl ?_
    rw [← List.append_assoc]
    exact List.perm_append_comm.append_right _

theorem abandon {k : Nat} (h : l.Books d leases (k :: dials) loose n) :
    (l.abandon k).2.BooksWith { send := (l.abandon k).1 } d leases dials loose n := by
  have hgrants := h.vacate.grantSeats
  rw [BooksWith, show leasesOf (l.abandon k).1 = [] from leasesOf_grantSeats _]
  exact hgrants

theorem clean (now : Nat) (h : l.Books d leases dials loose n)
    (hseen : ∀ s, health.disposed s = true → d s = true) :
    (l.clean health now).2.BooksWith (l.clean health now).1 d leases dials loose n := by
  have hgrants := (h.reap now hseen).grantSeats
  rw [BooksWith, show leasesOf (l.clean health now).1.send = [] from leasesOf_grantSeats _]
  exact hgrants

theorem reclaim {key s : Nat} (shut : Bool) (now : Nat)
    (h : l.Books d ({ key, socket := s } :: leases) dials loose n) :
    let seen := l.reclaim shut health now key s
    let close := if seen.1 = .closed then [s] else []
    seen.2.2.BooksWith { close, send := seen.2.1 } d leases dials loose n := by
  have hreleased := h.release
  unfold Ledger.reclaim BooksWith
  dsimp only
  split
  · exact hreleased
  split
  · rw [leasesOf_grantSeats]
    exact hreleased.grantSeats
  split
  · next w rest hw =>
    have hwithout : { l.release key s with waiters := rest }.Books d leases dials (s :: loose) n :=
      hreleased.congr rfl rfl
    exact hwithout.seat_lent
  · split
    · exact hreleased.park now
    · exact hreleased

theorem drain (h : l.Books d leases dials loose n) :
    l.drain.2.BooksWith { close := l.drain.1 } d leases dials loose n := by
  have hparked : ((l.parked.map (·.socket)).reverse ++ [].map Parked.socket).Perm l.parkedIds := by
    rw [List.map_nil, List.append_nil]
    exact List.reverse_perm _
  exact (h.unpark hparked).congr rfl rfl

end Books

end Ledger

end Pool

end LineFrame
