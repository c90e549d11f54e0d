import LineFrame.Proofs.Pool.Books

/-!
# What visits leave as it was

A visit that passes seats on serves the queue from its front (`Grants`), and so does every visit
that sends anything (`Serves`).  An entry of the table of seats stays as it is, unless it belongs to
the visitor, or its socket was disposed of.
-/

namespace LineFrame

namespace Pool

/-- A seat of a socket that was disposed of. -/
def Seat.IsZombie (health : Health) : Seat → Prop
  | .connecting => False
  | .lent s => health.disposed s = true

namespace Ledger

/-! ## Passing seats on -/

/-- What `grantSeats` does. -/
structure Grants (l : Ledger) (send : List Delivery) (l' : Ledger) : Prop where
  config : l'.config = l.config
  parked : l'.parked = l.parked
  nextWaiter : l'.nextWaiter = l.nextWaiter
  waiters : l.waiters = send.map (·.1) ++ l'.waiters
  entries : ∀ k e, l.busy.get? k = some e → l'.busy.get? k = some e
  occupied : l'.occupied = l.occupied + send.length
  /-- Seats are only taken within the limit. -/
  within : send = [] ∨ l'.occupied ≤ l.config.maxConnections
  /-- It goes on while there are both seats and calls. -/
  spent : l'.waiters = [] ∨ l.config.maxConnections ≤ l'.occupied

theorem occupied_seat (l : Ledger) (s : Seat) : (l.seat s).occupied = l.occupied + 1 := by
  simp only [occupied, seat, Slab.size_insert]
  omega

theorem hasCapacity_iff (l : Ledger) :
    l.hasCapacity = true ↔ l.occupied < l.config.maxConnections := by
  rw [hasCapacity, decide_eq_true_iff]

theorem grantSeats_spec (l : Ledger) : l.Grants l.grantSeats.1 l.grantSeats.2 := by
  fun_induction Ledger.grantSeats l with
  | case1 l hw =>
    exact ⟨rfl, rfl, rfl, by simp, fun _ _ h => h, rfl, .inl rfl, .inl hw⟩
  | case2 l w rest hw hroom sent l' hsent ih =>
    rw [hsent] at ih
    dsimp only at ih ⊢
    have hseat : ({ l with waiters := rest }.seat .connecting).occupied = l.occupied + 1 :=
      occupied_seat { l with waiters := rest } _
    have hlimit := (l.hasCapacity_iff).1 hroom
    have hocc := ih.occupied
    rw [hseat] at hocc
    exact {
      config := ih.config
      parked := ih.parked
      nextWaiter := ih.nextWaiter
      waiters := by
        rw [hw, List.map_cons, List.cons_append, ← ih.waiters]
        rfl
      entries := fun k e hk => ih.entries k e (get?_seat (l := { l with waiters := rest }) hk)
      occupied := by
        rw [List.length_cons, hocc]
        omega
      within := by
        rcases ih.within with hnil | hle
        · rw [hnil, List.length_nil] at hocc
          exact .inr (by omega)
        · exact .inr hle
      spent := ih.spent }
  | case3 l w rest hw hfull =>
    have hlimit : l.config.maxConnections ≤ l.occupied := by
      rw [l.hasCapacity_iff] at hfull
      omega
    exact ⟨rfl, rfl, rfl, by simp, fun _ _ h => h, rfl, .inl rfl, .inr hlimit⟩

-- Seats that are granted are not lent yet.
theorem lent_of_grantSeats {l : Ledger} {k s : Nat}
    (h : l.grantSeats.2.busy.get? k = some (.lent s)) : l.busy.get? k = some (.lent s) := by
  fun_induction Ledger.grantSeats l with
  | case1 => exact h
  | case2 l w rest hw hroom sent l' hsent ih =>
    rw [hsent] at ih
    have hseat := ih h
    rw [seat, Slab.get?_insert] at hseat
    split at hseat
    · cases hseat
    · exact hseat
  | case3 => exact h

/-! ## The settings -/

section

variable (l : Ledger) (health : Health) (now : Nat)

theorem room_config : (l.room health now).2.config = l.config := by
  unfold room
  split <;> rfl

theorem enter_config : (l.enter health now).2.2.config = l.config := by
  have hroom := room_config { l with parked := [] } health now
  unfold enter
  split
  · rfl
  · rw [enterWithout_eq]
    dsimp only
    split
    · exact (grantSeats_spec _).config.trans hroom
    · exact hroom

theorem clean_config : (l.clean health now).2.config = l.config := (grantSeats_spec _).config

theorem abandon_config (key : Nat) : (l.abandon key).2.config = l.config :=
  (grantSeats_spec _).config

theorem release_config (key s : Nat) : (l.release key s).config = l.config := by
  unfold release
  split <;> rfl

theorem reclaim_config (shut : Bool) (key s : Nat) :
    (l.reclaim shut health now key s).2.2.config = l.config := by
  have hrelease := l.release_config key s
  unfold reclaim
  dsimp only
  split
  · exact hrelease
  split
  · exact (grantSeats_spec _).config.trans hrelease
  split
  · exact hrelease
  · split <;> exact hrelease

end

/-! ## The queue -/

def Entry.waits : Entry → List Nat
  | .wait waiter _ => [waiter]
  | .ready _ _ | .connect _ _ => []

/-- Whatever is sent goes to the calls that have waited longest, those that join the queue do so at
its end, under new numbers, and no call comes or goes otherwise. -/
structure Serves (l : Ledger) (joining : List Nat) (send : List Delivery) (l' : Ledger) : Prop where
  waiters : l.waiters ++ joining = send.map (·.1) ++ l'.waiters
  numbers : joining = List.range' l.nextWaiter joining.length
  nextWaiter : l'.nextWaiter = l.nextWaiter + joining.length

theorem grantSeats_serves (l : Ledger) : l.Serves [] l.grantSeats.1 l.grantSeats.2 where
  waiters := by rw [List.append_nil, l.grantSeats_spec.waiters]
  numbers := rfl
  nextWaiter := l.grantSeats_spec.nextWaiter

variable (l : Ledger) (health : Health) (now : Nat)

theorem abandon_serves (key : Nat) : l.Serves [] (l.abandon key).1 (l.abandon key).2 :=
  have h := grantSeats_serves { l with busy := l.busy.remove key }
  ⟨h.waiters, rfl, h.nextWaiter⟩

theorem clean_serves : l.Serves [] (l.clean health now).1.send (l.clean health now).2 :=
  have h := grantSeats_serves (l.reap health now).2
  ⟨h.waiters, rfl, h.nextWaiter⟩

theorem release_waiters (key s : Nat) : (l.release key s).waiters = l.waiters := by
  unfold release
  split <;> rfl

theorem release_nextWaiter (key s : Nat) : (l.release key s).nextWaiter = l.nextWaiter := by
  unfold release
  split <;> rfl

theorem reclaim_serves (shut : Bool) (key s : Nat) :
    let seen := l.reclaim shut health now key s
    l.Serves [] seen.2.1 seen.2.2 := by
  -- what holds of the ledger without the seat holds of this one
  have hrelease : ∀ send l', (l.release key s).waiters = send.map (·.1) ++ l'.waiters →
      l'.nextWaiter = (l.release key s).nextWaiter → l.Serves [] send l' := by
    intro send l' hwaiters hnext
    rw [l.release_waiters] at hwaiters
    rw [l.release_nextWaiter] at hnext
    exact ⟨(List.append_nil _).trans hwaiters, rfl, hnext⟩
  unfold reclaim
  dsimp only
  split
  · exact hrelease [] _ rfl rfl
  split
  · have hgrants := grantSeats_spec (l.release key s)
    exact hrelease _ _ hgrants.waiters hgrants.nextWaiter
  split
  · next w rest hw => exact hrelease [(w, _)] _ hw rfl
  · split <;> exact hrelease [] _ rfl rfl

theorem room_waiters : (l.room health now).2.waiters = l.waiters := by
  unfold room
  split <;> rfl

theorem room_nextWaiter : (l.room health now).2.nextWaiter = l.nextWaiter := by
  unfold room
  split <;> rfl

theorem enterWithout_serves :
    let seen := l.enterWithout health now
    l.Serves seen.1.waits seen.2.1.send seen.2.2 := by
  have hwaiters := l.room_waiters health now
  have hnext := l.room_nextWaiter health now
  rw [enterWithout_eq]
  dsimp only
  split
  · have hgrants := grantSeats_spec ((l.room health now).2.seat .connecting)
    exact ⟨(List.append_nil _).trans (hwaiters.symm.trans hgrants.waiters), rfl,
      hgrants.nextWaiter.trans hnext⟩
  · refine ⟨?_, ?_, ?_⟩
    · rw [hwaiters]
      rfl
    · rw [hnext]
      rfl
    · rw [hnext]
      rfl

theorem enter_serves :
    let seen := l.enter health now
    l.Serves seen.1.waits seen.2.1.send seen.2.2 := by
  unfold enter
  split
  · exact ⟨List.append_nil _, rfl, rfl⟩
  · have h := enterWithout_serves { l with parked := [] } health now
    exact ⟨h.waiters, h.numbers, h.nextWaiter⟩

/-! ## Parked sockets -/

variable {l health now}

theorem reap_parked (h : l.parked = []) : (l.reap health now).2.parked = [] := by
  simp [reap, h]

theorem room_parked (h : l.parked = []) : (l.room health now).2.parked = [] := by
  unfold room
  split
  · exact h
  · exact reap_parked h

theorem enterWithout_parked (h : l.parked = []) : (l.enterWithout health now).2.2.parked = [] := by
  have hroom : (l.room health now).2.parked = [] := room_parked h
  rw [enterWithout_eq]
  dsimp only
  split
  · exact (grantSeats_spec _).parked.trans hroom
  · exact hroom

theorem enter_parked (h : l.parked = []) : (l.enter health now).2.2.parked = [] := by
  unfold enter
  rw [h, List.dropWhile_nil]
  exact enterWithout_parked rfl

theorem clean_parked (h : l.parked = []) : (l.clean health now).2.parked = [] :=
  (grantSeats_spec _).parked.trans (reap_parked h)

theorem abandon_parked (l : Ledger) (key : Nat) : (l.abandon key).2.parked = l.parked :=
  (grantSeats_spec _).parked

theorem release_parked (l : Ledger) (key s : Nat) : (l.release key s).parked = l.parked := by
  unfold release
  split <;> rfl

-- A pool that is shut down parks nothing.
theorem reclaim_parked (l : Ledger) (health : Health) (now key s : Nat) :
    (l.reclaim true health now key s).2.2.parked = l.parked := by
  unfold reclaim
  exact l.release_parked key s

/-! ## The table of seats -/

variable {k : Nat} {e : Seat}

theorem reap_entry (h : l.busy.get? k = some e) :
    (l.reap health now).2.busy.get? k = some e ∨ e.IsZombie health := by
  unfold reap
  dsimp only
  rw [Slab.get?_removeAll, h]
  cases e with
  | connecting => exact .inl rfl
  | lent s =>
    cases hs : health.disposed s with
    | true => exact .inr hs
    | false => exact .inl (by simp [Option.filter, hs])

theorem room_entry (h : l.busy.get? k = some e) :
    (l.room health now).2.busy.get? k = some e ∨ e.IsZombie health := by
  unfold room
  split
  · exact .inl h
  · exact reap_entry h

theorem enter_entry (h : l.busy.get? k = some e) :
    (l.enter health now).2.2.busy.get? k = some e ∨ e.IsZombie health := by
  unfold enter
  split
  · exact .inl (get?_seat h)
  · rw [enterWithout_eq]
    dsimp only
    have hroom : (room { l with parked := [] } health now).2.busy.get? k = some e ∨
        e.IsZombie health := room_entry (l := { l with parked := [] }) h
    split
    · exact hroom.imp_left fun hk => (grantSeats_spec _).entries k e (get?_seat hk)
    · exact hroom

theorem clean_entry (h : l.busy.get? k = some e) :
    (l.clean health now).2.busy.get? k = some e ∨ e.IsZombie health :=
  (reap_entry h).imp_left ((grantSeats_spec _).entries k e)

theorem release_entry {key s : Nat} (h : l.busy.get? k = some e) :
    (l.release key s).busy.get? k = some e ∨ (k = key ∧ e = .lent s) := by
  unfold release
  split
  · next hholds =>
    rw [Slab.get?_remove]
    by_cases hk : k = key
    · have hown : l.busy.get? key = some (.lent s) := by simpa [holds] using hholds
      rw [← hk, h] at hown
      exact .inr ⟨hk, Option.some.inj hown⟩
    · rw [if_neg hk]
      exact .inl h
  · exact .inl h

theorem reclaim_entry {shut : Bool} {key s : Nat} (h : l.busy.get? k = some e) :
    (l.reclaim shut health now key s).2.2.busy.get? k = some e ∨ (k = key ∧ e = .lent s) := by
  refine (release_entry h).imp_left fun hk => ?_
  unfold reclaim
  dsimp only
  split
  · exact hk
  split
  · exact (grantSeats_spec _).entries k e hk
  split
  · next w rest hw => exact get?_seat (l := { l.release key s with waiters := rest }) hk
  · split <;> exact hk

theorem abandon_entry {key : Nat} (h : l.busy.get? k = some e) (hk : k ≠ key) :
    (l.abandon key).2.busy.get? k = some e := by
  apply (grantSeats_spec { l with busy := l.busy.remove key }).entries
  rw [Slab.get?_remove, if_neg hk, h]

theorem fill_entry {key s : Nat} (h : l.busy.get? k = some e) (hk : k ≠ key) :
    (l.fill key s).busy.get? k = some e := by
  rw [fill, Slab.get?_set, if_neg hk, h]

end Ledger

end Pool

end LineFrame
