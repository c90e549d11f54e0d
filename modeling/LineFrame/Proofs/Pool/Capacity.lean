import LineFrame.Pool.Dialer
import LineFrame.Proofs.Pool.Conservation
import LineFrame.Proofs.Pool.Seats

/-!
# Capacity

No move but a change of the settings takes the number of places in use, parked sockets and busy
seats, above the limit, or above what it was (`step_within`).  So while the limit is not lowered the
places in use stay within it, and so do the sockets that work and the connects (`capacity`).
-/

namespace LineFrame

namespace Pool

namespace Ledger

variable (l : Ledger) (health : Health) (now : Nat)

/-! ## Visits -/

theorem reap_occupied : (l.reap health now).2.occupied ≤ l.occupied := by
  have hparked := (l.reap_parkedIds health now).length_eq
  simp only [parkedIds, List.length_append, List.length_map] at hparked
  have hbusy : (l.reap health now).2.busy.size ≤ l.busy.size := Slab.size_removeAll_le ..
  simp only [occupied]
  omega

theorem room_occupied : (l.room health now).2.occupied ≤ l.occupied := by
  unfold room
  split
  · exact Nat.le_refl _
  · exact l.reap_occupied health now

theorem grantSeats_within : l.grantSeats.2.occupied ≤ max l.occupied l.config.maxConnections := by
  have hgrants := l.grantSeats_spec
  rcases hgrants.within with hnil | hle
  · have hocc := hgrants.occupied
    rw [hnil, List.length_nil] at hocc
    omega
  · omega

theorem enterWithout_within : (l.enterWithout health now).2.2.occupied ≤
    max l.occupied l.config.maxConnections := by
  let r := (l.room health now).2
  have hroom : r.occupied ≤ l.occupied := l.room_occupied health now
  have hconfig : r.config = l.config := l.room_config health now
  rw [enterWithout_eq]
  dsimp only
  split
  · next hcapacity =>
    show (r.seat .connecting).grantSeats.2.occupied ≤ _
    have hlimit : r.occupied < l.config.maxConnections := hconfig ▸ r.hasCapacity_iff.1 hcapacity
    have hseat := r.occupied_seat .connecting
    have hsame : (r.seat .connecting).config = l.config := hconfig
    have hgrants := (r.seat .connecting).grantSeats_within
    rw [hsame] at hgrants
    omega
  · show r.occupied ≤ _
    omega

theorem enter_within : (l.enter health now).2.2.occupied ≤
    max l.occupied l.config.maxConnections := by
  unfold enter
  split
  · next p rest hfound =>
    have hlength : (l.parked.dropWhile (l.isStale health now)).length ≤ l.parked.length :=
      (List.dropWhile_sublist _).length_le
    have hseat := occupied_seat { l with parked := rest } (.lent p.socket)
    rw [hfound, List.length_cons] at hlength
    simp only [occupied] at hseat ⊢
    omega
  · have hwithout := enterWithout_within { l with parked := [] } health now
    have hless : ({ l with parked := [] } : Ledger).occupied ≤ l.occupied := by
      simp [occupied]
    refine Nat.le_trans hwithout ?_
    dsimp only
    omega

theorem clean_within : (l.clean health now).2.occupied ≤
    max l.occupied l.config.maxConnections := by
  have hreap := l.reap_occupied health now
  have hgrants := (l.reap health now).2.grantSeats_within
  have hsame : (l.reap health now).2.config = l.config := rfl
  rw [hsame] at hgrants
  show (l.reap health now).2.grantSeats.2.occupied ≤ _
  omega

theorem abandon_within (key : Nat) : (l.abandon key).2.occupied ≤
    max l.occupied l.config.maxConnections := by
  have hsize := l.busy.size_remove_le key
  have hgrants := grantSeats_within { l with busy := l.busy.remove key }
  have hless : ({ l with busy := l.busy.remove key } : Ledger).occupied ≤ l.occupied := by
    simp only [occupied]
    omega
  show ({ l with busy := l.busy.remove key } : Ledger).grantSeats.2.occupied ≤ _
  dsimp only at hgrants
  omega

theorem fill_occupied (key s : Nat) : (l.fill key s).occupied = l.occupied := by
  simp only [occupied, fill, Slab.size_set]

theorem release_occupied (key s : Nat) :
    (l.release key s).occupied + (l.holds key s).toNat = l.occupied := by
  unfold release
  split
  · next hholds =>
    have hown : l.busy.get? key = some (.lent s) := by simpa [holds] using hholds
    have hsize := l.busy.size_remove key
    rw [hown, Option.isSome_some, Bool.toNat_true] at hsize
    rw [hholds, Bool.toNat_true]
    simp only [occupied]
    omega
  · next hholds =>
    rw [Bool.not_eq_true] at hholds
    rw [hholds]
    rfl

-- A socket that works is given on in the place that it had, and parked only if there is room.
theorem reclaim_within (shut : Bool) (key s : Nat)
    (hheld : health.disposed s = false → l.holds key s = true) :
    (l.reclaim shut health now key s).2.2.occupied ≤ max l.occupied l.config.maxConnections := by
  let r := l.release key s
  have hrelease : r.occupied + (l.holds key s).toNat = l.occupied := l.release_occupied key s
  have hconfig : r.config = l.config := l.release_config key s
  unfold reclaim
  dsimp only
  split
  · show r.occupied ≤ _
    omega
  split
  · show r.grantSeats.2.occupied ≤ _
    have hgrants := r.grantSeats_within
    rw [hconfig] at hgrants
    omega
  · next hworks =>
    have hlive : health.disposed s = false := by
      rw [Bool.or_eq_true, not_or] at hworks
      exact Bool.eq_false_iff.2 hworks.1
    split
    · next w rest hw =>
      show (({ r with waiters := rest } : Ledger).seat (.lent s)).occupied ≤ _
      have hseat := occupied_seat { r with waiters := rest } (.lent s)
      have hsame : ({ r with waiters := rest } : Ledger).occupied = r.occupied := rfl
      rw [hheld hlive, Bool.toNat_true] at hrelease
      omega
    · split
      · next hcapacity =>
        show ({ r with parked := ⟨s, now⟩ :: r.parked } : Ledger).occupied ≤ _
        have hlimit : r.occupied < l.config.maxConnections :=
          hconfig ▸ r.hasCapacity_iff.1 hcapacity
        have hparked : ({ r with parked := ⟨s, now⟩ :: r.parked } : Ledger).occupied =
            r.occupied + 1 := by
          simp only [occupied, List.length_cons]
          omega
        omega
      · show r.occupied ≤ _
        omega

theorem drain_occupied : l.drain.2.occupied ≤ l.occupied := by
  simp [drain, occupied]

-- The seats of leases whose sockets work, and of dials, are all different.
theorem Books.inUse_le {l : Ledger} {d : Nat → Bool} {leases : List Handle}
    {dials loose : List Nat} {n : Nat} (h : l.Books d leases dials loose n) :
    (leases.filter (! d ·.socket)).length + dials.length ≤ l.busy.size := by
  let working := leases.filter (! d ·.socket)
  have hseat : ∀ lease ∈ working, l.busy.get? lease.key = some (.lent lease.socket) := by
    intro lease hl
    obtain ⟨hmem, hlive⟩ := List.mem_filter.1 hl
    exact h.held lease hmem (by simpa using hlive)
  have hkeys : (working.map (·.key)).Nodup := by
    have hsockets := (List.pairwise_map.1 h.nodup_leases).sublist
      (List.filter_sublist (p := (! d ·.socket)))
    refine List.pairwise_map.2 (hsockets.imp_of_mem ?_)
    intro a b ha hb hne heq
    have hsame := hseat b hb
    rw [← heq, hseat a ha, Option.some.injEq, Seat.lent.injEq] at hsame
    exact hne hsame
  have hdials : dials.Nodup := by
    rw [List.nodup_iff_count]
    intro k
    rw [h.connecting k]
    split <;> omega
  have hall : (working.map (·.key) ++ dials).Nodup := by
    refine List.nodup_append.2 ⟨hkeys, hdials, ?_⟩
    intro k hk j hj heq
    obtain ⟨lease, hl, hkey⟩ := List.mem_map.1 hk
    have hlent := hseat lease hl
    rw [hkey, heq, h.get?_of_mem_dials hj] at hlent
    cases hlent
  have hlength := l.busy.length_le_size hall fun k hk => by
    rcases List.mem_append.1 hk with hk | hk
    · obtain ⟨lease, hl, rfl⟩ := List.mem_map.1 hk
      rw [hseat lease hl]
      rfl
    · rw [h.get?_of_mem_dials hk]
      rfl
  rwa [List.length_append, List.length_map] at hlength

end Ledger

namespace Traffic

variable {κ τ : Type}

/-- How many sockets are parked or busy. -/
def occupied (x : Traffic κ τ) : Nat := x.pool.ledger.occupied

/-- The most that may be. -/
def limit (x : Traffic κ τ) : Nat := x.pool.ledger.config.maxConnections

variable [Transport τ]

/-- The sockets that somebody has or can get, and that were not disposed of. -/
def workingIds (x : Traffic κ τ) : List Nat := x.liveIds.filter (! x.pool.health.disposed ·)

variable {x : Traffic κ τ}

theorem inUse_le_occupied (h : x.Booked) :
    x.workingIds.length + x.dials.length ≤ x.occupied := by
  have hbusy := Ledger.Books.inUse_le h
  have hparked := x.pool.ledger.parkedIds.length_filter_le (! x.pool.health.disposed ·)
  have hlength : x.pool.ledger.parkedIds.length = x.pool.ledger.parked.length := List.length_map _
  have hlive : x.liveIds = x.pool.ledger.parkedIds ++ x.leases.map (·.socket) := by
    rw [liveIds, lentIds, grantedIds, leases, List.map_append, List.append_assoc]
  have hleases : (x.leases.map (·.socket)).filter (! x.pool.health.disposed ·) =
      (x.leases.filter (! x.pool.health.disposed ·.socket)).map (·.socket) := List.filter_map
  rw [workingIds, hlive, List.filter_append, List.length_append, hleases, List.length_map, occupied,
    Ledger.occupied]
  omega

variable [Connector κ τ]

/-- **No move but a change of the settings takes the places in use above the limit, or above what
they were.** -/
theorem step_within (h : x.Booked) (m : Move τ) (hm : m.limit? = none) :
    (x.step m).occupied ≤ max x.occupied x.limit := by
  have heffect := step_effect x m
  rw [occupied]
  generalize (x.step m).pool = p at heffect ⊢
  cases heffect with
  | enter hc => exact x.pool.ledger.enter_within _ _
  | fill transport connector hc =>
    rw [Ledger.fill_occupied]
    exact Nat.le_max_left ..
  | abandon connector hc => exact x.pool.ledger.abandon_within _
  | use hh =>
    rw [ledger_update]
    exact Nat.le_max_left ..
  | @reclaim lease _ _ hdisposed hh =>
    -- a handle whose socket works still has its seat
    refine x.pool.ledger.reclaim_within _ _ _ _ _ fun hlive => ?_
    have hlease : lease ∈ x.leases := List.mem_append_left _ hh
    rw [hdisposed] at hlive
    rw [Ledger.holds, h.held lease hlease hlive, beq_self_eq_true]
  | reap => exact x.pool.ledger.clean_within _ _
  | drain => exact Nat.le_trans x.pool.ledger.drain_occupied (Nat.le_max_left ..)
  | close hid =>
    rw [ledger_close]
    exact Nat.le_max_left ..
  | configure => cases hm
  | idle | take | leave | shut | pass => exact Nat.le_max_left ..

/-! ## The limit -/

theorem step_limit (x : Traffic κ τ) (m : Move τ) :
    (x.step m).limit = m.limit?.getD x.limit := by
  have heffect := step_effect x m
  rw [limit]
  generalize (x.step m).pool = p at heffect ⊢
  cases heffect with
  | idle hm =>
    rw [hm]
    rfl
  | enter hc => exact congrArg Config.maxConnections (x.pool.ledger.enter_config _ _)
  | abandon connector hc => exact congrArg Config.maxConnections (x.pool.ledger.abandon_config _)
  | use hh =>
    rw [ledger_update]
    rfl
  | reclaim hdisposed hh =>
    exact congrArg Config.maxConnections (x.pool.ledger.reclaim_config ..)
  | reap => exact congrArg Config.maxConnections (x.pool.ledger.clean_config _ _)
  | close hid =>
    rw [ledger_close]
    rfl
  | fill | take | leave | configure | shut | drain | pass => rfl

/-- All limits that are in force in a run, the first one first. -/
def limits (x : Traffic κ τ) (moves : List (Move τ)) : List Nat :=
  x.limit :: moves.filterMap Move.limit?

-- The limits of a run are those of its first move and those of the rest.
theorem limits_cons {R : Nat → Nat → Prop} {x : Traffic κ τ} {m : Move τ} {moves : List (Move τ)}
    (h : (limits x (m :: moves)).Pairwise R) :
    (limits (x.step m) moves).Pairwise R ∧ ∀ n, m.limit? = some n → R x.limit n := by
  rw [limits, List.filterMap_cons] at h
  rw [limits, step_limit]
  cases hm : m.limit? with
  | none =>
    rw [hm] at h
    exact ⟨h, nofun⟩
  | some n =>
    rw [hm] at h
    obtain ⟨hfirst, hrest⟩ := List.pairwise_cons.1 h
    refine ⟨hrest, fun k hk => ?_⟩
    cases hk
    exact hfirst n List.mem_cons_self

-- While the limit is not lowered, the places in use stay within it.
theorem run_within (h : x.Sound) (hle : x.occupied ≤ x.limit) (moves : List (Move τ))
    (hlimits : (limits x moves).Pairwise (· ≤ ·)) :
    (x.run moves).occupied ≤ (x.run moves).limit := by
  induction moves generalizing x with
  | nil => exact hle
  | cons m moves ih =>
    obtain ⟨hrest, hraised⟩ := limits_cons hlimits
    refine ih (step_sound h m) ?_ hrest
    have hlimit := step_limit x m
    cases hm : m.limit? with
    | none =>
      have hwithin := step_within h.booked m hm
      rw [hm, Option.getD_none] at hlimit
      omega
    | some n =>
      have hn : x.limit ≤ n := hraised n hm
      have hsame : (x.step m).occupied = x.occupied := by
        cases m <;> cases hm
        rfl
      rw [hm, Option.getD_some] at hlimit
      omega

/-- **A pool keeps to its limit.**  Whatever moves are made before, one that is no change of the
settings takes the number of parked sockets and busy seats to no more than it was, or no more than
the limit.  While the limit is not lowered, that number stays within it, and so does the number of
the sockets that are parked, held or granted and work, together with the connects in progress and
the seats granted for one. -/
theorem capacity (connector : κ) (config : Config) (moves : List (Move τ)) :
    let x := (start connector config : Traffic κ τ).run moves
    (∀ m : Move τ, (∀ c, m ≠ .configure c) → (x.step m).occupied ≤ max x.occupied x.limit) ∧
      ((config.maxConnections :: moves.filterMap Move.limit?).Pairwise (· ≤ ·) →
        x.occupied ≤ x.limit ∧ x.workingIds.length + x.dials.length ≤ x.limit) := by
  intro x
  have hstart : (start connector config : Traffic κ τ).Sound := start_sound connector config
  have h : x.Sound := run_sound hstart moves
  refine ⟨fun m hm => ?_, fun hlimits => ?_⟩
  · apply step_within h.booked
    cases m with
    | configure c => exact absurd rfl (hm c)
    | _ => rfl
  · have hempty : (start connector config : Traffic κ τ).occupied = 0 := by
      show 0 + (Slab.empty : Slab Seat).size = 0
      rw [Slab.size_empty]
    have hwithin : x.occupied ≤ x.limit := run_within hstart (by omega) moves hlimits
    exact ⟨hwithin, Nat.le_trans (inUse_le_occupied h.booked) hwithin⟩

/-- One socket is lent and another is being connected, after the limit was raised. -/
theorem capacity_of_raised :
    let here : Glimpse := { connected := fun _ => true }
    let limit (n : Nat) : Config := { maxConnections := n }
    let moves : List (Move Link) := [.arrive, .enter here, .connect 0 (limit 1).connectTimeout,
      .configure (limit 2), .arrive, .enter here]
    let x := (start ({ endpoint := "mock:0" } : Dialer) (limit 1)).run moves
    (1 :: moves.filterMap Move.limit?).Pairwise (· ≤ ·) ∧ x.workingIds = [1] ∧ x.dials = [1] ∧
      x.limit = 2 ∧ x.occupied ≤ x.limit ∧ x.workingIds.length + x.dials.length ≤ x.limit := by
  intro here limit moves x
  have hlimits : (1 :: moves.filterMap Move.limit?).Pairwise (· ≤ ·) := by decide
  have hworking : x.workingIds = [1] := by decide +kernel
  have hdials : x.dials = [1] := by decide +kernel
  have hlimit : x.limit = 2 := by decide +kernel
  exact ⟨hlimits, hworking, hdials, hlimit, (capacity _ (limit 1) moves).2 hlimits⟩

end Traffic

end Pool

end LineFrame
