import LineFrame.Proofs.Pool.Capacity

/-!
# No lost wake-up

While the limit is not raised, a call never waits for a seat that is free, or for a socket that is
parked (`no_lost_wakeup`).  Every visit that frees a seat passes it on while it still has the lock,
and a call only joins the queue of a pool that is full; so no move leaves a queue behind together
with something that could be given to it.
-/

namespace LineFrame

namespace Pool

namespace Ledger

/-- No call waits while a socket is parked or there is room. -/
def Settled (l : Ledger) : Prop :=
  l.waiters = [] ∨ l.parked = [] ∧ l.config.maxConnections ≤ l.occupied

variable {l : Ledger} {health : Health} {now : Nat}

theorem Settled.idle (h : l.Settled) : l.waiters = [] ∨ l.parked = [] := h.imp_right (·.1)

-- Whatever was freed before, passing seats on settles the ledger.
theorem grantSeats_settled (h : l.waiters = [] ∨ l.parked = []) : l.grantSeats.2.Settled := by
  have hgrants := l.grantSeats_spec
  rcases h with hwaiters | hparked
  · have hnone := hgrants.waiters
    rw [hwaiters] at hnone
    exact .inl (List.append_eq_nil_iff.1 hnone.symm).2
  · rcases hgrants.spent with hwaiters | hfull
    · exact .inl hwaiters
    · rw [← hgrants.config] at hfull
      exact .inr ⟨hgrants.parked.trans hparked, hfull⟩

theorem enter_settled (h : l.waiters = [] ∨ l.parked = []) :
    (l.enter health now).2.2.Settled := by
  have hroom : ({ l with parked := [] }.room health now).2.parked = [] := room_parked rfl
  unfold enter
  split
  · next p rest hfound =>
    -- nobody waits, since there was a parked socket
    rcases h with hwaiters | hparked
    · exact .inl hwaiters
    · rw [hparked] at hfound
      cases hfound
  · rw [enterWithout_eq]
    dsimp only
    split
    · exact grantSeats_settled (.inr hroom)
    · next hfull =>
      rw [hasCapacity_iff, Nat.not_lt] at hfull
      exact .inr ⟨hroom, hfull⟩

theorem clean_settled (h : l.waiters = [] ∨ l.parked = []) : (l.clean health now).2.Settled :=
  grantSeats_settled (h.imp_right reap_parked)

theorem abandon_settled (h : l.waiters = [] ∨ l.parked = []) (key : Nat) :
    (l.abandon key).2.Settled :=
  grantSeats_settled (l := { l with busy := l.busy.remove key }) h

theorem fill_settled (h : l.Settled) (key s : Nat) : (l.fill key s).Settled := by
  refine h.imp_right (And.imp_right fun hfull => ?_)
  rw [fill_occupied]
  exact hfull

theorem leave_settled (h : l.Settled) (w : Nat) : (l.leave w).Settled := by
  rcases h with hwaiters | hfull
  · left
    rw [leave, hwaiters]
    rfl
  · exact .inr hfull

-- The place of a socket that failed is passed on.
theorem reclaim_settled_of_failed (h : l.waiters = [] ∨ l.parked = []) (key : Nat) {s : Nat}
    (hfailed : (health.disposed s || !health.connected s) = true) :
    (l.reclaim false health now key s).2.2.Settled := by
  rw [reclaim]
  dsimp only
  rw [if_neg Bool.false_ne_true, if_pos hfailed]
  apply grantSeats_settled (l := l.release key s)
  rw [l.release_waiters, l.release_parked]
  exact h

-- A socket that works is given on in the place that it frees.
theorem reclaim_settled (h : l.Settled) (key s : Nat) :
    (l.reclaim false health now key s).2.2.Settled := by
  by_cases hfailed : (health.disposed s || !health.connected s) = true
  · exact reclaim_settled_of_failed h.idle key hfailed
  let r := l.release key s
  have hrelease : r.occupied + (l.holds key s).toNat = l.occupied := l.release_occupied key s
  have hwaiters : r.waiters = l.waiters := l.release_waiters key s
  have hparked : r.parked = l.parked := l.release_parked key s
  have hconfig : r.config = l.config := l.release_config key s
  rw [reclaim]
  dsimp only
  rw [if_neg Bool.false_ne_true, if_neg hfailed]
  split
  · next w rest hw =>
    rcases h with hnone | ⟨hnone, hfull⟩
    · rw [hwaiters, hnone] at hw
      cases hw
    · right
      refine ⟨hparked.trans hnone, ?_⟩
      have hseat := occupied_seat { r with waiters := rest } (.lent s)
      have hsame : ({ r with waiters := rest } : Ledger).occupied = r.occupied := rfl
      have hone := Bool.toNat_le (l.holds key s)
      have hlimit : r.config.maxConnections = l.config.maxConnections := by rw [hconfig]
      show r.config.maxConnections ≤ (({ r with waiters := rest } : Ledger).seat (.lent s)).occupied
      omega
  · next hw => split <;> exact .inl hw

end Ledger

namespace Traffic

/-! ## Calls that wait -/

/-- The calls that wait and whose time is not up are in the queue, or were sent a grant. -/
def Heeds (waiters posted : List Nat) (calls : List Call) : Prop :=
  ∀ w timeout, .waiting w timeout false ∈ calls → w ∈ waiters ++ posted

namespace Heeds

variable {waiters posted : List Nat} {calls calls' : List Call}

theorem fewer (h : Heeds waiters posted calls)
    (hcalls : ∀ w timeout, .waiting w timeout false ∈ calls' → .waiting w timeout false ∈ calls) :
    Heeds waiters posted calls' :=
  fun w timeout hw => h w timeout (hcalls w timeout hw)

theorem erase (h : Heeds waiters posted calls) (c : Call) :
    Heeds waiters posted (calls.erase c) :=
  h.fewer fun _ _ hw => List.mem_of_mem_erase hw

-- A call that leaves the queue was sent a grant, or joins the queue.
theorem served {l l' : Ledger} {joining : List Nat} {mail send : List Delivery}
    (h : Heeds (l.waiters ++ joining) (mail.map (·.1)) calls)
    (hserves : l.Serves joining send l') :
    Heeds l'.waiters ((mail ++ send).map (·.1)) calls := by
  intro w timeout hw
  have hmem := h w timeout hw
  rw [hserves.waiters] at hmem
  simp only [List.map_append, List.mem_append] at hmem ⊢
  rcases hmem with (hsent | hwaits) | hposted
  · exact .inr (.inr hsent)
  · exact .inl hwaits
  · exact .inr (.inl hposted)

-- What becomes of a call does not matter to those that listen under another number.
theorem except {waiters' posted' : List Nat} {w next : Nat} {timeout : Duration} {late : Bool}
    (h : Heeds waiters posted calls) (hqueue : Queue waiters posted calls next)
    (hc : .waiting w timeout late ∈ calls)
    (hwaiters : ∀ v ∈ waiters, v ≠ w → v ∈ waiters')
    (hposted : ∀ v ∈ posted, v ≠ w → v ∈ posted') :
    Heeds waiters' posted' (calls.erase (.waiting w timeout late)) := by
  intro v t hv
  have hne : v ≠ w := by
    intro heq
    have hmem : v ∈ listeners (calls.erase (.waiting w timeout late)) :=
      List.mem_filterMap.2 ⟨_, hv, rfl⟩
    exact hqueue.not_listening_erase hc (heq ▸ hmem)
  rcases List.mem_append.1 (h v t (List.mem_of_mem_erase hv)) with hv | hv
  · exact List.mem_append_left _ (hwaiters v hv hne)
  · exact List.mem_append_right _ (hposted v hv hne)

end Heeds

variable {κ τ : Type}

/-- No call that waits was forgotten. -/
def Heeded (x : Traffic κ τ) : Prop :=
  Heeds x.pool.ledger.waiters (x.pool.mail.map (·.1)) x.calls

/-- No call waits in vain. -/
structure Prompt (x : Traffic κ τ) : Prop where
  settled : x.pool.ledger.Settled
  heeded : x.Heeded

theorem start_prompt (connector : κ) (config : Config) :
    (start connector config : Traffic κ τ).Prompt where
  settled := .inl rfl
  heeded := nofun

variable [Transport τ] [Connector κ τ] {x : Traffic κ τ}

/-! ## The queue -/

/-- **No move leaves a queue behind together with something that it waits for**, unless it raises
the limit. -/
theorem step_settled (h : x.pool.ledger.Settled) (hshut : x.pool.shut = false) (m : Move τ)
    (hm : ∀ n, m.limit? = some n → n ≤ x.limit) : (x.step m).pool.ledger.Settled := by
  have heffect := step_effect x m
  generalize (x.step m).pool = p at heffect ⊢
  cases heffect with
  | enter hc => exact Ledger.enter_settled h.idle
  | fill transport connector hc => exact Ledger.fill_settled h _ _
  | abandon connector hc => exact Ledger.abandon_settled h.idle _
  | leave hc => exact Ledger.leave_settled h _
  | use hh => rwa [ledger_update]
  | reclaim hdisposed hh =>
    rw [hshut]
    exact Ledger.reclaim_settled h ..
  | reap => exact Ledger.clean_settled h.idle
  | configure => exact h.imp_right (And.imp_right (Nat.le_trans (hm _ rfl)))
  | drain => exact .inl rfl
  | close hid => rwa [ledger_close]
  | idle | take | shut | pass => exact h

/-! ## The calls -/

omit [Transport τ] [Connector κ τ] in
theorem proceed_heeded {entry : Ledger.Entry} {duties : Ledger.Duties} {ledger : Ledger}
    (h : x.Heeded) (hserves : x.pool.ledger.Serves entry.waits duties.send ledger) :
    ((x.visit duties ledger).proceed entry).Heeded := by
  rw [Heeded, proceed_pool]
  refine Heeds.served (fun w t hw => ?_) hserves
  have hold : .waiting w t false ∈ x.calls →
      w ∈ (x.pool.ledger.waiters ++ entry.waits) ++ x.pool.mail.map (·.1) := by
    intro hw
    have hmem := h w t hw
    simp only [List.mem_append] at hmem ⊢
    exact hmem.imp_left .inl
  cases entry with
  | ready key socket => exact hold hw
  | connect key timeout =>
    apply hold
    simpa [proceed, visit] using hw
  | wait waiter timeout =>
    rcases List.mem_cons.1 hw with heq | hw
    · cases heq
      simp [Ledger.Entry.waits]
    · exact hold hw

theorem take_heeded (h : x.Heeded) (horderly : x.Orderly) {waiter : Nat} {timeout : Duration}
    {late : Bool} {grant : Grant} (hc : .waiting waiter timeout late ∈ x.calls)
    (hgrant : x.pool.granted? waiter = some grant) :
    (x.step (.take waiter timeout late)).Heeded := by
  let others := x.pool.mail.filter (·.1 != waiter)
  have hothers : Heeds x.pool.ledger.waiters (others.map (·.1))
      (x.calls.erase (.waiting waiter timeout late)) := by
    refine Heeds.except h horderly hc (fun v hv _ => hv) fun v hv hne => ?_
    obtain ⟨d, hd, rfl⟩ := List.mem_map.1 hv
    exact List.mem_map_of_mem (List.mem_filter.2 ⟨hd, by simpa using hne⟩)
  rw [step, hgrant]
  dsimp only
  rw [if_pos hc, Heeded, accept_pool]
  refine hothers.fewer fun w t hw => ?_
  cases grant with
  | socket key id => exact hw
  | seat key => simpa [accept] using hw

/-- **No move loses a call that waits**, until the pool is shut down. -/
theorem step_heeded (h : x.Heeded) (horderly : x.Orderly) (hshut : x.pool.shut = false)
    (m : Move τ) : (x.step m).Heeded := by
  have hserved : ∀ {send ledger}, x.pool.ledger.Serves [] send ledger →
      Heeds ledger.waiters ((x.pool.mail ++ send).map (·.1)) x.calls := by
    intro send ledger hserves
    refine Heeds.served ?_ hserves
    rw [List.append_nil]
    exact h
  cases m with
  | arrive =>
    rw [step]
    split
    · exact h
    · exact Heeds.fewer h fun w t hw => by simpa using hw
  | enter g =>
    rw [step]
    split
    · let y : Traffic κ τ := { x with calls := x.calls.erase .arriving }
      have hy : y.Heeded := Heeds.erase h _
      exact proceed_heeded hy (x.pool.ledger.enter_serves _ _)
    · exact h
  | connect key timeout =>
    rw [step]
    split
    · rw [Pool.connect]
      dsimp only
      split
      · exact Heeds.erase h _
      · exact (hserved (x.pool.ledger.abandon_serves key)).erase _
    · exact h
  | take waiter timeout late =>
    cases hgrant : x.pool.granted? waiter with
    | none =>
      rw [step, hgrant]
      exact h
    | some grant =>
      by_cases hc : .waiting waiter timeout late ∈ x.calls
      · exact take_heeded h horderly hc hgrant
      · rw [step, hgrant]
        dsimp only
        rw [if_neg hc]
        exact h
  | leave waiter timeout =>
    rw [step]
    split
    · next hc =>
      have hothers : Heeds (x.pool.ledger.leave waiter).waiters (x.pool.mail.map (·.1))
          (x.calls.erase (.waiting waiter timeout false)) :=
        Heeds.except h horderly hc (fun v hv hne => List.mem_filter.2 ⟨hv, by simpa using hne⟩)
          fun v hv _ => hv
      exact hothers.fewer fun w t hw => by simpa using hw
    · exact h
  | giveUp waiter timeout late =>
    rw [step]
    split
    · exact Heeds.erase h _
    · exact h
  | use lease f fails =>
    rw [step]
    split
    · rw [Heeded, ledger_update, mail_update]
      exact h
    · exact h
  | reclaim lease connected =>
    rw [step]
    split
    · exact hserved (x.pool.ledger.reclaim_serves ..)
    · exact h
  | reap g => exact hserved (x.pool.ledger.clean_serves ..)
  | drain =>
    rw [step, hshut, if_neg (by simp)]
    exact h
  | close id =>
    rw [step]
    split
    · rw [Heeded, ledger_close, mail_close]
      exact h
    · exact h
  | configure | shut | pass => exact h

-- While the limit is not raised, and until the pool is shut down, no call waits in vain.
theorem run_prompt (hsound : x.Sound) (h : x.pool.shut = false → x.Prompt) (moves : List (Move τ))
    (hlimits : (limits x moves).Pairwise (· ≥ ·)) :
    (x.run moves).pool.shut = false → (x.run moves).Prompt := by
  induction moves generalizing x with
  | nil => exact h
  | cons m moves ih =>
    obtain ⟨hrest, hlowered⟩ := limits_cons hlimits
    refine ih (step_sound hsound m) (fun hopen => ?_) hrest
    have hshut : x.pool.shut = false := by
      rw [← Bool.not_eq_true]
      intro hshut
      rw [shut_step hshut m] at hopen
      cases hopen
    exact ⟨step_settled (h hshut).settled hshut m hlowered,
      step_heeded (h hshut).heeded hsound.orderly hshut m⟩

/-- **No wake-up is lost.**  Whatever moves are made, in whatever order, while the limit is not
raised and until the pool is shut down: when there is a queue, no socket is parked and all places
are in use.  A call that waits, and whose time is not up, is in the queue or has a grant on its way;
so it never waits for what it could have. -/
theorem no_lost_wakeup (connector : κ) (config : Config) (moves : List (Move τ))
    (hlimits : (config.maxConnections :: moves.filterMap Move.limit?).Pairwise (· ≥ ·)) :
    let x := (start connector config : Traffic κ τ).run moves
    x.pool.shut = false →
      (x.pool.ledger.waiters ≠ [] → x.pool.ledger.parked = [] ∧ x.limit ≤ x.occupied) ∧
        (∀ w timeout, .waiting w timeout false ∈ x.calls → x.pool.granted? w = none →
          w ∈ x.pool.ledger.waiters) := by
  intro x hopen
  have hstart : (start connector config : Traffic κ τ).Sound := start_sound connector config
  have h : x.Prompt :=
    run_prompt hstart (fun _ => start_prompt connector config) moves hlimits hopen
  refine ⟨fun hqueue => h.settled.resolve_left hqueue, fun w timeout hw hgrant => ?_⟩
  refine (List.mem_append.1 (h.heeded w timeout hw)).resolve_right fun hposted => ?_
  obtain ⟨d, hd, heq⟩ := List.mem_map.1 hposted
  have hne := List.lookup_eq_none_iff.1 hgrant d hd
  simp [heq] at hne

/-- A call waits behind a socket that is lent, after the limit was lowered. -/
theorem no_lost_wakeup_of_lowered :
    let here : Glimpse := { connected := fun _ => true }
    let limit (n : Nat) : Config := { maxConnections := n }
    let moves : List (Move Link) := [.arrive, .enter here, .connect 0 (limit 2).connectTimeout,
      .configure (limit 1), .arrive, .enter here]
    let dialer : Dialer := { endpoint := "mock:0" }
    let x := (start dialer (limit 2)).run moves
    (2 :: moves.filterMap Move.limit?).Pairwise (· ≥ ·) ∧ x.pool.shut = false ∧
      x.pool.ledger.waiters ≠ [] ∧ x.pool.ledger.parked = [] ∧ x.limit ≤ x.occupied := by
  intro here limit moves dialer
  dsimp only
  have hlimits : (2 :: moves.filterMap Move.limit?).Pairwise (· ≥ ·) := by decide
  have hopen : ((start dialer (limit 2)).run moves).pool.shut = false := by decide +kernel
  have hqueue : ((start dialer (limit 2)).run moves).pool.ledger.waiters ≠ [] := by decide +kernel
  have hkept := no_lost_wakeup dialer (limit 2) moves hlimits hopen
  exact ⟨hlimits, hopen, hqueue, hkept.1 hqueue⟩

end Traffic

end Pool

end LineFrame
