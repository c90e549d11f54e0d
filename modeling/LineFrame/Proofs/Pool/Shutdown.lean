import LineFrame.Proofs.Pool.Conservation
import LineFrame.Proofs.Pool.Grants

/-!
# The queue after a shutdown

The visit of a shutdown dismisses all calls in the queue, and no call comes to the pool afterwards.
A call that found the pool in use before, and had not yet made its visit, makes it all the same: it
may join the queue of the pool that is shut down, and nobody dismisses it then
(`queued_of_shutdown`).  Only such calls are ever in the queue after a shutdown, so that without
them it stays empty (`queued_after_shutdown`).
-/

namespace LineFrame

namespace Pool

namespace Traffic

variable {κ τ : Type} {x : Traffic κ τ}

/-- How many calls found the pool in use and have not made their visit. -/
def arrivals (x : Traffic κ τ) : Nat := x.calls.count .arriving

theorem erase_arrivals (x : Traffic κ τ) (c : Call) :
    (x.calls.erase c).count .arriving ≤ x.arrivals := List.erase_sublist.count_le _

theorem proceed_arrivals (x : Traffic κ τ) (entry : Ledger.Entry) :
    (x.proceed entry).arrivals = x.arrivals := by
  cases entry with
  | ready key socket => rfl
  | connect key timeout => exact List.count_cons_of_ne (by simp)
  | wait waiter timeout => exact List.count_cons_of_ne (by simp)

theorem accept_arrivals (x : Traffic κ τ) (timeout : Duration) (grant : Grant) :
    (x.accept timeout grant).arrivals = x.arrivals := by
  cases grant with
  | socket key socket => rfl
  | seat key => exact List.count_cons_of_ne (by simp)

variable [Transport τ] [Connector κ τ]

/-! ## Calls that come late -/

-- A pool that is shut down turns calls away.
theorem step_arrive (hshut : x.pool.shut = true) : x.step .arrive = x := by
  rw [step, if_pos hshut]

theorem step_arrivals (hshut : x.pool.shut = true) (m : Move τ) :
    (x.step m).arrivals ≤ x.arrivals := by
  cases m with
  | arrive => exact Nat.le_of_eq (congrArg arrivals (step_arrive hshut))
  | enter g =>
    rw [step]
    split
    · dsimp only
      rw [proceed_arrivals]
      exact x.erase_arrivals _
    · exact Nat.le_refl _
  | connect key timeout =>
    rw [step]
    split
    · exact x.erase_arrivals _
    · exact Nat.le_refl _
  | take waiter timeout late =>
    rw [step]
    split
    · exact Nat.le_refl _
    · split
      · dsimp only
        rw [accept_arrivals]
        exact x.erase_arrivals _
      · exact Nat.le_refl _
  | leave waiter timeout =>
    rw [step]
    split
    · show (Call.waiting waiter timeout true :: x.calls.erase _).count .arriving ≤ _
      rw [List.count_cons_of_ne (by simp)]
      exact x.erase_arrivals _
    · exact Nat.le_refl _
  | giveUp waiter timeout late =>
    rw [step]
    split
    · exact x.erase_arrivals _
    · exact Nat.le_refl _
  | use | reclaim | drain | close =>
    rw [step]
    split <;> exact Nat.le_refl _
  | reap | configure | shut | pass => exact Nat.le_refl _

-- Numbers are given to calls that make their visit, and to no others.
theorem step_nextWaiter {m : Move τ} (hm : ∀ g, m ≠ .enter g) :
    (x.step m).pool.ledger.nextWaiter = x.pool.ledger.nextWaiter := by
  have heffect := step_effect x m
  generalize (x.step m).pool = p at heffect ⊢
  cases heffect with
  | enter hc => exact absurd rfl (hm _)
  | abandon connector hc => exact (x.pool.ledger.abandon_serves _).nextWaiter
  | use hh => rw [ledger_update]
  | reclaim hdisposed hh => exact (x.pool.ledger.reclaim_serves ..).nextWaiter
  | reap => exact (x.pool.ledger.clean_serves _ _).nextWaiter
  | close hid => rw [ledger_close]
  | idle | fill | take | leave | configure | shut | drain | pass => rfl

-- A call that joins the queue has made its visit.
theorem enter_joins {g : Glimpse} (hc : .arriving ∈ x.calls) :
    (x.step (.enter g)).pool.ledger.nextWaiter + (x.step (.enter g)).arrivals ≤
      x.pool.ledger.nextWaiter + x.arrivals := by
  let seen := x.pool.ledger.enter (g.health x.pool) x.pool.clock
  have hnext : seen.2.2.nextWaiter = x.pool.ledger.nextWaiter + seen.1.waits.length :=
    (x.pool.ledger.enter_serves _ _).nextWaiter
  have hone : seen.1.waits.length ≤ 1 := by
    cases seen.1 with
    | ready | connect => exact Nat.zero_le 1
    | wait => exact Nat.le_refl 1
  have hcount : (x.calls.erase .arriving).count .arriving + 1 = x.arrivals := by
    have hpos : 0 < x.calls.count .arriving := List.count_pos_iff.2 hc
    rw [List.count_erase_self, arrivals]
    omega
  rw [step, if_pos hc]
  dsimp only
  rw [proceed_arrivals, proceed_pool]
  show seen.2.2.nextWaiter + (x.calls.erase .arriving).count .arriving ≤ _
  omega

/-- **Once the pool is shut down, calls only join the queue if they found it in use before.** -/
theorem step_joins (hshut : x.pool.shut = true) (m : Move τ) :
    (x.step m).pool.ledger.nextWaiter + (x.step m).arrivals ≤
      x.pool.ledger.nextWaiter + x.arrivals := by
  by_cases hm : ∃ g, m = .enter g
  · obtain ⟨g, rfl⟩ := hm
    by_cases hc : .arriving ∈ x.calls
    · exact enter_joins hc
    · have hsame : x.step (.enter g) = x := by rw [step, if_neg hc]
      exact Nat.le_of_eq (by rw [hsame])
  · have hnext : (x.step m).pool.ledger.nextWaiter = x.pool.ledger.nextWaiter :=
      step_nextWaiter fun g hg => hm ⟨g, hg⟩
    have harrivals := step_arrivals hshut m
    omega

/-! ## After the visit of the shutdown -/

/-- What the queue has come to since the visit of the shutdown: `late` calls were to make theirs
then, and the next number to be given was `next`. -/
structure Since (next late : Nat) (x : Traffic κ τ) : Prop where
  shut : x.pool.shut = true
  joined : x.pool.ledger.nextWaiter + x.arrivals ≤ next + late
  numbered : next ≤ x.pool.ledger.nextWaiter
  queued : ∀ w ∈ x.pool.ledger.waiters, next ≤ w

theorem step_since {next late : Nat} (h : x.Since next late) (m : Move τ) :
    (x.step m).Since next late where
  shut := shut_step h.shut m
  joined := Nat.le_trans (step_joins h.shut m) h.joined
  numbered := Nat.le_trans h.numbered (nextWaiter_le x m)
  queued w hw := by
    rcases step_waiters x m hw with hold | hnew
    · exact h.queued w hold
    · rw [hnew]
      exact h.numbered

theorem drain_since (hshut : x.pool.shut = true) (hdrained : x.drained = false) :
    (x.step .drain).drained = true ∧ (x.step .drain).pool.ledger.waiters = [] ∧
      (x.step .drain).Since x.pool.ledger.nextWaiter x.arrivals := by
  have hgo : x.pool.shut ∧ !x.drained := ⟨hshut, by rw [hdrained]; rfl⟩
  rw [step, if_pos hgo]
  exact ⟨rfl, rfl, hshut, Nat.le_refl _, Nat.le_refl _, List.forall_mem_nil _⟩

/-- **After a shutdown only calls that came before it are in the queue.**  Its visit leaves the
queue empty, and a call that comes later is turned away.  Whatever moves are made, the calls in the
queue have joined it since, and no more do so than were about to make their visit then: if there
was no such call, the queue is empty in every later state. -/
theorem queued_after_shutdown (connector : κ) (config : Config) (moves : List (Move τ)) :
    let x := (start connector config : Traffic κ τ).run moves
    let y := x.step .drain
    x.pool.shut = true → x.drained = false →
      y.drained = true ∧ y.pool.ledger.waiters = [] ∧
        ∀ more, let z := y.run more
          (∀ w ∈ z.pool.ledger.waiters,
            x.pool.ledger.nextWaiter ≤ w ∧ w < z.pool.ledger.nextWaiter) ∧
          z.pool.ledger.nextWaiter + z.arrivals ≤ x.pool.ledger.nextWaiter + x.arrivals ∧
          (x.arrivals = 0 → z.pool.ledger.waiters = []) ∧ z.step .arrive = z := by
  intro x y hshut hdrained
  obtain ⟨hdone, hempty, hy⟩ := drain_since hshut hdrained
  refine ⟨hdone, hempty, fun more => ?_⟩
  intro z
  have hsound : z.Sound :=
    run_sound (step_sound (run_sound (start_sound connector config) moves) .drain) more
  have hz : z.Since x.pool.ledger.nextWaiter x.arrivals :=
    run_induction (P := Since x.pool.ledger.nextWaiter x.arrivals) (fun _ m h => step_since h m) hy
      more
  have hqueued : ∀ w ∈ z.pool.ledger.waiters,
      x.pool.ledger.nextWaiter ≤ w ∧ w < z.pool.ledger.nextWaiter :=
    fun w hw => ⟨hz.queued w hw, queued_lt hsound.orderly hw⟩
  refine ⟨hqueued, hz.joined, fun hnone => ?_, step_arrive hz.shut⟩
  apply List.eq_nil_iff_forall_not_mem.2
  intro w hw
  have hbounds := hqueued w hw
  have hjoined := hz.joined
  omega

/-- A call waits when the pool is shut down, and the socket that it waits for comes back later. -/
theorem queued_after_shutdown_of_waiting :
    let here : Glimpse := { connected := fun _ => true }
    let limit : Config := { maxConnections := 1 }
    let moves : List (Move Link) := [.arrive, .enter here, .connect 0 limit.connectTimeout,
      .arrive, .enter here, .shut]
    let x := (start ({ endpoint := "mock:0" } : Dialer) limit).run moves
    let z := (x.step .drain).run [.reclaim ⟨0, 1⟩ true, .arrive]
    x.pool.shut = true ∧ x.drained = false ∧ x.pool.ledger.waiters = [0] ∧ x.arrivals = 0 ∧
      z.pool.ledger.waiters = [] := by
  intro here limit moves x z
  have hshut : x.pool.shut = true := by decide +kernel
  have hdrained : x.drained = false := by decide +kernel
  have hqueue : x.pool.ledger.waiters = [0] := by decide +kernel
  have hnone : x.arrivals = 0 := by decide +kernel
  clear_value moves limit
  have hlater := (queued_after_shutdown _ limit moves hshut hdrained).2.2
    [.reclaim ⟨0, 1⟩ true, .arrive]
  exact ⟨hshut, hdrained, hqueue, hnone, hlater.2.2.1 hnone⟩

/-- A call finds the pool in use, the pool is shut down, and then the call makes its visit: it is in
the queue.  Nobody gives it anything, the socket that comes back is closed, and it waits until its
time is up. -/
theorem queued_of_shutdown :
    let here : Glimpse := { connected := fun _ => true }
    let limit : Config := { maxConnections := 1 }
    let wait := limit.connectTimeout
    let moves : List (Move Link) :=
      [.arrive, .enter here, .connect 0 wait, .arrive, .shut, .drain]
    let more : List (Move Link) := [.reclaim ⟨0, 1⟩ true, .leave 0 wait, .giveUp 0 wait true]
    let x := (start ({ endpoint := "mock:0" } : Dialer) limit).run moves
    let y := x.step (.enter here)
    x.drained = true ∧ ¬ y.pool.ledger.waiters = [] ∧ y.exhausted more = [0] := by
  intro here limit wait moves more x y
  have hdrained : x.drained = true := by decide +kernel
  have hqueue : y.pool.ledger.waiters = [0] := by decide +kernel
  have hexhausted : y.exhausted more = [0] := by decide +kernel
  rw [hqueue]
  exact ⟨hdrained, List.cons_ne_nil _ _, hexhausted⟩

end Traffic

end Pool

end LineFrame
