import LineFrame.Proofs.Pool.Grants
import LineFrame.Proofs.Pool.Wakeups

/-!
# Overtaking

While a call is in the queue, every grant that is sent goes to a call that joined before it
(`overtaken_by_reapers_only`).  Seats that a reap frees go to the front of the queue too, but for
one: a call that makes its visit while sockets that were disposed of still have seats reaps these,
and takes the first seat for itself.  So it gets ahead of the queue (`overtaken_of_discarded`); a
call that finds no such seat waits like the others.
-/

namespace LineFrame

-- Entries that have the property are removed, and no others.
theorem Slab.size_removeIf {α : Type} (s : Slab α) (p : α → Bool) {keys : List Nat}
    (hkeys : keys.Nodup) :
    (s.removeIf p keys).size + (keys.filter fun k => (s.get? k).any p).length = s.size := by
  induction keys generalizing s with
  | nil => rfl
  | cons k keys ih =>
    obtain ⟨hnew, hrest⟩ := List.nodup_cons.1 hkeys
    by_cases hk : (s.get? k).any p
    · have hothers : (keys.filter fun j => ((s.remove k).get? j).any p) =
          keys.filter fun j => (s.get? j).any p := by
        apply List.filter_congr
        intro j hj
        have hne : j ≠ k := fun heq => hnew (heq ▸ hj)
        rw [get?_remove, if_neg hne]
      have hsome : (s.get? k).isSome := by
        cases hget : s.get? k with
        | none => simp [hget] at hk
        | some a => rfl
      have hsize := s.size_remove k
      have hlater := ih (s.remove k) hrest
      rw [hothers] at hlater
      rw [hsome, Bool.toNat_true] at hsize
      have hstep : s.removeIf p (k :: keys) = (s.remove k).removeIf p keys := by
        rw [removeIf, List.foldl_cons, if_pos hk]
        rfl
      rw [hstep, List.filter_cons, if_pos hk, List.length_cons]
      omega
    · have hstep : s.removeIf p (k :: keys) = s.removeIf p keys := by
        rw [removeIf, List.foldl_cons, if_neg hk]
        rfl
      rw [hstep, List.filter_cons, if_neg hk]
      exact ih s hrest

namespace Pool

namespace Ledger

/-- The seats of sockets that were disposed of. -/
def zombies (l : Ledger) (health : Health) : List Nat :=
  (List.range l.busy.slots.length).filter fun k => (l.busy.get? k).any fun
    | .connecting => false
    | .lent socket => health.disposed socket

/-- The seat that a call has after its visit. -/
def Entry.seats : Entry → List Nat
  | .ready key _ | .connect key _ => [key]
  | .wait _ _ => []

variable {l : Ledger} {health : Health} {now : Nat}

theorem reap_size : (l.reap health now).2.busy.size + (l.zombies health).length = l.busy.size :=
  l.busy.size_removeIf _ List.nodup_range

/-! ## Visits to a full ledger -/

-- A reap frees the seats of sockets that were disposed of, and nothing else when nothing is parked.
theorem reap_occupied_of_full (hparked : l.parked = []) :
    (l.reap health now).2.occupied + (l.zombies health).length = l.occupied := by
  have hsize : (l.reap health now).2.busy.size + (l.zombies health).length = l.busy.size :=
    reap_size
  have hnone : (l.reap health now).2.parked = [] := reap_parked hparked
  rw [occupied, occupied, hnone, hparked]
  omega

-- While there is a queue, seats are given out until all are taken.
theorem grantSeats_occupied (hle : l.occupied ≤ l.config.maxConnections)
    (hqueue : l.grantSeats.2.waiters ≠ []) :
    l.occupied + l.grantSeats.1.length = l.config.maxConnections := by
  have hgrants := l.grantSeats_spec
  have hfull := hgrants.spent.resolve_left hqueue
  have hocc := hgrants.occupied
  rcases hgrants.within with hnil | hwithin
  · rw [hnil, List.length_nil] at hocc ⊢
    omega
  · omega

theorem clean_of_full (hparked : l.parked = []) (hfull : l.occupied = l.config.maxConnections)
    (hqueue : (l.clean health now).2.waiters ≠ []) :
    (l.clean health now).1.send.length = (l.zombies health).length := by
  have hreap : (l.reap health now).2.occupied + (l.zombies health).length = l.occupied :=
    reap_occupied_of_full hparked
  have hle : (l.reap health now).2.occupied ≤ l.config.maxConnections := by omega
  have hgrants := grantSeats_occupied (l := (l.reap health now).2) hle hqueue
  show (l.reap health now).2.grantSeats.1.length = _
  have hconfig : (l.reap health now).2.config = l.config := rfl
  rw [hconfig] at hgrants
  omega

/-- **A call that visits a full ledger waits if there is nothing to reap.**  Otherwise it takes one
of the seats, and the others go to the front of the queue. -/
theorem enter_of_full (hparked : l.parked = []) (hfull : l.occupied = l.config.maxConnections)
    (hqueue : (l.enter health now).2.2.waiters ≠ []) :
    let seen := l.enter health now
    seen.1.seats.length = min 1 (l.zombies health).length ∧
      seen.2.1.send.length = (l.zombies health).length - 1 := by
  let r := (l.reap health now).2
  have hreap : r.occupied + (l.zombies health).length = l.occupied :=
    reap_occupied_of_full hparked
  have hsame : { l with parked := [] } = l := by rw [← hparked]
  have hroom : l.room health now = l.reap health now := by
    rw [room, if_neg]
    rw [hasCapacity_iff]
    omega
  revert hqueue
  unfold enter
  rw [hparked, List.dropWhile_nil]
  dsimp only
  rw [hsame, enterWithout_eq, hroom]
  dsimp only
  split
  · next hcapacity =>
    intro hqueue
    have hlimit : r.occupied < l.config.maxConnections := r.hasCapacity_iff.1 hcapacity
    have hseat : (r.seat .connecting).occupied = r.occupied + 1 := r.occupied_seat .connecting
    have hgrants : (r.seat .connecting).occupied + (r.seat .connecting).grantSeats.1.length =
        l.config.maxConnections := grantSeats_occupied (by rw [hseat]; exact hlimit) hqueue
    refine ⟨?_, ?_⟩
    · show 1 = _
      omega
    · show (r.seat .connecting).grantSeats.1.length = _
      omega
  · next hnone =>
    intro _
    rw [hasCapacity_iff, Nat.not_lt] at hnone
    have hlimit : l.config.maxConnections ≤ r.occupied := hnone
    have hnothing : (l.zombies health).length = 0 := by omega
    rw [hnothing]
    exact ⟨rfl, rfl⟩

end Ledger

namespace Traffic

variable {κ τ : Type} [Transport τ] [Connector κ τ]

/-- The seat that a call takes in its visit, without having waited for it. -/
def seats (x : Traffic κ τ) : Move τ → List Nat
  | .enter g =>
    if .arriving ∈ x.calls then
      (x.pool.ledger.enter (g.health x.pool) x.pool.clock).1.seats
    else []
  | _ => []

/-- The seats of sockets that were disposed of, as a call finds them in its visit. -/
def zombies (x : Traffic κ τ) : Move τ → List Nat
  | .enter g => if .arriving ∈ x.calls then x.pool.ledger.zombies (g.health x.pool) else []
  | _ => []

/-- A pool in use, whose limit was never changed. -/
structure Steady (x : Traffic κ τ) : Prop where
  sound : x.Sound
  prompt : x.Prompt
  within : x.occupied ≤ x.limit
  sorted : x.pool.ledger.waiters.Pairwise (· < ·)
  live : x.pool.shut = false

variable {x : Traffic κ τ}

omit [Connector κ τ] in
theorem Steady.full (h : x.Steady) {w : Nat} (hw : w ∈ x.pool.ledger.waiters) :
    x.pool.ledger.parked = [] ∧ x.pool.ledger.occupied = x.pool.ledger.config.maxConnections := by
  have hqueue : x.pool.ledger.waiters ≠ [] := List.ne_nil_of_mem hw
  obtain ⟨hparked, hfull⟩ := h.prompt.settled.resolve_left hqueue
  exact ⟨hparked, Nat.le_antisymm h.within hfull⟩

omit [Connector κ τ] in
theorem start_steady (connector : κ) (config : Config) :
    (start connector config : Traffic κ τ).Steady where
  sound := start_sound connector config
  prompt := start_prompt connector config
  within := by
    show 0 + (Slab.empty : Slab Seat).size ≤ _
    rw [Slab.size_empty]
    exact Nat.zero_le _
  sorted := .nil
  live := rfl

-- A pool that is in use was never shut down.
theorem live_of_run {moves : List (Move τ)} (h : (x.run moves).pool.shut = false) :
    x.pool.shut = false := by
  by_cases hshut : x.pool.shut = true
  · have hlater : (x.run moves).pool.shut = true :=
      run_induction (P := fun y => y.pool.shut = true) (fun _ m hy => shut_step hy m) hshut moves
    rw [hlater] at h
    cases h
  · exact Bool.not_eq_true _ ▸ hshut

omit [Transport τ] [Connector κ τ] in
theorem limits_head {R : Nat → Nat → Prop} {m : Move τ} {moves : List (Move τ)}
    (h : (limits x (m :: moves)).Pairwise R) : (limits x [m]).Pairwise R := by
  apply List.Pairwise.sublist ?_ h
  exact ((List.singleton_sublist.2 List.mem_cons_self).filterMap _).cons_cons _

theorem Steady.ordered (h : x.Steady) (m : Move τ) :
    ((x.sends m).map (·.1) ++ (x.step m).pool.ledger.waiters).Pairwise (· < ·) := by
  have hbefore : ([] ++ x.pool.ledger.waiters).Pairwise (· < ·) := h.sorted
  exact (step_ordered h.sound.orderly hbefore nofun m).1

theorem step_steady (h : x.Steady) {m : Move τ} (hlimits : (limits x [m]).Pairwise (· = ·))
    (hlive : (x.step m).pool.shut = false) : (x.step m).Steady where
  sound := step_sound h.sound m
  prompt := by
    have hlowered : (limits x [m]).Pairwise (· ≥ ·) := hlimits.imp (Nat.le_of_eq ·.symm)
    exact run_prompt h.sound (fun _ => h.prompt) [m] hlowered hlive
  within := run_within h.sound h.within [m] (hlimits.imp Nat.le_of_eq)
  sorted := (List.pairwise_append.1 (h.ordered m)).2.1
  live := hlive

theorem run_steady (h : x.Steady) {moves : List (Move τ)}
    (hlimits : (limits x moves).Pairwise (· = ·)) (hlive : (x.run moves).pool.shut = false) :
    (x.run moves).Steady := by
  induction moves generalizing x with
  | nil => exact h
  | cons m moves ih =>
    exact ih (step_steady h (limits_head hlimits) (live_of_run hlive)) (limits_cons hlimits).1 hlive

/-! ## Visits while there is a queue -/

theorem step_enter {g : Glimpse} (hc : .arriving ∈ x.calls) :
    let seen := x.pool.ledger.enter (g.health x.pool) x.pool.clock
    (x.step (.enter g)).pool.ledger = seen.2.2 ∧ x.sends (.enter g) = seen.2.1.send := by
  rw [sends, step, if_pos hc]
  dsimp only
  rw [proceed_pool]
  exact ⟨rfl, List.drop_left⟩

theorem sends_reap (x : Traffic κ τ) (g : Glimpse) :
    x.sends (.reap g) = (x.pool.ledger.clean (g.health x.pool) x.pool.clock).1.send := by
  rw [sends, step]
  exact List.drop_left

/-- **What a reap frees goes to the front of the queue.** -/
theorem sends_of_reap (h : x.Steady) {w : Nat} (hw : w ∈ x.pool.ledger.waiters) {g : Glimpse}
    (hlater : w ∈ (x.step (.reap g)).pool.ledger.waiters) :
    (x.sends (.reap g)).length = (x.pool.ledger.zombies (g.health x.pool)).length := by
  obtain ⟨hparked, hfull⟩ := h.full hw
  rw [sends_reap]
  exact Ledger.clean_of_full hparked hfull (List.ne_nil_of_mem hlater)

/-- **What a call frees in its visit goes to the front of the queue, but for the first seat**, which
is its own. -/
theorem sends_of_enter (h : x.Steady) {w : Nat} (hw : w ∈ x.pool.ledger.waiters) {g : Glimpse}
    (hc : .arriving ∈ x.calls) (hlater : w ∈ (x.step (.enter g)).pool.ledger.waiters) :
    (x.seats (.enter g)).length = min 1 (x.zombies (.enter g)).length ∧
      (x.sends (.enter g)).length = (x.zombies (.enter g)).length - 1 := by
  obtain ⟨hparked, hfull⟩ := h.full hw
  obtain ⟨hledger, hsends⟩ := step_enter (g := g) hc
  rw [hledger] at hlater
  rw [hsends, seats, zombies, if_pos hc, if_pos hc]
  exact Ledger.enter_of_full hparked hfull (List.ne_nil_of_mem hlater)

theorem seats_le_zombies (h : x.Steady) {w : Nat} (hw : w ∈ x.pool.ledger.waiters) {m : Move τ}
    (hlater : w ∈ (x.step m).pool.ledger.waiters) :
    (x.seats m).length ≤ (x.zombies m).length := by
  cases m with
  | enter g =>
    by_cases hc : .arriving ∈ x.calls
    · have hseats := (sends_of_enter h hw hc hlater).1
      omega
    · rw [seats, if_neg hc]
      exact Nat.zero_le _
  | _ => exact Nat.zero_le _

/-! ## Runs -/

-- A grant that is sent goes to a call that joined before those that are still in the queue.
theorem sends_lt (h : x.Steady) {w : Nat} {m : Move τ}
    (hlater : w ∈ (x.step m).pool.ledger.waiters) : ∀ d ∈ x.sends m, d.1 < w := by
  intro d hd
  exact (List.pairwise_append.1 (h.ordered m)).2.2 d.1 (List.mem_map_of_mem hd) w hlater

/-- **While a call is in the queue, grants go to those before it**, and only calls that reap take a
seat without having waited. -/
theorem run_overtaken (h : x.Steady) {w : Nat} (hw : w ∈ x.pool.ledger.waiters)
    {moves : List (Move τ)} (hlimits : (limits x moves).Pairwise (· = ·))
    (hlive : (x.run moves).pool.shut = false)
    (hlater : w ∈ (x.run moves).pool.ledger.waiters) :
    (∀ d ∈ x.sent moves, d.1 < w) ∧
      (x.gather seats moves).length ≤ (x.gather zombies moves).length := by
  induction moves generalizing x with
  | nil => exact ⟨nofun, Nat.le_refl _⟩
  | cons m moves ih =>
    have hold : w < (x.step m).pool.ledger.nextWaiter :=
      Nat.lt_of_lt_of_le (queued_lt h.sound.orderly hw) (nextWaiter_le x m)
    have hnow : w ∈ (x.step m).pool.ledger.waiters := queued_of_run hold hlater
    have hsteady : (x.step m).Steady := step_steady h (limits_head hlimits) (live_of_run hlive)
    obtain ⟨hsent, hseats⟩ := ih hsteady hnow (limits_cons hlimits).1 hlive hlater
    refine ⟨fun d hd => ?_, ?_⟩
    · rcases List.mem_append.1 hd with hd | hd
      · exact sends_lt h hnow d hd
      · exact hsent d hd
    · have hone := seats_le_zombies h hw hnow
      rw [gather, gather, List.length_append, List.length_append]
      omega

/-- **A call in the queue is overtaken by calls that reap, and by no others.**  Whatever moves are
made while the limit stays as it is and the pool is in use: as long as a call is in the queue, all
grants go to calls that joined before it, and no more seats are taken by calls that have not waited
than these find of sockets that were disposed of.

What a reap frees goes to the front of the queue.  So does what a call frees in its visit, but for
the first seat, which it takes for itself; it waits if there is none. -/
theorem overtaken_by_reapers_only (connector : κ) (config : Config) (moves : List (Move τ))
    (hlimits : (config.maxConnections :: moves.filterMap Move.limit?).Pairwise (· = ·)) :
    let x := (start connector config : Traffic κ τ).run moves
    x.pool.shut = false → ∀ w ∈ x.pool.ledger.waiters,
      (∀ more, (limits x more).Pairwise (· = ·) → (x.run more).pool.shut = false →
        w ∈ (x.run more).pool.ledger.waiters →
          (∀ d ∈ x.sent more, d.1 < w) ∧
            (x.gather seats more).length ≤ (x.gather zombies more).length) ∧
      (∀ g, w ∈ (x.step (.reap g)).pool.ledger.waiters →
        (x.sends (.reap g)).length = (x.pool.ledger.zombies (g.health x.pool)).length) ∧
      (∀ g, .arriving ∈ x.calls → w ∈ (x.step (.enter g)).pool.ledger.waiters →
        (x.seats (.enter g)).length = min 1 (x.zombies (.enter g)).length ∧
          (x.sends (.enter g)).length = (x.zombies (.enter g)).length - 1) := by
  intro x hlive w hw
  have h : x.Steady := run_steady (start_steady connector config) hlimits hlive
  refine ⟨fun more hmore hlater hqueued => ?_, fun g hlater => ?_, fun g hc hlater => ?_⟩
  · exact run_overtaken h hw hmore hlater hqueued
  · exact sends_of_reap h hw hlater
  · exact sends_of_enter h hw hc hlater

/-- Two sockets are lent, and two calls wait.  Both sockets are disposed of, and a third call comes:
it takes one of their seats, and the other one goes to the first call in the queue. -/
theorem overtaken_by_reapers_only_of_two :
    let here : Glimpse := { connected := fun _ => true }
    let limit : Config := { maxConnections := 2 }
    let lend (key : Nat) : List (Move Link) :=
      [.arrive, .enter here, .connect key limit.connectTimeout]
    let moves : List (Move Link) := lend 0 ++ lend 1 ++ [.arrive, .enter here, .arrive,
      .enter here, .use ⟨0, 1⟩ id true, .use ⟨1, 2⟩ id true, .arrive]
    let x := (start ({ endpoint := "mock:0" } : Dialer) limit).run moves
    let y := x.step (.enter here)
    x.pool.shut = false ∧ x.pool.ledger.waiters = [0, 1] ∧ .arriving ∈ x.calls ∧
      y.pool.ledger.waiters = [1] ∧ x.zombies (.enter here) = [0, 1] ∧
      (x.seats (.enter here)).length = min 1 [0, 1].length ∧
      (x.sends (.enter here)).length = [0, 1].length - 1 ∧
      (∀ d ∈ x.sent [.enter here], d.1 < 1) := by
  intro here limit lend moves x y
  have hlimits : (limit.maxConnections :: moves.filterMap Move.limit?).Pairwise (· = ·) := by decide
  have hlive : x.pool.shut = false := by decide +kernel
  have hqueue : x.pool.ledger.waiters = [0, 1] := by decide +kernel
  have harriving : .arriving ∈ x.calls := by decide +kernel
  have hlater : y.pool.ledger.waiters = [1] := by decide +kernel
  have hopen : y.pool.shut = false := by decide +kernel
  have hzombies : x.zombies (.enter here) = [0, 1] := by decide +kernel
  have hone : 1 ∈ x.pool.ledger.waiters := by simp [hqueue]
  have hleft : 1 ∈ y.pool.ledger.waiters := by simp [hlater]
  -- from here on it does not matter which moves they were
  clear_value moves limit
  obtain ⟨hruns, -, henter⟩ := overtaken_by_reapers_only _ limit moves hlimits hlive 1 hone
  have hsent := (hruns [.enter here] (List.pairwise_singleton ..) hopen hleft).1
  have hboth := henter here harriving hleft
  rw [hzombies] at hboth
  exact ⟨hlive, hqueue, harriving, hlater, hzombies, hboth.1, hboth.2, hsent⟩

/-- The only socket is lent, and a call waits.  The socket is disposed of, and another call comes:
it takes the seat, and the one in the queue goes on waiting. -/
theorem overtaken_of_discarded :
    let here : Glimpse := { connected := fun _ => true }
    let limit : Config := { maxConnections := 1 }
    let moves : List (Move Link) :=
      [.arrive, .enter here, .connect 0 limit.connectTimeout, .arrive, .enter here]
    let more : List (Move Link) := [.use ⟨0, 1⟩ id true, .arrive, .enter here]
    let x := (start ({ endpoint := "mock:0" } : Dialer) limit).run moves
    (moves ++ more).filterMap Move.limit? = [] ∧ (x.run more).pool.shut = false ∧
      0 ∈ x.pool.ledger.waiters ∧
      ¬ (0 ∈ (x.run more).pool.ledger.waiters → x.gather seats more = []) := by
  intro here limit moves more x
  have hqueued : 0 ∈ x.pool.ledger.waiters := by decide +kernel
  have hlater : 0 ∈ (x.run more).pool.ledger.waiters := by decide +kernel
  have hseats : x.gather seats more = [0] := by decide +kernel
  refine ⟨rfl, by decide +kernel, hqueued, fun h => ?_⟩
  rw [hseats] at h
  exact absurd (h hlater) (List.cons_ne_nil _ _)

end Traffic

end Pool

end LineFrame
