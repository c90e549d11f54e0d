import Mathlib.Data.List.Induction
import LineFrame.Proofs.Pool.Picks
import LineFrame.Proofs.Pool.Reuse

/-!
# When the limit is raised

A higher limit makes room, but nothing is passed on when it is set: the calls in the queue go on
waiting though there are seats for them (`stalled_of_raised`).  The next visit that passes seats on
gives the queue what there is, and a call that makes its visit before takes the first seat.  This is
the only way in which a call can be left waiting for a seat that is free (`stalled_since_raised`).
-/

namespace LineFrame

namespace Pool

namespace Ledger

variable {l : Ledger} {health : Health} {now : Nat}

-- With nothing parked and a seat free, a call takes it.
theorem enter_seats_of_room (hparked : l.parked = [])
    (hroom : l.occupied < l.config.maxConnections) :
    (l.enter health now).1.seats.length = 1 := by
  have hbare : { l with parked := [] } = l := by rw [← hparked]
  have hcapacity : l.hasCapacity = true := l.hasCapacity_iff.2 hroom
  have hcleared : l.cleared health now = l := by
    rw [cleared, hbare, room, if_pos hcapacity]
  have hstale : ∀ d ∈ l.parked, l.isStale health now d = true := by
    rw [hparked]
    exact List.forall_mem_nil _
  rw [enter_of_none hstale, hcleared]
  dsimp only
  rw [if_pos hcapacity]
  rfl

end Ledger

namespace Traffic

variable {κ τ : Type}

/-- A call is in the queue though there is room. -/
def Stalled (x : Traffic κ τ) : Prop := x.pool.ledger.waiters ≠ [] ∧ x.occupied < x.limit

instance (x : Traffic κ τ) : Decidable x.Stalled := inferInstanceAs (Decidable (_ ∧ _))

variable [Transport τ] [Connector κ τ]

/-- The move is a visit that passes seats on: of a call, after a connect that failed, of a socket
that does not work any more, or of the reaper. -/
def PassesOn (x : Traffic κ τ) : Move τ → Prop
  | .enter _ => .arriving ∈ x.calls
  | .connect key timeout =>
    .connecting key timeout ∈ x.calls ∧
      ∃ e, (Connector.connect timeout x.pool.connector).1 = (.error e : Except Error τ)
  | .reclaim h connected =>
    h ∈ x.handles ∧ (x.pool.health.disposed h.socket = true ∨ connected = false)
  | .reap _ => True
  | _ => False

variable {x : Traffic κ τ}

/-! ## Moves -/

omit [Transport τ] [Connector κ τ] in
theorem settled_iff_not_stalled (h : x.pool.ledger.Idle) :
    x.pool.ledger.Settled ↔ ¬ x.Stalled := by
  rw [Stalled, not_and_or, not_not, Nat.not_lt]
  constructor
  · exact Or.imp_right And.right
  · rintro (hwaiters | hfull)
    · exact .inl hwaiters
    · exact h.imp_right (⟨·, hfull⟩)

/-- **Only a higher limit leaves a call waiting for a free seat.** -/
theorem raised_of_stalled (hidle : x.pool.ledger.Idle) (hshut : x.pool.shut = false)
    (hx : ¬ x.Stalled) {m : Move τ} (hm : (x.step m).Stalled) :
    ∃ c, m = .configure c ∧ x.limit < c.maxConnections := by
  by_contra hno
  have hlowered : ∀ n, m.limit? = some n → n ≤ x.limit := by
    intro n hn
    cases m with
    | configure c =>
      rw [← Option.some.inj hn]
      exact Nat.not_lt.1 fun hraised => hno ⟨c, rfl, hraised⟩
    | _ => cases hn
  have hsettled := step_settled ((settled_iff_not_stalled hidle).2 hx) hshut m hlowered
  exact (settled_iff_not_stalled (step_idle hidle m)).1 hsettled hm

/-- **A visit that passes seats on leaves none to those in the queue.** -/
theorem step_settled_of_passesOn (hidle : x.pool.ledger.Idle) (hshut : x.pool.shut = false)
    {m : Move τ} (hm : x.PassesOn m) : (x.step m).pool.ledger.Settled := by
  cases m with
  | enter g =>
    rw [(step_enter hm).1]
    exact Ledger.enter_settled hidle
  | connect key timeout =>
    obtain ⟨hc, e, he⟩ := hm
    have hconnect : Connector.connect timeout x.pool.connector =
        (.error e, (Connector.connect (τ := τ) timeout x.pool.connector).2) := Prod.ext he rfl
    rw [step]
    dsimp only
    rw [if_pos hc, Pool.connect, hconnect]
    exact Ledger.abandon_settled hidle key
  | reclaim h connected =>
    obtain ⟨hh, hfailed⟩ := hm
    rw [step, if_pos hh, hshut]
    apply Ledger.reclaim_settled_of_failed hidle
    rcases hfailed with hdisposed | hgone
    · rw [hdisposed]
      rfl
    · rw [hgone]
      exact Bool.or_true _
  | reap g => exact Ledger.clean_settled hidle
  | _ => exact hm.elim

theorem not_stalled_of_passesOn (hidle : x.pool.ledger.Idle) (hshut : x.pool.shut = false)
    {m : Move τ} (hm : x.PassesOn m) : ¬ (x.step m).Stalled :=
  (settled_iff_not_stalled (step_idle hidle m)).1 (step_settled_of_passesOn hidle hshut hm)

-- Such a visit gives out what there is, and no more.
theorem spent_of_passesOn (hbooked : x.Booked) (hidle : x.pool.ledger.Idle)
    (hshut : x.pool.shut = false) (hx : x.Stalled) {m : Move τ} (hm : x.PassesOn m) :
    (x.step m).pool.ledger.waiters = [] ∨ (x.step m).occupied = x.limit := by
  have hkept : m.limit? = none := by
    cases m with
    | configure c => exact hm.elim
    | _ => rfl
  have hlimit : (x.step m).limit = x.limit := by
    rw [step_limit, hkept]
    rfl
  have hwithin := step_within hbooked m hkept
  have hroom := hx.2
  refine (step_settled_of_passesOn hidle hshut hm).imp_right fun hfull => ?_
  have hfull : (x.step m).limit ≤ (x.step m).occupied := hfull.2
  omega

theorem configure_stalled_iff (c : Config) :
    (x.step (.configure c)).Stalled ↔
      x.pool.ledger.waiters ≠ [] ∧ x.occupied < c.maxConnections := Iff.rfl

/-! ## Runs -/

theorem run_append (x : Traffic κ τ) (moves more : List (Move τ)) :
    x.run (moves ++ more) = (x.run moves).run more := List.foldl_append

/-- When a call is in the queue though there is room, the limit was raised, and it has been so since
then. -/
theorem run_stalled (hidle : x.pool.ledger.Idle) (hx : ¬ x.Stalled) {moves : List (Move τ)}
    (hshut : (x.run moves).pool.shut = false) (hstalled : (x.run moves).Stalled) :
    ∃ before c after, moves = before ++ .configure c :: after ∧ ¬ (x.run before).Stalled ∧
      (x.run before).limit < c.maxConnections ∧
      ∀ part, part <+: after → (x.run (before ++ .configure c :: part)).Stalled := by
  -- on the last move, so that the limit that is found was raised last
  induction moves using List.reverseRecOn with
  | nil => exact absurd hstalled hx
  | append_singleton init m ih =>
    let y := x.run init
    have hy : x.run (init ++ [m]) = y.step m := x.run_append init [m]
    have hinit : y.pool.ledger.Idle :=
      run_induction (P := fun z => z.pool.ledger.Idle) (fun _ n hz => step_idle hz n) hidle init
    have hopen : y.pool.shut = false := by
      rw [run_append] at hshut
      exact live_of_run hshut
    by_cases hwas : y.Stalled
    · obtain ⟨before, c, after, hmoves, hbefore, hraised, hparts⟩ := ih hopen hwas
      have hall : init ++ [m] = before ++ .configure c :: (after ++ [m]) := by
        rw [hmoves, List.append_assoc, List.cons_append]
      refine ⟨before, c, after ++ [m], hall, hbefore, hraised, fun part hpart => ?_⟩
      rcases List.prefix_concat_iff.1 hpart with hwhole | hpart
      · rwa [hwhole, ← hall]
      · exact hparts part hpart
    · rw [hy] at hstalled
      obtain ⟨c, rfl, hraised⟩ := raised_of_stalled hinit hopen hwas hstalled
      refine ⟨init, c, [], rfl, hwas, hraised, fun part hpart => ?_⟩
      rw [List.prefix_nil.1 hpart, hy]
      exact hstalled

/-- **Room that a higher limit makes is left until the next visit.**  Whatever moves are made, until
the pool is shut down: setting a limit sends nothing and leaves the queue as it is, so that calls
wait though there is room just if the new limit is above what is in use.  No other move brings this
about: when a call is in the queue though there is room, the limit was raised, and since then it has
been so, nothing was parked, and no visit has passed seats on.

A visit that passes seats on ends it: grants go to the front of the queue, until it is empty or all
places are in use.  A call that makes its visit before takes one of the seats for itself. -/
theorem stalled_since_raised (connector : κ) (config : Config) (moves : List (Move τ)) :
    let first : Traffic κ τ := start connector config
    let x := first.run moves
    x.pool.shut = false →
      (∀ c, x.sends (.configure c) = [] ∧
        (x.step (.configure c)).pool.ledger.waiters = x.pool.ledger.waiters ∧
        ((x.step (.configure c)).Stalled ↔
          x.pool.ledger.waiters ≠ [] ∧ x.occupied < c.maxConnections)) ∧
      (x.Stalled → ∃ before c after, moves = before ++ .configure c :: after ∧
        ¬ (first.run before).Stalled ∧ (first.run before).limit < c.maxConnections ∧
        (∀ part, part <+: after →
          let y := first.run (before ++ .configure c :: part)
          y.Stalled ∧ y.pool.ledger.parked = []) ∧
        ∀ part m, part ++ [m] <+: after →
          ¬ (first.run (before ++ .configure c :: part)).PassesOn m) ∧
      (∀ m, x.PassesOn m → (x.sends m).map (·.1) <+: x.pool.ledger.waiters ∧
        ¬ (x.step m).Stalled ∧
        (x.Stalled → (x.step m).pool.ledger.waiters = [] ∨ (x.step m).occupied = x.limit)) ∧
      (∀ g, x.Stalled → .arriving ∈ x.calls → (x.seats (.enter g)).length = 1) := by
  intro first x hlive
  have hidle : ∀ all, (first.run all).pool.ledger.Idle :=
    run_induction (P := fun y => y.pool.ledger.Idle) (fun _ m hy => step_idle hy m) (.inl rfl)
  have hsound : x.Sound := run_sound (start_sound connector config) moves
  refine ⟨fun c => ?_, fun hstalled => ?_, fun m hm => ?_, fun g hstalled hc => ?_⟩
  · refine ⟨?_, rfl, configure_stalled_iff c⟩
    show x.pool.mail.drop x.pool.mail.length = []
    exact List.drop_length
  · have hstart : ¬ first.Stalled := fun h => h.1 rfl
    obtain ⟨before, c, after, hmoves, hbefore, hraised, hparts⟩ :=
      run_stalled (.inl rfl) hstart hlive hstalled
    refine ⟨before, c, after, hmoves, hbefore, hraised, fun part hpart => ?_, ?_⟩
    · have hnow := hparts part hpart
      exact ⟨hnow, (hidle _).resolve_left hnow.1⟩
    · intro part m hpart hm
      obtain ⟨rest, hrest⟩ := hpart
      have hall : moves = (before ++ .configure c :: part) ++ (m :: rest) := by
        rw [hmoves, ← hrest]
        simp
      have hlater : ((first.run (before ++ .configure c :: part)).run (m :: rest)).pool.shut =
          false := by
        rwa [← run_append, ← hall]
      have hnext : (first.run (before ++ .configure c :: (part ++ [m]))).Stalled :=
        hparts _ ⟨rest, hrest⟩
      rw [← List.cons_append, ← List.append_assoc, run_append] at hnext
      exact not_stalled_of_passesOn (hidle _) (live_of_run hlater) hm hnext
  · exact ⟨sends_front x m, not_stalled_of_passesOn (hidle moves) hlive hm,
      fun hstalled => spent_of_passesOn hsound.booked (hidle moves) hlive hstalled hm⟩
  · rw [seats, if_pos hc]
    exact Ledger.enter_seats_of_room ((hidle moves).resolve_left hstalled.1) hstalled.2

/-- One socket is lent, and a call waits.  The limit is raised, and the call goes on waiting, until
the reaper makes its visit. -/
theorem stalled_since_raised_of_two :
    let here : Glimpse := { connected := fun _ => true }
    let limit (n : Nat) : Config := { maxConnections := n }
    let moves : List (Move Link) := [.arrive, .enter here, .connect 0 (limit 1).connectTimeout,
      .arrive, .enter here, .configure (limit 2)]
    let dialer : Dialer := { endpoint := "mock:0" }
    let x := (start dialer (limit 1)).run moves
    x.pool.shut = false ∧ x.pool.ledger.waiters = [0] ∧ x.Stalled ∧ x.PassesOn (.reap here) ∧
      (x.sends (.reap here)).map (·.1) <+: x.pool.ledger.waiters ∧
      ¬ (x.step (.reap here)).Stalled ∧
      ((x.step (.reap here)).pool.ledger.waiters = [] ∨
        (x.step (.reap here)).occupied = x.limit) := by
  intro here limit moves dialer x
  have hlive : x.pool.shut = false := by decide +kernel
  have hqueue : x.pool.ledger.waiters = [0] := by decide +kernel
  have hstalled : x.Stalled := by decide +kernel
  have hreap : x.PassesOn (.reap here) := trivial
  -- from here on it does not matter which moves they were
  clear_value moves
  obtain ⟨-, -, hpasses, -⟩ := stalled_since_raised dialer (limit 1) moves hlive
  obtain ⟨hfront, hended, hspent⟩ := hpasses (.reap here) hreap
  exact ⟨hlive, hqueue, hstalled, hreap, hfront, hended, hspent hstalled⟩

/-- One socket is lent, and a call waits.  The limit is raised by one, and the call still waits
though there is a seat for it. -/
theorem stalled_of_raised :
    let here : Glimpse := { connected := fun _ => true }
    let limit (n : Nat) : Config := { maxConnections := n }
    let moves : List (Move Link) := [.arrive, .enter here, .connect 0 (limit 1).connectTimeout,
      .arrive, .enter here]
    let x := (start ({ endpoint := "mock:0" } : Dialer) (limit 1)).run moves
    let y := x.step (.configure (limit 2))
    x.pool.shut = false ∧
      ¬ (y.pool.ledger.waiters = [] ∨ (limit 2).maxConnections ≤ y.occupied) := by
  decide +kernel

end Traffic

end Pool

end LineFrame
