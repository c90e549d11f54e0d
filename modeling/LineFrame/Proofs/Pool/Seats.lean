import LineFrame.Pool.Dialer
import LineFrame.Proofs.Pool.Custody

/-!
# Whose the seats are

Keys are used again, so that a handle may outlive its seat: once its socket was disposed of, the
seat can be freed and its key given to somebody else.  Still, every seat has one owner who knows
its key, and nobody but the owner changes it (`seats_owned`).
-/

namespace LineFrame

namespace Pool

theorem zombie_of_seen {κ τ : Type} [Transport τ] {g : Glimpse} {p : Pool κ τ} {e : Seat}
    (h : e.IsZombie (g.health p)) : e.IsZombie p.health := by
  cases e with
  | connecting => exact h
  | lent s => exact seen_disposed g p s h

namespace Ledger.Books

variable {l : Ledger} {d : Nat → Bool} {leases : List Handle} {dials loose : List Nat} {n : Nat}

theorem count_dial (h : l.Books d leases dials loose n) {k : Nat}
    (hk : l.busy.get? k = some .connecting) : dials.count k = 1 := by
  rw [h.connecting k, if_pos hk]

-- A lent seat is that of the only lease of its socket.
theorem filter_leases (h : l.Books d leases dials loose n) {k s : Nat}
    (hk : l.busy.get? k = some (.lent s)) :
    leases.filter (·.socket == s) = [{ key := k, socket := s }] := by
  have hmem := h.lent k s hk
  have hnodup := h.nodup_leases
  clear h
  induction leases with
  | nil => cases hmem
  | cons lease leases ih =>
    rw [List.map_cons, List.nodup_cons] at hnodup
    rcases List.mem_cons.1 hmem with rfl | hmem
    · have hothers : leases.filter (·.socket == s) = [] := by
        rw [List.filter_eq_nil_iff]
        intro other ho heq
        have hsame : other.socket = s := by simpa using heq
        have hsocket : other.socket ∈ leases.map (·.socket) := List.mem_map_of_mem ho
        exact hnodup.1 (hsame ▸ hsocket)
      simp [hothers]
    · have hne : lease.socket ≠ s := by
        intro heq
        have hsocket : s ∈ leases.map (·.socket) := List.mem_map_of_mem hmem
        exact hnodup.1 (heq ▸ hsocket)
      rw [List.filter_cons_of_neg (by simpa using hne)]
      exact ih hmem hnodup.2

end Ledger.Books

namespace Traffic

variable {κ τ : Type} [Transport τ] {x : Traffic κ τ} {k : Nat} {e : Seat}

/-- The moves that may put an end to a seat: those of its owner, and those that find its socket
disposed of. -/
def MayEnd (x : Traffic κ τ) (k : Nat) (e : Seat) : Move τ → Prop
  | .connect key timeout => .connecting key timeout ∈ x.calls ∧ k = key ∧ e = .connecting
  | .reclaim h _ => h ∈ x.handles ∧ k = h.key ∧ e = .lent h.socket
  | .enter _ | .reap _ => e.IsZombie x.pool.health
  | _ => False

-- The seat that a connect was made for is its own.
theorem connect_owns (h : x.Booked) {key : Nat} {timeout : Duration}
    (hc : .connecting key timeout ∈ x.calls) (hk : x.pool.ledger.busy.get? k = some e) :
    k ≠ key ∨ x.MayEnd k e (.connect key timeout) := by
  have hkey : x.pool.ledger.busy.get? key = some .connecting := (erase_booked h hc).get?_of_dial
  by_cases hown : k = key
  · rw [hown, hkey] at hk
    exact .inr ⟨hc, hown, (Option.some.inj hk).symm⟩
  · exact .inl hown

variable [Connector κ τ]

/-- **A seat stays as it is until its owner, or a reaper, puts an end to it.** -/
theorem step_entry (h : x.Booked) (m : Move τ) (hk : x.pool.ledger.busy.get? k = some e) :
    (x.step m).pool.ledger.busy.get? k = some e ∨ x.MayEnd k e m := by
  have heffect := step_effect x m
  generalize (x.step m).pool = p at heffect ⊢
  cases heffect with
  | enter hc => exact (Ledger.enter_entry hk).imp_right zombie_of_seen
  | fill transport connector hc =>
    exact (connect_owns h hc hk).imp_left (Ledger.fill_entry hk)
  | abandon connector hc =>
    exact (connect_owns h hc hk).imp_left (Ledger.abandon_entry hk)
  | use hh =>
    rw [ledger_update]
    exact .inl hk
  | reclaim hdisposed hh => exact (Ledger.reclaim_entry hk).imp_right fun hown => ⟨hh, hown⟩
  | reap => exact (Ledger.clean_entry hk).imp_right zombie_of_seen
  | close hid =>
    rw [ledger_close]
    exact .inl hk
  | idle | take | leave | configure | shut | drain | pass => exact .inl hk

/-- **Every seat has one owner, and is safe from everybody else.**  A seat taken for a connect
belongs to one connect in progress or one grant of a seat on its way, and each of these has its
seat.  A lent seat belongs to one handle or one grant of a socket on its way, the only one of that
socket, which carries the key of the seat; and each of these still has its seat unless its socket
was disposed of.  No move changes a seat but the connect that it was taken for, the drop of the
handle that it is lent to, or a visit that finds its socket disposed of. -/
theorem seats_owned (connector : κ) (config : Config) (moves : List (Move τ)) :
    let x := (start connector config : Traffic κ τ).run moves
    let busy := x.pool.ledger.busy
    (∀ k, busy.get? k = some .connecting → x.dials.count k = 1) ∧
      (∀ k ∈ x.dials, busy.get? k = some .connecting) ∧
      (∀ k s, busy.get? k = some (.lent s) →
        x.leases.filter (·.socket == s) = [{ key := k, socket := s }]) ∧
      (∀ h ∈ x.leases, x.pool.isDisposed h = false →
        busy.get? h.key = some (.lent h.socket)) ∧
      (∀ m k e, busy.get? k = some e →
        (x.step m).pool.ledger.busy.get? k = some e ∨ x.MayEnd k e m) := by
  intro x busy
  have h : x.Booked := (run_sound (start_sound connector config) moves).booked
  refine ⟨fun k hk => ?_, fun k hk => ?_, fun k s hk => ?_, fun lease hl => ?_, fun m k e hk => ?_⟩
  · exact h.count_dial hk
  · exact h.get?_of_mem_dials hk
  · exact h.filter_leases hk
  · exact h.held lease hl
  · exact step_entry h m hk

/-- The socket of a handle fails, its seat is freed, and the key is given to another handle before
the first is dropped. -/
theorem seats_owned_of_reused :
    let here : Glimpse := { connected := fun _ => true }
    let lend : List (Move Link) := [.arrive, .enter here, .connect 0 (.ofSecs 10)]
    let moves := lend ++ [.use ⟨0, 1⟩ id true, .reap here] ++ lend
    let dialer : Dialer := { endpoint := "mock:0" }
    let x := (start dialer {}).run moves
    x.handles = [⟨0, 2⟩, ⟨0, 1⟩] ∧ x.pool.ledger.busy.get? 0 = some (.lent 2) ∧
      (x.step (.reclaim ⟨0, 1⟩ true)).pool.ledger.busy.get? 0 = some (.lent 2) := by
  intro here lend moves dialer
  dsimp only
  have hseat : ((start dialer {}).run moves).pool.ledger.busy.get? 0 = some (.lent 2) := by
    decide +kernel
  obtain ⟨-, -, -, -, hkept⟩ := seats_owned dialer {} moves
  refine ⟨by decide +kernel, hseat, ?_⟩
  refine (hkept (.reclaim ⟨0, 1⟩ true) 0 (.lent 2) hseat).resolve_right fun hend => ?_
  cases hend.2.2

end Traffic

end Pool

end LineFrame
