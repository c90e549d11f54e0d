import LineFrame.Proofs.Pool.Custody

/-!
# What a reap takes out

A socket is parked at the time at which it comes back, on top of those parked before, and every other
visit only takes parked sockets out.  So the parked sockets are always in the order in which they
were parked (`run_dated`), and those that were idle for too long are the ones before the first that
was not.  This is why a reap, which stops looking at that one, takes out exactly the sockets that are
overdue (`reap_reaps`, `reaps_overdue`).
-/

namespace LineFrame

namespace Pool

/-! ## Lists whose hits come first -/

section

variable {α : Type} {p : α → Bool} {xs : List α}

theorem takeWhile_eq_filter (h : xs.Pairwise fun a b => p b = true → p a = true) :
    xs.takeWhile p = xs.filter p := by
  induction xs with
  | nil => rfl
  | cons x xs ih =>
    obtain ⟨hx, hxs⟩ := List.pairwise_cons.1 h
    by_cases hp : p x = true
    · rw [List.takeWhile_cons_of_pos hp, List.filter_cons_of_pos hp, ih hxs]
    · rw [List.takeWhile_cons_of_neg hp, List.filter_cons_of_neg hp, eq_comm,
        List.filter_eq_nil_iff]
      exact fun y hy hpy => hp (hx y hy hpy)

theorem dropWhile_eq_filter (h : xs.Pairwise fun a b => p b = true → p a = true) :
    xs.dropWhile p = xs.filter (! p ·) := by
  induction xs with
  | nil => rfl
  | cons x xs ih =>
    obtain ⟨hx, hxs⟩ := List.pairwise_cons.1 h
    by_cases hp : p x = true
    · rw [List.dropWhile_cons_of_pos hp, List.filter_cons_of_neg (by simp [hp]), ih hxs]
    · have hall : ∀ y ∈ x :: xs, (! p y) = true := by
        intro y hy
        rcases List.mem_cons.1 hy with rfl | hy
        · simpa using hp
        · simpa using fun hpy => hp (hx y hy hpy)
      rw [List.dropWhile_cons_of_neg hp, List.filter_eq_self.2 hall]

end

namespace Ledger

variable {l l' : Ledger} {health : Health} {now : Nat}

/-! ## The order of the parked sockets -/

/-- The parked sockets are in the order in which they were parked, and none was parked later than
now. -/
structure Dated (l : Ledger) (now : Nat) : Prop where
  oldest_first : l.parked.reverse.Pairwise fun a b => a.since ≤ b.since
  past : ∀ d ∈ l.parked, d.since ≤ now

theorem Dated.sublist (h : l.Dated now) (hsub : l'.parked.Sublist l.parked) : l'.Dated now :=
  ⟨h.oldest_first.sublist hsub.reverse, fun d hd => h.past d (hsub.subset hd)⟩

theorem Dated.later (h : l.Dated now) {later : Nat} (hlater : now ≤ later) : l.Dated later :=
  ⟨h.oldest_first, fun d hd => Nat.le_trans (h.past d hd) hlater⟩

theorem Dated.park (h : l.Dated now) (s : Nat) :
    { l with parked := ⟨s, now⟩ :: l.parked }.Dated now where
  oldest_first := by
    dsimp only
    rw [List.reverse_cons, List.pairwise_append]
    refine ⟨h.oldest_first, List.pairwise_singleton .., fun a ha b hb => ?_⟩
    rw [List.mem_singleton.1 hb]
    exact h.past a (List.mem_reverse.1 ha)
  past := by
    intro d hd
    rcases List.mem_cons.1 hd with rfl | hd
    · exact Nat.le_refl _
    · exact h.past d hd

/-! ## Visits -/

variable (l health now) in
theorem reap_sublist : (l.reap health now).2.parked.Sublist l.parked := by
  let old := l.parked.reverse.dropWhile (l.isExpired now)
  have hold : old.Sublist l.parked.reverse := List.dropWhile_sublist _
  have hleft : (old.filter (not ∘ (health.disposed ·.socket))).Sublist l.parked.reverse :=
    List.filter_sublist.trans hold
  simp only [reap, List.partition_eq_filter_filter]
  simpa using hleft.reverse

variable (l health now) in
theorem enter_sublist : (l.enter health now).2.2.parked.Sublist l.parked := by
  unfold enter
  split
  · next p rest hfound =>
    have hdrop : (p :: rest).Sublist l.parked := hfound ▸ List.dropWhile_sublist _
    exact (List.sublist_cons_self p rest).trans hdrop
  · have hnone : ({ l with parked := [] }.enterWithout health now).2.2.parked = [] :=
      enterWithout_parked rfl
    show ({ l with parked := [] }.enterWithout health now).2.2.parked.Sublist _
    rw [hnone]
    exact List.nil_sublist _

variable (l health now) in
theorem clean_sublist : (l.clean health now).2.parked.Sublist l.parked := by
  have hparked : (l.clean health now).2.parked = (l.reap health now).2.parked :=
    (grantSeats_spec _).parked
  rw [hparked]
  exact l.reap_sublist health now

-- The only visit that parks a socket does so now.
theorem Dated.reclaim (h : l.Dated now) (shut : Bool) (key s : Nat) :
    (l.reclaim shut health now key s).2.2.Dated now := by
  have hrelease : (l.release key s).Dated now := h.sublist (l.release_parked key s ▸ .refl _)
  unfold Ledger.reclaim
  dsimp only
  split
  · exact hrelease
  split
  · have hparked := (l.release key s).grantSeats_spec.parked
    apply hrelease.sublist
    show (l.release key s).grantSeats.2.parked.Sublist _
    exact hparked ▸ .refl _
  split
  · exact hrelease.sublist (.refl _)
  split
  · exact hrelease.park s
  · exact hrelease

/-! ## What is overdue -/

/-- A parked socket that was idle for too long, or that was disposed of. -/
def Overdue (l : Ledger) (health : Health) (now : Nat) (d : Parked) : Prop :=
  l.config.idleTimeout.nanos ≤ now - d.since ∨ health.disposed d.socket = true

instance (l : Ledger) (health : Health) (now : Nat) (d : Parked) :
    Decidable (l.Overdue health now d) :=
  inferInstanceAs (Decidable (_ ∨ _))

theorem decide_overdue (d : Parked) :
    decide (l.Overdue health now d) = (l.isExpired now d || health.disposed d.socket) := by
  have hor : decide (l.Overdue health now d) = (decide (_ ≤ _) || decide (_ = true)) :=
    Bool.decide_or ..
  rw [hor, Bool.decide_eq_true, isExpired]

/-- What a reap takes out, to be closed, and what it leaves. -/
structure Reaps (l : Ledger) (health : Health) (now : Nat) (out : List Nat) (l' : Ledger) :
    Prop where
  /-- The parked sockets that are not overdue stay, in their order, and no others. -/
  parked : l'.parked = l.parked.filter (¬ l.Overdue health now ·)
  /-- Those that are overdue are taken out, each once, and no others. -/
  overdue : out.Perm ((l.parked.filter (l.Overdue health now ·)).map (·.socket))
  /-- The seats of sockets that were disposed of are freed, and no others. -/
  busy : ∀ k e, l'.busy.get? k = some e ↔ l.busy.get? k = some e ∧ ¬ e.IsZombie health
  waiters : l'.waiters = l.waiters
  config : l'.config = l.config

-- A socket that was parked before one that was idle for too long was so as well.
theorem Dated.expired_first {clock : Nat} (h : l.Dated clock) :
    l.parked.reverse.Pairwise fun a b => l.isExpired now b = true → l.isExpired now a = true := by
  refine h.oldest_first.imp fun {a b} hab hb => ?_
  rw [isExpired, decide_eq_true_iff] at hb ⊢
  omega

theorem reap_busy (k : Nat) (e : Seat) :
    (l.reap health now).2.busy.get? k = some e ↔
      l.busy.get? k = some e ∧ ¬ e.IsZombie health := by
  unfold reap
  dsimp only
  rw [Slab.get?_removeAll, Option.filter_eq_some_iff]
  cases e with
  | connecting => simp [Seat.IsZombie]
  | lent s => simp [Seat.IsZombie]

/-- **A reap takes out what is overdue, and nothing else.** -/
theorem reap_reaps {clock : Nat} (h : l.Dated clock) (health : Health) (now : Nat) :
    l.Reaps health now (l.reap health now).1 (l.reap health now).2 := by
  let oldest := l.parked.reverse
  let expired := l.isExpired now
  let dead : Parked → Bool := (health.disposed ·.socket)
  let gone : Parked → Bool := fun d => expired d || dead d
  have hfirst : oldest.takeWhile expired = oldest.filter expired :=
    takeWhile_eq_filter h.expired_first
  have hrest : oldest.dropWhile expired = oldest.filter (! expired ·) :=
    dropWhile_eq_filter h.expired_first
  have hgone : ∀ d, decide (l.Overdue health now d) = gone d := fun d => decide_overdue d
  exact {
    parked := by
      have hleft : (oldest.filter (! expired ·)).filter (not ∘ dead) = oldest.filter (! gone ·) := by
        rw [List.filter_filter]
        apply List.filter_congr
        intro d _
        simp [gone, Bool.and_comm]
      simp only [reap, List.partition_eq_filter_filter, decide_not, hgone]
      show (List.filter (not ∘ dead) (oldest.dropWhile expired)).reverse = _
      rw [hrest, hleft, ← List.filter_reverse, List.reverse_reverse]
    overdue := by
      have hearly : (oldest.filter gone).filter expired = oldest.filter expired := by
        rw [List.filter_filter]
        apply List.filter_congr
        intro d _
        cases hexpired : expired d <;> simp [gone, hexpired]
      have hlate : (oldest.filter gone).filter (! expired ·) =
          (oldest.filter (! expired ·)).filter dead := by
        rw [List.filter_filter, List.filter_filter]
        apply List.filter_congr
        intro d _
        cases hexpired : expired d <;> simp [gone, hexpired]
      have hsplit := List.filter_append_perm expired (oldest.filter gone)
      rw [hearly, hlate] at hsplit
      have hall : (oldest.filter gone).Perm (l.parked.filter gone) :=
        l.parked.reverse_perm.filter gone
      simp only [reap, List.partition_eq_filter_filter, hgone]
      show ((oldest.takeWhile expired ++ (oldest.dropWhile expired).filter dead).map _).Perm _
      rw [hfirst, hrest]
      exact (hsplit.trans hall).map _
    busy := reap_busy
    waiters := rfl
    config := rfl }

end Ledger

variable {κ τ : Type} [Transport τ]

/-- A run of the reaper has closed these sockets of `p`, which it saw like this, and left `q`. -/
structure Reaped (p : Pool κ τ) (health : Health) (out : List Nat) (q : Pool κ τ) : Prop where
  parked : q.ledger.parked = p.ledger.parked.filter (¬ p.ledger.Overdue health p.clock ·)
  overdue : out.Perm ((p.ledger.parked.filter (p.ledger.Overdue health p.clock ·)).map (·.socket))
  /-- Seats that were freed may be granted at once, but none is lent again before it was connected
  for. -/
  lent : ∀ k s, q.ledger.busy.get? k = some (.lent s) ↔
    p.ledger.busy.get? k = some (.lent s) ∧ health.disposed s = false
  connecting : ∀ k, p.ledger.busy.get? k = some .connecting →
    q.ledger.busy.get? k = some .connecting
  closes : p.Closes out q
  /-- They are all there, and the transport of each is closed as it was. -/
  transports : ∀ id ∈ out, ∃ s, p.socket? id = some s ∧
    q.socket? id = some ⟨Transport.close s.transport, true⟩

theorem discharge_reaped {p : Pool κ τ} {clock : Nat} (h : p.ledger.Dated clock)
    (hparked : p.ledger.parkedIds.Nodup ∧ ∀ id ∈ p.ledger.parkedIds, ∃ s, p.socket? id = some s)
    (health : Health) :
    let seen := p.ledger.clean health p.clock
    p.Reaped health seen.1.close ({ p with ledger := seen.2 }.discharge seen.1) := by
  intro seen
  let r := (p.ledger.reap health p.clock).2
  have hreaps : p.ledger.Reaps health p.clock seen.1.close r := Ledger.reap_reaps h health p.clock
  have hgrants : r.Grants seen.1.send seen.2 := r.grantSeats_spec
  obtain ⟨hledger, -⟩ := discharge_kept { p with ledger := seen.2 } seen.1
  have hcloses := p.visit_closes seen.2 seen.1
  have hsublist : ((p.ledger.parked.filter (p.ledger.Overdue health p.clock ·)).map
      (·.socket)).Sublist p.ledger.parkedIds := List.filter_sublist.map _
  have hnodup : seen.1.close.Nodup :=
    hreaps.overdue.nodup_iff.2 (hparked.1.sublist hsublist)
  exact {
    parked := by
      rw [hledger]
      exact hgrants.parked.trans hreaps.parked
    overdue := hreaps.overdue
    lent := by
      intro k s
      rw [hledger]
      constructor
      · intro hk
        have hr : r.busy.get? k = some (.lent s) := Ledger.lent_of_grantSeats hk
        obtain ⟨hp, hlive⟩ := (hreaps.busy k _).1 hr
        exact ⟨hp, Bool.eq_false_iff.2 hlive⟩
      · rintro ⟨hp, hlive⟩
        apply hgrants.entries
        rw [hreaps.busy]
        exact ⟨hp, Bool.eq_false_iff.1 hlive⟩
    connecting := by
      intro k hk
      rw [hledger]
      apply hgrants.entries
      rw [hreaps.busy]
      exact ⟨hk, not_false⟩
    closes := hcloses
    transports := by
      intro id hid
      obtain ⟨s, hs⟩ := hparked.2 id (hsublist.subset (hreaps.overdue.mem_iff.1 hid))
      exact ⟨s, hs, hcloses.closed_of_nodup hnodup hid hs⟩ }

namespace Traffic

variable [Connector κ τ] {x : Traffic κ τ}

/-- The parked sockets are in the order in which they were parked. -/
def Dated (x : Traffic κ τ) : Prop := x.pool.ledger.Dated x.pool.clock

-- A move parks at most one socket, and time does not go back.
theorem step_dated (h : x.Dated) (m : Move τ) : (x.step m).Dated := by
  have heffect := step_effect x m
  rw [Dated] at h ⊢
  generalize (x.step m).pool = p at heffect ⊢
  cases heffect with
  | enter hc => exact h.sublist (Ledger.enter_sublist ..)
  | abandon connector hc =>
    have hparked := x.pool.ledger.abandon_parked
    exact h.sublist (hparked _ ▸ .refl _)
  | use hh =>
    rw [ledger_update, clock_update]
    exact h
  | reclaim hdisposed hh => exact h.reclaim ..
  | reap => exact h.sublist (Ledger.clean_sublist ..)
  | drain => exact h.sublist (List.nil_sublist _)
  | close hid =>
    rw [ledger_close, clock_close]
    exact h
  | pass => exact h.later (Nat.le_add_right ..)
  | idle | fill | take | leave | configure | shut => exact ⟨h.oldest_first, h.past⟩

theorem run_dated (connector : κ) (config : Config) (moves : List (Move τ)) :
    ((start connector config : Traffic κ τ).run moves).Dated := by
  have hstart : (start connector config : Traffic κ τ).Dated := by
    refine ⟨List.Pairwise.nil, fun d hd => ?_⟩
    cases hd
  exact run_induction (P := Dated) (fun _ m hx => step_dated hx m) hstart moves

/-- **A reap takes out exactly what is overdue.**  Whatever moves were made, the parked sockets are
in the order in which they were parked.  So for every idle timeout, at every instant, and whatever
is seen of the sockets, a reap unparks those that were idle for that long or were disposed of, no
others, and keeps the order of the rest; it frees the seats that are lent to sockets that were
disposed of, and no others.  The reaper closes the sockets that were unparked, no others, with their
transports, and says how many they were. -/
theorem reaps_overdue (connector : κ) (config : Config) (moves : List (Move τ)) :
    let x := (start connector config : Traffic κ τ).run moves
    x.pool.ledger.Dated x.pool.clock ∧
      (∀ (idleTimeout : Duration) (health : Health) (now : Nat),
        let l := x.pool.ledger.configure { x.pool.config with idleTimeout }
        l.Reaps health now (l.reap health now).1 (l.reap health now).2) ∧
      (∀ g : Glimpse, ∃ out, (x.step (.reap g)).closing = out ++ x.closing ∧
        x.pool.Reaped (g.health x.pool) out ((x.step (.reap g)).run (out.map .close)).pool) ∧
      ∃ out, x.pool.reap.1 = out.length ∧ x.pool.Reaped x.pool.health out x.pool.reap.2 := by
  intro x
  have h : x.pool.ledger.Dated x.pool.clock := run_dated connector config moves
  have hsound : x.Sound := run_sound (start_sound connector config) moves
  have hparked := parked_sockets hsound.booked
  refine ⟨h, ?_, ?_, ?_⟩
  · intro idleTimeout health now l
    have hl : l.Dated x.pool.clock := ⟨h.oldest_first, h.past⟩
    exact Ledger.reap_reaps hl health now
  · intro g
    let seen := x.pool.ledger.clean (g.health x.pool) x.pool.clock
    refine ⟨seen.1.close, rfl, ?_⟩
    rw [show x.step (.reap g) = x.visit seen.1 seen.2 from rfl, run_visit]
    exact discharge_reaped h hparked (g.health x.pool)
  · exact ⟨_, rfl, discharge_reaped h hparked x.pool.health⟩

end Traffic

end Pool

end LineFrame
