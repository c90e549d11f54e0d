import Mathlib.Data.List.Perm.Subperm
import LineFrame.Pool.Dialer
import LineFrame.Proofs.Pool.Alone
import LineFrame.Proofs.Pool.Grants
import LineFrame.Proofs.Pool.Wakeups

/-!
# Sockets are used again

A connect is started only when nothing is parked: by a call that found nothing to use, or for a call
that waits, and nobody waits while a socket is parked (`Ledger.Idle`).  At that moment every socket
that there is, and every connect, belongs to a call in progress or to a handle, so that the sockets
and connects are never more than the calls and handles were at one time (`reuse_bound`).

So somebody who uses a pool alone, and gives back what works, is lent the same socket each time.
-/

namespace LineFrame

namespace Pool

namespace Ledger

/-! ## Visits -/

/-- Nobody waits, or nothing is parked. -/
def Idle (l : Ledger) : Prop := l.waiters = [] ∨ l.parked = []

variable {l : Ledger} {health : Health} {now : Nat}

theorem grantSeats_idle (h : l.Idle) : l.grantSeats.2.Idle := (grantSeats_settled h).idle

-- Seats are granted to calls that wait.
theorem grantSeats_parked (h : l.Idle) (hsend : l.grantSeats.1 ≠ []) :
    l.grantSeats.2.parked = [] := by
  have hgrants := l.grantSeats_spec
  rcases h with hwaiters | hparked
  · have hnone := hgrants.waiters
    rw [hwaiters] at hnone
    exact absurd (List.map_eq_nil_iff.1 (List.append_eq_nil_iff.1 hnone.symm).1) hsend
  · exact hgrants.parked.trans hparked

theorem enter_idle (h : l.Idle) : (l.enter health now).2.2.Idle := (enter_settled h).idle

-- A call that finds a socket takes no seat and passes none on.
theorem enter_parked_of_starts
    (h : (l.enter health now).1.dials ≠ [] ∨ (l.enter health now).2.1.send ≠ []) :
    (l.enter health now).2.2.parked = [] := by
  unfold enter at h ⊢
  split at h
  · rcases h with h | h <;> exact absurd rfl h
  · exact enterWithout_parked rfl

theorem clean_idle (h : l.Idle) : (l.clean health now).2.Idle := (clean_settled h).idle

theorem clean_parked_of_send (h : l.Idle) (hsend : (l.clean health now).1.send ≠ []) :
    (l.clean health now).2.parked = [] :=
  grantSeats_parked (h.imp_right reap_parked) hsend

theorem abandon_idle (h : l.Idle) (key : Nat) : (l.abandon key).2.Idle :=
  (abandon_settled h key).idle

theorem abandon_parked_of_send (h : l.Idle) (key : Nat) (hsend : (l.abandon key).1 ≠ []) :
    (l.abandon key).2.parked = [] :=
  grantSeats_parked (l := { l with busy := l.busy.remove key }) h hsend

theorem leave_idle (h : l.Idle) (w : Nat) : (l.leave w).Idle := by
  rcases h with hwaiters | hparked
  · left
    rw [leave, hwaiters]
    rfl
  · exact .inr hparked

theorem release_idle (h : l.Idle) (key s : Nat) : (l.release key s).Idle := by
  rw [Idle, release_waiters, release_parked]
  exact h

theorem reclaim_idle (h : l.Idle) (shut : Bool) (key s : Nat) :
    (l.reclaim shut health now key s).2.2.Idle := by
  have hrelease := release_idle h key s
  unfold reclaim
  dsimp only
  split
  · exact hrelease
  split
  · exact grantSeats_idle hrelease
  split
  · next w rest hw =>
    right
    refine hrelease.resolve_left fun hnone => ?_
    rw [hw] at hnone
    cases hnone
  · next hw => split <;> exact .inl hw

theorem reclaim_parked_of_send (h : l.Idle) (shut : Bool) (key s : Nat)
    (hsend : (l.reclaim shut health now key s).2.1 ≠ []) :
    (l.reclaim shut health now key s).2.2.parked = [] := by
  have hrelease := release_idle h key s
  unfold reclaim at hsend ⊢
  dsimp only at hsend ⊢
  split at hsend
  · exact absurd rfl hsend
  next hopen =>
  rw [if_neg hopen]
  split at hsend
  · next hgone =>
    rw [if_pos hgone]
    exact grantSeats_parked hrelease hsend
  next hworks =>
  rw [if_neg hworks]
  split at hsend
  · next w rest hw =>
    refine hrelease.resolve_left fun hnone => ?_
    rw [hw] at hnone
    cases hnone
  · next hw => split at hsend <;> exact absurd rfl hsend

end Ledger

namespace Traffic

variable {κ τ : Type}

/-! ## What is there, and who is about -/

/-- The sockets that are parked, held or granted, disposed of or not, and the connects in progress
and the seats granted for one. -/
def total (x : Traffic κ τ) : Nat := x.liveIds.length + x.dials.length

/-- The calls in progress and the handles. -/
def outstanding (x : Traffic κ τ) : Nat := x.calls.length + x.handles.length

theorem leases_dials_length (mail : List Delivery) :
    (leasesOf mail).length + (dialsOf mail).length = mail.length := by
  induction mail with
  | nil => rfl
  | cons d mail ih =>
    obtain ⟨w, grant⟩ := d
    cases grant with
    | socket key socket =>
      show (leasesOf mail).length + 1 + (dialsOf mail).length = mail.length + 1
      omega
    | seat key =>
      show (leasesOf mail).length + ((dialsOf mail).length + 1) = mail.length + 1
      omega

theorem total_eq (x : Traffic κ τ) :
    x.total = x.pool.ledger.parked.length + x.handles.length + x.pool.mail.length +
      (x.calls.filterMap Call.dial?).length := by
  have hmail := leases_dials_length x.pool.mail
  simp only [total, liveIds, lentIds, grantedIds, dials, Ledger.parkedIds, List.length_append,
    List.length_map]
  omega

-- A call connects, or listens, or does neither.
theorem dials_listeners_length (calls : List Call) :
    (calls.filterMap Call.dial?).length + (listeners calls).length ≤ calls.length := by
  induction calls with
  | nil => exact Nat.le_refl _
  | cons c calls ih =>
    cases c with
    | arriving => exact Nat.le_succ_of_le ih
    | connecting key timeout =>
      show (calls.filterMap Call.dial?).length + 1 + (listeners calls).length ≤ calls.length + 1
      omega
    | waiting w timeout late =>
      show (calls.filterMap Call.dial?).length + ((listeners calls).length + 1) ≤ calls.length + 1
      omega

-- Each grant on its way is that of another call.
theorem mail_length_le {x : Traffic κ τ} (h : x.Orderly) :
    x.pool.mail.length ≤ (listeners x.calls).length := by
  have hnodup : (x.pool.mail.map (·.1)).Nodup := (List.nodup_append.1 h.nodup).2.1
  have hheard : x.pool.mail.map (·.1) ⊆ listeners x.calls := fun w hw =>
    h.heard w (List.mem_append_right _ hw)
  have hle := (List.subperm_of_subset hnodup hheard).length_le
  rwa [List.length_map] at hle

/-- **While nothing is parked, whatever there is belongs to a call or a handle of its own.** -/
theorem total_le_outstanding {x : Traffic κ τ} (h : x.Orderly)
    (hparked : x.pool.ledger.parked = []) : x.total ≤ x.outstanding := by
  have hmail := mail_length_le h
  have hcalls := dials_listeners_length x.calls
  rw [total_eq, hparked, List.length_nil, outstanding]
  omega

variable [Transport τ]

/-- The seat that a call takes to connect for, when it makes its visit. -/
def takesSeat [Connector κ τ] (x : Traffic κ τ) : Move τ → List Nat
  | .enter g =>
    if .arriving ∈ x.calls then (x.pool.ledger.enter (g.health x.pool) x.pool.clock).1.dials
    else []
  | _ => []

/-- The connects that a move starts, by their seats: that of a call that goes on to connect, and
those that it grants to calls that wait. -/
def starts [Connector κ τ] (x : Traffic κ τ) (m : Move τ) : List Nat :=
  x.takesSeat m ++ dialsOf (x.sends m)

/-! ## Connects are started when nothing is parked -/

variable {x : Traffic κ τ}

section

variable [Connector κ τ]

theorem step_idle (h : x.pool.ledger.Idle) (m : Move τ) : (x.step m).pool.ledger.Idle := by
  have heffect := step_effect x m
  generalize (x.step m).pool = p at heffect ⊢
  cases heffect with
  | enter hc => exact Ledger.enter_idle h
  | abandon connector hc => exact Ledger.abandon_idle h _
  | leave hc => exact Ledger.leave_idle h _
  | use hh => rwa [ledger_update]
  | reclaim hdisposed hh => exact Ledger.reclaim_idle h ..
  | reap => exact Ledger.clean_idle h
  | drain => exact .inl rfl
  | close hid => rwa [ledger_close]
  | idle | fill | take | configure | shut | pass => exact h

theorem sends_parked (h : x.pool.ledger.Idle) {m : Move τ} (hsend : x.sends m ≠ []) :
    (x.step m).pool.ledger.parked = [] := by
  have heffect := step_effect x m
  rw [sends] at hsend
  generalize (x.step m).pool = p at heffect hsend ⊢
  cases heffect with
  | enter hc =>
    rw [List.drop_left] at hsend
    exact Ledger.enter_parked_of_starts (.inr hsend)
  | abandon connector hc =>
    rw [List.drop_left] at hsend
    exact Ledger.abandon_parked_of_send h _ hsend
  | reclaim hdisposed hh =>
    rw [List.drop_left] at hsend
    exact Ledger.reclaim_parked_of_send h _ _ _ hsend
  | reap =>
    rw [List.drop_left] at hsend
    exact Ledger.clean_parked_of_send h hsend
  | take hc => exact absurd (List.drop_eq_nil_of_le (List.length_filter_le ..)) hsend
  | use hh => exact absurd (by rw [mail_update, List.drop_length]) hsend
  | close hid => exact absurd (by rw [mail_close, List.drop_length]) hsend
  | idle | fill | leave | configure | shut | drain | pass =>
    exact absurd List.drop_length hsend

theorem takesSeat_parked {m : Move τ} (hseat : x.takesSeat m ≠ []) :
    (x.step m).pool.ledger.parked = [] := by
  cases m with
  | enter g =>
    rw [takesSeat] at hseat
    split at hseat
    · next hc =>
      rw [step, if_pos hc]
      dsimp only
      rw [proceed_pool]
      exact Ledger.enter_parked_of_starts (.inl hseat)
    · exact absurd rfl hseat
  | _ => exact absurd rfl hseat

/-- **A connect is started only by a move that leaves nothing parked.** -/
theorem starts_parked (h : x.pool.ledger.Idle) {m : Move τ} (hstarts : x.starts m ≠ []) :
    (x.step m).pool.ledger.parked = [] := by
  by_cases hsend : x.sends m = []
  · refine takesSeat_parked fun hseat => hstarts ?_
    rw [starts, hseat, hsend]
    rfl
  · exact sends_parked h hsend

end

/-! ## Nothing but a start adds to what there is -/

omit [Transport τ] in
theorem dials_visit (x : Traffic κ τ) (duties : Ledger.Duties) (ledger : Ledger) :
    (x.visit duties ledger).dials.length = x.dials.length + (dialsOf duties.send).length := by
  simp only [dials, visit, dialsOf, List.filterMap_append, List.length_append]
  omega

omit [Transport τ] in
theorem dials_proceed (x : Traffic κ τ) (entry : Ledger.Entry) :
    (x.proceed entry).dials.length = entry.dials.length + x.dials.length := by
  cases entry with
  | ready key socket => exact (Nat.zero_add _).symm
  | connect key timeout => exact Nat.add_comm _ 1
  | wait waiter timeout => exact (Nat.zero_add _).symm

omit [Transport τ] in
theorem dials_accept (x : Traffic κ τ) (timeout : Duration) (grant : Grant) :
    (x.accept timeout grant).dials.length = grant.dial?.toList.length + x.dials.length := by
  cases grant with
  | socket key socket => exact (Nat.zero_add _).symm
  | seat key => exact Nat.add_comm _ 1

omit [Transport τ] in
theorem dials_erase {x : Traffic κ τ} {c : Call} (hc : c ∈ x.calls) :
    c.dial?.toList.length + { x with calls := x.calls.erase c }.dials.length = x.dials.length := by
  have hcalls := (perm_filterMap Call.dial? (List.perm_cons_erase hc)).length_eq
  rw [List.length_append] at hcalls
  simp only [dials, List.length_append]
  omega

omit [Transport τ] in
theorem proceed_closing (x : Traffic κ τ) (entry : Ledger.Entry) :
    (x.proceed entry).closing = x.closing := by
  cases entry <;> rfl

omit [Transport τ] in
theorem accept_closing (x : Traffic κ τ) (timeout : Duration) (grant : Grant) :
    (x.accept timeout grant).closing = x.closing := by
  cases grant <;> rfl

theorem total_add_loose (h : x.Booked) :
    x.total + (x.closing.length + x.pool.closedIds.length) =
      x.pool.sockets.length + x.dials.length := by
  have hplaces := (places_perm h).length_eq
  rw [List.length_append, List.length_append, List.length_range'] at hplaces
  rw [total]
  omega

variable [Connector κ τ]

theorem starts_of_sends {m : Move τ} {send : List Delivery}
    (h : (x.step m).pool.mail = x.pool.mail ++ send) :
    x.starts m = x.takesSeat m ++ dialsOf send := by
  rw [starts, sends, h, List.drop_left]

theorem step_of_arriving {g : Glimpse} (hc : .arriving ∈ x.calls) :
    x.step (.enter g) =
      let seen := x.pool.ledger.enter (g.health x.pool) x.pool.clock
      ({ x with calls := x.calls.erase .arriving }.visit seen.2.1 seen.2.2).proceed seen.1 := by
  rw [step, if_pos hc]

theorem enter_opened {g : Glimpse} (hc : .arriving ∈ x.calls) :
    (x.step (.enter g)).pool.sockets.length + (x.step (.enter g)).dials.length =
      x.pool.sockets.length + x.dials.length + (x.starts (.enter g)).length := by
  have hstep := step_of_arriving (g := g) hc
  have hseat : x.takesSeat (.enter g) =
      (x.pool.ledger.enter (g.health x.pool) x.pool.clock).1.dials := by
    rw [takesSeat, if_pos hc]
  generalize x.pool.ledger.enter (g.health x.pool) x.pool.clock = seen at hstep hseat
  dsimp only at hstep
  have hstarts : x.starts (.enter g) = seen.1.dials ++ dialsOf seen.2.1.send := by
    rw [starts_of_sends, hseat]
    rw [hstep, proceed_pool]
    rfl
  have herase : 0 + _ = x.dials.length := dials_erase hc
  rw [hstarts, hstep, proceed_pool, dials_proceed, dials_visit, List.length_append]
  show x.pool.sockets.length + _ = _
  omega

theorem connect_opened {key : Nat} {timeout : Duration} (hc : .connecting key timeout ∈ x.calls) :
    (x.step (.connect key timeout)).pool.sockets.length +
        (x.step (.connect key timeout)).dials.length ≤
      x.pool.sockets.length + x.dials.length + (x.starts (.connect key timeout)).length := by
  let y : Traffic κ τ := { x with calls := x.calls.erase (.connecting key timeout) }
  have herase : 1 + y.dials.length = x.dials.length := dials_erase hc
  have hstep : x.step (.connect key timeout) =
      { y with
        pool := (x.pool.connect key timeout).2
        handles := gained (x.pool.connect key timeout).1 ++ x.handles } := by
    rw [step, if_pos hc]
  rw [Pool.connect] at hstep
  cases hdial : Connector.connect timeout x.pool.connector with
  | mk found connector =>
    rw [hdial] at hstep
    cases found with
    | ok transport =>
      -- the seat of the connect is now that of the socket
      rw [hstep]
      show (x.pool.sockets ++ [Socket.mk transport false]).length + y.dials.length ≤ _
      rw [List.length_append, List.length_singleton]
      omega
    | error e =>
      let z := y.visit { send := (x.pool.ledger.abandon key).1 } (x.pool.ledger.abandon key).2
      have hdials : z.dials.length = y.dials.length + (dialsOf (x.pool.ledger.abandon key).1).length :=
        dials_visit y _ _
      have hstarts : x.starts (.connect key timeout) = dialsOf (x.pool.ledger.abandon key).1 :=
        starts_of_sends (by rw [hstep]; rfl)
      rw [hstarts, hstep]
      show x.pool.sockets.length + z.dials.length ≤ _
      omega

theorem take_opened (h : x.Orderly) {waiter : Nat} {timeout : Duration} {late : Bool}
    {grant : Grant} (hc : .waiting waiter timeout late ∈ x.calls)
    (hgrant : x.pool.granted? waiter = some grant) :
    (x.step (.take waiter timeout late)).pool.sockets.length +
        (x.step (.take waiter timeout late)).dials.length =
      x.pool.sockets.length + x.dials.length := by
  let others := x.pool.mail.filter (·.1 != waiter)
  let y : Traffic κ τ := { x with calls := x.calls.erase (.waiting waiter timeout late) }
  let z : Traffic κ τ := { y with pool := { x.pool with mail := others } }
  have hposted : (x.pool.mail.map (·.1)).Nodup := (List.nodup_append.1 h.nodup).2.1
  have hmail : (dialsOf x.pool.mail).Perm (grant.dial?.toList ++ dialsOf others) :=
    perm_filterMap (fun d : Delivery => d.2.dial?) (perm_mail hposted hgrant)
  have hlength := hmail.length_eq
  have herase : 0 + y.dials.length = x.dials.length := dials_erase hc
  have hdials : grant.dial?.toList.length + z.dials.length = y.dials.length := by
    show _ + (y.calls.filterMap Call.dial? ++ dialsOf others).length =
      (y.calls.filterMap Call.dial? ++ dialsOf x.pool.mail).length
    rw [List.length_append] at hlength
    rw [List.length_append, List.length_append]
    omega
  rw [step_take hc hgrant, accept_pool, dials_accept]
  show x.pool.sockets.length + (_ + z.dials.length) = _
  omega

/-- **Sockets and connects come from starts.**  Each socket that was ever made, and each connect in
progress or granted, has a start of its own. -/
theorem step_opened (h : x.Orderly) (m : Move τ) :
    (x.step m).pool.sockets.length + (x.step m).dials.length ≤
      x.pool.sockets.length + x.dials.length + (x.starts m).length := by
  -- a visit to the ledger, by those who take no seat for themselves
  have hvisit {y : Traffic κ τ} {duties : Ledger.Duties} {ledger : Ledger}
      (hstep : x.step m = y.visit duties ledger) (hpool : y.pool = x.pool)
      (hdials : y.dials = x.dials) :
      (x.step m).pool.sockets.length + (x.step m).dials.length ≤
        x.pool.sockets.length + x.dials.length + (x.starts m).length := by
    have hstarts : x.starts m = x.takesSeat m ++ dialsOf duties.send :=
      starts_of_sends (by rw [hstep, ← hpool]; rfl)
    rw [hstarts, hstep, dials_visit, hdials, List.length_append]
    show y.pool.sockets.length + _ ≤ _
    rw [hpool]
    omega
  cases m with
  | arrive =>
    rw [step]
    split <;> exact Nat.le_add_right ..
  | enter g =>
    by_cases hc : .arriving ∈ x.calls
    · exact Nat.le_of_eq (enter_opened hc)
    · rw [step, if_neg hc]
      exact Nat.le_add_right ..
  | connect key timeout =>
    by_cases hc : .connecting key timeout ∈ x.calls
    · exact connect_opened hc
    · rw [step, if_neg hc]
      exact Nat.le_add_right ..
  | take waiter timeout late =>
    cases hgrant : x.pool.granted? waiter with
    | none =>
      rw [step, hgrant]
      exact Nat.le_add_right ..
    | some grant =>
      by_cases hc : .waiting waiter timeout late ∈ x.calls
      · exact Nat.le_trans (Nat.le_of_eq (take_opened h hc hgrant)) (Nat.le_add_right ..)
      · rw [step, hgrant]
        dsimp only
        rw [if_neg hc]
        exact Nat.le_add_right ..
  | leave waiter timeout =>
    rw [step]
    split
    · next hc =>
      have herase : 0 + _ = x.dials.length := dials_erase hc
      rw [← herase, Nat.zero_add]
      exact Nat.le_add_right ..
    · exact Nat.le_add_right ..
  | giveUp waiter timeout late =>
    rw [step]
    split
    · next hc =>
      have herase : 0 + _ = x.dials.length := dials_erase hc.1
      rw [← herase, Nat.zero_add]
      exact Nat.le_add_right ..
    · exact Nat.le_add_right ..
  | use lease f fails =>
    rw [step]
    split
    · simp only [dials, mail_update, length_update]
      exact Nat.le_add_right ..
    · exact Nat.le_add_right ..
  | reclaim lease connected =>
    by_cases hh : lease ∈ x.handles
    · exact hvisit (y := { x with handles := x.handles.erase lease })
        (by rw [step, if_pos hh]) rfl rfl
    · rw [step, if_neg hh]
      exact Nat.le_add_right ..
  | reap g => exact hvisit (y := x) rfl rfl rfl
  | drain =>
    by_cases hgo : x.pool.shut ∧ !x.drained
    · let duties : Ledger.Duties := { close := x.pool.ledger.drain.1 }
      have hdrain : x.step .drain =
          visit { x with drained := true } duties x.pool.ledger.drain.2 := by
        rw [step, if_pos hgo]
        rfl
      exact hvisit hdrain rfl rfl
    · rw [step, if_neg hgo]
      exact Nat.le_add_right ..
  | close id =>
    rw [step]
    split
    · simp only [dials, mail_close]
      show (x.pool.update id Socket.close).sockets.length + _ ≤ _
      rw [length_update]
      exact Nat.le_add_right ..
    · exact Nat.le_add_right ..
  | configure | shut | pass => exact Nat.le_add_right ..

-- What was taken out to be closed is closed, or is going to be.
theorem step_loose (x : Traffic κ τ) (m : Move τ) :
    x.closing.length + x.pool.closedIds.length ≤
      (x.step m).closing.length + (x.step m).pool.closedIds.length := by
  have hvisit (close : List Nat) : x.closing.length + x.pool.closedIds.length ≤
      (close ++ x.closing).length + x.pool.closedIds.length := by
    rw [List.length_append]
    omega
  cases m with
  | enter g =>
    by_cases hc : .arriving ∈ x.calls
    · rw [step_of_arriving hc]
      dsimp only
      rw [proceed_closing, proceed_pool]
      exact hvisit _
    · rw [step, if_neg hc]
  | connect key timeout =>
    by_cases hc : .connecting key timeout ∈ x.calls
    · rw [step, if_pos hc, Pool.connect]
      dsimp only
      split <;> exact Nat.le_refl _
    · rw [step, if_neg hc]
  | take waiter timeout late =>
    rw [step]
    split
    · exact Nat.le_refl _
    · split
      · dsimp only
        rw [accept_closing, accept_pool]
        exact Nat.le_refl _
      · exact Nat.le_refl _
  | use lease f fails =>
    rw [step]
    split
    · rw [closedIds, closedIds, events_update]
    · exact Nat.le_refl _
  | reclaim lease connected =>
    rw [step]
    split
    · exact hvisit _
    · exact Nat.le_refl _
  | reap g => exact hvisit _
  | drain =>
    rw [step]
    split
    · exact hvisit _
    · exact Nat.le_refl _
  | close id =>
    rw [step]
    split
    · next hid =>
      have hclosing := (List.perm_cons_erase hid).length_eq
      have hclosed : (x.pool.close id).closedIds = id :: x.pool.closedIds := by
        rw [closedIds, events_close]
        rfl
      dsimp only
      rw [hclosed, hclosing, List.length_cons, List.length_cons]
      omega
    · exact Nat.le_refl _
  | arrive | leave | giveUp =>
    rw [step]
    split <;> exact Nat.le_refl _
  | configure | shut | pass => exact Nat.le_refl _

/-! ## The peak -/

/-- **A move adds to what there is only by a start, and then only up to the calls and handles.** -/
theorem step_total (h : x.Sound) (hidle : x.pool.ledger.Idle) (m : Move τ) :
    (x.step m).total ≤ max x.total (x.step m).outstanding := by
  by_cases hstarts : x.starts m = []
  · have hbefore := total_add_loose h.booked
    have hafter := total_add_loose (step_sound h m).booked
    have hopened := step_opened h.orderly m
    have hloose := step_loose x m
    rw [hstarts, List.length_nil] at hopened
    omega
  · have hparked := starts_parked hidle hstarts
    have hle := total_le_outstanding (step_orderly h.orderly m) hparked
    omega

/-- The largest number of calls in progress and handles that there is at one time in a run. -/
def peak (x : Traffic κ τ) : List (Move τ) → Nat
  | [] => x.outstanding
  | m :: moves => max x.outstanding ((x.step m).peak moves)

theorem outstanding_le_peak (x : Traffic κ τ) (moves : List (Move τ)) :
    x.outstanding ≤ x.peak moves := by
  cases moves with
  | nil => exact Nat.le_refl _
  | cons m moves => exact Nat.le_max_left ..

theorem run_total (h : x.Sound) (hidle : x.pool.ledger.Idle) (moves : List (Move τ)) :
    (x.run moves).total ≤ max x.total (x.peak moves) := by
  induction moves generalizing x with
  | nil => exact Nat.le_max_left ..
  | cons m moves ih =>
    have hrest := ih (step_sound h m) (step_idle hidle m)
    have hstep := step_total h hidle m
    have hpeak := outstanding_le_peak (x.step m) moves
    rw [run_cons, peak]
    omega

/-- **Sockets are used again.**  Whatever moves are made, in whatever order: a move that starts a
connect, for a call that makes its visit or for one that waits, leaves nothing parked; and sockets
and connects come from such starts only.  So at every moment the sockets that are parked, held or
granted, disposed of or not, together with the connects in progress and the seats granted for one,
are no more than the calls in progress and the handles were at one time.

Somebody who uses a new pool alone, with room for one socket at least, opens one socket however
often it gets and drops it, and is lent this one each time, if the first connect gives a socket that
works, it stays so whatever is done with it, and the reaper closes none. -/
theorem reuse_bound (connector : κ) (config : Config) :
    (∀ moves : List (Move τ),
      let first : Traffic κ τ := start connector config
      let x := first.run moves
      (∀ m, x.starts m ≠ [] → (x.step m).pool.ledger.parked = []) ∧
        (∀ m, (x.step m).pool.sockets.length + (x.step m).dials.length ≤
          x.pool.sockets.length + x.dials.length + (x.starts m).length) ∧
        x.total ≤ first.peak moves) ∧
      ∀ (t : τ) (acts : List (Act τ)), 1 ≤ config.maxConnections →
        (Connector.connect config.connectTimeout connector).1 = .ok t →
        Transport.connected t = true → (∀ a ∈ acts, a.Healthy) →
        let first : Alone κ τ := { pool := create connector config }
        first.Unreaped acts → .acquire ∈ acts →
        (first.run acts).pool.sockets.length = 1 ∧
          ∃ key, ((first.run acts).act .acquire).held = some ⟨key, 1⟩ := by
  constructor
  · intro moves first x
    have hfirst : first.Sound := start_sound connector config
    have hidle : first.pool.ledger.Idle := .inl rfl
    have hsound : x.Sound := run_sound hfirst moves
    have hstays : x.pool.ledger.Idle :=
      run_induction (P := fun y => y.pool.ledger.Idle) (fun _ m hy => step_idle hy m) hidle moves
    refine ⟨fun m hm => starts_parked hstays hm, step_opened hsound.orderly, ?_⟩
    exact Nat.le_trans (run_total hfirst hidle moves) (Nat.max_le.2 ⟨Nat.zero_le _, Nat.le_refl _⟩)
  · intro t acts hroom hdial ht hacts first hkept hacquire
    have hopened := Alone.run_unused (Alone.create_unused hroom hdial ht) hacts hkept hacquire
    exact ⟨hopened.sockets, Alone.acquire_again hopened⟩

/-- A call waits for the only seat, whose socket fails, and the reaper grants it the seat; and two
rounds of somebody who is alone. -/
theorem reuse_bound_of_failed :
    let here : Glimpse := { connected := fun _ => true }
    let limit : Config := { maxConnections := 1 }
    let dialer : Dialer := { endpoint := "mock:0" }
    let moves : List (Move Link) := [.arrive, .enter here, .connect 0 limit.connectTimeout, .arrive,
      .enter here, .use ⟨0, 1⟩ id true]
    let x := (start dialer limit).run moves
    let first : Alone Dialer Link := { pool := create dialer limit }
    let acts : List (Act Link) := [.acquire, .use fun s => (.ok (), s), .drop, .pass (.ofSecs 1),
      .reap, .acquire, .drop]
    (x.starts (.reap here) = [0] ∧ (x.step (.reap here)).pool.ledger.parked = [] ∧
        x.total ≤ (start dialer limit).peak moves ∧ (start dialer limit).peak moves = 2) ∧
      (1 ≤ limit.maxConnections ∧ (Connector.connect limit.connectTimeout dialer).1 = .ok {} ∧
        Transport.connected ({} : Link) = true ∧ (∀ a ∈ acts, a.Healthy) ∧ first.Unreaped acts ∧
        .acquire ∈ acts) ∧
      (first.run acts).pool.sockets.length = 1 ∧
        ∃ key, ((first.run acts).act .acquire).held = some ⟨key, 1⟩ := by
  intro here limit dialer moves x first acts
  have hstarts : x.starts (.reap here) = [0] := by decide +kernel
  have hpeak : (start dialer limit).peak moves = 2 := by decide +kernel
  have hroom : 1 ≤ limit.maxConnections := Nat.le_refl 1
  have hdial : (Connector.connect limit.connectTimeout dialer).1 = .ok {} := rfl
  have ht : Transport.connected ({} : Link) = true := rfl
  have hacts : ∀ a ∈ acts, a.Healthy := by
    simp [acts, Act.Healthy]
  have hkept : first.Unreaped acts := by
    simp only [acts, Alone.Unreaped, reduceCtorEq, false_implies, true_implies, true_and, and_true]
    decide +kernel
  have hacquire : .acquire ∈ acts := List.mem_cons_self
  obtain ⟨hmoves, halone⟩ := reuse_bound dialer limit
  obtain ⟨hparked, -, hbound⟩ := hmoves moves
  have hempty : (x.step (.reap here)).pool.ledger.parked = [] := by
    rw [show x = (start dialer limit).run moves from rfl] at hstarts ⊢
    apply hparked
    rw [hstarts]
    exact List.cons_ne_nil _ _
  have hone : (first.run acts).pool.sockets.length = 1 ∧
      ∃ key, ((first.run acts).act .acquire).held = some ⟨key, 1⟩ := by
    rw [show first = { pool := create dialer limit } from rfl] at hkept ⊢
    exact halone {} acts hroom hdial ht hacts hkept hacquire
  exact ⟨⟨hstarts, hempty, hbound, hpeak⟩, ⟨hroom, hdial, ht, hacts, hkept, hacquire⟩, hone⟩

end Traffic

end Pool

end LineFrame
