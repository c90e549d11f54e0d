import LineFrame.Pool.Dialer
import LineFrame.Proofs.Pool.Waiting

/-!
# Grants arrive, once and in order

What the moves of a run send, take and refuse is gathered over the run (`Traffic.gather`), and the
pool that the run leads to is compared with it (`History`).  The numbers that grants were sent to
and those in the queue after them only rise; and what was sent was taken by the call that it was
sent to, or is still on its way to it.

A visit that sends a grant might find that nobody hears it, and would then take the seat back and go
on with the next call (`grantSeatsTo`, `reclaimTo`).  That does not happen to the calls in the
queue.
-/

namespace LineFrame

namespace Pool

namespace Ledger

/-! ## Grants that nobody hears -/

/-- Passes seats on to the calls that hear it.  The seat of a grant that comes back is freed. -/
def grantSeatsTo (hears : Nat → Bool) (l : Ledger) : List Delivery × Ledger :=
  match _h : l.waiters with
  | [] => ([], l)
  | w :: rest =>
    if l.hasCapacity then
      let seated := { l with waiters := rest }.seat .connecting
      if hears w then
        let (sent, l') := seated.grantSeatsTo hears
        ((w, .seat l.busy.nextKey) :: sent, l')
      else { seated with busy := seated.busy.remove l.busy.nextKey }.grantSeatsTo hears
    else ([], l)
termination_by l.waiters.length
decreasing_by all_goals simp [seat, _h]

/-- Offers a socket to the calls that wait, the oldest first, until one hears it. -/
def offerTo (hears : Nat → Bool) (l : Ledger) (socket : Nat) : Option Delivery × Ledger :=
  match _h : l.waiters with
  | [] => (none, l)
  | w :: rest =>
    let seated := { l with waiters := rest }.seat (.lent socket)
    if hears w then (some (w, .socket l.busy.nextKey socket), seated)
    else { seated with busy := seated.busy.remove l.busy.nextKey }.offerTo hears socket
termination_by l.waiters.length
decreasing_by simp [seat, _h]

/-- The visit of a socket that comes back, when a grant may come back too. -/
def reclaimTo (hears : Nat → Bool) (l : Ledger) (shut : Bool) (health : Health) (now : Nat)
    (key : Nat) (socket : Nat) : Fate × List Delivery × Ledger :=
  let l := l.release key socket
  if shut then (.closed, [], l)
  else if health.disposed socket || !health.connected socket then
    let (send, l) := l.grantSeatsTo hears
    (.closed, send, l)
  else
    match l.offerTo hears socket with
    | (some delivery, l) => (.granted, [delivery], l)
    | (none, l) =>
      if l.hasCapacity then (.parked, [], { l with parked := ⟨socket, now⟩ :: l.parked })
      else (.closed, [], l)

variable {hears : Nat → Bool} {l : Ledger}

theorem grantSeatsTo_eq (h : ∀ w ∈ l.waiters, hears w = true) :
    l.grantSeatsTo hears = l.grantSeats := by
  fun_induction grantSeats l with
  | case1 l hw =>
    rw [grantSeatsTo]
    split
    · rfl
    · next hw' => rw [hw] at hw'; cases hw'
  | case2 l w rest hw hroom sent l' hsent ih =>
    rw [hw] at h
    obtain ⟨hfirst, hrest⟩ := List.forall_mem_cons.1 h
    rw [grantSeatsTo]
    split
    · next hw' => rw [hw] at hw'; cases hw'
    · next hw' =>
      rw [hw] at hw'
      cases hw'
      rw [if_pos hroom, if_pos hfirst, ih hrest, hsent]
  | case3 l w rest hw hfull =>
    rw [grantSeatsTo]
    split
    · rfl
    · rw [if_neg hfull]

theorem offerTo_nil (h : l.waiters = []) (socket : Nat) :
    l.offerTo hears socket = (none, l) := by
  rw [offerTo]
  split
  · rfl
  · next hw => rw [h] at hw; cases hw

theorem offerTo_cons {w : Nat} {rest : List Nat} (h : l.waiters = w :: rest)
    (hw : hears w = true) (socket : Nat) :
    l.offerTo hears socket =
      (some (w, .socket l.busy.nextKey socket),
        { l with waiters := rest }.seat (.lent socket)) := by
  rw [offerTo]
  split
  · next hnil => rw [h] at hnil; cases hnil
  · next hcons =>
    rw [h] at hcons
    cases hcons
    exact if_pos hw

-- While the calls in the queue hear what is sent to them, nothing comes back.
theorem reclaimTo_eq (h : ∀ w ∈ l.waiters, hears w = true) (shut : Bool) (health : Health)
    (now key socket : Nat) :
    l.reclaimTo hears shut health now key socket = l.reclaim shut health now key socket := by
  have hrelease : ∀ w ∈ (l.release key socket).waiters, hears w = true := by
    rw [release_waiters]
    exact h
  unfold reclaim
  rw [reclaimTo, grantSeatsTo_eq hrelease]
  generalize l.release key socket = r at hrelease
  dsimp only
  by_cases hw : r.waiters = []
  · rw [offerTo_nil hw]
    dsimp only
    rw [hw]
  · obtain ⟨w, rest, hw⟩ := List.exists_cons_of_ne_nil hw
    have hfirst : hears w = true := hrelease w (by rw [hw]; exact List.mem_cons_self)
    rw [offerTo_cons hw hfirst, hw]

/-! ## The queue -/

-- A call that joins the queue has nothing to pass on to others.
theorem enter_joins_or_sends (l : Ledger) (health : Health) (now : Nat) :
    (l.enter health now).1.waits = [] ∨ (l.enter health now).2.1.send = [] := by
  unfold enter
  split
  · exact .inl rfl
  · rw [enterWithout_eq]
    dsimp only
    split
    · exact .inl rfl
    · exact .inr rfl

end Ledger

namespace Traffic

variable {κ τ β : Type}

/-- Whether a grant that is sent to a call now arrives: the call listens, and was sent none. -/
def hears (x : Traffic κ τ) (w : Nat) : Bool :=
  (listeners x.calls).contains w && (x.pool.granted? w).isNone

-- Nothing that is sent to a call in the queue comes back.
theorem hears_of_queued {x : Traffic κ τ} (h : x.Orderly) {w : Nat}
    (hw : w ∈ x.pool.ledger.waiters) : x.hears w = true := by
  obtain ⟨hnone, timeout, hc⟩ := queued_listens h hw
  have hlisten : w ∈ listeners x.calls := List.mem_filterMap.2 ⟨_, hc, rfl⟩
  rw [hears, hnone, List.contains_iff_mem.2 hlisten]
  rfl

variable [Transport τ] [Connector κ τ]

/-! ## What a move sends, takes and refuses -/

/-- The grants that a move sends. -/
def sends (x : Traffic κ τ) (m : Move τ) : List Delivery :=
  (x.step m).pool.mail.drop x.pool.mail.length

/-- The grant that a move takes, for the call that it was sent to. -/
def takes (x : Traffic κ τ) : Move τ → List Delivery
  | .take w timeout late =>
    if .waiting w timeout late ∈ x.calls then (x.pool.granted? w).toList.map (w, ·) else []
  | _ => []

/-- The call that a move ends because its time was up and it was granted nothing. -/
def exhausts (x : Traffic κ τ) : Move τ → List Nat
  | .giveUp w timeout true =>
    if .waiting w timeout true ∈ x.calls ∧ x.pool.granted? w = none then [w] else []
  | _ => []

/-- All that is seen of the moves of a run, in order. -/
def gather (f : Traffic κ τ → Move τ → List β) (x : Traffic κ τ) : List (Move τ) → List β
  | [] => []
  | m :: moves => f x m ++ gather f (x.step m) moves

/-- The grants that are sent in a run. -/
def sent (x : Traffic κ τ) (moves : List (Move τ)) : List Delivery := x.gather sends moves

/-- The grants that are taken in a run. -/
def taken (x : Traffic κ τ) (moves : List (Move τ)) : List Delivery := x.gather takes moves

/-- The calls that end in a run because their time was up. -/
def exhausted (x : Traffic κ τ) (moves : List (Move τ)) : List Nat := x.gather exhausts moves

theorem gather_append (f : Traffic κ τ → Move τ → List β) (x : Traffic κ τ)
    (moves more : List (Move τ)) :
    x.gather f (moves ++ more) = x.gather f moves ++ (x.run moves).gather f more := by
  induction moves generalizing x with
  | nil => rfl
  | cons m moves ih =>
    rw [List.cons_append, gather, ih, gather, List.append_assoc]
    rfl

/-- What a move does to the queue, when it sends these grants and leaves this ledger. -/
inductive Turn (x : Traffic κ τ) (m : Move τ) (send : List Delivery) (l : Ledger) : Prop where
  /-- The front of the queue is served, as far as it goes. -/
  | serve (hserves : x.pool.ledger.Serves [] send l)
  /-- A call joins the queue, and nothing is sent. -/
  | join (w : Nat) (hsend : send = []) (hserves : x.pool.ledger.Serves [w] [] l)
  | leave (w : Nat) (timeout : Duration) (hm : m = .leave w timeout) (hsend : send = [])
    (hl : l = x.pool.ledger.leave w)
  | drain (hm : m = .drain) (hsend : send = []) (hl : l = x.pool.ledger.drain.2)

omit [Transport τ] [Connector κ τ] in
theorem Turn.keep (x : Traffic κ τ) (m : Move τ) {l : Ledger}
    (hwaiters : l.waiters = x.pool.ledger.waiters)
    (hnext : l.nextWaiter = x.pool.ledger.nextWaiter) : x.Turn m [] l :=
  .serve ⟨(List.append_nil _).trans hwaiters.symm, rfl, hnext⟩

theorem step_turn (x : Traffic κ τ) (m : Move τ) :
    x.Turn m (x.sends m) (x.step m).pool.ledger := by
  have heffect := step_effect x m
  rw [sends]
  generalize (x.step m).pool = p at heffect ⊢
  cases heffect with
  | @enter g hc =>
    have hserves := x.pool.ledger.enter_serves (g.health x.pool) x.pool.clock
    have hone := x.pool.ledger.enter_joins_or_sends (g.health x.pool) x.pool.clock
    dsimp only at hserves ⊢
    rw [List.drop_left]
    generalize x.pool.ledger.enter (g.health x.pool) x.pool.clock = seen at hserves hone
    obtain ⟨entry, duties, l⟩ := seen
    cases entry with
    | ready | connect => exact .serve hserves
    | wait w timeout =>
      have hnone : duties.send = [] := hone.resolve_left nofun
      rw [hnone] at hserves
      exact .join w hnone hserves
  | abandon connector hc =>
    rw [List.drop_left]
    exact .serve (x.pool.ledger.abandon_serves _)
  | reclaim hdisposed hh =>
    rw [List.drop_left]
    exact .serve (x.pool.ledger.reclaim_serves ..)
  | reap =>
    rw [List.drop_left]
    exact .serve (x.pool.ledger.clean_serves _ _)
  | take hc =>
    rw [List.drop_eq_nil_of_le (List.length_filter_le ..)]
    exact .keep x _ rfl rfl
  | leave hc =>
    rw [List.drop_length]
    exact .leave _ _ rfl rfl rfl
  | drain hshut =>
    rw [List.drop_length]
    exact .drain rfl rfl rfl
  | use hh =>
    rw [mail_update, ledger_update, List.drop_length]
    exact .keep x _ rfl rfl
  | close hid =>
    rw [mail_close, ledger_close, List.drop_length]
    exact .keep x _ rfl rfl
  | configure =>
    show x.Turn _ (x.pool.mail.drop x.pool.mail.length) _
    rw [List.drop_length]
    exact .keep x _ rfl rfl
  | idle | fill | shut | pass =>
    rw [List.drop_length]
    exact .keep x _ rfl rfl

/-- **Grants go to the calls that have waited longest.** -/
theorem sends_front (x : Traffic κ τ) (m : Move τ) :
    (x.sends m).map (·.1) <+: x.pool.ledger.waiters := by
  have hnil : ∀ {send : List Delivery}, send = [] → send.map (·.1) <+: x.pool.ledger.waiters := by
    intro send hsend
    rw [hsend]
    exact List.nil_prefix
  cases step_turn x m with
  | serve hserves =>
    rw [(List.append_nil _).symm.trans hserves.waiters]
    exact List.prefix_append ..
  | join w hsend hserves => exact hnil hsend
  | leave w timeout hm hsend hl => exact hnil hsend
  | drain hm hsend hl => exact hnil hsend

/-- **A call leaves the queue by a grant, because its time is up, or when the pool is shut down.** -/
theorem leaves_queue (x : Traffic κ τ) (m : Move τ) {w : Nat} (hw : w ∈ x.pool.ledger.waiters)
    (hgone : w ∉ (x.step m).pool.ledger.waiters) :
    w ∈ (x.sends m).map (·.1) ∨ (∃ timeout, m = .leave w timeout) ∨ m = .drain := by
  cases step_turn x m with
  | serve hserves =>
    rw [(List.append_nil _).symm.trans hserves.waiters, List.mem_append] at hw
    exact .inl (hw.resolve_right hgone)
  | join v hsend hserves =>
    have hkept : x.pool.ledger.waiters ++ [v] = (x.step m).pool.ledger.waiters := hserves.waiters
    rw [← hkept] at hgone
    exact absurd (List.mem_append_left _ hw) hgone
  | leave v timeout hm hsend hl =>
    rw [hl] at hgone
    by_cases hv : w = v
    · rw [← hv] at hm
      exact .inr (.inl ⟨timeout, hm⟩)
    · exact absurd (List.mem_filter.2 ⟨hw, by simpa using hv⟩) hgone
  | drain hm hsend hl => exact .inr (.inr hm)

/-! ## The mail -/

/-- The call has what it was granted: a socket, or a seat to connect one for. -/
def Has (x : Traffic κ τ) (timeout : Duration) : Grant → Prop
  | .socket key socket => { key, socket } ∈ x.handles
  | .seat key => .connecting key timeout ∈ x.calls

omit [Transport τ] [Connector κ τ] in
theorem accept_has (x : Traffic κ τ) (timeout : Duration) (grant : Grant) :
    (x.accept timeout grant).Has timeout grant := by
  cases grant with
  | socket key socket => exact List.mem_cons_self
  | seat key => exact List.mem_cons_self

omit [Transport τ] [Connector κ τ] in
theorem listeners_accept (x : Traffic κ τ) (timeout : Duration) (grant : Grant) :
    listeners (x.accept timeout grant).calls = listeners x.calls := by
  cases grant <;> rfl

theorem step_take {x : Traffic κ τ} {w : Nat} {timeout : Duration} {late : Bool} {grant : Grant}
    (hc : .waiting w timeout late ∈ x.calls) (hgrant : x.pool.granted? w = some grant) :
    x.step (.take w timeout late) =
      { x with
        pool := { x.pool with mail := x.pool.mail.filter (·.1 != w) }
        calls := x.calls.erase (.waiting w timeout late) }.accept timeout grant := by
  rw [step, hgrant]
  exact if_pos hc

omit [Transport τ] [Connector κ τ] in
theorem mem_takes {x : Traffic κ τ} {m : Move τ} {d : Delivery} (hd : d ∈ x.takes m) :
    ∃ timeout late, m = .take d.1 timeout late ∧ .waiting d.1 timeout late ∈ x.calls ∧
      x.pool.granted? d.1 = some d.2 := by
  cases m with
  | take w timeout late =>
    rw [takes] at hd
    split at hd
    · next hc =>
      obtain ⟨grant, hgrant, rfl⟩ := List.mem_map.1 hd
      exact ⟨timeout, late, rfl, hc, Option.mem_toList.1 hgrant⟩
    · cases hd
  | _ => cases hd

-- A move that takes nothing leaves all that was sent before.
theorem mail_of_no_take {x : Traffic κ τ} {m : Move τ} (hm : x.takes m = []) :
    (x.step m).pool.mail = x.pool.mail ++ x.sends m := by
  have heffect := step_effect x m
  rw [sends]
  generalize (x.step m).pool = p at heffect ⊢
  cases heffect with
  | enter | abandon | reclaim | reap => rw [List.drop_left]
  | @take w timeout late hc =>
    rw [takes, if_pos hc] at hm
    have hnone : x.pool.granted? w = none := by
      cases hgrant : x.pool.granted? w with
      | none => rfl
      | some grant => rw [hgrant] at hm; cases hm
    have hothers : x.pool.mail.filter (·.1 != w) = x.pool.mail := by
      rw [List.filter_eq_self]
      intro d hd
      have hother := List.lookup_eq_none_iff.1 hnone d hd
      have hne : d.1 ≠ w := fun heq => by simp [heq] at hother
      simpa using hne
    rw [hothers, List.drop_length, List.append_nil]
  | use => rw [mail_update, List.drop_length, List.append_nil]
  | close => rw [mail_close, List.drop_length, List.append_nil]
  | idle | fill | leave | configure | shut | drain | pass =>
    exact (List.append_nil _).symm.trans (congrArg _ List.drop_length.symm)

/-- **What was sent before and is sent now is taken, or still on its way.** -/
theorem step_mail {x : Traffic κ τ} (h : x.Orderly) (m : Move τ) :
    (x.pool.mail ++ x.sends m).Perm (x.takes m ++ (x.step m).pool.mail) := by
  by_cases hm : x.takes m = []
  · rw [mail_of_no_take hm, hm, List.nil_append]
  · obtain ⟨d, hd⟩ := List.exists_mem_of_ne_nil _ hm
    obtain ⟨timeout, late, rfl, hc, hgrant⟩ := mem_takes hd
    have htakes : x.takes (.take d.1 timeout late) = [d] := by
      rw [takes, if_pos hc, hgrant]
      rfl
    have hmail : (x.step (.take d.1 timeout late)).pool.mail = x.pool.mail.filter (·.1 != d.1) := by
      rw [step_take hc hgrant, accept_pool]
    have hsends : x.sends (.take d.1 timeout late) = [] := by
      rw [sends, hmail]
      exact List.drop_eq_nil_of_le (List.length_filter_le ..)
    have hposted : (x.pool.mail.map (·.1)).Nodup := (List.nodup_append.1 h.nodup).2.1
    rw [hsends, htakes, hmail, List.append_nil]
    exact perm_mail hposted hgrant

/-! ## The calls -/

theorem listeners_erase {calls : List Call} {c : Call} {w : Nat}
    (hw : w ∈ listeners (calls.erase c)) : w ∈ listeners calls :=
  (List.erase_sublist.filterMap _).subset hw

-- Nobody listens under a number that was given before, but those who do already.
theorem step_listeners (x : Traffic κ τ) (m : Move τ) {w : Nat}
    (hw : w ∈ listeners (x.step m).calls) :
    w ∈ listeners x.calls ∨ w = x.pool.ledger.nextWaiter := by
  cases m with
  | arrive =>
    rw [step] at hw
    split at hw <;> exact .inl hw
  | enter g =>
    rw [step] at hw
    split at hw
    · have hserves := x.pool.ledger.enter_serves (g.health x.pool) x.pool.clock
      dsimp only at hw hserves
      generalize x.pool.ledger.enter (g.health x.pool) x.pool.clock = seen at hw hserves
      obtain ⟨entry, duties, l⟩ := seen
      cases entry with
      | ready | connect => exact .inl (listeners_erase hw)
      | wait v timeout =>
        have hnumber : v = x.pool.ledger.nextWaiter := by
          simpa [Ledger.Entry.waits] using hserves.numbers
        rcases List.mem_cons.1 hw with rfl | hw
        · exact .inr hnumber
        · exact .inl (listeners_erase hw)
    · exact .inl hw
  | connect key timeout =>
    rw [step] at hw
    split at hw
    · exact .inl (listeners_erase hw)
    · exact .inl hw
  | take v timeout late =>
    left
    cases hgrant : x.pool.granted? v with
    | none =>
      rw [step, hgrant] at hw
      exact hw
    | some grant =>
      by_cases hc : .waiting v timeout late ∈ x.calls
      · rw [step_take hc hgrant, listeners_accept] at hw
        exact listeners_erase hw
      · rw [step, hgrant] at hw
        dsimp only at hw
        rwa [if_neg hc] at hw
  | leave v timeout =>
    left
    rw [step] at hw
    split at hw
    · next hc =>
      rcases List.mem_cons.1 hw with rfl | hw
      · exact List.mem_filterMap.2 ⟨_, hc, rfl⟩
      · exact listeners_erase hw
    · exact hw
  | giveUp v timeout late =>
    left
    rw [step] at hw
    split at hw
    · exact listeners_erase hw
    · exact hw
  | use | reclaim | drain | close =>
    rw [step] at hw
    split at hw <;> exact .inl hw
  | reap | configure | shut | pass => exact .inl hw

-- A call that has taken its grant does not listen any more.
theorem not_listening_of_taken {x : Traffic κ τ} (h : x.Orderly) {m : Move τ} {d : Delivery}
    (hd : d ∈ x.takes m) : d.1 ∉ listeners (x.step m).calls := by
  obtain ⟨timeout, late, rfl, hc, hgrant⟩ := mem_takes hd
  rw [step_take hc hgrant, listeners_accept]
  exact Queue.not_listening_erase h hc

omit [Transport τ] [Connector κ τ] in
theorem mem_exhausts {x : Traffic κ τ} {m : Move τ} {w : Nat} (hw : w ∈ x.exhausts m) :
    ∃ timeout, .waiting w timeout true ∈ x.calls ∧ x.pool.granted? w = none := by
  rw [exhausts.eq_def] at hw
  split at hw
  · next v timeout =>
    split at hw
    · next hc =>
      rw [List.mem_singleton.1 hw]
      exact ⟨timeout, hc⟩
    · cases hw
  · cases hw

/-! ## Runs -/

/-- What was sent and taken, and which calls ended for want of a socket, next to the pool after
it. -/
structure History (x : Traffic κ τ) (sent taken : List Delivery) (exhausted : List Nat) :
    Prop where
  /-- Grants were sent in the order in which the calls had joined the queue. -/
  ordered : (sent.map (·.1) ++ x.pool.ledger.waiters).Pairwise (· < ·)
  given : ∀ w ∈ sent.map (·.1), w < x.pool.ledger.nextWaiter
  arrived : sent.Perm (taken ++ x.pool.mail)
  served : ∀ d ∈ taken, d.1 ∉ listeners x.calls
  denied : ∀ w ∈ exhausted, w < x.pool.ledger.nextWaiter ∧ w ∉ sent.map (·.1) ∧
    w ∉ x.pool.ledger.waiters

omit [Transport τ] [Connector κ τ] in
theorem start_history (connector : κ) (config : Config) :
    (start connector config : Traffic κ τ).History [] [] [] where
  ordered := .nil
  given := nofun
  arrived := .rfl
  served := nofun
  denied := nofun

omit [Transport τ] [Connector κ τ] in
theorem queued_lt {x : Traffic κ τ} (h : x.Orderly) {w : Nat} (hw : w ∈ x.pool.ledger.waiters) :
    w < x.pool.ledger.nextWaiter := h.fresh w (h.heard w (List.mem_append_left _ hw))

-- The queue is served and joined at its ends, or calls drop out of it.
theorem step_ordered {x : Traffic κ τ} (h : x.Orderly) {past : List Nat}
    (hordered : (past ++ x.pool.ledger.waiters).Pairwise (· < ·))
    (hgiven : ∀ w ∈ past, w < x.pool.ledger.nextWaiter) (m : Move τ) :
    (past ++ (x.sends m).map (·.1) ++ (x.step m).pool.ledger.waiters).Pairwise (· < ·) ∧
      x.pool.ledger.nextWaiter ≤ (x.step m).pool.ledger.nextWaiter := by
  cases step_turn x m with
  | serve hserves =>
    have hwaiters := (List.append_nil _).symm.trans hserves.waiters
    rw [hwaiters, ← List.append_assoc] at hordered
    exact ⟨hordered, Nat.le_of_eq hserves.nextWaiter.symm⟩
  | join w hsend hserves =>
    have hwaiters : x.pool.ledger.waiters ++ [w] = (x.step m).pool.ledger.waiters :=
      hserves.waiters
    have hnumber : w = x.pool.ledger.nextWaiter := by simpa using hserves.numbers
    have hnext : (x.step m).pool.ledger.nextWaiter = x.pool.ledger.nextWaiter + 1 :=
      hserves.nextWaiter
    refine ⟨?_, by omega⟩
    rw [hsend, List.map_nil, List.append_nil, ← hwaiters, ← List.append_assoc,
      List.pairwise_append]
    refine ⟨hordered, List.pairwise_singleton _ _, fun v hv u hu => ?_⟩
    rw [List.mem_singleton.1 hu, hnumber]
    exact (List.mem_append.1 hv).elim (hgiven v) (queued_lt h)
  | leave w timeout hm hsend hl =>
    rw [hsend, hl, List.map_nil, List.append_nil]
    exact ⟨hordered.sublist (List.filter_sublist.append_left _), Nat.le_refl _⟩
  | drain hm hsend hl =>
    rw [hsend, hl, List.map_nil, List.append_nil]
    exact ⟨hordered.sublist ((List.nil_sublist _).append_left _), Nat.le_refl _⟩

-- A call that was in the queue under a number that was given before is there already.
theorem step_waiters (x : Traffic κ τ) (m : Move τ) {w : Nat}
    (hw : w ∈ (x.step m).pool.ledger.waiters) :
    w ∈ x.pool.ledger.waiters ∨ w = x.pool.ledger.nextWaiter := by
  cases step_turn x m with
  | serve hserves =>
    rw [(List.append_nil _).symm.trans hserves.waiters]
    exact .inl (List.mem_append_right _ hw)
  | join v hsend hserves =>
    have hwaiters : x.pool.ledger.waiters ++ [v] = (x.step m).pool.ledger.waiters :=
      hserves.waiters
    have hnumber : v = x.pool.ledger.nextWaiter := by simpa using hserves.numbers
    rw [← hwaiters, List.mem_append, List.mem_singleton, hnumber] at hw
    exact hw
  | leave v timeout hm hsend hl =>
    rw [hl] at hw
    exact .inl (List.mem_filter.1 hw).1
  | drain hm hsend hl =>
    rw [hl] at hw
    cases hw

theorem nextWaiter_le (x : Traffic κ τ) (m : Move τ) :
    x.pool.ledger.nextWaiter ≤ (x.step m).pool.ledger.nextWaiter := by
  cases step_turn x m with
  | serve hserves => exact Nat.le_of_eq hserves.nextWaiter.symm
  | join w hsend hserves =>
    rw [hserves.nextWaiter]
    exact Nat.le_add_right ..
  | leave w timeout hm hsend hl =>
    rw [hl]
    exact Nat.le_refl _
  | drain hm hsend hl =>
    rw [hl]
    exact Nat.le_refl _

-- A call that has left the queue does not come back to it.
theorem queued_of_run {x : Traffic κ τ} {w : Nat} (hw : w < x.pool.ledger.nextWaiter)
    {moves : List (Move τ)}
    (hlater : w ∈ (x.run moves).pool.ledger.waiters) : w ∈ x.pool.ledger.waiters := by
  induction moves generalizing x with
  | nil => exact hlater
  | cons m moves ih =>
    have hnext := nextWaiter_le x m
    rcases step_waiters x m (ih (by omega) hlater) with hold | hnew
    · exact hold
    · omega

variable {x : Traffic κ τ} {sent taken : List Delivery} {exhausted : List Nat}

omit [Transport τ] [Connector κ τ] in
-- A call that ends for want of a socket was sent nothing, in all of the time.
theorem unsent_of_exhausts (h : x.Orderly) (hist : x.History sent taken exhausted) {m : Move τ}
    {w : Nat} (hw : w ∈ x.exhausts m) :
    w < x.pool.ledger.nextWaiter ∧ w ∉ sent.map (·.1) ∧ w ∉ x.pool.ledger.waiters := by
  obtain ⟨timeout, hc, hgrant⟩ := mem_exhausts hw
  have hlisten : w ∈ listeners x.calls := List.mem_filterMap.2 ⟨_, hc, rfl⟩
  refine ⟨h.fresh w hlisten, fun hsent => ?_, h.late w timeout hc⟩
  obtain ⟨d, hd, rfl⟩ := List.mem_map.1 hsent
  rcases List.mem_append.1 (hist.arrived.mem_iff.1 hd) with htaken | hmail
  · exact hist.served d htaken hlisten
  · have hne := List.lookup_eq_none_iff.1 hgrant d hmail
    simp at hne

/-- **A move keeps the history.** -/
theorem step_history (h : x.Orderly) (hist : x.History sent taken exhausted) (m : Move τ) :
    (x.step m).History (sent ++ x.sends m) (taken ++ x.takes m) (exhausted ++ x.exhausts m) := by
  obtain ⟨hordered, hnext⟩ := step_ordered h hist.ordered hist.given m
  have hsends : ∀ w ∈ (x.sends m).map (·.1), w ∈ x.pool.ledger.waiters :=
    fun w hw => (sends_front x m).subset hw
  have hgiven : ∀ w ∈ (sent ++ x.sends m).map (·.1), w < x.pool.ledger.nextWaiter := by
    intro w hw
    rw [List.map_append, List.mem_append] at hw
    exact hw.elim (hist.given w) fun hw => queued_lt h (hsends w hw)
  exact {
    ordered := by
      rw [List.map_append]
      exact hordered
    given := fun w hw => Nat.lt_of_lt_of_le (hgiven w hw) hnext
    arrived := by
      have hbefore : (sent ++ x.sends m).Perm (taken ++ (x.pool.mail ++ x.sends m)) := by
        rw [← List.append_assoc]
        exact hist.arrived.append_right _
      refine hbefore.trans ?_
      rw [List.append_assoc]
      exact (step_mail h m).append_left _
    served := fun d hd hlisten => by
      rcases List.mem_append.1 hd with hd | hd
      · have hold : d.1 < x.pool.ledger.nextWaiter := by
          apply hist.given
          exact List.mem_map_of_mem (hist.arrived.mem_iff.2 (List.mem_append_left _ hd))
        rcases step_listeners x m hlisten with hlisten | hnew
        · exact hist.served d hd hlisten
        · omega
      · exact not_listening_of_taken h hd hlisten
    denied := fun w hw => by
      have hbefore : w < x.pool.ledger.nextWaiter ∧ w ∉ sent.map (·.1) ∧
          w ∉ x.pool.ledger.waiters :=
        (List.mem_append.1 hw).elim (hist.denied w) (unsent_of_exhausts h hist)
      obtain ⟨hlt, hunsent, hqueued⟩ := hbefore
      refine ⟨Nat.lt_of_lt_of_le hlt hnext, fun hsent => ?_, fun hmem => ?_⟩
      · rw [List.map_append, List.mem_append] at hsent
        exact hsent.elim hunsent fun hsent => hqueued (hsends w hsent)
      · rcases step_waiters x m hmem with hmem | hnew
        · exact hqueued hmem
        · omega }

theorem run_history (h : x.Orderly) (hist : x.History sent taken exhausted)
    (moves : List (Move τ)) :
    (x.run moves).History (sent ++ x.sent moves) (taken ++ x.taken moves)
      (exhausted ++ x.exhausted moves) := by
  induction moves generalizing x sent taken exhausted with
  | nil =>
    show x.History (sent ++ []) (taken ++ []) (exhausted ++ [])
    rw [List.append_nil, List.append_nil, List.append_nil]
    exact hist
  | cons m moves ih =>
    have hrest := ih (step_orderly h m) (step_history h hist m)
    rw [List.append_assoc, List.append_assoc, List.append_assoc] at hrest
    exact hrest

-- Whoever was sent something listens, and gets it as soon as it looks.
theorem taken_of_mailed (h : x.Orderly) {d : Delivery} (hd : d ∈ x.pool.mail) :
    ∃ timeout late, .waiting d.1 timeout late ∈ x.calls ∧
      x.takes (.take d.1 timeout late) = [d] ∧
      (x.step (.take d.1 timeout late)).Has timeout d.2 := by
  have hposted : d.1 ∈ x.pool.mail.map (·.1) := List.mem_map_of_mem hd
  have hgrant : x.pool.granted? d.1 = some d.2 := by
    obtain ⟨before, after, hmail⟩ := List.append_of_mem hd
    rw [granted?, List.lookup_eq_some_iff]
    refine ⟨before, after, hmail, fun e he => ?_⟩
    have hnodup := (List.nodup_append.1 h.nodup).2.1
    rw [hmail, List.map_append, List.map_cons] at hnodup
    have hne : e.1 ≠ d.1 :=
      (List.nodup_append.1 hnodup).2.2 e.1 (List.mem_map_of_mem he) d.1 List.mem_cons_self
    exact bne_iff_ne.2 (Ne.symm hne)
  obtain ⟨c, hc, hwaiter⟩ :=
    List.mem_filterMap.1 (h.heard d.1 (List.mem_append_right _ hposted))
  cases c with
  | arriving => cases hwaiter
  | connecting key timeout => cases hwaiter
  | waiting w timeout late =>
    cases hwaiter
    refine ⟨timeout, late, hc, ?_, ?_⟩
    · rw [takes, if_pos hc, hgrant]
      rfl
    · rw [step_take hc hgrant]
      exact accept_has ..

/-- **Grants arrive, once and in order.**  Whatever moves are made, in whatever order: the numbers of
the calls that grants were sent to, and after them those in the queue, only rise, so that a call is
sent one grant at most.  What a move sends goes to the front of the queue, and a call leaves the
queue only by a grant, because its own time is up, or when the pool is shut down.  No grant comes
back to a visit.

All that was sent was taken by the call that it was sent to, or is on its way to a call that still
listens, late or not, and has it as soon as it looks.  A call that ended because its time was up was
never sent a grant, and is sent none later. -/
theorem grants_arrive (connector : κ) (config : Config) (moves : List (Move τ)) :
    let first : Traffic κ τ := start connector config
    let x := first.run moves
    (((first.sent moves).map (·.1) ++ x.pool.ledger.waiters).Pairwise (· < ·) ∧
        (listeners x.calls).Nodup) ∧
      (∀ m, (x.sends m).map (·.1) <+: x.pool.ledger.waiters) ∧
      (∀ m, ∀ w ∈ x.pool.ledger.waiters, w ∉ (x.step m).pool.ledger.waiters →
        w ∈ (x.sends m).map (·.1) ∨ (∃ timeout, m = .leave w timeout) ∨ m = .drain) ∧
      (∀ l : Ledger, l.waiters = x.pool.ledger.waiters →
        l.grantSeatsTo x.hears = l.grantSeats ∧
          ∀ shut health now key socket, l.reclaimTo x.hears shut health now key socket =
            l.reclaim shut health now key socket) ∧
      (first.sent moves).Perm (first.taken moves ++ x.pool.mail) ∧
      (∀ d ∈ x.pool.mail, ∃ timeout late, .waiting d.1 timeout late ∈ x.calls ∧
        x.takes (.take d.1 timeout late) = [d] ∧
        (x.step (.take d.1 timeout late)).Has timeout d.2) ∧
      (∀ w ∈ first.exhausted moves, ∀ more, w ∉ (first.sent (moves ++ more)).map (·.1)) := by
  intro first x
  have hfirst : first.Orderly := start_orderly connector config
  have h : x.Orderly :=
    run_induction (P := Orderly) (fun _ m hy => step_orderly hy m) hfirst moves
  have hist : ∀ all, (first.run all).History (first.sent all) (first.taken all)
      (first.exhausted all) := run_history hfirst (start_history connector config)
  have hhears : ∀ l : Ledger, l.waiters = x.pool.ledger.waiters →
      ∀ w ∈ l.waiters, x.hears w = true := by
    intro l hl w hw
    rw [hl] at hw
    exact hears_of_queued h hw
  refine ⟨⟨(hist moves).ordered, h.distinct⟩, sends_front x, fun m w hw => leaves_queue x m hw,
    fun l hl => ?_, (hist moves).arrived, fun d hd => taken_of_mailed h hd, fun w hw more => ?_⟩
  · exact ⟨Ledger.grantSeatsTo_eq (hhears l hl), Ledger.reclaimTo_eq (hhears l hl)⟩
  · have hall : w ∈ first.exhausted (moves ++ more) := by
      rw [exhausted, gather_append]
      exact List.mem_append_left _ hw
    exact ((hist (moves ++ more)).denied w hall).2.1

/-- Two calls wait for one socket.  It comes back, and is granted to the first of them just before
its time is up; the other one gets nothing. -/
theorem grants_arrive_of_late :
    let here : Glimpse := { connected := fun _ => true }
    let limit : Config := { maxConnections := 1 }
    let wait := limit.connectTimeout
    let moves : List (Move Link) := [.arrive, .enter here, .connect 0 wait, .arrive, .enter here,
      .arrive, .enter here, .reclaim ⟨0, 1⟩ true, .leave 0 wait, .leave 1 wait, .giveUp 1 wait true]
    let first : Traffic Dialer Link := start { endpoint := "mock:0" } limit
    let x := first.run moves
    x.pool.mail = [(0, .socket 0 1)] ∧ first.exhausted moves = [1] ∧
      (∃ timeout late, .waiting 0 timeout late ∈ x.calls ∧
        (x.step (.take 0 timeout late)).Has timeout (.socket 0 1)) ∧
      ∀ more, 1 ∉ (first.sent (moves ++ more)).map (·.1) := by
  intro here limit wait moves first x
  have hmail : x.pool.mail = [(0, .socket 0 1)] := by decide +kernel
  have hexhausted : first.exhausted moves = [1] := by decide +kernel
  obtain ⟨-, -, -, -, -, harrives, hdenied⟩ :=
    grants_arrive ({ endpoint := "mock:0" } : Dialer) limit moves
  obtain ⟨timeout, late, hc, -, hhas⟩ :=
    harrives (0, .socket 0 1) (by rw [hmail]; exact List.mem_cons_self)
  exact ⟨hmail, hexhausted, ⟨timeout, late, hc, hhas⟩,
    hdenied 1 (by rw [hexhausted]; exact List.mem_cons_self)⟩

end Traffic

end Pool

end LineFrame
