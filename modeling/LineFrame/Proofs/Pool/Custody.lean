import LineFrame.Proofs.Pool.Waiting

/-!
# Where the sockets are

At every moment each socket that was ever made is in one place: parked, held by one handle, in one
grant on its way, taken out and about to be closed, or closed.  The events tell the same: each was
created once, and those that are closed were closed once (`sockets_conserved`).

All moves keep the books of the pool with what is held outside of the ledger (`Sound`), which is
more than that: it also says whose the seats are.
-/

namespace LineFrame

namespace Pool

/-- The seat that a call connects a socket for. -/
def Call.dial? : Call → Option Nat
  | .connecting key _ => some key
  | .arriving | .waiting _ _ _ => none

def Event.made? : Event → Option Nat
  | .created id => some id
  | .closed _ => none

def Event.closed? : Event → Option Nat
  | .closed id => some id
  | .created _ => none

section

variable {κ τ : Type}

/-- The sockets that were created, the latest first. -/
def madeIds (p : Pool κ τ) : List Nat := p.events.filterMap Event.made?

/-- The sockets that were closed, the latest first. -/
def closedIds (p : Pool κ τ) : List Nat := p.events.filterMap Event.closed?

/-! ## Sockets -/

theorem socket?_update (p : Pool κ τ) (id : Nat) (f : Socket τ → Socket τ) (j : Nat) :
    (p.update id f).socket? j = if j = id then (p.socket? j).map f else p.socket? j := by
  by_cases hj : j = 0
  · simp [socket?, hj]
  by_cases hid : id = 0
  · have hne : j ≠ id := by omega
    rw [update, if_pos hid, if_neg hne]
  rw [update, if_neg hid, socket?, socket?, if_neg hj, if_neg hj]
  dsimp only
  rw [List.getElem?_modify]
  by_cases hsame : j = id
  · simp [hsame]
  · have hne : id - 1 ≠ j - 1 := by omega
    simp [hsame, hne]

end

variable {κ τ : Type} [Transport τ]

-- A socket that was disposed of stays so, whatever is done with sockets.
theorem disposed_update {p : Pool κ τ} {id j : Nat} {f : Socket τ → Socket τ}
    (hf : ∀ s, s.disposed = true → (f s).disposed = true) (h : p.health.disposed j = true) :
    (p.update id f).health.disposed j = true := by
  show ((p.update id f).socket? j).all (·.disposed) = true
  have hj : (p.socket? j).all (·.disposed) = true := h
  rw [socket?_update]
  split
  · cases hs : p.socket? j with
    | none => rfl
    | some s =>
      rw [hs] at hj
      exact hf s hj
  · exact hj

theorem socket?_close (p : Pool κ τ) (id j : Nat) :
    (p.close id).socket? j =
      if j = id then (p.socket? j).map fun s => ⟨Transport.close s.transport, true⟩
      else p.socket? j := by
  have hclose : (Socket.close : Socket τ → Socket τ) =
      fun s => ⟨Transport.close s.transport, true⟩ := funext Socket.close_eq
  rw [← hclose]
  exact p.socket?_update id Socket.close j

theorem disposed_close (p : Pool κ τ) (id : Nat) : (p.close id).health.disposed id = true := by
  show ((p.close id).socket? id).all (·.disposed) = true
  rw [socket?_close, if_pos rfl]
  cases p.socket? id <;> rfl

/-- From `p` to `q` these sockets were closed, one after the other, and no others.  Nothing was
connected. -/
structure Closes (p : Pool κ τ) (ids : List Nat) (q : Pool κ τ) : Prop where
  events : q.events = (ids.map Event.closed).reverse ++ p.events
  /-- Its transport was closed, as it was before if the socket is closed only once. -/
  closed : ∀ id ∈ ids, ∀ s, p.socket? id = some s → ∃ t,
    (ids.count id = 1 → t = s.transport) ∧ q.socket? id = some ⟨Transport.close t, true⟩
  disposed : ∀ id ∈ ids, q.health.disposed id = true
  others : ∀ id ∉ ids, q.socket? id = p.socket? id
  sockets : q.sockets.length = p.sockets.length
  connector : q.connector = p.connector

theorem close_closes (p : Pool κ τ) (id : Nat) : p.Closes [id] (p.close id) where
  events := p.events_close id
  closed := by
    intro j hj s hs
    rw [List.mem_singleton.1 hj] at hs ⊢
    refine ⟨s.transport, fun _ => rfl, ?_⟩
    rw [socket?_close, if_pos rfl, hs]
    rfl
  disposed := by
    intro j hj
    rw [List.mem_singleton.1 hj]
    exact p.disposed_close id
  others := by
    intro j hj
    exact (p.socket?_close id j).trans (if_neg fun h => hj (List.mem_singleton.2 h))
  sockets := p.length_close id
  connector := by
    show (p.update id Socket.close).connector = _
    rw [update]
    split <;> rfl

theorem Closes.append {p q r : Pool κ τ} {ids more : List Nat} (h : p.Closes ids q)
    (hmore : q.Closes more r) : p.Closes (ids ++ more) r where
  events := by
    rw [hmore.events, h.events, List.map_append, List.reverse_append, List.append_assoc]
  closed := by
    intro id hid s hs
    rw [List.count_append]
    by_cases hlate : id ∈ more
    · have hpos : 0 < more.count id := List.count_pos_iff.2 hlate
      by_cases hearly : id ∈ ids
      · -- it was closed before, so this is not its first time
        have hbefore : 0 < ids.count id := List.count_pos_iff.2 hearly
        obtain ⟨t, -, ht⟩ := h.closed id hearly s hs
        obtain ⟨u, -, hu⟩ := hmore.closed id hlate _ ht
        exact ⟨u, fun honce => by omega, hu⟩
      · have hq : q.socket? id = some s := (h.others id hearly).trans hs
        obtain ⟨t, hfirst, ht⟩ := hmore.closed id hlate s hq
        rw [List.count_eq_zero_of_not_mem hearly, Nat.zero_add]
        exact ⟨t, hfirst, ht⟩
    · obtain ⟨t, hfirst, ht⟩ := h.closed id ((List.mem_append.1 hid).resolve_right hlate) s hs
      rw [List.count_eq_zero_of_not_mem hlate]
      exact ⟨t, hfirst, (hmore.others id hlate).trans ht⟩
  disposed := by
    intro id hid
    by_cases hlate : id ∈ more
    · exact hmore.disposed id hlate
    · have hearly := h.disposed id ((List.mem_append.1 hid).resolve_right hlate)
      show (r.socket? id).all (·.disposed) = true
      rw [hmore.others id hlate]
      exact hearly
  others := by
    intro id hid
    rw [List.mem_append, not_or] at hid
    exact (hmore.others id hid.2).trans (h.others id hid.1)
  sockets := hmore.sockets.trans h.sockets
  connector := hmore.connector.trans h.connector

theorem Closes.closed_of_nodup {p q : Pool κ τ} {ids : List Nat} (h : p.Closes ids q)
    (hids : ids.Nodup) {id : Nat} (hid : id ∈ ids) {s : Socket τ} (hs : p.socket? id = some s) :
    q.socket? id = some ⟨Transport.close s.transport, true⟩ := by
  have honce : ids.count id = 1 :=
    Nat.le_antisymm (List.nodup_iff_count.1 hids id) (List.count_pos_iff.2 hid)
  obtain ⟨t, hfirst, ht⟩ := h.closed id hid s hs
  rwa [hfirst honce] at ht

theorem foldl_close_closes (p : Pool κ τ) (ids : List Nat) : p.Closes ids (ids.foldl close p) := by
  induction ids generalizing p with
  | nil => exact ⟨rfl, nofun, nofun, fun _ _ => rfl, rfl, rfl⟩
  | cons id ids ih => exact (p.close_closes id).append (ih (p.close id))

-- A visit closes the sockets that it is to close, and nothing else of this.
theorem visit_closes (p : Pool κ τ) (ledger : Ledger) (duties : Ledger.Duties) :
    p.Closes duties.close ({ p with ledger }.discharge duties) := by
  let visited : Pool κ τ := { p with ledger, mail := p.mail ++ duties.send }
  have hcloses : visited.Closes duties.close ({ p with ledger }.discharge duties) :=
    visited.foldl_close_closes _
  exact ⟨hcloses.events, hcloses.closed, hcloses.disposed, hcloses.others, hcloses.sockets,
    hcloses.connector⟩

theorem discharge_kept (p : Pool κ τ) (duties : Ledger.Duties) :
    (p.discharge duties).ledger = p.ledger ∧
      (p.discharge duties).mail = p.mail ++ duties.send := by
  have hclose (ids : List Nat) (q : Pool κ τ) :
      (ids.foldl close q).ledger = q.ledger ∧ (ids.foldl close q).mail = q.mail := by
    induction ids generalizing q with
    | nil => exact ⟨rfl, rfl⟩
    | cons id ids ih =>
      obtain ⟨hledger, hmail⟩ := ih (q.close id)
      exact ⟨hledger.trans (q.ledger_close id), hmail.trans (q.mail_close id)⟩
  exact hclose duties.close _

omit [Transport τ] in
theorem exists_socket {p : Pool κ τ} {id : Nat} (h : 1 ≤ id ∧ id ≤ p.sockets.length) :
    ∃ s, p.socket? id = some s := by
  have hlt : id - 1 < p.sockets.length := by omega
  refine ⟨p.sockets[id - 1], ?_⟩
  rw [socket?, if_neg (Nat.ne_of_gt h.1), List.getElem?_eq_getElem hlt]

omit [Transport τ] in
-- A new socket changes nothing about those that there are.
theorem socket?_append (p : Pool κ τ) (s : Socket τ) {id : Nat} (hid : id ≤ p.sockets.length) :
    { p with sockets := p.sockets ++ [s] }.socket? id = p.socket? id := by
  rw [socket?, socket?]
  by_cases h0 : id = 0
  · rw [if_pos h0, if_pos h0]
  · rw [if_neg h0, if_neg h0]
    dsimp only
    rw [List.getElem?_append_left (by omega)]

theorem disposed_append (p : Pool κ τ) (s : Socket τ) {id : Nat} (hid : id ≤ p.sockets.length) :
    { p with sockets := p.sockets ++ [s] }.health.disposed id = p.health.disposed id :=
  congrArg (Option.all Socket.disposed) (p.socket?_append s hid)

theorem seen_disposed (g : Glimpse) (p : Pool κ τ) (id : Nat)
    (h : (g.health p).disposed id = true) : p.health.disposed id = true :=
  (Bool.and_eq_true_iff.1 h).1

namespace Traffic

/-- All rights to use a socket: the handles, and the grants on their way. -/
def leases (x : Traffic κ τ) : List Handle := x.handles ++ leasesOf x.pool.mail

/-- All seats that a socket is connected for, or is going to be. -/
def dials (x : Traffic κ τ) : List Nat := x.calls.filterMap Call.dial? ++ dialsOf x.pool.mail

/-- The ledger agrees with all that is held outside of it. -/
def Booked (x : Traffic κ τ) : Prop :=
  x.pool.ledger.Books x.pool.health.disposed x.leases x.dials (x.closing ++ x.pool.closedIds)
    x.pool.sockets.length

/-- The events tell which sockets were made, and of which the transport was closed. -/
structure Recorded (p : Pool κ τ) : Prop where
  made : p.madeIds = (List.range' 1 p.sockets.length).reverse
  closed : ∀ id ∈ p.closedIds, ∃ t, p.socket? id = some ⟨Transport.close t, true⟩

/-- What every move preserves. -/
structure Sound (x : Traffic κ τ) : Prop where
  orderly : x.Orderly
  booked : x.Booked
  recorded : Recorded x.pool
  /-- Nothing is parked any more once the shutdown has made its visit. -/
  drained : x.drained = true → x.pool.shut = true ∧ x.pool.ledger.parked = []

theorem start_sound (connector : κ) (config : Config) :
    (start connector config : Traffic κ τ).Sound where
  orderly := start_orderly connector config
  booked := Ledger.Books.empty config _
  recorded := ⟨rfl, nofun⟩
  drained := nofun

variable {x : Traffic κ τ}

/-! ## The books -/

-- What a visit sends and takes out is held outside of the ledger afterwards.
theorem visit_books {leases : List Handle} {dials : List Nat} {duties : Ledger.Duties}
    {ledger : Ledger}
    (h : ledger.BooksWith duties x.pool.health.disposed (leases ++ x.leases) (dials ++ x.dials)
      (x.closing ++ x.pool.closedIds) x.pool.sockets.length) :
    let y := x.visit duties ledger
    y.pool.ledger.Books y.pool.health.disposed (leases ++ y.leases) (dials ++ y.dials)
      (y.closing ++ y.pool.closedIds) y.pool.sockets.length := by
  intro y
  have hleases : (leases ++ y.leases).Perm (leasesOf duties.send ++ (leases ++ x.leases)) := by
    show (leases ++ (x.handles ++ leasesOf (x.pool.mail ++ duties.send))).Perm
      (leasesOf duties.send ++ (leases ++ (x.handles ++ leasesOf x.pool.mail)))
    rw [leasesOf, List.filterMap_append, List.perm_iff_count]
    intro h
    simp only [leasesOf, List.count_append]
    omega
  have hdials : (dials ++ y.dials).Perm (dialsOf duties.send ++ (dials ++ x.dials)) := by
    show (dials ++ (x.calls.filterMap Call.dial? ++ dialsOf (x.pool.mail ++ duties.send))).Perm
      (dialsOf duties.send ++ (dials ++ (x.calls.filterMap Call.dial? ++ dialsOf x.pool.mail)))
    rw [dialsOf, List.filterMap_append, List.perm_iff_count]
    intro k
    simp only [dialsOf, List.count_append]
    omega
  have hloose : (y.closing ++ y.pool.closedIds).Perm
      (duties.close ++ (x.closing ++ x.pool.closedIds)) := by
    rw [← List.append_assoc]
    exact .rfl
  exact Ledger.Books.perm h hleases hdials hloose

theorem visit_booked {duties : Ledger.Duties} {ledger : Ledger}
    (h : ledger.BooksWith duties x.pool.health.disposed x.leases x.dials
      (x.closing ++ x.pool.closedIds) x.pool.sockets.length) : (x.visit duties ledger).Booked := by
  have hnothing : ledger.BooksWith duties x.pool.health.disposed ([] ++ x.leases) ([] ++ x.dials)
      (x.closing ++ x.pool.closedIds) x.pool.sockets.length := h
  exact visit_books hnothing

-- A call is over, or goes on; the seat that it connects a socket for is in other hands.
theorem erase_booked {c : Call} (h : x.Booked) (hc : c ∈ x.calls) :
    let y : Traffic κ τ := { x with calls := x.calls.erase c }
    y.pool.ledger.Books y.pool.health.disposed y.leases (c.dial?.toList ++ y.dials)
      (y.closing ++ y.pool.closedIds) y.pool.sockets.length := by
  intro y
  have hcalls := perm_filterMap Call.dial? (List.perm_cons_erase hc)
  have hdials : (c.dial?.toList ++ y.dials).Perm x.dials := by
    rw [dials, dials, ← List.append_assoc]
    exact (hcalls.append_right _).symm
  exact Ledger.Books.perm h .rfl hdials .rfl

theorem proceed_booked {entry : Ledger.Entry}
    (h : x.pool.ledger.Books x.pool.health.disposed (entry.leases ++ x.leases)
      (entry.dials ++ x.dials) (x.closing ++ x.pool.closedIds) x.pool.sockets.length) :
    (x.proceed entry).Booked := by
  cases entry <;> exact h

theorem accept_booked {timeout : Duration} {grant : Grant}
    (h : x.pool.ledger.Books x.pool.health.disposed (grant.lease?.toList ++ x.leases)
      (grant.dial?.toList ++ x.dials) (x.closing ++ x.pool.closedIds) x.pool.sockets.length) :
    (x.accept timeout grant).Booked := by
  cases grant <;> exact h

theorem update_booked {id : Nat} {f : Socket τ → Socket τ} (h : x.Booked)
    (hf : ∀ s, s.disposed = true → (f s).disposed = true) :
    { x with pool := x.pool.update id f }.Booked := by
  have hkept : ∀ s, x.pool.health.disposed s = true →
      (x.pool.update id f).health.disposed s = true := fun s hs => disposed_update hf hs
  have hdisposed := Ledger.Books.dispose h hkept
  simpa only [Booked, leases, dials, closedIds, ledger_update, mail_update, events_update,
    length_update] using hdisposed

theorem close_booked {id : Nat} (h : x.Booked) (hid : id ∈ x.closing) :
    { x with pool := x.pool.close id, closing := x.closing.erase id }.Booked := by
  have hclosed : Booked { x with pool := x.pool.update id Socket.close } :=
    update_booked h fun _ _ => rfl
  have hloose : (x.closing.erase id ++ id :: (x.pool.update id Socket.close).closedIds).Perm
      (x.closing ++ (x.pool.update id Socket.close).closedIds) := by
    refine List.perm_middle.trans ?_
    exact ((List.perm_cons_erase hid).append_right _).symm
  exact Ledger.Books.perm hclosed .rfl .rfl hloose

-- The parked sockets are there, each once.
theorem parked_sockets (h : x.Booked) : x.pool.ledger.parkedIds.Nodup ∧
    ∀ id ∈ x.pool.ledger.parkedIds, ∃ s, x.pool.socket? id = some s := by
  refine ⟨(List.nodup_append.1 (List.nodup_append.1 h.nodup).1).1, fun id hid => ?_⟩
  exact exists_socket (h.made (List.mem_append_left _ (List.mem_append_left _ hid)))

variable [Connector κ τ]

theorem enter_booked (h : x.Booked) (g : Glimpse) (hc : .arriving ∈ x.calls) :
    (x.step (.enter g)).Booked := by
  let y : Traffic κ τ := { x with calls := x.calls.erase .arriving }
  have hy : y.Booked := erase_booked h hc
  rw [step, if_pos hc]
  exact proceed_booked (visit_books (x := y) (hy.enter _ (seen_disposed g x.pool)))

theorem connect_booked (h : x.Booked) {key : Nat} {timeout : Duration}
    (hc : .connecting key timeout ∈ x.calls) : (x.step (.connect key timeout)).Booked := by
  let y : Traffic κ τ := { x with calls := x.calls.erase (.connecting key timeout) }
  have hy : y.pool.ledger.Books y.pool.health.disposed y.leases (key :: y.dials)
    (y.closing ++ y.pool.closedIds) y.pool.sockets.length := erase_booked h hc
  rw [step, if_pos hc, Pool.connect]
  dsimp only
  split
  · next transport connector hdial =>
    have hfilled := hy.fill fun id hid => disposed_append x.pool { transport } hid
    rw [Booked, List.length_append]
    exact hfilled
  · exact visit_booked (x := y) hy.abandon

theorem take_booked (h : x.Booked) (horderly : x.Orderly) {waiter : Nat} {timeout : Duration}
    {late : Bool} {grant : Grant} (hc : .waiting waiter timeout late ∈ x.calls)
    (hgrant : x.pool.granted? waiter = some grant) :
    (x.step (.take waiter timeout late)).Booked := by
  let others := x.pool.mail.filter (·.1 != waiter)
  have hposted : (x.pool.mail.map (·.1)).Nodup := (List.nodup_append.1 horderly.nodup).2.1
  have hmail : x.pool.mail.Perm ((waiter, grant) :: others) := perm_mail hposted hgrant
  let y : Traffic κ τ := { x with calls := x.calls.erase (.waiting waiter timeout late) }
  let z : Traffic κ τ := { y with pool := { x.pool with mail := others } }
  have hy : y.Booked := erase_booked h hc
  have hleases : (grant.lease?.toList ++ z.leases).Perm y.leases := by
    have htaken := perm_filterMap (·.2.lease?) hmail
    exact (List.perm_append_comm_assoc ..).trans (htaken.append_left _).symm
  have hdials : (grant.dial?.toList ++ z.dials).Perm y.dials := by
    have htaken := perm_filterMap (·.2.dial?) hmail
    exact (List.perm_append_comm_assoc ..).trans (htaken.append_left _).symm
  have hz := Ledger.Books.perm hy hleases hdials .rfl
  rw [step, hgrant]
  dsimp only
  rw [if_pos hc]
  exact accept_booked (x := z) hz

theorem reclaim_booked (h : x.Booked) {lease : Handle} (connected : Bool)
    (hh : lease ∈ x.handles) : (x.step (.reclaim lease connected)).Booked := by
  let y : Traffic κ τ := { x with handles := x.handles.erase lease }
  have hleases : (lease :: y.leases).Perm x.leases :=
    ((List.perm_cons_erase hh).append_right _).symm
  have hbooks := Ledger.Books.perm h hleases .rfl .rfl
  rw [step, if_pos hh]
  exact visit_booked (x := y) (hbooks.reclaim x.pool.shut x.pool.clock)

/-- **Every move keeps the books.** -/
theorem step_booked (h : x.Booked) (horderly : x.Orderly) (m : Move τ) : (x.step m).Booked := by
  cases m with
  | arrive =>
    rw [step]
    split <;> exact h
  | enter g =>
    by_cases hc : .arriving ∈ x.calls
    · exact enter_booked h g hc
    · rw [step, if_neg hc]
      exact h
  | connect key timeout =>
    by_cases hc : .connecting key timeout ∈ x.calls
    · exact connect_booked h hc
    · rw [step, if_neg hc]
      exact h
  | take waiter timeout late =>
    cases hgrant : x.pool.granted? waiter with
    | none =>
      rw [step, hgrant]
      exact h
    | some grant =>
      by_cases hc : .waiting waiter timeout late ∈ x.calls
      · exact take_booked h horderly hc hgrant
      · rw [step, hgrant]
        dsimp only
        rw [if_neg hc]
        exact h
  | leave waiter timeout =>
    rw [step]
    split
    · next hc => exact (erase_booked h hc).congr rfl rfl
    · exact h
  | giveUp waiter timeout late =>
    rw [step]
    split
    · next hc => exact erase_booked h hc.1
    · exact h
  | use lease f fails =>
    rw [step]
    split
    · apply update_booked h
      intro s hs
      rw [handled, hs]
      rfl
    · exact h
  | reclaim lease connected =>
    by_cases hh : lease ∈ x.handles
    · exact reclaim_booked h connected hh
    · rw [step, if_neg hh]
      exact h
  | reap g =>
    exact visit_booked (h.clean _ (seen_disposed g x.pool))
  | configure config => exact Ledger.Books.congr h rfl rfl
  | shut => exact h
  | drain =>
    rw [step]
    split
    · exact visit_booked h.drain
    · exact h
  | close id =>
    rw [step]
    split
    · next hid => exact close_booked h hid
    · exact h
  | pass d => exact h

/-! ## The events -/

omit [Connector κ τ] in
-- A socket that was closed is neither held nor about to be closed.
theorem ne_of_closed (h : x.Booked) {id other : Nat} (hid : id ∈ x.pool.closedIds)
    (hother : other ∈ x.leases.map (·.socket) ++ x.closing) : id ≠ other := by
  have hnodup := h.nodup
  rw [List.append_assoc, ← List.append_assoc (x.leases.map (·.socket)), ← List.append_assoc]
    at hnodup
  have hapart := (List.nodup_append.1 hnodup).2.2
  exact (hapart other (List.mem_append_right _ hother) id hid).symm

-- Nothing is done to a socket once it is closed.
theorem step_socket?_of_closed (h : x.Booked) {id : Nat} (hid : id ∈ x.pool.closedIds)
    (m : Move τ) : (x.step m).pool.socket? id = x.pool.socket? id := by
  have heffect := step_effect x m
  generalize (x.step m).pool = p at heffect ⊢
  cases heffect with
  | fill transport connector hc =>
    exact socket?_append x.pool { transport } (h.loose_made (List.mem_append_right _ hid)).2
  | @use lease f fails hh =>
    have hheld : lease.socket ∈ x.leases.map (·.socket) :=
      List.mem_map_of_mem (List.mem_append_left _ hh)
    rw [socket?_update, if_neg (ne_of_closed h hid (List.mem_append_left _ hheld))]
  | close hclosing =>
    rw [socket?_close, if_neg (ne_of_closed h hid (List.mem_append_right _ hclosing))]
  | _ => rfl

-- Closing a socket closes its transport as it is then.
theorem step_close_socket? (h : x.Booked) {id : Nat} (hid : id ∈ x.closing) :
    ∃ s, x.pool.socket? id = some s ∧
      (x.step (.close id)).pool.socket? id = some ⟨Transport.close s.transport, true⟩ := by
  obtain ⟨s, hs⟩ := exists_socket (h.loose_made (List.mem_append_left _ hid))
  refine ⟨s, hs, ?_⟩
  rw [step, if_pos hid]
  dsimp only
  rw [socket?_close, if_pos rfl, hs]
  rfl

-- A socket is closed by the move that does so, and by no other.
theorem closed_of_step {m : Move τ} {id : Nat} (hid : id ∈ (x.step m).pool.closedIds) :
    id ∈ x.pool.closedIds ∨ m = .close id ∧ id ∈ x.closing := by
  have heffect := step_effect x m
  generalize (x.step m).pool = p at heffect hid
  cases heffect with
  | use hh =>
    rw [closedIds, events_update] at hid
    exact .inl hid
  | close hclosing =>
    rw [closedIds, events_close] at hid
    rcases List.mem_cons.1 hid with rfl | hid
    · exact .inr ⟨rfl, hclosing⟩
    · exact .inl hid
  | _ => exact .inl hid

theorem step_made (h : x.pool.madeIds = (List.range' 1 x.pool.sockets.length).reverse)
    (m : Move τ) :
    (x.step m).pool.madeIds = (List.range' 1 (x.step m).pool.sockets.length).reverse := by
  have heffect := step_effect x m
  generalize (x.step m).pool = p at heffect ⊢
  cases heffect with
  | fill transport connector hc =>
    rw [List.length_append, List.length_singleton, List.range'_1_concat, List.reverse_append, ← h,
      Nat.add_comm 1]
    rfl
  | use hh =>
    rw [madeIds, events_update, length_update]
    exact h
  | close hid =>
    rw [madeIds, events_close, length_close]
    exact h
  | _ => exact h

theorem step_recorded (h : Recorded x.pool) (hbooked : x.Booked) (m : Move τ) :
    Recorded (x.step m).pool where
  made := step_made h.made m
  closed := by
    intro id hid
    rcases closed_of_step hid with hbefore | ⟨rfl, hclosing⟩
    · rw [step_socket?_of_closed hbooked hbefore m]
      exact h.closed id hbefore
    · obtain ⟨s, -, hclosed⟩ := step_close_socket? hbooked hclosing
      exact ⟨s.transport, hclosed⟩

/-! ## After the shutdown -/

theorem shut_step (h : x.pool.shut = true) (m : Move τ) : (x.step m).pool.shut = true := by
  have heffect := step_effect x m
  generalize (x.step m).pool = p at heffect ⊢
  cases heffect with
  | use hh => rwa [shut_update]
  | close hid => rwa [shut_close]
  | shut => rfl
  | _ => exact h

-- A pool that is shut down parks nothing.
theorem step_parked (hshut : x.pool.shut = true) (h : x.pool.ledger.parked = []) (m : Move τ) :
    (x.step m).pool.ledger.parked = [] := by
  have heffect := step_effect x m
  generalize (x.step m).pool = p at heffect ⊢
  cases heffect with
  | enter hc => exact Ledger.enter_parked h
  | abandon connector hc => exact (x.pool.ledger.abandon_parked _).trans h
  | use hh => rwa [ledger_update]
  | reclaim hdisposed hh =>
    dsimp only
    rw [hshut, Ledger.reclaim_parked, h]
  | reap => exact Ledger.clean_parked h
  | drain => rfl
  | close hid => rwa [ledger_close]
  | idle | fill | take | leave | configure | shut | pass => exact h

-- Only the visit of the shutdown marks it as made.
theorem drained_of_step {m : Move τ} (h : (x.step m).drained = true) :
    x.drained = true ∨ ((x.step m).pool.shut = true ∧ (x.step m).pool.ledger.parked = []) := by
  cases m with
  | enter g =>
    rw [step] at h
    split at h
    · rw [proceed_drained] at h
      exact .inl h
    · exact .inl h
  | take waiter timeout late =>
    rw [step] at h
    split at h
    · exact .inl h
    · split at h
      · rw [accept_drained] at h
        exact .inl h
      · exact .inl h
  | drain =>
    by_cases hgo : x.pool.shut ∧ !x.drained
    · rw [step, if_pos hgo]
      exact .inr ⟨hgo.1, rfl⟩
    · rw [step, if_neg hgo] at h
      exact .inl h
  | arrive | connect | leave | giveUp | use | reclaim | close =>
    rw [step] at h
    split at h <;> exact .inl h
  | reap | configure | shut | pass => exact .inl h

theorem step_sound (h : x.Sound) (m : Move τ) : (x.step m).Sound where
  orderly := step_orderly h.orderly m
  booked := step_booked h.booked h.orderly m
  recorded := step_recorded h.recorded h.booked m
  drained hd := by
    rcases drained_of_step hd with hd | hnow
    · obtain ⟨hshut, hparked⟩ := h.drained hd
      exact ⟨shut_step hshut m, step_parked hshut hparked m⟩
    · exact hnow

theorem run_sound (h : x.Sound) (moves : List (Move τ)) : (x.run moves).Sound :=
  run_induction (P := Sound) (fun _ m hx => step_sound hx m) h moves

end Traffic

end Pool

end LineFrame
