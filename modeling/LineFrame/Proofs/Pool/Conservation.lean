import LineFrame.Pool.Dialer
import LineFrame.Proofs.Pool.Custody

/-!
# Sockets are conserved

However the moves of those who use a pool come one after the other, each socket that was ever made
is in one place: parked, held by one handle, in one grant on its way, about to be closed, or closed
(`sockets_conserved`).  After a shutdown nothing is parked again, so that in the end all are closed.
-/

namespace LineFrame

namespace Pool

variable {κ τ : Type}

/-! ## Events -/

theorem count_created (p : Pool κ τ) (id : Nat) :
    p.events.count (.created id) = p.madeIds.count id := by
  rw [madeIds, List.count_filterMap, List.count_eq_countP]
  apply List.countP_congr
  intro e _
  cases e <;> simp [Event.made?]

theorem count_closed (p : Pool κ τ) (id : Nat) :
    p.events.count (.closed id) = p.closedIds.count id := by
  rw [closedIds, List.count_filterMap, List.count_eq_countP]
  apply List.countP_congr
  intro e _
  cases e <;> simp [Event.closed?]

theorem closedIds_foldl_close [Transport τ] (p : Pool κ τ) (ids : List Nat) :
    (ids.foldl close p).closedIds = ids.reverse ++ p.closedIds := by
  rw [closedIds, (p.foldl_close_closes ids).events, List.filterMap_append, List.filterMap_reverse,
    List.filterMap_map]
  exact congrArg (List.reverse · ++ _) List.filterMap_some

namespace Traffic

/-- The sockets that handles are held for. -/
def lentIds (x : Traffic κ τ) : List Nat := x.handles.map (·.socket)

/-- The sockets in grants on their way. -/
def grantedIds (x : Traffic κ τ) : List Nat := (leasesOf x.pool.mail).map (·.socket)

/-- The sockets that somebody has or can get. -/
def liveIds (x : Traffic κ τ) : List Nat :=
  x.pool.ledger.parkedIds ++ x.lentIds ++ x.grantedIds

variable {x : Traffic κ τ}

theorem places_perm [Transport τ] (h : x.Booked) :
    (x.liveIds ++ x.closing ++ x.pool.closedIds).Perm (List.range' 1 x.pool.sockets.length) := by
  have hsockets := h.sockets
  rw [leases, List.map_append] at hsockets
  rw [liveIds, lentIds, grantedIds]
  simpa only [List.append_assoc] using hsockets

variable [Transport τ] [Connector κ τ]

-- Events are only added.
theorem step_events (x : Traffic κ τ) (m : Move τ) :
    x.pool.events <:+ (x.step m).pool.events := by
  have heffect := step_effect x m
  generalize (x.step m).pool = p at heffect ⊢
  cases heffect with
  | fill transport connector hc => exact List.suffix_cons ..
  | use hh => simp
  | close hid => simp
  | _ => exact List.suffix_rfl

theorem run_events (x : Traffic κ τ) (moves : List (Move τ)) :
    x.pool.events <:+ (x.run moves).pool.events :=
  run_induction (P := fun y => x.pool.events <:+ y.pool.events)
    (fun y m hy => hy.trans (step_events y m)) List.suffix_rfl moves

-- A socket that was closed is not lent again.
theorem not_live_of_closed (h : x.Sound) {id : Nat} (hid : id ∈ x.pool.closedIds)
    (more : List (Move τ)) : id ∉ (x.run more).liveIds := by
  let y := x.run more
  have hclosed : id ∈ y.pool.closedIds :=
    ((run_events x more).filterMap Event.closed?).subset hid
  have hnodup : (y.liveIds ++ y.closing ++ y.pool.closedIds).Nodup :=
    (places_perm (run_sound h more).booked).nodup_iff.2 (List.nodup_range' 1)
  intro hlive
  exact (List.nodup_append.1 hnodup).2.2 id (List.mem_append_left _ hlive) id hclosed rfl

-- Nothing is done to a socket once it is closed.
theorem run_socket?_of_closed (h : x.Sound) {id : Nat} (hid : id ∈ x.pool.closedIds)
    (more : List (Move τ)) : (x.run more).pool.socket? id = x.pool.socket? id := by
  have hkept : ∀ y : Traffic κ τ, ∀ m, y.Sound ∧ x.pool.events <:+ y.pool.events ∧
      y.pool.socket? id = x.pool.socket? id → (y.step m).Sound ∧
      x.pool.events <:+ (y.step m).pool.events ∧
      (y.step m).pool.socket? id = x.pool.socket? id := by
    rintro y m ⟨hy, hevents, hsame⟩
    have hclosed : id ∈ y.pool.closedIds := (hevents.filterMap Event.closed?).subset hid
    exact ⟨step_sound hy m, hevents.trans (step_events y m),
      (step_socket?_of_closed hy.booked hclosed m).trans hsame⟩
  exact (run_induction hkept ⟨h, List.suffix_rfl, rfl⟩ more).2.2

theorem drained_step (h : x.drained = true) (m : Move τ) : (x.step m).drained = true := by
  cases m with
  | enter g =>
    rw [step]
    split
    · dsimp only
      rw [proceed_drained]
      exact h
    · exact h
  | take waiter timeout late =>
    rw [step]
    split
    · exact h
    · split
      · dsimp only
        rw [accept_drained]
        exact h
      · exact h
  | drain =>
    rw [step]
    split
    · rfl
    · exact h
  | arrive | connect | leave | giveUp | use | reclaim | close =>
    rw [step]
    split <;> exact h
  | reap | configure | shut | pass => exact h

theorem drained_run (h : x.drained = true) (moves : List (Move τ)) :
    (x.run moves).drained = true :=
  run_induction (P := fun y => y.drained = true) (fun _ m hy => drained_step hy m) h moves

-- Once a shutdown has made its visit, nothing is parked again.
theorem not_parked_of_drained (h : x.Sound) (hdrained : x.drained = true)
    (more : List (Move τ)) : (x.run more).pool.ledger.parked = [] :=
  ((run_sound h more).drained (drained_run hdrained more)).2

omit [Connector κ τ] in
-- When nothing is held, and nothing is on its way, only closing is left to do.
theorem closing_perm_of_drained (h : x.Sound) (hdrained : x.drained = true)
    (hhandles : x.handles = []) (hmail : x.pool.mail = []) :
    (x.closing ++ x.pool.closedIds).Perm (List.range' 1 x.pool.sockets.length) := by
  have hplaces := places_perm h.booked
  have hparked : x.pool.ledger.parkedIds = [] := by
    rw [Ledger.parkedIds, (h.drained hdrained).2, List.map_nil]
  have hlive : x.liveIds = [] := by
    rw [liveIds, lentIds, grantedIds, hparked, hhandles, hmail]
    rfl
  rwa [hlive, List.nil_append] at hplaces

theorem closed_perm_of_drained (h : x.Sound) (hdrained : x.drained = true)
    (hhandles : x.handles = []) (hmail : x.pool.mail = []) :
    (x.run (x.closing.map .close)).pool.closedIds.Perm
      (List.range' 1 x.pool.sockets.length) := by
  have hall : x.closing = x.closing ++ [] := (List.append_nil _).symm
  rw [run_close hall]
  dsimp only
  rw [closedIds_foldl_close]
  exact (x.closing.reverse_perm.append_right _).trans
    (closing_perm_of_drained h hdrained hhandles hmail)

/-- **Sockets are conserved.**  Whatever moves are made, in whatever order, each socket that was
ever made is parked, held by one handle, in one grant on its way, about to be closed, or closed, and
only one of these.  It was created once, and closed once at most.  Closing it closes its transport,
as it is then; from then on nothing is done to either, and nobody gets the socket again.  A grant is
only sent to a call that listens and was sent nothing before, so none is lost.

From the visit of a shutdown on nothing is parked.  Then, as soon as no handle is held and no grant
is on its way, all sockets are closed or about to be closed, and closing the latter closes each of
all sockets once, and all their transports. -/
theorem sockets_conserved (connector : κ) (config : Config) (moves : List (Move τ)) :
    let x := (start connector config : Traffic κ τ).run moves
    let all := List.range' 1 x.pool.sockets.length
    (x.pool.ledger.parkedIds ++ x.lentIds ++ x.grantedIds ++ x.closing ++
        x.pool.closedIds).Perm all ∧
      (∀ id ∈ all, x.pool.events.count (.created id) = 1 ∧
        x.pool.events.count (.closed id) ≤ 1) ∧
      (∀ id ∈ x.closing, ∃ s, x.pool.socket? id = some s ∧
        (x.step (.close id)).pool.socket? id = some ⟨Transport.close s.transport, true⟩) ∧
      (∀ id, .closed id ∈ x.pool.events →
        (∃ t, x.pool.socket? id = some ⟨Transport.close t, true⟩) ∧
          ∀ more, (x.run more).pool.socket? id = x.pool.socket? id ∧
            id ∉ (x.run more).liveIds) ∧
      (∀ w ∈ x.pool.ledger.waiters, x.pool.granted? w = none ∧
        ∃ timeout, .waiting w timeout false ∈ x.calls) ∧
      (x.drained = true →
        (∀ more, (x.run more).pool.ledger.parked = []) ∧
          (x.handles = [] → x.pool.mail = [] →
            (x.closing ++ x.pool.closedIds).Perm all ∧
              let last := (x.run (x.closing.map .close)).pool
              last.closedIds.Perm all ∧
                ∀ id ∈ all, ∃ t, last.socket? id = some ⟨Transport.close t, true⟩)) := by
  intro x all
  have h : x.Sound := run_sound (start_sound connector config) moves
  have hplaces := places_perm h.booked
  refine ⟨hplaces, ?_, fun id hid => step_close_socket? h.booked hid, ?_,
    fun w hw => queued_listens h.orderly hw, ?_⟩
  · intro id hid
    have hcreated : x.pool.madeIds.count id = 1 := by
      have hpos : 0 < all.count id := List.count_pos_iff.2 hid
      have hle : all.count id ≤ 1 := List.nodup_iff_count.1 (List.nodup_range' 1) id
      rw [h.recorded.made, List.count_reverse]
      exact Nat.le_antisymm hle hpos
    have hclosed : x.pool.closedIds.Nodup :=
      (List.nodup_append.1 (hplaces.nodup_iff.2 (List.nodup_range' 1))).2.1
    rw [count_created, count_closed]
    exact ⟨hcreated, List.nodup_iff_count.1 hclosed id⟩
  · intro id hevent
    have hid : id ∈ x.pool.closedIds := List.mem_filterMap.2 ⟨_, hevent, rfl⟩
    refine ⟨h.recorded.closed id hid, fun more => ?_⟩
    exact ⟨run_socket?_of_closed h hid more, not_live_of_closed h hid more⟩
  · intro hdrained
    refine ⟨not_parked_of_drained h hdrained, fun hhandles hmail => ?_⟩
    have hall := closed_perm_of_drained h hdrained hhandles hmail
    refine ⟨closing_perm_of_drained h hdrained hhandles hmail, hall, fun id hid => ?_⟩
    exact (run_sound h _).recorded.closed id (hall.mem_iff.2 hid)

/-- A socket is lent when the pool is shut down, and comes back afterwards. -/
theorem sockets_conserved_of_shutdown :
    let here : Glimpse := { connected := fun _ => true }
    let moves : List (Move Link) := [.arrive, .enter here, .connect 0 (.ofSecs 10), .shut, .drain,
      .reclaim ⟨0, 1⟩ true]
    let x := (start ({ endpoint := "mock:0" } : Dialer) {}).run moves
    let last := (x.run (x.closing.map .close)).pool
    x.drained = true ∧ x.handles = [] ∧ x.pool.mail = [] ∧ x.closing = [1] ∧
      last.closedIds.Perm [1] ∧ ∃ t, last.socket? 1 = some ⟨Transport.close t, true⟩ := by
  intro here moves x last
  have hdrained : x.drained = true := by decide +kernel
  have hhandles : x.handles = [] := by decide +kernel
  have hmail : x.pool.mail = [] := by decide +kernel
  have hclosing : x.closing = [1] := by decide +kernel
  have hall : List.range' 1 x.pool.sockets.length = [1] := by decide +kernel
  have hclosed := (((sockets_conserved _ _ moves).2.2.2.2.2 hdrained).2 hhandles hmail).2
  dsimp only at hclosed
  rw [hall] at hclosed
  exact ⟨hdrained, hhandles, hmail, hclosing, hclosed.1, hclosed.2 1 List.mem_cons_self⟩

end Traffic

end Pool

end LineFrame
