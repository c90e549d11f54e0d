import LineFrame.Proofs.Pool.Moves
import LineFrame.Proofs.Pool.Visits

/-!
# Calls that wait

A call that is in the queue, or that a grant was sent to, listens for it, and is in one of these
places only (`Queue`).  So a grant that is sent finds a call that listens and was sent nothing
before, and nothing that is sent is lost.
-/

namespace LineFrame

namespace Pool

/-- The number under which a call listens for a grant. -/
def Call.waiter? : Call → Option Nat
  | .waiting waiter _ _ => some waiter
  | .arriving | .connecting _ _ => none

def listeners (calls : List Call) : List Nat := calls.filterMap Call.waiter?

/-- The calls in the queue and those that a grant was sent to, next to the calls in progress and the
next number to be given. -/
structure Queue (waiters posted : List Nat) (calls : List Call) (next : Nat) : Prop where
  nodup : (waiters ++ posted).Nodup
  heard : ∀ w ∈ waiters ++ posted, w ∈ listeners calls
  distinct : (listeners calls).Nodup
  fresh : ∀ w ∈ listeners calls, w < next
  late : ∀ w timeout, .waiting w timeout true ∈ calls → w ∉ waiters

theorem perm_filterMap {α β : Type} (f : α → Option β) {l rest : List α} {a : α}
    (h : l.Perm (a :: rest)) : (l.filterMap f).Perm ((f a).toList ++ rest.filterMap f) := by
  refine (h.filterMap f).trans ?_
  rw [List.filterMap_cons]
  cases f a <;> exact .rfl

namespace Queue

variable {waiters posted : List Nat} {calls : List Call} {next : Nat}

-- Calls that do not listen come and go.
theorem other {calls' : List Call} (h : Queue waiters posted calls next)
    (hsame : (listeners calls').Perm (listeners calls))
    (hlate : ∀ w timeout, .waiting w timeout true ∈ calls' → .waiting w timeout true ∈ calls) :
    Queue waiters posted calls' next where
  nodup := h.nodup
  heard w hw := hsame.mem_iff.2 (h.heard w hw)
  distinct := hsame.nodup_iff.2 h.distinct
  fresh w hw := h.fresh w (hsame.mem_iff.1 hw)
  late w timeout hw := h.late w timeout (hlate w timeout hw)

-- A call that does not listen is over, or goes on.
theorem erase {c : Call} (h : Queue waiters posted calls next) (hc : c ∈ calls)
    (hnone : c.waiter? = none) : Queue waiters posted (calls.erase c) next := by
  have hperm := perm_filterMap Call.waiter? (List.perm_cons_erase hc)
  rw [hnone] at hperm
  exact h.other hperm.symm fun w timeout hw => List.mem_of_mem_erase hw

-- Calls leave the queue, or take what was sent to them.
theorem fewer {waiters' posted' : List Nat} (h : Queue waiters posted calls next)
    (hwaiters : waiters'.Sublist waiters) (hposted : posted'.Sublist posted) :
    Queue waiters' posted' calls next where
  nodup := h.nodup.sublist (hwaiters.append hposted)
  heard w hw := h.heard w ((hwaiters.append hposted).subset hw)
  distinct := h.distinct
  fresh := h.fresh
  late w timeout hw hmem := h.late w timeout hw (hwaiters.subset hmem)

-- The front of the queue is served.
theorem send {served : List Nat} (h : Queue (served ++ waiters) posted calls next) :
    Queue waiters (posted ++ served) calls next where
  nodup := by
    refine (List.Perm.nodup_iff ?_).2 h.nodup
    rw [List.perm_iff_count]
    intro w
    simp only [List.count_append]
    omega
  heard w hw := by
    apply h.heard
    simp only [List.mem_append] at hw ⊢
    rcases hw with hw | hw | hw
    · exact .inl (.inr hw)
    · exact .inr hw
    · exact .inl (.inl hw)
  distinct := h.distinct
  fresh := h.fresh
  late w timeout hw hmem := h.late w timeout hw (List.mem_append_right _ hmem)

-- A call joins the queue under a new number.
theorem join (timeout : Duration) (h : Queue waiters posted calls next) :
    Queue (waiters ++ [next]) posted (.waiting next timeout false :: calls) (next + 1) := by
  have hnew : next ∉ listeners calls := fun hmem => Nat.lt_irrefl _ (h.fresh _ hmem)
  have hposts : next ∉ waiters ++ posted := fun hmem => hnew (h.heard _ hmem)
  exact {
    nodup := by
      have hcons : (next :: (waiters ++ posted)).Nodup := List.nodup_cons.2 ⟨hposts, h.nodup⟩
      refine (List.Perm.nodup_iff ?_).2 hcons
      rw [List.append_assoc]
      exact List.perm_middle
    heard := fun w hw => by
      show w ∈ next :: listeners calls
      simp only [List.mem_append, List.mem_singleton] at hw
      rcases hw with (hw | rfl) | hw
      · exact List.mem_cons_of_mem _ (h.heard w (List.mem_append_left _ hw))
      · exact List.mem_cons_self
      · exact List.mem_cons_of_mem _ (h.heard w (List.mem_append_right _ hw))
    distinct := List.nodup_cons.2 ⟨hnew, h.distinct⟩
    fresh := fun w hw => by
      rcases List.mem_cons.1 (show w ∈ next :: listeners calls from hw) with rfl | hw
      · exact Nat.lt_succ_self _
      · exact Nat.lt_succ_of_lt (h.fresh w hw)
    late := fun w t hw hmem => by
      have hw : .waiting w t true ∈ calls := by simpa using hw
      have hlisten : w ∈ listeners calls := List.mem_filterMap.2 ⟨_, hw, rfl⟩
      rcases List.mem_append.1 hmem with hmem | hmem
      · exact h.late w t hw hmem
      · rw [List.mem_singleton.1 hmem] at hlisten
        exact hnew hlisten }

-- A call listens under a number of its own.
theorem not_listening_erase {w : Nat} {timeout : Duration} {late : Bool}
    (h : Queue waiters posted calls next) (hc : .waiting w timeout late ∈ calls) :
    w ∉ listeners (calls.erase (.waiting w timeout late)) := by
  have hperm : (listeners calls).Perm (w :: listeners (calls.erase (.waiting w timeout late))) :=
    perm_filterMap Call.waiter? (List.perm_cons_erase hc)
  exact (List.nodup_cons.1 (hperm.nodup_iff.1 h.distinct)).1

-- A call that is in neither place stops listening.
theorem hangUp {w : Nat} {timeout : Duration} {late : Bool} (h : Queue waiters posted calls next)
    (hc : .waiting w timeout late ∈ calls) (hw : w ∉ waiters ++ posted) :
    Queue waiters posted (calls.erase (.waiting w timeout late)) next := by
  have hperm : (listeners calls).Perm (w :: listeners (calls.erase (.waiting w timeout late))) :=
    perm_filterMap Call.waiter? (List.perm_cons_erase hc)
  have hdistinct := hperm.nodup_iff.1 h.distinct
  exact {
    nodup := h.nodup
    heard := fun v hv => by
      rcases List.mem_cons.1 (hperm.mem_iff.1 (h.heard v hv)) with rfl | hmem
      · exact absurd hv hw
      · exact hmem
    distinct := (List.nodup_cons.1 hdistinct).2
    fresh := fun v hv => h.fresh v (hperm.mem_iff.2 (List.mem_cons_of_mem _ hv))
    late := fun v t hv => h.late v t (List.mem_of_mem_erase hv) }

-- A call whose time is up leaves the queue, and listens on.
theorem expire {w : Nat} {timeout : Duration} (h : Queue waiters posted calls next)
    (hc : .waiting w timeout false ∈ calls) :
    Queue (waiters.filter (· != w)) posted
      (.waiting w timeout true :: calls.erase (.waiting w timeout false)) next := by
  have hperm : (listeners calls).Perm (w :: listeners (calls.erase (.waiting w timeout false))) :=
    perm_filterMap Call.waiter? (List.perm_cons_erase hc)
  have hfewer : Queue (waiters.filter (· != w)) posted calls next :=
    h.fewer List.filter_sublist (.refl posted)
  exact {
    nodup := hfewer.nodup
    heard := fun v hv => hperm.mem_iff.1 (hfewer.heard v hv)
    distinct := hperm.nodup_iff.1 h.distinct
    fresh := fun v hv => h.fresh v (hperm.mem_iff.2 hv)
    late := fun v t hv hmem => by
      obtain ⟨hmem, hne⟩ := List.mem_filter.1 hmem
      rcases List.mem_cons.1 hv with heq | hv
      · cases heq
        simp at hne
      · exact h.late v t (List.mem_of_mem_erase hv) hmem }

-- A visit serves the queue.
theorem served {l l' : Ledger} {mail send : List Delivery}
    (h : Queue l.waiters (mail.map (·.1)) calls l.nextWaiter) (hserves : l.Serves [] send l') :
    Queue l'.waiters ((mail ++ send).map (·.1)) calls l'.nextWaiter := by
  have hwaiters := (List.append_nil _).symm.trans hserves.waiters
  have hnext : l'.nextWaiter = l.nextWaiter := hserves.nextWaiter
  rw [hwaiters] at h
  rw [List.map_append, hnext]
  exact h.send

end Queue

/-! ## The mail -/

-- A call is sent one grant at most, so that taking it leaves all others.
theorem perm_mail {mail : List Delivery} {w : Nat} {grant : Grant}
    (hnodup : (mail.map (·.1)).Nodup) (hgrant : mail.lookup w = some grant) :
    mail.Perm ((w, grant) :: mail.filter (·.1 != w)) := by
  induction mail with
  | nil => cases hgrant
  | cons d mail ih =>
    obtain ⟨v, g⟩ := d
    rw [List.map_cons, List.nodup_cons] at hnodup
    by_cases hv : w = v
    · subst hv
      have hothers : mail.filter (·.1 != w) = mail := by
        rw [List.filter_eq_self]
        intro d hd
        have hmem : d.1 ∈ mail.map (·.1) := List.mem_map_of_mem hd
        have hne : d.1 ≠ w := fun heq => hnodup.1 (heq ▸ hmem)
        simpa using hne
      rw [List.lookup_cons_self, Option.some.injEq] at hgrant
      subst hgrant
      simp [hothers]
    · have hlater : mail.lookup w = some grant := by
        rw [List.lookup_cons, beq_eq_false_iff_ne.2 hv] at hgrant
        exact hgrant
      have hkept : ((v, g) :: mail).filter (·.1 != w) = (v, g) :: mail.filter (·.1 != w) := by
        have hne : v ≠ w := fun heq => hv heq.symm
        simp [hne]
      rw [hkept]
      exact ((ih hnodup.2 hlater).cons _).trans (List.Perm.swap ..)

namespace Traffic

variable {κ τ : Type}

/-- The calls that wait are in order. -/
def Orderly (x : Traffic κ τ) : Prop :=
  Queue x.pool.ledger.waiters (x.pool.mail.map (·.1)) x.calls x.pool.ledger.nextWaiter

theorem start_orderly (connector : κ) (config : Config) :
    (start connector config : Traffic κ τ).Orderly where
  nodup := List.nodup_nil
  heard := nofun
  distinct := List.nodup_nil
  fresh := nofun
  late := nofun

-- A call that has made its visit listens if it has joined the queue.
theorem proceed_orderly {x : Traffic κ τ} {entry : Ledger.Entry} {duties : Ledger.Duties}
    {ledger : Ledger} (h : x.Orderly)
    (hserves : x.pool.ledger.Serves entry.waits duties.send ledger) :
    ((x.visit duties ledger).proceed entry).Orderly := by
  cases entry with
  | ready key socket => exact Queue.served h hserves
  | connect key timeout =>
    have hserved := Queue.served h hserves
    exact hserved.other .rfl fun w t hw => by simpa [proceed, visit] using hw
  | wait waiter timeout =>
    have hnumbers : [waiter] = List.range' x.pool.ledger.nextWaiter 1 := hserves.numbers
    have hnumber : waiter = x.pool.ledger.nextWaiter := by simpa using hnumbers
    have hwaiters : x.pool.ledger.waiters ++ [waiter] = _ := hserves.waiters
    have hjoined := Queue.join timeout h
    rw [← hnumber, hwaiters] at hjoined
    have hnext : ledger.nextWaiter = waiter + 1 := by
      rw [hserves.nextWaiter, hnumber]
      rfl
    show Queue ledger.waiters ((x.pool.mail ++ duties.send).map (·.1)) _ ledger.nextWaiter
    rw [List.map_append, hnext]
    exact hjoined.send

theorem giveUp_orderly {x : Traffic κ τ} (h : x.Orderly) {waiter : Nat} {timeout : Duration}
    {late : Bool} (hc : .waiting waiter timeout late ∈ x.calls)
    (hgrant : x.pool.granted? waiter = none)
    (hqueued : late = true ∨ waiter ∉ x.pool.ledger.waiters) :
    Queue x.pool.ledger.waiters (x.pool.mail.map (·.1))
      (x.calls.erase (.waiting waiter timeout late)) x.pool.ledger.nextWaiter := by
  apply Queue.hangUp h hc
  have hposted : waiter ∉ x.pool.mail.map (·.1) := by
    intro hmem
    obtain ⟨d, hd, hwaiter⟩ := List.mem_map.1 hmem
    have hne := List.lookup_eq_none_iff.1 hgrant d hd
    simp [hwaiter] at hne
  have hwaiters : waiter ∉ x.pool.ledger.waiters := by
    rcases hqueued with rfl | hqueued
    · exact h.late waiter timeout hc
    · exact hqueued
  intro hmem
  exact (List.mem_append.1 hmem).elim hwaiters hposted

/-- **A call in the queue listens, and was sent nothing yet.**  So a grant that is sent to it
arrives. -/
theorem queued_listens {x : Traffic κ τ} (h : x.Orderly) {w : Nat}
    (hw : w ∈ x.pool.ledger.waiters) :
    x.pool.granted? w = none ∧ ∃ timeout, .waiting w timeout false ∈ x.calls := by
  refine ⟨?_, ?_⟩
  · rw [granted?, List.lookup_eq_none_iff]
    intro d hd
    have hne := (List.nodup_append.1 h.nodup).2.2 w hw d.1 (List.mem_map_of_mem hd)
    simpa using hne
  · obtain ⟨c, hc, hwaiter⟩ := List.mem_filterMap.1 (h.heard w (List.mem_append_left _ hw))
    cases c with
    | arriving => cases hwaiter
    | connecting key timeout => cases hwaiter
    | waiting v timeout late =>
      cases hwaiter
      cases late with
      | false => exact ⟨timeout, hc⟩
      | true => exact absurd hw (h.late w timeout hc)

variable [Transport τ] [Connector κ τ]

theorem connect_orderly {x : Traffic κ τ} (h : x.Orderly) {key : Nat} {timeout : Duration}
    (hc : .connecting key timeout ∈ x.calls) : (x.step (.connect key timeout)).Orderly := by
  have herased := Queue.erase h hc rfl
  rw [step, if_pos hc, Pool.connect]
  dsimp only
  split
  · exact herased
  · exact herased.served (x.pool.ledger.abandon_serves key)

theorem take_orderly {x : Traffic κ τ} (h : x.Orderly) {waiter : Nat} {timeout : Duration}
    {late : Bool} {grant : Grant} (hc : .waiting waiter timeout late ∈ x.calls)
    (hgrant : x.pool.granted? waiter = some grant) :
    (x.step (.take waiter timeout late)).Orderly := by
  let others := x.pool.mail.filter (·.1 != waiter)
  have hposted : (x.pool.mail.map (·.1)).Nodup := (List.nodup_append.1 h.nodup).2.1
  have hmail : x.pool.mail.Perm ((waiter, grant) :: others) := perm_mail hposted hgrant
  have hqueued : waiter ∉ x.pool.ledger.waiters := by
    intro hmem
    have hmailed : waiter ∈ x.pool.mail.map (·.1) :=
      (hmail.map (·.1)).mem_iff.2 List.mem_cons_self
    exact (List.nodup_append.1 h.nodup).2.2 waiter hmem waiter hmailed rfl
  have hothers : waiter ∉ others.map (·.1) := by
    simp [others]
  have hfewer : Queue x.pool.ledger.waiters (others.map (·.1)) x.calls x.pool.ledger.nextWaiter :=
    h.fewer (.refl _) (List.filter_sublist.map _)
  have hdone := hfewer.hangUp hc fun hmem => (List.mem_append.1 hmem).elim hqueued hothers
  rw [step, hgrant]
  dsimp only
  rw [if_pos hc]
  cases grant with
  | socket key id => exact hdone
  | seat key => exact hdone.other .rfl fun w t hw => by simpa [accept] using hw

/-- **Every move keeps the calls that wait in order.** -/
theorem step_orderly {x : Traffic κ τ} (h : x.Orderly) (m : Move τ) : (x.step m).Orderly := by
  cases m with
  | arrive =>
    rw [step]
    split
    · exact h
    · exact h.other .rfl fun w t hw => by simpa using hw
  | enter g =>
    rw [step]
    split
    · next hc =>
      let y : Traffic κ τ := { x with calls := x.calls.erase .arriving }
      have hy : y.Orderly := Queue.erase h hc rfl
      exact proceed_orderly hy (x.pool.ledger.enter_serves _ _)
    · exact h
  | connect key timeout =>
    by_cases hc : .connecting key timeout ∈ x.calls
    · exact connect_orderly h hc
    · rw [step, if_neg hc]
      exact h
  | take waiter timeout late =>
    cases hgrant : x.pool.granted? waiter with
    | none =>
      rw [step, hgrant]
      exact h
    | some grant =>
      by_cases hc : .waiting waiter timeout late ∈ x.calls
      · exact take_orderly h hc hgrant
      · rw [step, hgrant]
        dsimp only
        rw [if_neg hc]
        exact h
  | leave waiter timeout =>
    rw [step]
    split
    · next hc => exact h.expire hc
    · exact h
  | giveUp waiter timeout late =>
    rw [step]
    split
    · next hc => exact giveUp_orderly h hc.1 hc.2.1 hc.2.2
    · exact h
  | use c f fails =>
    rw [step]
    split
    · rw [Orderly, ledger_update, mail_update]
      exact h
    · exact h
  | reclaim c connected =>
    rw [step]
    split
    · exact Queue.served h (x.pool.ledger.reclaim_serves _ _ _ _ _)
    · exact h
  | reap g => exact Queue.served h (x.pool.ledger.clean_serves _ _)
  | configure config => exact h
  | shut => exact h
  | drain =>
    rw [step]
    split
    · show Queue [] ((x.pool.mail ++ []).map Prod.fst) x.calls x.pool.ledger.nextWaiter
      rw [List.append_nil]
      exact h.fewer (List.nil_sublist _) (.refl _)
    · exact h
  | close id =>
    rw [step]
    split
    · rw [Orderly, ledger_close, mail_close]
      exact h
    · exact h
  | pass d => exact h

end Traffic

end Pool

end LineFrame
