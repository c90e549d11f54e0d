import LineFrame.Pool.Basic
import LineFrame.Proofs.Transport.Operations

/-!
# Pools seen through a view

Of its sockets a pool looks at nothing but whether they are connected, and of its connector at
nothing but what it connects.  So a pool whose sockets are seen through a view that keeps this lends
and takes back as before: each operation commutes with the view.
-/

namespace LineFrame

namespace Pool.Socket

variable {σ τ : Type}

def map (view : σ → τ) (s : Socket σ) : Socket τ := ⟨view s.transport, s.disposed⟩

-- An operation fails on a socket that was disposed of, and is one of the transport otherwise.
theorem run_cases {α : Type} {op : σ → Except IoError α × σ} {s s' : Socket σ}
    {found : Except IoError α} (h : run op s = (found, s')) :
    s.disposed = true ∧ found = .error .disposed ∧ s' = s ∨
      s.disposed = false ∧ op s.transport = (found, s'.transport) ∧
        s'.disposed = spoils found := by
  rw [run] at h
  split at h
  · next hdisposed =>
    cases h
    exact .inl ⟨hdisposed, rfl, rfl⟩
  · next hlive =>
    cases h
    exact .inr ⟨Bool.not_eq_true _ ▸ hlive, rfl, rfl⟩

theorem run_of_live {α : Type} {op : σ → Except IoError α × σ} {s : Socket σ} {t : σ}
    {found : Except IoError α} (hs : s.disposed = false) (h : op s.transport = (found, t)) :
    run op s = (found, ⟨t, spoils found⟩) := by
  rw [run, hs, h]
  rfl

theorem run_map {α : Type} {view : σ → τ} {f : σ → Except IoError α × σ}
    {g : τ → Except IoError α × τ} {s s' : Socket σ} {found : Except IoError α}
    (hg : ∀ {u}, f s.transport = (found, u) → g (view s.transport) = (found, view u))
    (h : run f s = (found, s')) : run g (s.map view) = (found, s'.map view) := by
  rcases run_cases h with ⟨hdisposed, rfl, rfl⟩ | ⟨hlive, hf, hspoils⟩
  · exact if_pos hdisposed
  · have hrun : run g (s.map view) = _ := run_of_live hlive (hg hf)
    rw [hrun, map, hspoils]

section

variable [Transport σ] [Transport τ] {view : σ → τ}

theorem sendsThrough_map (hview : Transport.SendsThrough view) :
    Transport.SendsThrough (map view) where
  write := run_map hview.write
  flush := run_map hview.flush

theorem throughBut_map {but : IoError → Prop} (hview : Transport.ThroughBut but view) :
    Transport.ThroughBut but (map view) where
  toSendsThrough := sendsThrough_map hview.toSendsThrough
  read h hfound := run_map (fun hread => hview.read hread hfound) h

end

end Pool.Socket

namespace Pool

variable {κ κ' τ τ' : Type}

/-- The pool with another connector, and with its sockets seen through a view. -/
def map (dial : κ → κ') (view : τ → τ') (p : Pool κ τ) : Pool κ' τ' :=
  { p with connector := dial p.connector, sockets := p.sockets.map (Socket.map view) }

variable {dial : κ → κ'} {view : τ → τ'}

theorem socket?_map (p : Pool κ τ) (id : Nat) :
    (p.map dial view).socket? id = (p.socket? id).map (Socket.map view) := by
  rw [socket?, socket?]
  split
  · rfl
  · exact List.getElem?_map

theorem update_map {f : Socket τ → Socket τ} {g : Socket τ' → Socket τ'}
    (h : ∀ s, g (s.map view) = (f s).map view) (p : Pool κ τ) (id : Nat) :
    (p.map dial view).update id g = (p.update id f).map dial view := by
  rw [update, update]
  split
  · rfl
  · have hsockets (ss : List (Socket τ)) (i : Nat) :
        (ss.map (Socket.map view)).modify i g = (ss.modify i f).map (Socket.map view) := by
      induction ss generalizing i with
      | nil => cases i <;> rfl
      | cons s ss ih =>
        cases i with
        | zero => simp [h]
        | succ i => simp [ih]
    rw [map, hsockets]
    rfl

/-- Seen through the views, sockets are closed and connected as they are without them. -/
structure Mirrors [Connector κ τ] [Transport τ] [Connector κ' τ'] [Transport τ']
    (dial : κ → κ') (view : τ → τ') : Prop where
  connected : ∀ t, Transport.connected (view t) = Transport.connected t
  close : ∀ t, Transport.close (view t) = view (Transport.close t)
  connect : ∀ timeout k, Connector.connect timeout (dial k) =
    ((Connector.connect timeout k).1.map view, dial (Connector.connect timeout k).2)

variable [Connector κ τ] [Transport τ] [Connector κ' τ'] [Transport τ']
  (hview : Mirrors dial view) (p : Pool κ τ)

include hview

theorem health_map : (p.map dial view).health = p.health := by
  have hconnected (s : Socket τ) : (s.map view).connected = s.connected := by
    rw [Socket.connected, Socket.connected]
    exact congrArg (!s.disposed && ·) (hview.connected s.transport)
  rw [health, health]
  congr 1
  · funext id
    rw [socket?_map]
    cases p.socket? id <;> rfl
  · funext id
    rw [socket?_map]
    cases p.socket? id with
    | none => rfl
    | some s => exact hconnected s

theorem close_map (id : Nat) : (p.map dial view).close id = (p.close id).map dial view := by
  have hclose (s : Socket τ) : (s.map view).close = s.close.map view := by
    rw [Socket.close, Socket.map, hview.close]
    rfl
  rw [close, close, update_map hclose]
  rfl

theorem discharge_map (duties : Ledger.Duties) :
    (p.map dial view).discharge duties = (p.discharge duties).map dial view := by
  have hfold (ids : List Nat) (q : Pool κ τ) :
      ids.foldl close (q.map dial view) = (ids.foldl close q).map dial view := by
    induction ids generalizing q with
    | nil => rfl
    | cons id ids ih => rw [List.foldl_cons, close_map hview, ih, List.foldl_cons]
  exact hfold duties.close { p with mail := p.mail ++ duties.send }

-- A visit that leaves this ledger and these duties.
theorem visit_map (ledger : Ledger) (duties : Ledger.Duties) :
    { p.map dial view with ledger }.discharge duties =
      ({ p with ledger }.discharge duties).map dial view :=
  discharge_map hview { p with ledger } duties

theorem enter_map :
    (p.map dial view).enter = (p.enter.1, p.enter.2.map dial view) := by
  rw [enter, enter, health_map hview]
  exact Prod.ext rfl (visit_map hview p _ _)

theorem connect_map (key : Nat) (timeout : Duration) :
    (p.map dial view).connect key timeout =
      ((p.connect key timeout).1, (p.connect key timeout).2.map dial view) := by
  have hconnect : Connector.connect timeout (p.map dial view).connector = _ :=
    hview.connect timeout p.connector
  rw [connect, connect, hconnect]
  rcases Connector.connect timeout p.connector with ⟨_ | t, k⟩
  · exact Prod.ext rfl (discharge_map hview { p with connector := k, ledger := _ } _)
  · simp [map, Socket.map, Except.map]

theorem take_map (waiter : Nat) (grant : Grant) (timeout : Duration) :
    (p.map dial view).take waiter grant timeout =
      ((p.take waiter grant timeout).1, (p.take waiter grant timeout).2.map dial view) := by
  cases grant with
  | socket key socket => rfl
  | seat key =>
    exact connect_map hview { p with mail := p.mail.filter (·.1 != waiter) } key timeout

theorem leave_map (waiter : Nat) (timeout : Duration) :
    (p.map dial view).leave waiter timeout =
      ((p.leave waiter timeout).1, (p.leave waiter timeout).2.map dial view) := by
  rw [leave, leave]
  have hgranted : { p.map dial view with ledger := p.ledger.leave waiter }.granted? waiter =
      { p with ledger := p.ledger.leave waiter }.granted? waiter := rfl
  dsimp only [map] at hgranted ⊢
  rw [hgranted]
  split
  · next grant _ =>
    exact take_map hview { p with ledger := p.ledger.leave waiter } waiter grant timeout
  · rfl

theorem reclaim_map (h : Handle) :
    (p.map dial view).reclaim h = (p.reclaim h).map dial view := by
  rw [reclaim, reclaim, health_map hview]
  exact visit_map hview p _ _

theorem tick_map : (p.map dial view).tick = p.tick.map dial view := by
  have hreap (q : Pool κ τ) : (q.map dial view).reap.2 = q.reap.2.map dial view := by
    rw [reap, reap, health_map hview]
    exact visit_map hview q _ _
  have hticked := hreap { p with clock := max p.clock p.reapAt }
  rw [tick, tick]
  dsimp only [map] at hticked ⊢
  rw [hticked]
  rfl

theorem passUntil_map (limit : Nat) (stop : Pool κ τ → Bool) {stop' : Pool κ' τ' → Bool}
    (hstop : ∀ q, stop' (q.map dial view) = stop q) :
    (p.map dial view).passUntil limit stop' = (p.passUntil limit stop).map dial view := by
  fun_induction passUntil p limit stop with
  | case1 p hnow => rw [passUntil, hstop, if_pos hnow]
  | case2 p hnow hrest =>
    have hrest' : (p.map dial view).shut ∨ limit < (p.map dial view).reapAt := hrest
    rw [passUntil, hstop, if_neg hnow, dif_pos hrest']
    rfl
  | case3 p hnow hrest ih =>
    have hrest' : ¬ ((p.map dial view).shut ∨ limit < (p.map dial view).reapAt) := hrest
    rw [passUntil, hstop, if_neg hnow, dif_neg hrest', tick_map hview, ih]

/-- **The pool lends the same handle through the view.** -/
theorem acquire_map :
    (p.map dial view).acquire = (p.acquire.1, p.acquire.2.map dial view) := by
  have hshut : (p.map dial view).shut = p.shut := rfl
  rw [acquire, acquire, hshut]
  split
  · rfl
  · rw [enter_map hview]
    rcases p.enter with ⟨_ | _ | ⟨waiter, timeout⟩, q⟩
    · rfl
    · exact connect_map hview q _ _
    · have hclock : (q.map dial view).clock = q.clock := rfl
      dsimp only
      rw [hclock, passUntil_map hview q _ (fun r => (r.granted? waiter).isSome) fun _ => rfl]
      exact leave_map hview _ waiter timeout

end Pool

end LineFrame
