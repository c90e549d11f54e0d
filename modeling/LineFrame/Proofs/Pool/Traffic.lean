import LineFrame.Pool.Basic

/-!
# Pools in use

A pool together with all who use it at one time: the calls that want a socket, each as far as it has
got, the handles that are held, and the sockets that were taken out and are about to be closed.
They run side by side.  What one of them does at a time is a `Move`: one visit to the ledger, made
while the lock is held, or one step outside of it.  A run is any list of moves; one that cannot be
made changes nothing.

The operations of a pool are runs of such moves in which nobody comes between (`run_enter` and what
follows it), so that what every move preserves they preserve too.
-/

namespace LineFrame

namespace Pool

/-- How far a call that wants a socket has got. -/
inductive Call where
  /-- It has found the pool in use, and is about to visit the ledger. -/
  | arriving
  /-- It connects a socket for a seat. -/
  | connecting (key : Nat) (timeout : Duration)
  /-- It listens for a grant.  It is late once its time was up and it has left the queue: then it
  only looks whether a grant was sent to it before. -/
  | waiting (waiter : Nat) (timeout : Duration) (late : Bool)
deriving DecidableEq, Repr, Inhabited

/-- What a visit finds out about the sockets.  Those disposed of while it goes on it may still see
as they were before, and whether the peers are there is not up to the pool. -/
structure Glimpse where
  missed : Nat → Bool := fun _ => false
  connected : Nat → Bool

/-- What one of those who use a pool does at a time. -/
inductive Move (τ : Type) where
  /-- A call comes, and goes on if the pool is not shut down. -/
  | arrive
  /-- A call makes its visit. -/
  | enter (g : Glimpse)
  /-- A connect comes to its end, one way or the other. -/
  | connect (key : Nat) (timeout : Duration)
  /-- A call takes the grant that was sent to it. -/
  | take (waiter : Nat) (timeout : Duration) (late : Bool)
  /-- The time of a call is up, and it leaves the queue. -/
  | leave (waiter : Nat) (timeout : Duration)
  /-- A call ends without a socket. -/
  | giveUp (waiter : Nat) (timeout : Duration) (late : Bool)
  /-- The holder of a handle uses its socket, or discards it. -/
  | use (h : Handle) (f : τ → τ) (fails : Bool)
  /-- The holder of a handle drops it. -/
  | reclaim (h : Handle) (connected : Bool)
  | reap (g : Glimpse)
  | configure (config : Config)
  /-- The pool is marked as shut down. -/
  | shut
  /-- The visit of the shutdown. -/
  | drain
  /-- A socket that was taken out is closed. -/
  | close (socket : Nat)
  /-- Time passes. -/
  | pass (d : Duration)

structure Traffic (κ τ : Type) where
  pool : Pool κ τ
  calls : List Call := []
  handles : List Handle := []
  /-- The sockets that were taken out of the ledger and are about to be closed. -/
  closing : List Nat := []
  /-- Whether the shutdown has made its visit. -/
  drained : Bool := false

/-- The handle that a call has got, if it has. -/
def gained : Except Error Handle → List Handle
  | .ok h => [h]
  | .error _ => []

/-- What the holder of a handle may do to its socket.  One that was disposed of stays so. -/
def handled {τ : Type} (f : τ → τ) (fails : Bool) (s : Socket τ) : Socket τ where
  transport := f s.transport
  disposed := s.disposed || fails

variable {κ τ : Type} [Transport τ]

def Glimpse.health (g : Glimpse) (p : Pool κ τ) : Health where
  disposed id := p.health.disposed id && !g.missed id
  connected := g.connected

namespace Traffic

/-- A new pool, which nobody uses. -/
def start (connector : κ) (config : Config) : Traffic κ τ := { pool := create connector config }

/-- What a visit leaves behind. -/
def visit (x : Traffic κ τ) (duties : Ledger.Duties) (ledger : Ledger) : Traffic κ τ :=
  { x with
    pool := { x.pool with ledger, mail := x.pool.mail ++ duties.send }
    closing := duties.close ++ x.closing }

/-- How a call goes on after its visit. -/
def proceed (x : Traffic κ τ) : Ledger.Entry → Traffic κ τ
  | .ready key socket => { x with handles := { key, socket } :: x.handles }
  | .connect key timeout => { x with calls := .connecting key timeout :: x.calls }
  | .wait waiter timeout => { x with calls := .waiting waiter timeout false :: x.calls }

/-- How a call goes on with its grant. -/
def accept (x : Traffic κ τ) (timeout : Duration) : Grant → Traffic κ τ
  | .socket key socket => { x with handles := { key, socket } :: x.handles }
  | .seat key => { x with calls := .connecting key timeout :: x.calls }

omit [Transport τ] in
@[simp] theorem proceed_pool (x : Traffic κ τ) (entry : Ledger.Entry) :
    (x.proceed entry).pool = x.pool := by
  cases entry <;> rfl

omit [Transport τ] in
@[simp] theorem proceed_drained (x : Traffic κ τ) (entry : Ledger.Entry) :
    (x.proceed entry).drained = x.drained := by
  cases entry <;> rfl

omit [Transport τ] in
@[simp] theorem accept_pool (x : Traffic κ τ) (timeout : Duration) (grant : Grant) :
    (x.accept timeout grant).pool = x.pool := by
  cases grant <;> rfl

omit [Transport τ] in
@[simp] theorem accept_drained (x : Traffic κ τ) (timeout : Duration) (grant : Grant) :
    (x.accept timeout grant).drained = x.drained := by
  cases grant <;> rfl

variable [Connector κ τ]

/-- One move. -/
def step (x : Traffic κ τ) : Move τ → Traffic κ τ
  | .arrive => if x.pool.shut then x else { x with calls := .arriving :: x.calls }
  | .enter g =>
    if .arriving ∈ x.calls then
      let (entry, duties, ledger) := x.pool.ledger.enter (g.health x.pool) x.pool.clock
      ({ x with calls := x.calls.erase .arriving }.visit duties ledger).proceed entry
    else x
  | .connect key timeout =>
    let call := Call.connecting key timeout
    if call ∈ x.calls then
      let (result, pool) := x.pool.connect key timeout
      { x with pool, calls := x.calls.erase call, handles := gained result ++ x.handles }
    else x
  | .take waiter timeout late =>
    let call := Call.waiting waiter timeout late
    match x.pool.granted? waiter with
    | none => x
    | some grant =>
      if call ∈ x.calls then
        let pool := { x.pool with mail := x.pool.mail.filter (·.1 != waiter) }
        { x with pool, calls := x.calls.erase call }.accept timeout grant
      else x
  | .leave waiter timeout =>
    let call := Call.waiting waiter timeout false
    if call ∈ x.calls then
      let pool := { x.pool with ledger := x.pool.ledger.leave waiter }
      { x with pool, calls := .waiting waiter timeout true :: x.calls.erase call }
    else x
  | .giveUp waiter timeout late =>
    let call := Call.waiting waiter timeout late
    -- A call that is not late finds out that it was dismissed.
    if call ∈ x.calls ∧ x.pool.granted? waiter = none ∧
        (late ∨ waiter ∉ x.pool.ledger.waiters) then
      { x with calls := x.calls.erase call }
    else x
  | .use h f fails =>
    if h ∈ x.handles then
      { x with pool := x.pool.update h.socket (handled f fails) }
    else x
  | .reclaim h connected =>
    if h ∈ x.handles then
      let health := { x.pool.health with connected := fun _ => connected }
      let (fate, send, ledger) :=
        x.pool.ledger.reclaim x.pool.shut health x.pool.clock h.key h.socket
      let close := if fate = .closed then [h.socket] else []
      { x with handles := x.handles.erase h }.visit { close, send } ledger
    else x
  | .reap g =>
    let (duties, ledger) := x.pool.ledger.clean (g.health x.pool) x.pool.clock
    x.visit duties ledger
  | .configure config => { x with pool := x.pool.configure config }
  | .shut => { x with pool := { x.pool with shut := true } }
  | .drain =>
    if x.pool.shut ∧ !x.drained then
      let (close, ledger) := x.pool.ledger.drain
      { x.visit { close } ledger with drained := true }
    else x
  | .close socket =>
    if socket ∈ x.closing then
      { x with pool := x.pool.close socket, closing := x.closing.erase socket }
    else x
  | .pass d => { x with pool := { x.pool with clock := x.pool.clock + d.nanos } }

def run (x : Traffic κ τ) (moves : List (Move τ)) : Traffic κ τ := moves.foldl step x

theorem run_cons (x : Traffic κ τ) (m : Move τ) (moves : List (Move τ)) :
    x.run (m :: moves) = (x.step m).run moves := rfl

-- What every move preserves, every run does.
theorem run_induction {P : Traffic κ τ → Prop} (hstep : ∀ x m, P x → P (x.step m))
    {x : Traffic κ τ} (hx : P x) (moves : List (Move τ)) : P (x.run moves) := by
  induction moves generalizing x with
  | nil => exact hx
  | cons m moves ih => exact ih (hstep x m hx)

/-! ## The operations of a pool as runs -/

/-- What is seen at one instant. -/
def sight (p : Pool κ τ) : Glimpse := { connected := p.health.connected }

omit [Connector κ τ] in
theorem health_sight (p : Pool κ τ) : (sight p).health p = p.health := by
  have hdisposed : (fun id => p.health.disposed id && !false) = p.health.disposed := by simp
  show Health.mk _ _ = _
  rw [sight, hdisposed]

theorem run_close {x : Traffic κ τ} {ids rest : List Nat} (h : x.closing = ids ++ rest) :
    x.run (ids.map .close) = { x with pool := ids.foldl Pool.close x.pool, closing := rest } := by
  induction ids generalizing x with
  | nil => rw [← show x.closing = rest from h]; rfl
  | cons id ids ih =>
    have hmem : id ∈ x.closing := by simp [h]
    let y : Traffic κ τ := { x with pool := x.pool.close id, closing := ids ++ rest }
    have hstep : x.step (.close id) = y := by
      rw [step, if_pos hmem, h, List.cons_append, List.erase_cons_head]
    rw [List.map_cons, run_cons, hstep, ih (x := y) rfl]
    rfl

-- Once the sockets that it took out are closed, a visit has done what it had to.
theorem run_visit (x : Traffic κ τ) (duties : Ledger.Duties) (ledger : Ledger) :
    (x.visit duties ledger).run (duties.close.map .close) =
      { x with pool := { x.pool with ledger }.discharge duties } :=
  run_close (x := x.visit duties ledger) rfl

theorem run_enter {x : Traffic κ τ} (h : .arriving ∈ x.calls) :
    ∃ moves, x.run moves =
      { x with
        pool := x.pool.enter.2
        calls := x.calls.erase .arriving }.proceed x.pool.enter.1 := by
  let seen := x.pool.ledger.enter x.pool.health x.pool.clock
  let y : Traffic κ τ := { x with calls := x.calls.erase .arriving }
  have hstep : x.step (.enter (sight x.pool)) = (y.visit seen.2.1 seen.2.2).proceed seen.1 := by
    rw [step, if_pos h, health_sight]
  have hclosing : ((y.visit seen.2.1 seen.2.2).proceed seen.1).closing =
      seen.2.1.close ++ x.closing := by
    cases seen.1 <;> rfl
  refine ⟨.enter (sight x.pool) :: seen.2.1.close.map .close, ?_⟩
  rw [run_cons, hstep, run_close hclosing]
  show _ = proceed { y with pool := ({ x.pool with ledger := seen.2.2 }).discharge seen.2.1 } seen.1
  cases seen.1 <;> rfl

theorem run_take {x : Traffic κ τ} {waiter : Nat} {timeout : Duration} {late : Bool}
    {grant : Grant} (hcall : .waiting waiter timeout late ∈ x.calls)
    (hgrant : x.pool.granted? waiter = some grant) :
    ∃ moves, x.run moves =
      { x with
        pool := (x.pool.take waiter grant timeout).2
        calls := x.calls.erase (.waiting waiter timeout late)
        handles := gained (x.pool.take waiter grant timeout).1 ++ x.handles } := by
  let pool := { x.pool with mail := x.pool.mail.filter (·.1 != waiter) }
  let y : Traffic κ τ := { x with pool, calls := x.calls.erase (.waiting waiter timeout late) }
  have hstep : x.step (.take waiter timeout late) = y.accept timeout grant := by
    rw [step, hgrant]
    exact if_pos hcall
  cases grant with
  | socket key socket => exact ⟨[.take waiter timeout late], hstep⟩
  | seat key =>
    have hmem : .connecting key timeout ∈ (y.accept timeout (.seat key)).calls :=
      List.mem_cons_self
    have herase : (y.accept timeout (.seat key)).calls.erase (.connecting key timeout) =
        y.calls := List.erase_cons_head ..
    refine ⟨[.take waiter timeout late, .connect key timeout], ?_⟩
    rw [run_cons, hstep, run_cons, step, if_pos hmem, herase]
    rfl

theorem run_leave {x : Traffic κ τ} {waiter : Nat} {timeout : Duration}
    (hcall : .waiting waiter timeout false ∈ x.calls) :
    ∃ moves, x.run moves =
      { x with
        pool := (x.pool.leave waiter timeout).2
        calls := x.calls.erase (.waiting waiter timeout false)
        handles := gained (x.pool.leave waiter timeout).1 ++ x.handles } := by
  let pool := { x.pool with ledger := x.pool.ledger.leave waiter }
  let late := Call.waiting waiter timeout true
  let others := x.calls.erase (.waiting waiter timeout false)
  let y : Traffic κ τ := { x with pool, calls := late :: others }
  have hstep : x.step (.leave waiter timeout) = y := by rw [step, if_pos hcall]
  have hmem : late ∈ y.calls := List.mem_cons_self
  have herase : y.calls.erase late = others := List.erase_cons_head ..
  cases hgrant : pool.granted? waiter with
  | some grant =>
    obtain ⟨moves, hmoves⟩ := run_take (x := y) hmem hgrant
    have hleave : x.pool.leave waiter timeout = pool.take waiter grant timeout := by
      rw [Pool.leave, hgrant]
    refine ⟨.leave waiter timeout :: moves, ?_⟩
    rw [run_cons, hstep, hmoves, herase, hleave]
  | none =>
    have hleave : x.pool.leave waiter timeout = (.error (.exhausted timeout), pool) := by
      rw [Pool.leave, hgrant]
    refine ⟨[.leave waiter timeout, .giveUp waiter timeout true], ?_⟩
    rw [run_cons, hstep, run_cons, step, if_pos ⟨hmem, hgrant, .inl rfl⟩, herase, hleave]
    rfl

theorem run_reclaim {x : Traffic κ τ} {h : Handle} (hh : h ∈ x.handles) :
    ∃ moves, x.run moves =
      { x with pool := x.pool.reclaim h, handles := x.handles.erase h } := by
  -- A reclaim asks about its own socket only, so what it is told of the others does not matter.
  let connected := x.pool.health.connected h.socket
  let seen := x.pool.ledger.reclaim x.pool.shut x.pool.health x.pool.clock h.key h.socket
  let duties : Ledger.Duties :=
    { close := if seen.1 = .closed then [h.socket] else [], send := seen.2.1 }
  let y : Traffic κ τ := { x with handles := x.handles.erase h }
  have hstep : x.step (.reclaim h connected) = y.visit duties seen.2.2 := by
    rw [step, if_pos hh]
    rfl
  refine ⟨.reclaim h connected :: duties.close.map .close, ?_⟩
  rw [run_cons, hstep, run_visit]
  rfl

omit [Transport τ] [Connector κ τ] in
theorem update_congr {p : Pool κ τ} {id : Nat} {s : Socket τ} {f g : Socket τ → Socket τ}
    (hs : p.socket? id = some s) (h : f s = g s) : p.update id f = p.update id g := by
  rw [socket?] at hs
  by_cases hid : id = 0
  · rw [if_pos hid] at hs
    cases hs
  · rw [if_neg hid] at hs
    have hsockets : p.sockets.modify (id - 1) f = p.sockets.modify (id - 1) g := by
      apply List.ext_getElem?
      intro i
      rw [List.getElem?_modify, List.getElem?_modify]
      by_cases hi : id - 1 = i
      · rw [← hi, hs]
        simp [h]
      · simp [hi]
    rw [update, update, if_neg hid, if_neg hid, hsockets]

-- Whatever is done on a socket, if it does not revive one that was disposed of.
theorem run_use {α : Type} {x : Traffic κ τ} {h : Handle} (hh : h ∈ x.handles)
    {op : Socket τ → Except IoError α × Socket τ}
    (hop : ∀ s, s.disposed = true → (op s).2.disposed = true) :
    ∃ moves, x.run moves = { x with pool := (x.pool.use h op).2 } := by
  rw [use]
  cases hs : x.pool.socket? h.socket with
  | none => exact ⟨[], rfl⟩
  | some s =>
    let t := (op s).2
    have ht : handled (fun _ => t.transport) t.disposed s = t := by
      have hdisposed : (s.disposed || t.disposed) = t.disposed := by
        cases hd : s.disposed with
        | true => exact (hop s hd).symm
        | false => rfl
      rw [handled, hdisposed]
    have hupdate : x.pool.update h.socket (handled (fun _ => t.transport) t.disposed) =
        x.pool.update h.socket fun _ => t := update_congr hs ht
    refine ⟨[.use h (fun _ => t.transport) t.disposed], ?_⟩
    rw [run_cons, step, if_pos hh, hupdate]
    rfl

theorem run_discard {x : Traffic κ τ} {h : Handle} (hh : h ∈ x.handles) :
    ∃ moves, x.run moves = { x with pool := x.pool.discard h } := by
  have hchange : handled id true = (Socket.dispose : Socket τ → Socket τ) := by
    funext s
    rw [handled, Bool.or_true]
    rfl
  refine ⟨[.use h id true], ?_⟩
  rw [run_cons, step, if_pos hh, hchange]
  rfl

theorem run_reap (x : Traffic κ τ) :
    ∃ moves, x.run moves = { x with pool := x.pool.reap.2 } := by
  let seen := x.pool.ledger.clean x.pool.health x.pool.clock
  have hstep : x.step (.reap (sight x.pool)) = x.visit seen.1 seen.2 := by
    rw [step, health_sight]
  refine ⟨.reap (sight x.pool) :: seen.1.close.map .close, ?_⟩
  rw [run_cons, hstep, run_visit]
  rfl

theorem run_shutdown {x : Traffic κ τ} (h : x.drained = x.pool.shut) :
    ∃ moves, x.run moves = { x with pool := x.pool.shutdown, drained := true } := by
  rw [shutdown]
  cases hshut : x.pool.shut with
  | true =>
    refine ⟨[], ?_⟩
    rw [if_pos rfl, ← hshut, ← h]
    rfl
  | false =>
    let y : Traffic κ τ := { x with pool := { x.pool with shut := true } }
    let z : Traffic κ τ := { y.visit { close := y.pool.ledger.drain.1 } y.pool.ledger.drain.2 with
      drained := true }
    have hgo : y.pool.shut ∧ !y.drained := ⟨rfl, by rw [show y.drained = _ from h, hshut]; rfl⟩
    have hstep : y.step .drain = z := by rw [step, if_pos hgo]
    have hclosing : z.closing = y.pool.ledger.drain.1 ++ x.closing := rfl
    have hclose := run_close hclosing
    refine ⟨.shut :: .drain :: y.pool.ledger.drain.1.map .close, ?_⟩
    rw [run_cons, show x.step .shut = y from rfl, run_cons, hstep, hclose]
    rfl

end Traffic

end Pool

end LineFrame
