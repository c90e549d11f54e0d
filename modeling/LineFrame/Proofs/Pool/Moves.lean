import LineFrame.Proofs.Pool.Traffic

/-!
# What a move does to the pool

Of all that is in use, a move changes the pool in one of a few ways (`step_effect`).  What is to be
shown of a pool is shown for each of these.
-/

namespace LineFrame

namespace Pool

section

variable {κ τ : Type}

@[simp] theorem ledger_update (p : Pool κ τ) (id : Nat) (f : Socket τ → Socket τ) :
    (p.update id f).ledger = p.ledger := by
  rw [update]
  split <;> rfl

@[simp] theorem mail_update (p : Pool κ τ) (id : Nat) (f : Socket τ → Socket τ) :
    (p.update id f).mail = p.mail := by
  rw [update]
  split <;> rfl

@[simp] theorem events_update (p : Pool κ τ) (id : Nat) (f : Socket τ → Socket τ) :
    (p.update id f).events = p.events := by
  rw [update]
  split <;> rfl

@[simp] theorem shut_update (p : Pool κ τ) (id : Nat) (f : Socket τ → Socket τ) :
    (p.update id f).shut = p.shut := by
  rw [update]
  split <;> rfl

@[simp] theorem clock_update (p : Pool κ τ) (id : Nat) (f : Socket τ → Socket τ) :
    (p.update id f).clock = p.clock := by
  rw [update]
  split <;> rfl

@[simp] theorem length_update (p : Pool κ τ) (id : Nat) (f : Socket τ → Socket τ) :
    (p.update id f).sockets.length = p.sockets.length := by
  rw [update]
  split
  · rfl
  · exact List.length_modify ..

variable [Transport τ]

@[simp] theorem ledger_close (p : Pool κ τ) (id : Nat) : (p.close id).ledger = p.ledger :=
  ledger_update p id Socket.close

@[simp] theorem mail_close (p : Pool κ τ) (id : Nat) : (p.close id).mail = p.mail :=
  mail_update p id Socket.close

@[simp] theorem shut_close (p : Pool κ τ) (id : Nat) : (p.close id).shut = p.shut :=
  shut_update p id Socket.close

@[simp] theorem clock_close (p : Pool κ τ) (id : Nat) : (p.close id).clock = p.clock :=
  clock_update p id Socket.close

@[simp] theorem length_close (p : Pool κ τ) (id : Nat) :
    (p.close id).sockets.length = p.sockets.length :=
  length_update p id Socket.close

@[simp] theorem events_close (p : Pool κ τ) (id : Nat) :
    (p.close id).events = .closed id :: p.events :=
  congrArg _ (events_update p id Socket.close)

end

/-- The limit that a move sets. -/
def Move.limit? {τ : Type} : Move τ → Option Nat
  | .configure config => some config.maxConnections
  | _ => none

namespace Traffic

variable {κ τ : Type} [Transport τ]

/-- What a move may do to the pool, and when. -/
inductive Effect (x : Traffic κ τ) : Move τ → Pool κ τ → Prop where
  /-- The move does not concern the pool, or cannot be made. -/
  | idle {m : Move τ} (hm : m.limit? = none) : x.Effect m x.pool
  | enter {g : Glimpse} (hc : .arriving ∈ x.calls) :
    x.Effect (.enter g)
      { x.pool with
        ledger := (x.pool.ledger.enter (g.health x.pool) x.pool.clock).2.2
        mail := x.pool.mail ++ (x.pool.ledger.enter (g.health x.pool) x.pool.clock).2.1.send }
  | fill {key : Nat} {timeout : Duration} (transport : τ) (connector : κ)
    (hc : .connecting key timeout ∈ x.calls) :
    x.Effect (.connect key timeout)
      { x.pool with
        connector
        sockets := x.pool.sockets ++ [{ transport }]
        ledger := x.pool.ledger.fill key (x.pool.sockets.length + 1)
        events := .created (x.pool.sockets.length + 1) :: x.pool.events }
  | abandon {key : Nat} {timeout : Duration} (connector : κ)
    (hc : .connecting key timeout ∈ x.calls) :
    x.Effect (.connect key timeout)
      { x.pool with
        connector
        ledger := (x.pool.ledger.abandon key).2
        mail := x.pool.mail ++ (x.pool.ledger.abandon key).1 }
  | take {waiter : Nat} {timeout : Duration} {late : Bool}
    (hc : .waiting waiter timeout late ∈ x.calls) :
    x.Effect (.take waiter timeout late)
      { x.pool with mail := x.pool.mail.filter (·.1 != waiter) }
  | leave {waiter : Nat} {timeout : Duration} (hc : .waiting waiter timeout false ∈ x.calls) :
    x.Effect (.leave waiter timeout) { x.pool with ledger := x.pool.ledger.leave waiter }
  | use {h : Handle} {f : τ → τ} {fails : Bool} (hh : h ∈ x.handles) :
    x.Effect (.use h f fails) (x.pool.update h.socket (handled f fails))
  | reclaim {h : Handle} {connected : Bool} {health : Health}
    (hdisposed : health.disposed = x.pool.health.disposed) (hh : h ∈ x.handles) :
    x.Effect (.reclaim h connected)
      { x.pool with
        ledger :=
          (x.pool.ledger.reclaim x.pool.shut health x.pool.clock h.key h.socket).2.2
        mail := x.pool.mail ++
          (x.pool.ledger.reclaim x.pool.shut health x.pool.clock h.key h.socket).2.1 }
  | reap {g : Glimpse} :
    x.Effect (.reap g)
      { x.pool with
        ledger := (x.pool.ledger.clean (g.health x.pool) x.pool.clock).2
        mail := x.pool.mail ++ (x.pool.ledger.clean (g.health x.pool) x.pool.clock).1.send }
  | configure {config : Config} : x.Effect (.configure config) (x.pool.configure config)
  | shut : x.Effect .shut { x.pool with shut := true }
  | drain (hshut : x.pool.shut = true) :
    x.Effect .drain { x.pool with ledger := x.pool.ledger.drain.2 }
  | close {id : Nat} (hid : id ∈ x.closing) : x.Effect (.close id) (x.pool.close id)
  | pass {d : Duration} : x.Effect (.pass d) { x.pool with clock := x.pool.clock + d.nanos }

variable [Connector κ τ]

/-- **A move has one of its effects.** -/
theorem step_effect (x : Traffic κ τ) (m : Move τ) : x.Effect m (x.step m).pool := by
  cases m with
  | enter g =>
    rw [step]
    split
    · next hc =>
      dsimp only
      rw [proceed_pool]
      exact .enter hc
    · exact .idle rfl
  | connect key timeout =>
    rw [step]
    split
    · next hc =>
      rw [Pool.connect]
      dsimp only
      split
      · next transport connector _ => exact .fill transport connector hc
      · next connector _ => exact .abandon connector hc
    · exact .idle rfl
  | take waiter timeout late =>
    rw [step]
    split
    · exact .idle rfl
    · split
      · next hc =>
        dsimp only
        rw [accept_pool]
        exact .take hc
      · exact .idle rfl
  | leave waiter timeout =>
    rw [step]
    split
    · next hc => exact .leave hc
    · exact .idle rfl
  | use h f fails =>
    rw [step]
    split
    · next hh => exact .use hh
    · exact .idle rfl
  | reclaim h connected =>
    rw [step]
    split
    · next hh => exact .reclaim rfl hh
    · exact .idle rfl
  | drain =>
    rw [step]
    split
    · next hgo =>
      show x.Effect .drain
        { x.pool with ledger := x.pool.ledger.drain.2, mail := x.pool.mail ++ [] }
      rw [List.append_nil]
      exact .drain hgo.1
    · exact .idle rfl
  | close id =>
    rw [step]
    split
    · next hid => exact .close hid
    · exact .idle rfl
  | arrive | giveUp =>
    rw [step]
    split <;> exact .idle rfl
  | reap g => exact .reap
  | configure config => exact .configure
  | shut => exact .shut
  | pass d => exact .pass

end Traffic

end Pool

end LineFrame
