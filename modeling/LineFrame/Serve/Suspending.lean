import LineFrame.Serve.Blocking
import LineFrame.Transport.Link

/-!
# Serving a link as a task

The same as serving while waiting for every operation, but as a task that gives way: when nothing
has arrived yet it is suspended with all it needs to go on, and is polled again later.
-/

namespace LineFrame.Serve

/-- What a task does when it goes on. -/
inductive Stage where
  /-- Asks the connection what to do. -/
  | ask
  | receive
  /-- Writes the rest of a response. -/
  | write (rest : Bytes)
  | flush
deriving DecidableEq, Repr, Inhabited

structure Task (σ : Type) where
  stage : Stage
  link : Link
  connection : Connection σ
  state : σ

/-- How one step of a task ends. -/
inductive Turn (σ : Type) where
  | running (task : Task σ)
  | suspended (task : Task σ)
  | finished (served : Served Link σ)

/-- The task that is left after a turn. -/
def Turn.task? {σ : Type} : Turn σ → Option (Task σ)
  | running task | suspended task => some task
  | finished _ => none

namespace Task

variable {σ : Type}

/-- Ends the task because an operation failed. -/
def fail (t : Task σ) (e : IoError) : Served Link σ :=
  ⟨.error (.io e), t.link, t.connection.terminate, t.state⟩

def step (svc : Service σ) (t : Task σ) : Turn σ :=
  match t.stage with
  | .ask =>
    match t.connection.next svc t.state with
    | (.error e, connection, state) => .finished ⟨.error (.frame e), t.link, connection, state⟩
    | (.ok .close, connection, state) => .finished ⟨.ok (), t.link, connection, state⟩
    | (.ok .receive, connection, state) => .running { t with stage := .receive, connection, state }
    | (.ok (.send data), connection, state) =>
      .running { t with stage := .write data, connection, state }
  | .receive =>
    let buffer := t.connection.reader.buffer.compact
    let hold (buffer : Buffer) : Connection σ :=
      { t.connection with reader := { t.connection.reader with buffer } }
    match t.link.poll buffer.space with
    | (none, link) => .suspended { t with link, connection := hold buffer }
    | (some (.ok []), link) =>
      .finished ⟨.ok (), link, (hold (buffer.commit [])).peerClosed, t.state⟩
    | (some (.ok (b :: rest)), link) =>
      .running { t with stage := .ask, link, connection := hold (buffer.commit (b :: rest)) }
    | (some (.error e), link) =>
      let t := { t with link, connection := hold buffer }
      if e.isInterrupted then .running { t with stage := .ask } else .finished (t.fail e)
  | .write [] => .running { t with stage := .flush }
  | .write (b :: rest) =>
    match t.link.write (b :: rest) with
    | (.ok 0, link) => .finished ({ t with link }.fail (.plain .writeZero))
    | (.ok (n + 1), link) => .running { t with stage := .write (rest.drop n), link }
    | (.error e, link) =>
      if e.isInterrupted then .running { t with link } else .finished ({ t with link }.fail e)
  | .flush =>
    match t.link.flush with
    | (.ok (), link) => .running { t with stage := .ask, link }
    | (.error e, link) => .finished ({ t with link }.fail e)

/-! ## Progress -/

/-- How far a stage is from the one that needs the peer. -/
def rank : Stage → Nat
  | .receive => 0
  | .ask => 1
  | .flush => 2
  | .write rest => 3 + rest.length

/-- What is left to do: what the link still gives, then the connection's backlog, then the stage. -/
def load (t : Task σ) : Nat × (Nat × Nat) × Nat := (t.link.budget, t.connection.backlog, rank t.stage)

abbrev Less : Nat × (Nat × Nat) × Nat → Nat × (Nat × Nat) × Nat → Prop :=
  Prod.Lex (· < ·) (Prod.Lex (Prod.Lex (· < ·) (· < ·)) (· < ·))

theorem less_of_budget {t u : Task σ} (h : t.link.budget < u.link.budget) : Less t.load u.load :=
  .left _ _ h

theorem less_of_rank {t u : Task σ} (hb : t.link.budget ≤ u.link.budget)
    (hc : t.connection.backlog = u.connection.backlog) (h : rank t.stage < rank u.stage) :
    Less t.load u.load := by
  rcases Nat.lt_or_eq_of_le hb with less | same
  · exact less_of_budget less
  · unfold load
    rw [same, hc]
    exact .right _ (.right _ h)

theorem write_budget {l m : Link} {bs : Bytes} {found : Except IoError Nat}
    (h : l.write bs = (found, m)) : m.budget + (Transport.retried found).toNat ≤ l.budget := by
  have := Transport.write_budget bs l
  rw [show Transport.write bs l = l.write bs from rfl, h] at this
  exact this

theorem flush_budget {l m : Link} {found : Except IoError Unit} (h : l.flush = (found, m)) :
    m.budget ≤ l.budget := by
  have := Transport.flush_budget l
  rw [show Transport.flush l = l.flush from rfl, h] at this
  exact this

theorem less_trans {a b c : Nat × (Nat × Nat) × Nat} (hab : Less a b) (hbc : Less b c) :
    Less a c := by
  simp only [Less, Prod.lex_def, Prod.ext_iff] at *
  omega

/-- Every step leaves less to do. -/
theorem step_less {svc : Service σ} {t u : Task σ} (h : (t.step svc).task? = some u) :
    Less u.load t.load := by
  unfold step at h
  split at h
  · next hs =>
    have shorter := t.connection.next_backlog svc t.state
    split at h
    · cases h
    · cases h
    · next c s hn =>
      cases h
      rw [hn] at shorter
      rcases shorter.2 rfl with less | same
      · exact .right _ (.left _ _ less)
      · exact less_of_rank (Nat.le_refl _) same (by simp [hs, rank])
    · next data c s hn =>
      cases h
      rw [hn] at shorter
      exact .right _ (.left _ _ (shorter.1 data rfl))
  · dsimp only at h
    split at h
    · next l hp =>
      cases h
      exact less_of_budget (Link.poll_none_budget hp)
    · cases h
    · next b rest l hp =>
      cases h
      exact less_of_budget (Link.poll_some_budget hp)
    · next e l hp =>
      split at h
      · next he =>
        cases h
        have gave := Link.poll_some_budget hp
        simp only [Transport.goesOn, he, Bool.toNat_true] at gave
        exact less_of_budget gave
      · cases h
  · next hs =>
    cases h
    exact less_of_rank (Nat.le_refl _) rfl (by simp [hs, rank])
  · next b rest hs =>
    split at h
    · cases h
    · next n l hw =>
      cases h
      refine less_of_rank (Nat.le_of_add_right_le (write_budget hw)) rfl ?_
      simp only [hs, rank, List.length_drop, List.length_cons]
      omega
    · next e l hw =>
      split at h
      · next he =>
        cases h
        have spent := write_budget hw
        simp only [Transport.retried, he, Bool.toNat_true] at spent
        exact less_of_budget spent
      · cases h
  · next hs =>
    split at h
    · next l hf =>
      cases h
      exact less_of_rank (flush_budget hf) rfl (by simp [hs, rank])
    · cases h

/-- Goes on until the task is suspended or finished. -/
def poll (svc : Service σ) (t : Task σ) : Task σ ⊕ Served Link σ :=
  match _h : t.step svc with
  | .running u => u.poll svc
  | .suspended u => .inl u
  | .finished served => .inr served
termination_by t.load
decreasing_by exact step_less (by rw [_h]; rfl)

theorem poll_less {svc : Service σ} {t u : Task σ} (h : t.poll svc = .inl u) :
    Less u.load t.load := by
  fun_induction poll svc t with
  | case1 t v hs ih => exact less_trans (ih h) (step_less (by rw [hs]; rfl))
  | case2 t v hs =>
    cases h
    exact step_less (by rw [hs]; rfl)
  | case3 => cases h

/-- Polls the task until it is finished. -/
def run (svc : Service σ) (t : Task σ) : Served Link σ :=
  match _h : t.poll svc with
  | .inl u => u.run svc
  | .inr served => served
termination_by t.load
decreasing_by exact poll_less _h

end Task

def suspending {σ : Type} (svc : Service σ) (l : Link) (c : Connection σ) (s : σ) : Served Link σ :=
  ({ stage := .ask, link := l, connection := c, state := s } : Task σ).run svc

end LineFrame.Serve
