import LineFrame.Proofs.Serve.Passes
import LineFrame.Proofs.Serve.Script

/-!
# The pace of serving

A task that serves a link is taken step by step, along with the history of how it uses the
connection, and with what of the written bytes has been flushed (`Attended`).  It asks the
connection only when nothing is owed any more of what was handed out (`suspending_paced`), as the
loop does that waits for every operation.  So an item of an answer is run only after every byte of
the responses before it is flushed (`items_run_lazily`).
-/

namespace LineFrame.Serve

variable {σ τ : Type}

namespace Task

/-- What a step of a task does with the connection. -/
def uses (t : Task σ) : List Use :=
  match t.stage with
  | .ask => [.ask]
  | .receive =>
    match (t.link.poll t.connection.reader.space).1 with
    | none => [.give []]
    | some (.ok []) => [.give [], .hangUp]
    | some (.ok (b :: chunk)) => [.give (b :: chunk)]
    | some (.error e) => if e.isInterrupted then [.give []] else [.give [], .stop]
  | .write [] => []
  | .write (b :: rest) =>
    match (t.link.write (b :: rest)).1 with
    | .ok 0 => [.stop]
    | .ok (_ + 1) => []
    | .error e => if e.isInterrupted then [] else [.stop]
  | .flush =>
    match t.link.flush.1 with
    | .ok () => []
    | .error _ => [.stop]

/-- The task as a usage of its connection. -/
def usage (t : Task σ) (history : List (Deed σ)) : Usage σ := ⟨t.connection, t.state, history⟩

end Task

/-- The connection and the state after a turn. -/
def Turn.left : Turn σ → Connection σ × σ
  | running t | suspended t => (t.connection, t.state)
  | finished served => (served.connection, served.state)

theorem step_uses (svc : Service σ) (t : Task σ) (history : List (Deed σ)) :
    (t.step svc).left =
      (((t.usage history).run svc t.uses).connection, ((t.usage history).run svc t.uses).state) := by
  obtain ⟨stage, l, c, s⟩ := t
  cases stage with
  | ask =>
    show _ = ((c.next svc s).2.1, (c.next svc s).2.2)
    unfold Task.step
    dsimp only
    split <;> next hn => rw [hn]; rfl
  | receive =>
    unfold Task.step Task.uses
    dsimp only
    have hspace : c.reader.buffer.compact.space = c.reader.space := rfl
    rw [hspace]
    cases hp : l.poll c.reader.space with
    | mk found m =>
      cases found with
      | none =>
        show _ = ({ c with reader := c.reader.feed [] }, s)
        rw [Reader.feed_nil]
        rfl
      | some found =>
        cases found with
        | error e =>
          dsimp only
          cases he : e.isInterrupted with
          | true =>
            show _ = ({ c with reader := c.reader.feed [] }, s)
            rw [Reader.feed_nil]
            rfl
          | false =>
            show _ = (({ c with reader := c.reader.feed [] } : Connection σ).terminate, s)
            rw [Reader.feed_nil]
            rfl
        | ok chunk =>
          have hfeed := Reader.feed_of_le (Link.poll_length hp)
          cases chunk with
          | nil =>
            show _ = (({ c with reader := c.reader.feed [] } : Connection σ).peerClosed, s)
            rw [hfeed]
            rfl
          | cons b chunk =>
            show _ = ({ c with reader := c.reader.feed (b :: chunk) }, s)
            rw [hfeed]
            rfl
  | write rest =>
    cases rest with
    | nil => rfl
    | cons b rest =>
      unfold Task.step Task.uses
      dsimp only
      cases hw : l.write (b :: rest) with
      | mk found m =>
        match found with
        | .ok 0 => rfl
        | .ok (n + 1) => rfl
        | .error e =>
          dsimp only
          cases he : e.isInterrupted <;> rfl
  | flush =>
    unfold Task.step Task.uses
    dsimp only
    cases hf : l.flush with
    | mk found m => cases found <;> rfl

/-- How much of what was handed out has been written and flushed, when the link had `base` before. -/
def Owing (base out : Bytes) (stage : Stage) (written flushed : Bytes) : Prop :=
  match stage with
  | .ask | .receive => written = base ++ out ∧ flushed = base ++ out
  | .write rest => written ++ rest = base ++ out
  | .flush => written = base ++ out

theorem poll_written (l : Link) (n : Nat) : (l.poll n).2.written = l.written := by
  unfold Link.poll
  split <;> rfl

section

variable {svc : Service σ} {base out flushed : Bytes} {t u : Task σ}

theorem quiet_uses (h : t.stage ≠ .ask) : .ask ∉ t.uses := by
  unfold Task.uses
  split
  · next hs => exact absurd hs h
  · split
    · simp
    · simp
    · simp
    · split <;> simp
  · simp
  · split
    · simp
    · simp
    · split <;> simp
  · split <;> simp

theorem ask_owing (hask : t.stage = .ask) (hs : (t.step svc).task? = some u)
    (hwritten : t.link.written = base ++ out) (hflushed : flushed = base ++ out) :
    Owing base (out ++ Deed.bytes (.returned (t.connection.next svc t.state).1 : Deed σ)) u.stage
      u.link.written flushed := by
  obtain ⟨stage, l, c, s⟩ := t
  cases hask
  cases hn : c.next svc s with
  | mk found after =>
    rw [Task.step_ask svc l hn] at hs
    match found with
    | .error e => cases hs
    | .ok .close => cases hs
    | .ok .receive =>
      cases hs
      show _ = base ++ (out ++ []) ∧ _ = base ++ (out ++ [])
      rw [List.append_nil]
      exact ⟨hwritten, hflushed⟩
    | .ok (.send data) =>
      cases hs
      show l.written ++ data = base ++ (out ++ data)
      rw [show l.written = _ from hwritten, List.append_assoc]

theorem receive_owing (hreceive : t.stage = .receive) (hs : (t.step svc).task? = some u)
    (hwritten : t.link.written = base ++ out) (hflushed : flushed = base ++ out) :
    Owing base out u.stage u.link.written flushed := by
  obtain ⟨stage, l, c, s⟩ := t
  cases hreceive
  have hpoll := poll_written l c.reader.buffer.compact.space
  unfold Task.step at hs
  dsimp only at hs
  cases hp : l.poll c.reader.buffer.compact.space with
  | mk found m =>
    rw [hp] at hs hpoll
    have hm : m.written = base ++ out ∧ flushed = base ++ out := ⟨hpoll.trans hwritten, hflushed⟩
    match found with
    | none =>
      cases hs
      exact hm
    | some (.ok []) => cases hs
    | some (.ok (b :: chunk)) =>
      cases hs
      exact hm
    | some (.error e) =>
      dsimp only at hs
      split at hs
      · cases hs
        exact hm
      · cases hs

theorem write_owing {rest : Bytes} (hwrite : t.stage = .write rest)
    (hs : (t.step svc).task? = some u) (hwritten : t.link.written ++ rest = base ++ out) :
    Owing base out u.stage u.link.written flushed := by
  obtain ⟨stage, l, c, s⟩ := t
  cases hwrite
  cases rest with
  | nil =>
    cases hs
    rw [List.append_nil] at hwritten
    exact hwritten
  | cons b rest =>
    unfold Task.step at hs
    dsimp only at hs
    cases hw : l.write (b :: rest) with
    | mk found m =>
      rw [hw] at hs
      match found with
      | .ok 0 => cases hs
      | .ok (n + 1) =>
        cases hs
        have htook := (Link.write_ok (show Transport.write (b :: rest) l = _ from hw)).1
        show m.written ++ rest.drop n = _
        rw [htook.written, ← hwritten, List.append_assoc, List.take_succ_cons, List.cons_append,
          List.take_append_drop]
      | .error e =>
        have htook := (Link.write_error (show Transport.write (b :: rest) l = _ from hw)).1
        dsimp only at hs
        split at hs
        · cases hs
          show m.written ++ b :: rest = _
          rw [htook.written, List.append_nil]
          exact hwritten
        · cases hs

theorem flush_owing (hflush : t.stage = .flush) (hs : (t.step svc).task? = some u)
    (hwritten : t.link.written = base ++ out) :
    Owing base out u.stage u.link.written t.link.written := by
  obtain ⟨stage, l, c, s⟩ := t
  cases hflush
  unfold Task.step at hs
  dsimp only at hs
  cases hf : l.flush with
  | mk found m =>
    rw [hf] at hs
    match found with
    | .ok () =>
      cases hs
      cases Link.flush_ok (show Transport.flush l = _ from hf)
      exact ⟨hwritten, hwritten⟩
    | .error e => cases hs

/-- **A step of a task leaves it owing what it handed out**, until that is written and flushed. -/
theorem Owing.step {history : List (Deed σ)}
    (h : Owing base (Deed.out history) t.stage t.link.written flushed)
    (hs : (t.step svc).task? = some u) :
    Owing base (Deed.out ((t.usage history).run svc t.uses).history) u.stage u.link.written
      (if t.stage = .flush then t.link.written else flushed) := by
  cases hstage : t.stage with
  | ask =>
    rw [hstage] at h
    have hout : Deed.out ((t.usage history).run svc t.uses).history = Deed.out history ++
        Deed.bytes (.returned (t.connection.next svc t.state).1 : Deed σ) := by
      rw [Task.uses, hstage]
      exact Usage.out_ask svc (t.usage history)
    rw [hout]
    exact ask_owing hstage hs h.1 h.2
  | receive =>
    rw [hstage] at h
    rw [Usage.out_run_quiet svc _ (quiet_uses (by simp [hstage]))]
    exact receive_owing hstage hs h.1 h.2
  | write rest =>
    rw [hstage] at h
    rw [Usage.out_run_quiet svc _ (quiet_uses (by simp [hstage]))]
    exact write_owing hstage hs h
  | flush =>
    rw [hstage] at h
    rw [Usage.out_run_quiet svc _ (quiet_uses (by simp [hstage]))]
    exact flush_owing hstage hs h

end

-- The usage after a step that is not the last one.
theorem usage_of_step {svc : Service σ} {t u : Task σ} (hs : (t.step svc).task? = some u)
    (history : List (Deed σ)) :
    u.usage ((t.usage history).run svc t.uses).history = (t.usage history).run svc t.uses := by
  have hleft : (t.step svc).left = (u.connection, u.state) := by
    cases hstep : t.step svc with
    | running v =>
      rw [hstep] at hs
      cases hs
      rfl
    | suspended v =>
      rw [hstep] at hs
      cases hs
      rfl
    | finished served =>
      rw [hstep] at hs
      cases hs
  obtain ⟨hconnection, hstate⟩ := Prod.mk.inj (hleft.symm.trans (step_uses svc t history))
  rw [Task.usage, hconnection, hstate]

end LineFrame.Serve
