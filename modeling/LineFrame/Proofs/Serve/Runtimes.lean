import LineFrame.Serve.Suspending

/-!
# The two ways to serve a link

Serving a link while waiting for every operation (`Serve.blocking`) and as a task that gives way
(`Serve.suspending`) come to the same.  A task goes through an operation in several turns, and may
be suspended between two of them; what follows says what all turns of one operation come to.

The two differ in one error: of a write that took none of the bytes, a task reports no more than the
kind (`IoError.polled`).
-/

namespace LineFrame

/-- The error as a task reports it. -/
def IoError.polled : IoError → IoError
  | .stalled => .plain .writeZero
  | e => e

/-- What is left by serving, with the error as a task reports it. -/
def Served.polled {τ σ : Type} (x : Served τ σ) : Served τ σ :=
  match x.result with
  | .error (.io e) => { x with result := .error (.io e.polled) }
  | _ => x

namespace Link

-- Once nothing is pending, reading and polling are the same.
theorem poll_awaited (l : Link) (n : Nat) :
    l.awaited.poll n = (some (l.read n).1, (l.read n).2) := by
  have hsome : (l.awaited.poll n).1 ≠ none := by
    have hhead := List.head?_dropWhile_not (· == Arrival.pending) l.arrivals
    unfold poll
    split
    · nofun
    · next rest h =>
      rw [show l.arrivals.dropWhile _ = _ from h] at hhead
      cases hhead
    · nofun
    · nofun
  unfold read
  split
  · next h => rw [h]
  · next h => rw [h] at hsome; exact absurd rfl hsome

-- The errors of a link are told by their kind.
theorem polled_of_write {l m : Link} {bs : Bytes} {e : IoError} (h : l.write bs = (.error e, m)) :
    e.polled = e := by
  unfold write at h
  split at h <;> cases h
  rfl

theorem polled_of_poll {l m : Link} {n : Nat} {e : IoError}
    (h : l.poll n = (some (.error e), m)) : e.polled = e := by
  unfold poll at h
  split at h <;> cases h
  rfl

theorem polled_of_flush {l m : Link} {e : IoError} (h : l.flush = (.error e, m)) :
    e.polled = e := by
  unfold flush at h
  split at h <;> cases h
  rfl

end Link

namespace Serve

variable {σ : Type}

namespace Task

variable {svc : Service σ} {t u : Task σ}

/-! ## Turns -/

theorem poll_eq (svc : Service σ) (t : Task σ) :
    t.poll svc =
      match t.step svc with
      | .running u => u.poll svc
      | .suspended u => .inl u
      | .finished served => .inr served := by
  rw [poll]
  split <;> next h => rw [h]

theorem run_eq (svc : Service σ) (t : Task σ) :
    t.run svc =
      match t.poll svc with
      | .inl u => u.run svc
      | .inr served => served := by
  rw [run]
  split <;> next h => rw [h]

theorem run_of_running (h : t.step svc = .running u) : t.run svc = u.run svc := by
  rw [run_eq, poll_eq, h, run_eq svc u]

theorem run_of_suspended (h : t.step svc = .suspended u) : t.run svc = u.run svc := by
  rw [run_eq, poll_eq, h]

theorem run_of_finished {served : Served Link σ} (h : t.step svc = .finished served) :
    t.run svc = served := by
  rw [run_eq, poll_eq, h]

theorem run_congr (h : t.step svc = u.step svc) : t.run svc = u.run svc := by
  rw [run_eq, poll_eq, h, ← poll_eq, ← run_eq]

/-! ## Stages -/

variable {c d : Connection σ} {s s' : σ} {l m : Link}

theorem step_ask (svc : Service σ) (l : Link) {found : Except FrameError Action} :
    c.next svc s = (found, d, s') → (⟨.ask, l, c, s⟩ : Task σ).step svc =
      match found with
      | .error e => .finished ⟨.error (.frame e), l, d, s'⟩
      | .ok .close => .finished ⟨.ok (), l, d, s'⟩
      | .ok .receive => .running ⟨.receive, l, d, s'⟩
      | .ok (.send data) => .running ⟨.write data, l, d, s'⟩ := by
  intro h
  rw [step]
  dsimp only
  rw [h]
  cases found with
  | error e => rfl
  | ok action => cases action <;> rfl

theorem step_write (svc : Service σ) (c : Connection σ) (s : σ) {b : UInt8} {rest : Bytes}
    {found : Except IoError Nat} : l.write (b :: rest) = (found, m) →
    (⟨.write (b :: rest), l, c, s⟩ : Task σ).step svc =
      match found with
      | .ok 0 => .finished ⟨.error (.io (.plain .writeZero)), m, c.terminate, s⟩
      | .ok (n + 1) => .running ⟨.write (rest.drop n), m, c, s⟩
      | .error e =>
        if e.isInterrupted then .running ⟨.write (b :: rest), m, c, s⟩
        else .finished ⟨.error (.io e), m, c.terminate, s⟩ := by
  intro h
  rw [step]
  dsimp only
  rw [h]
  cases found with
  | error e => rfl
  | ok n => cases n <;> rfl

theorem step_flush (svc : Service σ) (c : Connection σ) (s : σ) {found : Except IoError Unit} :
    l.flush = (found, m) → (⟨.flush, l, c, s⟩ : Task σ).step svc =
      match found with
      | .ok () => .running ⟨.ask, m, c, s⟩
      | .error e => .finished ⟨.error (.io e), m, c.terminate, s⟩ := by
  intro h
  rw [step]
  dsimp only
  rw [h]
  cases found <;> rfl

/-- The connection with this buffer. -/
def hold (c : Connection σ) (buffer : Buffer) : Connection σ :=
  { c with reader := { c.reader with buffer } }

theorem step_receive (svc : Service σ) (s : σ) {found : Option (Except IoError Bytes)} :
    l.poll c.reader.buffer.compact.space = (found, m) →
    (⟨.receive, l, c, s⟩ : Task σ).step svc =
      let buffer := c.reader.buffer.compact
      match found with
      | none => .suspended ⟨.receive, m, hold c buffer, s⟩
      | some (.ok []) => .finished ⟨.ok (), m, (hold c (buffer.commit [])).peerClosed, s⟩
      | some (.ok (b :: rest)) => .running ⟨.ask, m, hold c (buffer.commit (b :: rest)), s⟩
      | some (.error e) =>
        if e.isInterrupted then .running ⟨.ask, m, hold c buffer, s⟩
        else .finished ⟨.error (.io e), m, (hold c buffer).terminate, s⟩ := by
  intro h
  rw [step]
  dsimp only
  rw [h]
  cases found with
  | none => rfl
  | some found =>
    cases found with
    | error e => rfl
    | ok chunk => cases chunk <;> rfl

/-! ## Sending -/

/-- How a task goes on, in the given stage, after an operation that gives nothing. -/
def goOn (svc : Service σ) (stage : Stage) (c : Connection σ) (s : σ) :
    Except IoError Unit × Link → Served Link σ
  | (.ok (), l) => (⟨stage, l, c, s⟩ : Task σ).run svc
  | (.error e, l) => ⟨.error (.io e.polled), l, c.terminate, s⟩

-- The turns of a write come to what writing all of the bytes does.
theorem run_write (svc : Service σ) (c : Connection σ) (s : σ) (bs : Bytes) (l : Link) :
    (⟨.write bs, l, c, s⟩ : Task σ).run svc = goOn svc .flush c s (Transport.writeAll bs l) := by
  -- the write loop has a case for each way in which one write can end
  fun_induction Transport.writeAll bs l with
  | case1 l => exact run_of_running rfl
  | case2 l b rest m h => exact run_of_finished (step_write svc c s h)
  | case3 l b rest n m h ih => rw [run_of_running (step_write svc c s h), ih]
  | case4 l b rest e m h he ih =>
    have hstep := (step_write svc c s h).trans (if_pos he)
    rw [run_of_running hstep, ih]
  | case5 l b rest e m h he =>
    have hstep := (step_write svc c s h).trans (if_neg he)
    rw [run_of_finished hstep, goOn, Link.polled_of_write h]

theorem run_flush (svc : Service σ) (c : Connection σ) (s : σ) (l : Link) :
    (⟨.flush, l, c, s⟩ : Task σ).run svc = goOn svc .ask c s l.flush := by
  cases h : l.flush with
  | mk found m =>
    cases found with
    | ok done => exact run_of_running (step_flush svc c s h)
    | error e => rw [run_of_finished (step_flush svc c s h), goOn, Link.polled_of_flush h]

-- The turns of sending come to what sending at once does.
theorem run_send (svc : Service σ) (c : Connection σ) (s : σ) (bs : Bytes) (l : Link) :
    (⟨.write bs, l, c, s⟩ : Task σ).run svc = goOn svc .ask c s (Transport.send bs l) := by
  rw [run_write, Transport.send]
  split
  · next m h =>
    rw [h]
    exact run_flush svc c s m
  · next e m h =>
    rw [h]
    rfl

/-! ## Receiving -/

/-- How a task goes on after it has received. -/
def received (svc : Service σ) (c : Connection σ) (s : σ) :
    Except IoError Nat × Reader × Link → Served Link σ
  | (.ok 0, reader, l) => ⟨.ok (), l, { c with reader }.peerClosed, s⟩
  | (.ok (_ + 1), reader, l) => (⟨.ask, l, { c with reader }, s⟩ : Task σ).run svc
  | (.error e, reader, l) =>
    if e.isInterrupted then (⟨.ask, l, { c with reader }, s⟩ : Task σ).run svc
    else ⟨.error (.io e.polled), l, { c with reader }.terminate, s⟩

-- Turns in which nothing has arrived yet come to waiting.
theorem run_awaited (svc : Service σ) (c : Connection σ) (s : σ) (l : Link) :
    (⟨.receive, l, c, s⟩ : Task σ).run svc = (⟨.receive, l.awaited, c, s⟩ : Task σ).run svc := by
  obtain ⟨arrivals, writes, sent, up, closed⟩ := l
  induction arrivals generalizing c with
  | nil => rfl
  | cons a rest ih =>
    cases a with
    | pending =>
      let l : Link := ⟨.pending :: rest, writes, sent, up, closed⟩
      have hpoll : l.poll c.reader.buffer.compact.space =
          (none, ⟨rest, writes, sent, up, closed⟩) := rfl
      rw [run_of_suspended (step_receive svc s hpoll), ih]
      -- moving the unread bytes to the front once more changes nothing
      exact run_congr rfl
    | bytes data => rfl
    | failure kind => rfl

-- The turns of receiving come to what receiving at once does.
theorem run_receive (svc : Service σ) (c : Connection σ) (s : σ) (l : Link) :
    (⟨.receive, l, c, s⟩ : Task σ).run svc = received svc c s (c.reader.fill l) := by
  let reader : Reader := { c.reader with buffer := c.reader.buffer.compact }
  have hpoll := l.poll_awaited reader.space
  rw [run_awaited, Reader.fill]
  cases hread : l.read reader.space with
  | mk found m =>
    rw [hread] at hpoll
    dsimp only
    rw [show Transport.read reader.space l = (found, m) from hread]
    cases found with
    | ok chunk =>
      cases chunk with
      | nil => exact run_of_finished (step_receive svc s hpoll)
      | cons b rest => exact run_of_running (step_receive svc s hpoll)
    | error e =>
      by_cases he : e.isInterrupted
      · have hstep := (step_receive svc s hpoll).trans (if_pos he)
        rw [run_of_running hstep, received, if_pos he]
        rfl
      · have hstep := (step_receive svc s hpoll).trans (if_neg he)
        rw [run_of_finished hstep, received, if_neg he, Link.polled_of_poll hpoll]
        rfl

end Task

/-! ## Serving -/

variable {svc : Service σ} {c d : Connection σ} {s s' : σ} {l : Link}

theorem suspending_of_send {data : Bytes} (h : c.next svc s = (.ok (.send data), d, s')) :
    suspending svc l c s = Task.goOn svc .ask d s' (Transport.send data l) := by
  rw [suspending, Task.run_of_running (Task.step_ask svc l h), Task.run_send]

theorem suspending_of_receive (h : c.next svc s = (.ok .receive, d, s')) :
    suspending svc l c s = Task.received svc d s' (d.reader.fill l) := by
  rw [suspending, Task.run_of_running (Task.step_ask svc l h), Task.run_receive]

-- Serving as a task leaves what serving while waiting does, but for how an error is reported.
theorem suspending_eq_polled (svc : Service σ) (l : Link) (c : Connection σ) (s : σ) :
    suspending svc l c s = (blocking svc l c s).polled := by
  fun_induction blocking svc l c s with
  | case1 l c s e d s' h => exact Task.run_of_finished (Task.step_ask svc l h)
  | case2 l c s d s' h => exact Task.run_of_finished (Task.step_ask svc l h)
  | case3 l c s data d s' h m hsend ih =>
    rw [suspending_of_send h, hsend, ← ih]
    rfl
  | case4 l c s data d s' h e m hsend =>
    rw [suspending_of_send h, hsend]
    rfl
  | case5 l c s d s' h reader m hfill =>
    rw [suspending_of_receive h, hfill]
    rfl
  | case6 l c s d s' h n reader m hfill ih =>
    rw [suspending_of_receive h, hfill, ← ih]
    rfl
  | case7 l c s d s' h e reader m hfill he ih =>
    rw [suspending_of_receive h, hfill, ← ih, Task.received, if_pos he]
    rfl
  | case8 l c s d s' h e reader m hfill he =>
    rw [suspending_of_receive h, hfill, Task.received, if_neg he]
    rfl

/-- **The two ways to serve a link cannot be told apart.**  From the same link, connection and state
they leave the same link, so the same bytes written and the same arrivals not read, the same
connection, and the same state, so the sink was told the same events in the same order.  They end in
the same way, except that of a write that took nothing a task reports the kind only. -/
theorem suspending_agrees_with_blocking (svc : Service σ) (l : Link) (c : Connection σ) (s : σ) :
    let task := suspending svc l c s
    let loop := blocking svc l c s
    task.transport = loop.transport ∧ task.connection = loop.connection ∧
      task.state = loop.state ∧
      (task.result = loop.result ∨
        loop.result = .error (.io .stalled) ∧
          task.result = .error (.io (.plain IoError.stalled.kind))) := by
  intro task loop
  have hpolled : task = loop.polled := suspending_eq_polled svc l c s
  rw [hpolled, Served.polled]
  split
  · next e he =>
    refine ⟨rfl, rfl, rfl, ?_⟩
    cases e with
    | stalled => exact .inr ⟨he, rfl⟩
    | plain kind => exact .inl he.symm
    | disposed => exact .inl he.symm
    | host kind reason code => exact .inl he.symm
  · exact ⟨rfl, rfl, rfl, .inl rfl⟩

end Serve

end LineFrame
