import LineFrame.Service.Basic

/-!
# Connections

The server's side of one connection.  It does no input or output: `Connection.next` says what has to
be done next, and is asked again when that is done.

```text
  awaiting a line ──► awaiting its payload ──► sending the responses ──► awaiting a line
                                                        └── disconnect ──► terminated
```

Commands are answered strictly in turn.  The next line is not read before every response to the
current command has been handed out and the caller has come back for more; that is also when the
next item of a stream is run.
-/

namespace LineFrame

/-- What the caller has to do. -/
inductive Action where
  /-- Receive more bytes into the reader. -/
  | receive
  /-- Write all of these bytes. -/
  | send (data : Bytes)
  | close
deriving DecidableEq, Repr, Inhabited

/-- The responses still owed for a command. -/
structure Outgoing (σ : Type) where
  command : String
  /-- Whether the connection ends after them. -/
  disconnect : Bool
  pending : List (Call σ Response)

namespace Outgoing

variable {σ : Type}

/-- Runs the next item.  A fault is answered with an error response, which is the last one. -/
def pull (svc : Service σ) (o : Outgoing σ) (s : σ) : Option Response × Outgoing σ × σ :=
  match o.pending with
  | [] => (none, o, s)
  | call :: rest =>
    let (outcome, s) := call s
    match outcome.contain with
    | .ok response => (some response, { o with pending := rest }, s)
    | .error fault =>
      let (response, s) := svc.errorResponse o.command fault s
      (some response, { o with pending := [] }, s)

end Outgoing

namespace Connection

inductive Phase (σ : Type) where
  | awaiting
  | sending (out : Outgoing σ)
  | terminated

/-- What can be seen of a connection from outside. -/
inductive State where
  | awaitingCommandLine
  | awaitingPayload
  | sending
  | terminated
deriving DecidableEq, Repr, Inhabited

end Connection

structure Connection (σ : Type) where
  reader : Reader
  phase : Connection.Phase σ
  peer : Option Net.SocketAddress

namespace Connection

variable {σ : Type}

/-- A new connection, of which the sink is told. -/
def accept (svc : Service σ) (peer : Option Net.SocketAddress) (s : σ) : Connection σ × σ :=
  ({ reader := .new Reader.defaultCapacity svc.maxPayload, phase := .awaiting, peer },
    svc.sink (.opened peer) s)

/-- Tells the sink that the connection is gone. -/
def release (svc : Service σ) (c : Connection σ) (s : σ) : σ := svc.sink (.closed c.peer) s

def state (c : Connection σ) : State :=
  match c.phase with
  | .awaiting => if c.reader.readsPayload then .awaitingPayload else .awaitingCommandLine
  | .sending _ => .sending
  | .terminated => .terminated

def isTerminated (c : Connection σ) : Bool := c.state == .terminated

/-- Ends the connection and forgets what was received. -/
def terminate (c : Connection σ) : Connection σ :=
  { c with phase := .terminated, reader := c.reader.reset }

/-- The peer sends no more. -/
def peerClosed (c : Connection σ) : Connection σ := c.terminate

/-- Hands a frame to the handler of its command. -/
def dispatch (svc : Service σ) (c : Connection σ) (frame : Frame) (s : σ) : Connection σ × σ :=
  let s := svc.sink (.received frame.name) s
  let s := svc.sink (.dispatched frame.name) s
  let (reply, s) := svc.dispatch (.ofFrame frame) s
  let out := ⟨frame.name, svc.isDisconnect frame.name, reply.items⟩
  ({ c with phase := .sending out }, s)

/-- Answers a line that was refused. -/
def refuse (svc : Service σ) (c : Connection σ) (e : FrameError) (s : σ) : Connection σ × σ :=
  let (response, s) := svc.usageErrorResponse e s
  ({ c with phase := .sending ⟨"", false, [.pure response]⟩ }, s)

/-- Ends the answer to a command once nothing more is owed. -/
def complete (svc : Service σ) (c : Connection σ) (out : Outgoing σ) (s : σ) : Connection σ × σ :=
  ({ c with phase := if out.disconnect then .terminated else .awaiting },
    svc.sink (.completed out.command) s)

def unread (c : Connection σ) : Bytes := c.reader.unread

/-- The items of the answer being sent that have not been run. -/
def pending (c : Connection σ) : List (Call σ Response) :=
  match c.phase with
  | .sending out => out.pending
  | _ => []

/-- Whether an answer is being sent. -/
def isSending (c : Connection σ) : Bool :=
  match c.phase with
  | .sending _ => true
  | _ => false

@[simp] theorem unread_dispatch (svc : Service σ) (c : Connection σ) (frame : Frame) (s : σ) :
    (c.dispatch svc frame s).1.unread = c.unread := rfl

@[simp] theorem unread_refuse (svc : Service σ) (c : Connection σ) (e : FrameError) (s : σ) :
    (c.refuse svc e s).1.unread = c.unread := rfl

@[simp] theorem unread_complete (svc : Service σ) (c : Connection σ) (out : Outgoing σ) (s : σ) :
    (c.complete svc out s).1.unread = c.unread := rfl

@[simp] theorem isSending_complete (svc : Service σ) (c : Connection σ) (out : Outgoing σ) (s : σ) :
    (c.complete svc out s).1.isSending = false := by
  unfold complete isSending
  cases out.disconnect <;> rfl

/-- What has to be done next.  A fatal error ends the connection, and nothing is written for it. -/
def next (svc : Service σ) (c : Connection σ) (s : σ) :
    Except FrameError Action × Connection σ × σ :=
  match _hp : c.phase with
  | .terminated => (.ok .close, c, s)
  | .sending out =>
    match out.pull svc s with
    | (some response, out, s) => (.ok (.send response.encode), { c with phase := .sending out }, s)
    | (none, out, s) =>
      let step := c.complete svc out s
      next svc step.1 step.2
  | .awaiting =>
    match _h : c.reader.nextFrame svc.expectationFor with
    | (.ok none, reader) => (.ok .receive, { c with reader }, s)
    | (.ok (some frame), reader) =>
      let step := { c with reader }.dispatch svc frame s
      next svc step.1 step.2
    | (.error e, reader) =>
      if e.fatal then (.error e, { c with reader }.terminate, s)
      else
        let step := { c with reader }.refuse svc e s
        next svc step.1 step.2
termination_by 2 * c.unread.length + c.isSending.toNat
decreasing_by
  · have sending : c.isSending = true := by simp [isSending, _hp]
    simp [sending]
  · have := Reader.nextFrame_lt _h (by simp)
    have := Bool.toNat_le (dispatch svc { c with reader } frame s).1.isSending
    rw [unread_dispatch]
    simp only [unread] at *
    omega
  · have := Reader.nextFrame_lt _h (by simp)
    have := Bool.toNat_le (refuse svc { c with reader } e s).1.isSending
    rw [unread_refuse]
    simp only [unread] at *
    omega

/-! ## Progress -/

/-- What is left to do before more has to be received: bytes to look at, then items to run. -/
def backlog (c : Connection σ) : Nat × Nat := (c.unread.length, c.pending.length)

theorem pull_pending {svc : Service σ} {o p : Outgoing σ} {s t : σ} {response : Response}
    (h : o.pull svc s = (some response, p, t)) : p.pending.length < o.pending.length := by
  unfold Outgoing.pull at h
  split at h
  · cases h
  · next call rest hp =>
    rw [hp]
    dsimp only at h
    split at h
    · cases h
      simp
    · cases h
      simp

theorem pull_none {svc : Service σ} {o p : Outgoing σ} {s t : σ}
    (h : o.pull svc s = (none, p, t)) : o.pending = [] ∧ p = o ∧ t = s := by
  unfold Outgoing.pull at h
  split at h
  · next hp =>
    cases h
    exact ⟨hp, rfl, rfl⟩
  · dsimp only at h
    split at h <;> cases h

/-- Handing out a response shortens the backlog, and asking for more bytes does not make it
longer. -/
theorem next_backlog (svc : Service σ) (c : Connection σ) (s : σ) :
    (∀ data, (c.next svc s).1 = .ok (.send data) →
      Prod.Lex (· < ·) (· < ·) (c.next svc s).2.1.backlog c.backlog) ∧
    ((c.next svc s).1 = .ok .receive →
      Prod.Lex (· < ·) (· < ·) (c.next svc s).2.1.backlog c.backlog ∨
        (c.next svc s).2.1.backlog = c.backlog) := by
  fun_induction next svc c s with
  | case1 => simp
  | case2 c s out hp response out' s' hpull =>
    have fewer := pull_pending hpull
    simp only [backlog, pending, hp]
    exact ⟨fun _ _ => .right _ fewer, nofun⟩
  | case3 c s out hp out' s' hpull step ih =>
    have same : step.1.backlog = c.backlog := by
      have hn := (pull_none hpull).1
      simp only [backlog, pending, hp, hn, step, complete, unread]
      cases out'.disconnect <;> rfl
    rw [← same]
    exact ih
  | case4 c s hp reader h =>
    have shrunk := c.reader.nextFrame_shrinks svc.expectationFor
    simp only [h] at shrunk
    simp only [backlog, pending, hp]
    refine ⟨nofun, fun _ => ?_⟩
    rcases Nat.lt_or_eq_of_le shrunk with less | same
    · exact .inl (.left _ _ less)
    · exact .inr (congrArg (·, 0) same)
  | case5 c s hp frame reader h step ih =>
    have shrunk := Reader.nextFrame_lt h (by simp)
    have less : step.1.backlog.1 < c.backlog.1 := shrunk
    simp only [Prod.lex_def] at ih ⊢
    refine ⟨fun data hd => ?_, fun hr => ?_⟩
    · rcases ih.1 data hd with h | h <;> omega
    · rcases ih.2 hr with h | h
      · rcases h with h | h <;> omega
      · rw [h]
        omega
  | case6 c s hp e reader h he =>
    simp
  | case7 c s hp e reader h he step ih =>
    have shrunk := Reader.nextFrame_lt h (by simp)
    have less : step.1.backlog.1 < c.backlog.1 := shrunk
    simp only [Prod.lex_def] at ih ⊢
    refine ⟨fun data hd => ?_, fun hr => ?_⟩
    · rcases ih.1 data hd with h | h <;> omega
    · rcases ih.2 hr with h | h
      · rcases h with h | h <;> omega
      · rw [h]
        omega

end Connection

end LineFrame
