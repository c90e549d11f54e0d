import LineFrame.Connection

/-!
# Turn by turn

`Connection.next` goes on by itself until it has something for its caller to do.  Here it is taken
apart into its turns (`Connection.turn`), with what is done in each of them: bytes are looked at, a
handler is called, an item of an answer is run, an answer is completed.  `next_eq_turn` says that it
is nothing but these turns.

A caller may use a connection in whatever way it likes (`Use`).  The history of such a usage lists
what the caller and the connection did, in order.
-/

namespace LineFrame

/-- What is done with a connection, by it or by its caller. -/
inductive Deed (σ : Type) where
  /-- The caller gives bytes to the reader. -/
  | given (chunk : Bytes)
  /-- The caller asks what to do. -/
  | asked
  /-- The reader finds nothing in the bytes that it has. -/
  | starved
  /-- The reader finds a frame, and its command's handler is called, which answers with these
  items. -/
  | called (request : Request) (items : List (Call σ Response))
  /-- The reader finds a line that is refused, and this is made the answer. -/
  | refused (e : FrameError)
  /-- The reader finds a fatal error. -/
  | failed (e : FrameError)
  /-- An item of the answer is run, and gives a response or fails. -/
  | pulled (call : Call σ Response) (intact : Bool)
  /-- Nothing is left of the answer to this command. -/
  | completed (command : String)
  /-- The caller is told what to do. -/
  | returned (found : Except FrameError Action)
  /-- The caller says that the peer has closed. -/
  | hungUp
  /-- The caller ends the connection. -/
  | stopped

variable {σ : Type}

namespace Outgoing

/-- The answer after its first item was run, with `rest` behind it. -/
def advance (o : Outgoing σ) (rest : List (Call σ Response)) (intact : Bool) : Outgoing σ :=
  { o with pending := if intact then rest else [] }

-- An item is run as a handler is, and one that fails is the last one.
theorem pull_cons (svc : Service σ) {o : Outgoing σ} {call : Call σ Response}
    {rest : List (Call σ Response)} (h : o.pending = call :: rest) (s : σ) :
    o.pull svc s = (some (svc.answer o.command call s).1,
      o.advance rest (call s).1.contain.isOk, (svc.answer o.command call s).2) := by
  rw [pull, h, Service.answer, advance]
  dsimp only
  cases (call s).1.contain with
  | ok response => rfl
  | error fault => rfl

theorem pull_nil (svc : Service σ) {o : Outgoing σ} (h : o.pending = []) (s : σ) :
    o.pull svc s = (none, o, s) := by
  rw [pull, h]

end Outgoing

namespace Connection

/-- A turn of a connection: what it does, and what the caller is told, unless there is another
turn. -/
structure Turn (σ : Type) where
  deeds : List (Deed σ)
  found : Option (Except FrameError Action)
  connection : Connection σ
  state : σ

def turn (svc : Service σ) (c : Connection σ) (s : σ) : Turn σ :=
  match c.phase with
  | .terminated => ⟨[], some (.ok .close), c, s⟩
  | .sending out =>
    match out.pending with
    | [] =>
      let step := c.complete svc out s
      ⟨[.completed out.command], none, step.1, step.2⟩
    | call :: rest =>
      let intact := (call s).1.contain.isOk
      let (response, s) := svc.answer out.command call s
      ⟨[.pulled call intact], some (.ok (.send response.encode)),
        { c with phase := .sending (out.advance rest intact) }, s⟩
  | .awaiting =>
    match c.reader.nextFrame svc.expectationFor with
    | (.ok none, reader) => ⟨[.starved], some (.ok .receive), { c with reader }, s⟩
    | (.ok (some frame), reader) =>
      let step := { c with reader }.dispatch svc frame s
      ⟨[.called (.ofFrame frame) step.1.pending], none, step.1, step.2⟩
    | (.error e, reader) =>
      if e.fatal then ⟨[.failed e], some (.error e), { c with reader }.terminate, s⟩
      else
        let step := { c with reader }.refuse svc e s
        ⟨[.refused e], none, step.1, step.2⟩

theorem turn_of_pending {svc : Service σ} {c : Connection σ} {s : σ} {out : Outgoing σ}
    {call : Call σ Response} {rest : List (Call σ Response)} (hphase : c.phase = .sending out)
    (hpending : out.pending = call :: rest) :
    c.turn svc s = ⟨[.pulled call (call s).1.contain.isOk],
      some (.ok (.send (svc.answer out.command call s).1.encode)),
      { c with phase := .sending (out.advance rest (call s).1.contain.isOk) },
      (svc.answer out.command call s).2⟩ := by
  rw [turn, hphase]
  dsimp only
  rw [hpending]

/-- **A connection goes on turn by turn**, until there is something to tell its caller. -/
theorem next_eq_turn (svc : Service σ) (c : Connection σ) (s : σ) :
    c.next svc s =
      match (c.turn svc s).found with
      | some found => (found, (c.turn svc s).connection, (c.turn svc s).state)
      | none => (c.turn svc s).connection.next svc (c.turn svc s).state := by
  rw [next, turn]
  split
  · next hp => rw [hp]
  · next out hp =>
    rw [hp]
    dsimp only
    cases hpending : out.pending with
    | nil =>
      rw [out.pull_nil svc hpending]
    | cons call rest =>
      rw [out.pull_cons svc hpending]
  · next hp =>
    rw [hp]
    dsimp only
    split
    · next h => rw [h]
    · next h => rw [h]
    · next h =>
      rw [h]
      dsimp only
      split <;> rfl

theorem next_of_found {svc : Service σ} {c : Connection σ} {s : σ}
    {found : Except FrameError Action} (h : (c.turn svc s).found = some found) :
    c.next svc s = (found, (c.turn svc s).connection, (c.turn svc s).state) := by
  rw [next_eq_turn, h]

theorem next_of_none {svc : Service σ} {c : Connection σ} {s : σ}
    (h : (c.turn svc s).found = none) :
    c.next svc s = (c.turn svc s).connection.next svc (c.turn svc s).state := by
  rw [next_eq_turn, h]

-- A turn that is followed by another one has looked at a byte, or completed an answer.
theorem turn_lt {svc : Service σ} {c : Connection σ} {s : σ} (h : (c.turn svc s).found = none) :
    2 * (c.turn svc s).connection.unread.length + (c.turn svc s).connection.isSending.toNat <
      2 * c.unread.length + c.isSending.toNat := by
  rw [turn] at h ⊢
  split
  · next hp =>
    rw [hp] at h
    cases h
  · next out hp =>
    rw [hp] at h
    have hsending : c.isSending = true := by rw [isSending, hp]
    dsimp only at h ⊢
    split
    · simp [hsending]
    · next hpending =>
      rw [hpending] at h
      cases h
  · next hp =>
    rw [hp] at h
    dsimp only at h
    split
    · next hf =>
      rw [hf] at h
      cases h
    · next frame reader hf =>
      have hless : reader.unread.length < c.reader.unread.length :=
        Reader.nextFrame_lt hf (by simp)
      have hbit := Bool.toNat_le (dispatch svc { c with reader } frame s).1.isSending
      simp only [unread_dispatch]
      simp only [unread] at *
      omega
    · next e reader hf =>
      have hless : reader.unread.length < c.reader.unread.length :=
        Reader.nextFrame_lt hf (by simp)
      have hbit := Bool.toNat_le (refuse svc { c with reader } e s).1.isSending
      rw [hf] at h
      dsimp only at h
      split at h
      · cases h
      · next he =>
        rw [if_neg he]
        simp only [unread_refuse]
        simp only [unread] at *
        omega

/-- What a connection does until it tells its caller what to do, and that it does. -/
def deeds (svc : Service σ) (c : Connection σ) (s : σ) : List (Deed σ) :=
  match _h : (c.turn svc s).found with
  | some found => (c.turn svc s).deeds ++ [.returned found]
  | none => (c.turn svc s).deeds ++ deeds svc (c.turn svc s).connection (c.turn svc s).state
termination_by 2 * c.unread.length + c.isSending.toNat
decreasing_by exact turn_lt _h

theorem deeds_of_found {svc : Service σ} {c : Connection σ} {s : σ}
    {found : Except FrameError Action} (h : (c.turn svc s).found = some found) :
    c.deeds svc s = (c.turn svc s).deeds ++ [.returned found] := by
  rw [deeds]
  split
  · next h' =>
    rw [h] at h'
    cases h'
    rfl
  · next h' =>
    rw [h] at h'
    cases h'

theorem deeds_of_none {svc : Service σ} {c : Connection σ} {s : σ}
    (h : (c.turn svc s).found = none) :
    c.deeds svc s =
      (c.turn svc s).deeds ++ (c.turn svc s).connection.deeds svc (c.turn svc s).state := by
  rw [deeds]
  split
  · next h' =>
    rw [h] at h'
    cases h'
  · rfl

end Connection

/-! ## Usages -/

/-- What the caller of a connection does with it. -/
inductive Use where
  /-- Gives bytes to the reader, which takes what it has space for. -/
  | give (chunk : Bytes)
  | ask
  /-- Says that the peer has closed. -/
  | hangUp
  /-- Ends the connection. -/
  | stop
deriving DecidableEq, Repr, Inhabited

/-- A connection that is used, and what was done with it so far. -/
structure Usage (σ : Type) where
  connection : Connection σ
  state : σ
  history : List (Deed σ)

namespace Usage

/-- A new connection. -/
def start (svc : Service σ) (peer : Option Net.SocketAddress) (s : σ) : Usage σ :=
  let (connection, state) := Connection.accept svc peer s
  ⟨connection, state, []⟩

def give (x : Usage σ) (chunk : Bytes) : Usage σ :=
  let reader := x.connection.reader.feed chunk
  ⟨{ x.connection with reader }, x.state, x.history ++ [.given chunk]⟩

def ask (svc : Service σ) (x : Usage σ) : Usage σ :=
  let after := x.connection.next svc x.state
  ⟨after.2.1, after.2.2, x.history ++ .asked :: x.connection.deeds svc x.state⟩

def hangUp (x : Usage σ) : Usage σ :=
  ⟨x.connection.peerClosed, x.state, x.history ++ [.hungUp]⟩

def stop (x : Usage σ) : Usage σ :=
  ⟨x.connection.terminate, x.state, x.history ++ [.stopped]⟩

def step (svc : Service σ) (x : Usage σ) : Use → Usage σ
  | .give chunk => x.give chunk
  | .ask => x.ask svc
  | .hangUp => x.hangUp
  | .stop => x.stop

def run (svc : Service σ) (x : Usage σ) (uses : List Use) : Usage σ := uses.foldl (step svc) x

end Usage

end LineFrame
