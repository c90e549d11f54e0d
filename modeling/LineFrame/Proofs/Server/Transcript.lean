import LineFrame.Connection
import LineFrame.Proofs.Wire.Decode

/-!
# What a session comes to

The meaning of a server's side of a connection, read off all of its input at once.  The input is
decoded into frames and errors; then these are answered in order, each of them completely before the
next one is looked at (`Service.transcript`).  There is no reader, no phase and no caller here, and
handlers are run where their responses are wanted, not dispatched to: `Conversation` says that a
`Connection` comes to the same.
-/

namespace LineFrame

/-- How a session ends. -/
inductive Ending where
  | closed
  | failed (e : FrameError)
deriving DecidableEq, Repr, Inhabited

/-- What a session has sent, how it ended, if it did, and the state that it left. -/
structure Transcript (σ : Type) where
  sent : Bytes
  ending : Option Ending
  state : σ

variable {σ : Type}

/-- Code that fails. -/
def Call.raise {α : Type} (fault : Fault) : Call σ α := fun s => (.faulted fault, s)

/-- The calls that give the responses to a request, in order: the handler itself, or what a handler
of a stream comes to when it is run.  The fault of such a handler is all that its stream gives. -/
def Handler.calls (request : Request) : Handler σ → σ → List (Call σ Response) × σ
  | .single run, s => ([run request], s)
  | .stream run, s =>
    let (outcome, s) := run request s
    match outcome.contain with
    | .ok items => (items, s)
    | .error fault => ([.raise fault], s)

namespace Transcript

/-- The same with some bytes sent before. -/
def after (bytes : Bytes) (t : Transcript σ) : Transcript σ := { t with sent := bytes ++ t.sent }

theorem after_after (xs ys : Bytes) (t : Transcript σ) :
    (t.after ys).after xs = t.after (xs ++ ys) := by
  show Transcript.mk (xs ++ (ys ++ t.sent)) t.ending t.state = _
  rw [← List.append_assoc]
  rfl

end Transcript

namespace Service

/-- The handler of the commands with this name. -/
def handlerFor (svc : Service σ) (name : String) : Handler σ :=
  if svc.isDisconnect name then .single svc.disconnectHandler else (svc.lookup name).handler

/-- The responses that calls give.  The first fault is answered with an error response, and no call
after it is run. -/
def responses (svc : Service σ) (command : String) : List (Call σ Response) → σ → List Response × σ
  | [], s => ([], s)
  | call :: rest, s =>
    let (outcome, s) := call s
    match outcome.contain with
    | .ok response =>
      let (more, s) := svc.responses command rest s
      (response :: more, s)
    | .error fault =>
      let (response, s) := svc.errorResponse command fault s
      ([response], s)

/-- Answers frames and errors in order, up to the first disconnect command or fatal error.  A frame
is answered with the responses of its handler, and an error that is not fatal with a response that
names its kind and says its message. -/
def transcript (svc : Service σ) : List Finding → σ → Transcript σ
  | [], s => ⟨[], none, s⟩
  | .ok frame :: more, s =>
    let s := svc.sink (.received frame.name) s
    let s := svc.sink (.dispatched frame.name) s
    let request : Request := ⟨frame.name, frame.args, frame.payload⟩
    let (calls, s) := (svc.handlerFor frame.name).calls request s
    let (responses, s) := svc.responses frame.name calls s
    let s := svc.sink (.completed frame.name) s
    let bytes := responses.flatMap Response.encode
    if svc.isDisconnect frame.name then ⟨bytes, some .closed, s⟩
    else (svc.transcript more s).after bytes
  | .error e :: more, s =>
    if e.fatal then ⟨[], some (.failed e), s⟩
    else
      let (response, s) := svc.errorResponse "" ⟨e.kind, e.message⟩ s
      let s := svc.sink (.completed "") s
      (svc.transcript more s).after response.encode

/-- The rest of an answer that is being sent, and all that follows it. -/
def remainder (svc : Service σ) (out : Outgoing σ) (more : List Finding) (s : σ) : Transcript σ :=
  let (responses, s) := svc.responses out.command out.pending s
  let s := svc.sink (.completed out.command) s
  let bytes := responses.flatMap Response.encode
  if out.disconnect then ⟨bytes, some .closed, s⟩ else (svc.transcript more s).after bytes

theorem responses_cons_ok (svc : Service σ) (command : String) {call : Call σ Response}
    (rest : List (Call σ Response)) {s : σ} {response : Response}
    (h : (call s).1.contain = .ok response) :
    svc.responses command (call :: rest) s =
      (response :: (svc.responses command rest (call s).2).1,
        (svc.responses command rest (call s).2).2) := by
  rw [responses]
  dsimp only
  rw [h]

theorem responses_cons_error (svc : Service σ) (command : String) {call : Call σ Response}
    (rest : List (Call σ Response)) {s : σ} {fault : Fault}
    (h : (call s).1.contain = .error fault) :
    svc.responses command (call :: rest) s =
      ([(svc.errorResponse command fault (call s).2).1],
        (svc.errorResponse command fault (call s).2).2) := by
  rw [responses]
  dsimp only
  rw [h]

theorem responses_pull_some {svc : Service σ} {o p : Outgoing σ} {s t : σ} {response : Response}
    (h : o.pull svc s = (some response, p, t)) :
    svc.responses o.command o.pending s =
      (response :: (svc.responses p.command p.pending t).1,
        (svc.responses p.command p.pending t).2) := by
  cases hp : o.pending with
  | nil =>
    rw [Outgoing.pull, hp] at h
    cases h
  | cons call rest =>
    rw [Outgoing.pull, hp] at h
    dsimp only at h
    cases hr : (call s).1.contain with
    | ok r =>
      rw [hr] at h
      cases h
      exact responses_cons_ok svc o.command rest hr
    | error fault =>
      rw [hr] at h
      cases h
      exact responses_cons_error svc o.command rest hr

-- A response that is handed out is the next one that is owed.
theorem remainder_pull_some {svc : Service σ} {o p : Outgoing σ} {s t : σ} {response : Response}
    (h : o.pull svc s = (some response, p, t)) (more : List Finding) :
    svc.remainder o more s = (svc.remainder p more t).after response.encode := by
  have hsame : p.command = o.command ∧ p.disconnect = o.disconnect := by
    unfold Outgoing.pull at h
    split at h
    · cases h
    · dsimp only at h
      split at h <;> cases h <;> exact ⟨rfl, rfl⟩
  rw [remainder, remainder, responses_pull_some h, hsame.1, hsame.2]
  dsimp only
  split
  · rfl
  · rw [Transcript.after_after]
    rfl

/-! ## Dispatching -/

-- A call whose response is there already gives this one, and the call itself does as well.
theorem responses_answer (svc : Service σ) (command : String) (call : Call σ Response) (s : σ) :
    svc.responses command [.pure (svc.answer command call s).1] (svc.answer command call s).2 =
      svc.responses command [call] s := by
  rw [responses, responses, answer]
  dsimp only
  cases (call s).1.contain with
  | ok response => rfl
  | error fault => rfl

/-- A request is dispatched to the handler of its command: either its calls are still to be made, or
the only one of them was answered. -/
theorem dispatch_calls (svc : Service σ) (request : Request) (s : σ) :
    let calls := (svc.handlerFor request.command).calls request s
    let answered := svc.dispatch request s
    (answered.1.items, answered.2) = calls ∨
      ∃ call, calls.1 = [call] ∧
        answered.1.items = [.pure (svc.answer request.command call calls.2).1] ∧
        answered.2 = (svc.answer request.command call calls.2).2 := by
  unfold dispatch handlerFor
  dsimp only
  split
  · exact .inr ⟨_, rfl, rfl, rfl⟩
  · cases (svc.lookup request.command).handler with
    | single run => exact .inr ⟨_, rfl, rfl, rfl⟩
    | stream run =>
      dsimp only [Handler.calls]
      cases (run request s).1.contain with
      | ok items => exact .inl rfl
      | error fault => exact .inr ⟨.raise fault, rfl, rfl, rfl⟩

theorem remainder_dispatch (svc : Service σ) (request : Request) (s : σ) (disconnect : Bool)
    (more : List Finding) :
    let calls := (svc.handlerFor request.command).calls request s
    let answered := svc.dispatch request s
    svc.remainder ⟨request.command, disconnect, answered.1.items⟩ more answered.2 =
      svc.remainder ⟨request.command, disconnect, calls.1⟩ more calls.2 := by
  intro calls answered
  rcases svc.dispatch_calls request s with hsame | ⟨call, hcalls, hitems, hstate⟩
  · rw [← show (answered.1.items, answered.2) = calls from hsame]
  · rw [show calls.1 = [call] from hcalls, hitems, hstate, remainder, remainder]
    dsimp only
    rw [responses_answer]

theorem transcript_frame (svc : Service σ) (frame : Frame) (more : List Finding) (s : σ) :
    svc.transcript (.ok frame :: more) s =
      (let s := svc.sink (.dispatched frame.name) (svc.sink (.received frame.name) s)
      let answered := svc.dispatch (.ofFrame frame) s
      svc.remainder ⟨frame.name, svc.isDisconnect frame.name, answered.1.items⟩ more
        answered.2) := by
  rw [transcript]
  exact (svc.remainder_dispatch (.ofFrame frame) _ _ more).symm

theorem transcript_usage (svc : Service σ) {e : FrameError} (he : e.fatal = false)
    (more : List Finding) (s : σ) :
    svc.transcript (.error e :: more) s =
      (let answered := svc.usageErrorResponse e s
      svc.remainder ⟨"", false, [.pure answered.1]⟩ more answered.2) := by
  have hresponse : svc.errorResponse "" ⟨e.kind, e.message⟩ s = svc.usageErrorResponse e s := rfl
  rw [transcript, if_neg (by simp [he])]
  dsimp only
  rw [hresponse, remainder]
  simp [responses, Call.pure, Outcome.contain]

theorem transcript_fatal (svc : Service σ) {e : FrameError} (he : e.fatal = true)
    (more : List Finding) (s : σ) :
    svc.transcript (.error e :: more) s = ⟨[], some (.failed e), s⟩ := by
  rw [transcript, if_pos he]

end Service

end LineFrame
