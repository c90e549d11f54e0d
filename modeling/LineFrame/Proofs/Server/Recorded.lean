import LineFrame.Proofs.Server.Conversation

/-!
# Which handlers run

The handlers of a `Service.recorded` note the request that they are called with, and do what they
did before.  In a session of such a service the record comes to `Service.called`: the requests of
the frames that the input decodes to, up to the first disconnect command or fatal error.  So a
handler never runs for a frame that is not complete, nor for one after the end of the session.
-/

namespace LineFrame

variable {σ α : Type}

namespace Call

/-- The same on a state with a record, which is left as it is. -/
def unrecorded (call : Call σ α) : Call (σ × List Request) α := fun (s, record) =>
  let (outcome, s) := call s
  (outcome, s, record)

/-- The same on a state with a record, in which the request is noted. -/
def recorded (request : Request) (call : Call σ α) : Call (σ × List Request) α := fun (s, record) =>
  let (outcome, s) := call s
  (outcome, s, record ++ [request])

end Call

def Handler.recorded : Handler σ → Handler (σ × List Request)
  | .single run => .single fun request => (run request).recorded request
  | .stream run => .stream fun request =>
    Call.recorded request fun s =>
      let (outcome, s) := run request s
      (outcome.map (List.map Call.unrecorded), s)

def Registration.recorded (entry : Registration σ) : Registration (σ × List Request) :=
  ⟨entry.expectation, entry.handler.recorded⟩

def Reply.recorded : Reply σ → Reply (σ × List Request)
  | .single response => .single response
  | .stream items => .stream (items.map Call.unrecorded)

theorem Reply.items_recorded (reply : Reply σ) :
    reply.recorded.items = reply.items.map Call.unrecorded := by
  cases reply <;> rfl

/-- The transcript with the record that is there after it. -/
def Transcript.recorded (record : List Request) (t : Transcript σ) :
    Transcript (σ × List Request) :=
  ⟨t.sent, t.ending, t.state, record⟩

namespace Service

def recorded (svc : Service σ) : Service (σ × List Request) where
  commands := svc.commands.map fun (key, entry) => (key, entry.recorded)
  fallback request := (svc.fallback request).recorded request
  faultHandler := svc.faultHandler.map fun handle command fault => (handle command fault).unrecorded
  disconnectCommand := svc.disconnectCommand
  disconnectHandler request := (svc.disconnectHandler request).recorded request
  sink event := fun (s, record) => (svc.sink event s, record)
  maxPayload := svc.maxPayload

/-- The requests that handlers are called with. -/
def called (svc : Service σ) : List Finding → List Request
  | [] => []
  | .ok frame :: more =>
    ⟨frame.name, frame.args, frame.payload⟩ ::
      if svc.isDisconnect frame.name then [] else svc.called more
  | .error e :: more => if e.fatal then [] else svc.called more

theorem isDisconnect_recorded (svc : Service σ) (name : String) :
    svc.recorded.isDisconnect name = svc.isDisconnect name := rfl

theorem lookup_recorded (svc : Service σ) (name : String) :
    svc.recorded.lookup name = (svc.lookup name).recorded := by
  rw [lookup, show svc.recorded.commands.lookup (foldName name) = _ from
    lookup_map Registration.recorded svc.commands _, lookup]
  cases svc.commands.lookup (foldName name) with
  | none => rfl
  | some entry => rfl

theorem expectationFor_recorded (svc : Service σ) :
    svc.recorded.expectationFor = svc.expectationFor := by
  funext name
  rw [expectationFor, expectationFor, lookup_recorded, isDisconnect_recorded]
  rfl

theorem errorResponse_recorded (svc : Service σ) (command : String) (fault : Fault) (s : σ)
    (record : List Request) :
    svc.recorded.errorResponse command fault (s, record) =
      ((svc.errorResponse command fault s).1, (svc.errorResponse command fault s).2, record) := by
  unfold errorResponse
  cases hf : svc.faultHandler with
  | none =>
    rw [show svc.recorded.faultHandler = none by rw [recorded, hf]; rfl]
  | some handle =>
    rw [show svc.recorded.faultHandler =
      some fun command fault => (handle command fault).unrecorded by rw [recorded, hf]; rfl]
    dsimp only [Call.unrecorded]
    split <;> rfl

theorem usageErrorResponse_recorded (svc : Service σ) (e : FrameError) (s : σ)
    (record : List Request) :
    svc.recorded.usageErrorResponse e (s, record) =
      ((svc.usageErrorResponse e s).1, (svc.usageErrorResponse e s).2, record) :=
  errorResponse_recorded svc "" _ s record

theorem answer_recorded (svc : Service σ) (command : String) (request : Request)
    (call : Call σ Response) (s : σ) (record : List Request) :
    svc.recorded.answer command (call.recorded request) (s, record) =
      ((svc.answer command call s).1, (svc.answer command call s).2, record ++ [request]) := by
  unfold answer
  dsimp only [Call.recorded]
  split
  · rfl
  · exact errorResponse_recorded svc command _ _ _

-- A dispatched request is answered in the same way, and noted once.
theorem dispatch_recorded (svc : Service σ) (request : Request) (s : σ) (record : List Request) :
    svc.recorded.dispatch request (s, record) =
      ((svc.dispatch request s).1.recorded, (svc.dispatch request s).2, record ++ [request]) := by
  have hanswer := svc.answer_recorded request.command request
  unfold dispatch
  dsimp only
  rw [isDisconnect_recorded, lookup_recorded]
  split
  · rw [show svc.recorded.disconnectHandler request =
      (svc.disconnectHandler request).recorded request from rfl, hanswer]
    rfl
  · cases hh : (svc.lookup request.command).handler with
    | single run =>
      rw [show (svc.lookup request.command).recorded.handler = Handler.recorded (.single run) by
        rw [← hh]; rfl]
      show (Reply.single (svc.recorded.answer _ ((run request).recorded request) _).1, _) = _
      rw [hanswer]
      rfl
    | stream run =>
      rw [show (svc.lookup request.command).recorded.handler = Handler.recorded (.stream run) by
        rw [← hh]; rfl]
      dsimp only [Handler.recorded, Call.recorded]
      cases run request s with
      | mk outcome t =>
        cases outcome with
        | returned items => rfl
        | faulted fault =>
          show (Reply.single (svc.recorded.errorResponse _ fault (t, _)).1, _) = _
          rw [errorResponse_recorded]
          rfl
        | panicked cause =>
          show (Reply.single (svc.recorded.errorResponse _ (.ofPanic cause) (t, _)).1, _) = _
          rw [errorResponse_recorded]
          rfl

theorem responses_recorded (svc : Service σ) (command : String) (items : List (Call σ Response))
    (s : σ) (record : List Request) :
    svc.recorded.responses command (items.map Call.unrecorded) (s, record) =
      ((svc.responses command items s).1, (svc.responses command items s).2, record) := by
  induction items generalizing s with
  | nil => rfl
  | cons call items ih =>
    have hstate : (call.unrecorded (s, record)).2 = ((call s).2, record) := rfl
    cases h : (call s).1.contain with
    | ok response =>
      have hrecorded : (call.unrecorded (s, record)).1.contain = .ok response := h
      rw [List.map_cons, responses_cons_ok _ _ _ hrecorded, responses_cons_ok _ _ _ h, hstate, ih]
    | error fault =>
      have hrecorded : (call.unrecorded (s, record)).1.contain = .error fault := h
      rw [List.map_cons, responses_cons_error _ _ _ hrecorded, responses_cons_error _ _ _ h, hstate,
        errorResponse_recorded]

-- The rest of an answer is the same too, if what follows it is.
theorem remainder_recorded {svc : Service σ} {more : List Finding}
    (h : ∀ s record, svc.recorded.transcript more (s, record) =
      (svc.transcript more s).recorded (record ++ svc.called more))
    (out : Outgoing σ) (s : σ) (record : List Request) :
    svc.recorded.remainder ⟨out.command, out.disconnect, out.pending.map Call.unrecorded⟩ more
        (s, record) =
      (svc.remainder out more s).recorded
        (record ++ if out.disconnect then [] else svc.called more) := by
  rw [remainder, remainder]
  dsimp only
  rw [responses_recorded]
  split
  · rw [List.append_nil]
    rfl
  · show ((svc.recorded.transcript more (_, record)).after _) = _
    rw [h]
    rfl

/-- **A recorded session goes the same**, and its record is what handlers are called with. -/
theorem transcript_recorded (svc : Service σ) (findings : List Finding) (s : σ)
    (record : List Request) :
    svc.recorded.transcript findings (s, record) =
      (svc.transcript findings s).recorded (record ++ svc.called findings) := by
  induction findings generalizing s record with
  | nil =>
    rw [called, List.append_nil]
    rfl
  | cons found more ih =>
    cases found with
    | ok frame =>
      let t := svc.sink (.dispatched frame.name) (svc.sink (.received frame.name) s)
      let reply := svc.dispatch (.ofFrame frame) t
      have hrest := remainder_recorded ih
        ⟨frame.name, svc.isDisconnect frame.name, reply.1.items⟩ reply.2
        (record ++ [.ofFrame frame])
      rw [List.append_assoc] at hrest
      rw [transcript_frame, transcript_frame, called]
      show (svc.recorded.remainder ⟨_, _, (svc.recorded.dispatch _ (t, record)).1.items⟩ more
        (svc.recorded.dispatch _ (t, record)).2) = _
      rw [dispatch_recorded, Reply.items_recorded]
      exact hrest
    | error e =>
      cases he : e.fatal with
      | true =>
        rw [transcript_fatal _ he, transcript_fatal _ he, called, if_pos he, List.append_nil]
        rfl
      | false =>
        rw [transcript_usage _ he, transcript_usage _ he, called, if_neg (by simp [he])]
        dsimp only
        rw [usageErrorResponse_recorded]
        exact remainder_recorded ih ⟨"", false, [.pure _]⟩ _ record

end Service

namespace Conversation

/-- **What a session means.**  In whatever pieces a connection is given its input, and whenever it
is asked what to do in between, it sends, ends and leaves the state just as reading all of the input
at once and answering it in order does.  The handlers that it calls are those of the requests that
are answered so. -/
theorem session_eq_transcript (svc : Service σ) (peer : Option Net.SocketAddress) (s : σ)
    (bytes : Bytes) (moves : List Move) :
    let findings := Finding.decodeAll svc.expectationFor svc.maxPayload bytes
    let transcript := svc.transcript findings (svc.sink (.opened peer) s)
    (((start svc peer s bytes).run svc moves).finish svc).transcript = transcript ∧
      (((start svc.recorded peer (s, []) bytes).run svc.recorded moves).finish
          svc.recorded).transcript = transcript.recorded (svc.called findings) := by
  intro findings transcript
  refine ⟨finish_transcript svc peer s bytes moves, ?_⟩
  rw [finish_transcript, Service.expectationFor_recorded]
  exact Service.transcript_recorded svc findings _ []

end Conversation

end LineFrame
