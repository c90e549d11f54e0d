import LineFrame.Proofs.Server.Transcript
import LineFrame.Proofs.Wire.Feeding

/-!
# Sessions, response by response

The course of a session is its transcript (`transcript_course`) with the responses one by one.  Each
stands with the state in which it is handed out: the item that gives it has been run, the next one
has not, and the sink has not been told that the command is completed.  So a course tells what a
session comes to that is given up at any of its responses.
-/

namespace LineFrame

/-- What a session hands out, how it ends, if it does, and the state that it leaves. -/
structure Course (σ : Type) where
  /-- The responses, each with the state in which it is handed out. -/
  sends : List (Bytes × σ)
  ending : Option Ending
  state : σ

variable {σ : Type}

namespace Course

def out (x : Course σ) : Bytes := x.sends.flatMap Prod.fst

def transcript (x : Course σ) : Transcript σ := ⟨x.out, x.ending, x.state⟩

/-- The same with a response handed out before. -/
def after (data : Bytes) (s : σ) (x : Course σ) : Course σ :=
  { x with sends := (data, s) :: x.sends }

theorem out_after (data : Bytes) (s : σ) (x : Course σ) :
    (x.after data s).out = data ++ x.out := List.flatMap_cons

theorem transcript_after (data : Bytes) (s : σ) (x : Course σ) :
    (x.after data s).transcript = x.transcript.after data :=
  congrArg (Transcript.mk · x.ending x.state) (out_after data s x)

end Course

namespace Service

/-- Completes the answer to a command, and goes on with what follows it. -/
def completing (svc : Service σ) (command : String) (disconnect : Bool) (more : σ → Course σ)
    (s : σ) : Course σ :=
  let s := svc.sink (.completed command) s
  if disconnect then ⟨[], some .closed, s⟩ else more s

/-- Hands out the responses that calls give, up to the first fault, and completes the answer. -/
def answering (svc : Service σ) (command : String) (disconnect : Bool) (more : σ → Course σ) :
    List (Call σ Response) → σ → Course σ
  | [], s => svc.completing command disconnect more s
  | call :: rest, s =>
    let (outcome, s) := call s
    match outcome.contain with
    | .ok response => (svc.answering command disconnect more rest s).after response.encode s
    | .error fault =>
      let (response, s) := svc.errorResponse command fault s
      (svc.completing command disconnect more s).after response.encode s

/-- Answers frames and errors in order, up to the first disconnect command or fatal error, as
`transcript` does. -/
def course (svc : Service σ) : List Finding → σ → Course σ
  | [], s => ⟨[], none, s⟩
  | .ok frame :: more, s =>
    let s := svc.sink (.received frame.name) s
    let s := svc.sink (.dispatched frame.name) s
    let request : Request := ⟨frame.name, frame.args, frame.payload⟩
    let (calls, s) := (svc.handlerFor frame.name).calls request s
    svc.answering frame.name (svc.isDisconnect frame.name) (svc.course more) calls s
  | .error e :: more, s =>
    if e.fatal then ⟨[], some (.failed e), s⟩
    else
      let (response, s) := svc.errorResponse "" ⟨e.kind, e.message⟩ s
      (svc.completing "" false (svc.course more) s).after response.encode s

theorem answering_answer (svc : Service σ) (command : String) (disconnect : Bool)
    (more : σ → Course σ) (call : Call σ Response) (s : σ) :
    svc.answering command disconnect more [.pure (svc.answer command call s).1]
        (svc.answer command call s).2 =
      svc.answering command disconnect more [call] s := by
  rw [answering, answering, answer]
  dsimp only
  cases (call s).1.contain with
  | ok response => rfl
  | error fault => rfl

theorem answering_dispatch (svc : Service σ) (request : Request) (s : σ) (disconnect : Bool)
    (more : σ → Course σ) :
    let calls := (svc.handlerFor request.command).calls request s
    let answered := svc.dispatch request s
    svc.answering request.command disconnect more answered.1.items answered.2 =
      svc.answering request.command disconnect more calls.1 calls.2 := by
  intro calls answered
  rcases svc.dispatch_calls request s with hsame | ⟨call, hcalls, hitems, hstate⟩
  · rw [← show (answered.1.items, answered.2) = calls from hsame]
  · rw [show calls.1 = [call] from hcalls, hitems, hstate]
    exact svc.answering_answer request.command disconnect more call calls.2

theorem course_frame (svc : Service σ) (frame : Frame) (more : List Finding) (s : σ) :
    svc.course (.ok frame :: more) s =
      (let s := svc.sink (.dispatched frame.name) (svc.sink (.received frame.name) s)
      let answered := svc.dispatch (.ofFrame frame) s
      svc.answering frame.name (svc.isDisconnect frame.name) (svc.course more)
        answered.1.items answered.2) := by
  let t := svc.sink (.dispatched frame.name) (svc.sink (.received frame.name) s)
  exact (svc.answering_dispatch (.ofFrame frame) t _ _).symm

theorem course_usage (svc : Service σ) {e : FrameError} (he : e.fatal = false)
    (more : List Finding) (s : σ) :
    svc.course (.error e :: more) s =
      (let answered := svc.usageErrorResponse e s
      svc.answering "" false (svc.course more) [.pure answered.1] answered.2) := by
  rw [course, if_neg (by simp [he])]
  rfl

theorem course_fatal (svc : Service σ) {e : FrameError} (he : e.fatal = true)
    (more : List Finding) (s : σ) :
    svc.course (.error e :: more) s = ⟨[], some (.failed e), s⟩ := by
  rw [course, if_pos he]

-- A response that is pulled is the next one that is handed out.
theorem answering_pull_some {svc : Service σ} {o p : Outgoing σ} {s t : σ} {response : Response}
    (h : o.pull svc s = (some response, p, t)) (more : σ → Course σ) :
    svc.answering o.command o.disconnect more o.pending s =
      (svc.answering p.command p.disconnect more p.pending t).after response.encode t := by
  obtain ⟨command, disconnect, pending⟩ := o
  cases pending with
  | nil => cases h
  | cons call rest =>
    rw [Outgoing.pull] at h
    rw [answering]
    dsimp only at h ⊢
    cases hr : (call s).1.contain with
    | ok found =>
      rw [hr] at h
      cases h
      rfl
    | error fault =>
      rw [hr] at h
      cases h
      rfl

/-! ## Transcripts -/

theorem transcript_answering {svc : Service σ} {more : σ → Course σ} {findings : List Finding}
    (h : ∀ s, (more s).transcript = svc.transcript findings s) (command : String)
    (disconnect : Bool) (items : List (Call σ Response)) (s : σ) :
    (svc.answering command disconnect more items s).transcript =
      svc.remainder ⟨command, disconnect, items⟩ findings s := by
  have hlast (s : σ) : (svc.completing command disconnect more s).transcript =
      svc.remainder ⟨command, disconnect, []⟩ findings s := by
    rw [completing, remainder, responses]
    cases disconnect with
    | true => rfl
    | false => exact h _
  induction items generalizing s with
  | nil => exact hlast s
  | cons call rest ih =>
    let o : Outgoing σ := ⟨command, disconnect, call :: rest⟩
    rw [answering]
    dsimp only
    cases hr : (call s).1.contain with
    | ok response =>
      have hpull : o.pull svc s = (some response, { o with pending := rest }, (call s).2) := by
        rw [Outgoing.pull]
        dsimp only [o]
        rw [hr]
      rw [remainder_pull_some hpull, ← ih]
      exact Course.transcript_after _ _ _
    | error fault =>
      have hpull : o.pull svc s = (some (svc.errorResponse command fault (call s).2).1,
          { o with pending := [] }, (svc.errorResponse command fault (call s).2).2) := by
        rw [Outgoing.pull]
        dsimp only [o]
        rw [hr]
      rw [remainder_pull_some hpull, ← hlast]
      exact Course.transcript_after _ _ _

/-- **The responses of a course, one after the other, are what the session sends**, and it ends in
the same way and leaves the same state. -/
theorem transcript_course (svc : Service σ) (findings : List Finding) (s : σ) :
    (svc.course findings s).transcript = svc.transcript findings s := by
  induction findings generalizing s with
  | nil => rfl
  | cons found more ih =>
    cases found with
    | ok frame =>
      rw [course_frame, transcript_frame]
      exact transcript_answering ih _ _ _ _
    | error e =>
      cases he : e.fatal with
      | true =>
        rw [course_fatal svc he, transcript_fatal svc he]
        rfl
      | false =>
        rw [course_usage svc he, transcript_usage svc he]
        exact transcript_answering ih _ _ _ _

/-! ## Input -/

-- A session answers what a reader finds in its input as what the input decodes to: they are the
-- same up to the first fatal error.
theorem course_feed (svc : Service σ) (expect : String → Expectation) (limit : Nat)
    (bytes : Bytes) :
    svc.course ((Held.fresh limit).feed expect bytes).1 =
      svc.course (Finding.decodeAll expect limit bytes) := by
  fun_induction Finding.decodeAll expect limit bytes with
  | case1 bytes h => rw [Held.feed_of_decode_none h]
  | case2 bytes found rest h hfatal =>
    obtain ⟨g, hfeed, -⟩ := Held.feed_of_decode_some h
    rw [hfeed]
    cases found with
    | ok frame => cases hfatal
    | error e =>
      funext s
      rw [course_fatal svc hfatal, course_fatal svc hfatal]
  | case3 bytes found rest h hfatal ih =>
    obtain ⟨g, hfeed, hg⟩ := Held.feed_of_decode_some h
    rw [hfeed, hg (Bool.not_eq_true _ ▸ hfatal)]
    funext s
    cases found with
    | ok frame => rw [course_frame, course_frame, ih]
    | error e => rw [course, course, ih]

theorem transcript_feed (svc : Service σ) (expect : String → Expectation) (limit : Nat)
    (bytes : Bytes) (s : σ) :
    svc.transcript ((Held.fresh limit).feed expect bytes).1 s =
      svc.transcript (Finding.decodeAll expect limit bytes) s := by
  rw [← transcript_course, ← transcript_course, course_feed]

end Service

namespace Connection

/-! ## Connections -/

/-- The course that a connection is going to take, once it has been given these bytes too. -/
def course (svc : Service σ) (c : Connection σ) (left : Bytes) (s : σ) : Course σ :=
  let more := svc.course (c.reader.held.feed svc.expectationFor (c.reader.unread ++ left)).1
  match c.phase with
  | .awaiting => more s
  | .sending out => svc.answering out.command out.disconnect more out.pending s
  | .terminated => ⟨[], some .closed, s⟩

theorem course_of_awaiting {svc : Service σ} {c : Connection σ} (hp : c.phase = .awaiting)
    (left : Bytes) (s : σ) :
    c.course svc left s =
      svc.course (c.reader.held.feed svc.expectationFor (c.reader.unread ++ left)).1 s := by
  rw [course, hp]

theorem course_of_sending {svc : Service σ} {c : Connection σ} {out : Outgoing σ}
    (hp : c.phase = .sending out) (left : Bytes) (s : σ) :
    c.course svc left s = svc.answering out.command out.disconnect
      (svc.course (c.reader.held.feed svc.expectationFor (c.reader.unread ++ left)).1)
      out.pending s := by
  rw [course, hp]

/-- The course before an action, in terms of that after it. -/
def Follows (svc : Service σ) (left : Bytes) (x : Course σ) :
    Except FrameError Action × Connection σ × σ → Prop
  | (.ok .receive, c, s) => x = c.course svc left s
  | (.ok (.send data), c, s) => x = (c.course svc left s).after data s
  | (.ok .close, _, s) => x = ⟨[], some .closed, s⟩
  | (.error e, _, s) => x = ⟨[], some (.failed e), s⟩

-- Completing an answer of which nothing is left to be sent.
theorem course_complete {svc : Service σ} {c : Connection σ} {out : Outgoing σ}
    (hp : c.phase = .sending out) (hn : out.pending = []) (left : Bytes) (s : σ) :
    c.course svc left s =
      (c.complete svc out s).1.course svc left (c.complete svc out s).2 := by
  rw [course_of_sending hp, hn]
  unfold complete course
  cases out.disconnect with
  | true => rfl
  | false => rfl

/-- **An action does not change the course, but for the response that it hands out.** -/
theorem next_course {c : Connection σ} (hs : c.reader.held.Sound) (svc : Service σ) (left : Bytes)
    (s : σ) : Follows svc left (c.course svc left s) (c.next svc s) := by
  -- After a frame, a refused line and a completed answer the connection goes on by itself.
  fun_induction next svc c s with
  | case1 c s hp =>
    show c.course svc left s = _
    rw [course, hp]
  | case2 c s out hp response out' t hpull =>
    show c.course svc left s = _
    rw [course_of_sending hp, Service.answering_pull_some hpull]
    rfl
  | case3 c s out hp out' t hpull step ih =>
    obtain ⟨hn, rfl, rfl⟩ := pull_none hpull
    rw [course_complete hp hn]
    exact ih hs
  | case4 c s hp reader h =>
    have hfeed := Reader.feed_of_nextFrame hs h left
    show c.course svc left s = course svc { c with reader } left s
    rw [course_of_awaiting hp, hfeed, course_of_awaiting (c := { c with reader }) hp]
    rfl
  | case5 c s hp frame reader h step ih =>
    have hfeed := Reader.feed_of_nextFrame hs h left
    have hcourse : c.course svc left s = step.1.course svc left step.2 := by
      rw [course_of_awaiting hp, hfeed]
      exact Service.course_frame svc frame _ s
    rw [hcourse]
    exact ih (Reader.nextFrame_sound hs h)
  | case6 c s hp e reader h he =>
    have hfeed := Reader.feed_of_nextFrame hs h left
    show c.course svc left s = _
    rw [course_of_awaiting hp, hfeed]
    exact svc.course_fatal he _ s
  | case7 c s hp e reader h he step ih =>
    have hfeed := Reader.feed_of_nextFrame hs h left
    have hcourse : c.course svc left s = step.1.course svc left step.2 := by
      rw [course_of_awaiting hp, hfeed]
      exact Service.course_usage svc (Bool.not_eq_true _ ▸ he) _ s
    rw [hcourse]
    exact ih (Reader.nextFrame_sound hs h)

end Connection

end LineFrame
