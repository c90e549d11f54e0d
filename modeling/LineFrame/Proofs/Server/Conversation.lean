import LineFrame.Proofs.Server.Course

/-!
# Conversations

The caller of a connection has the bytes that the peer sends.  It offers a piece of them whenever it
likes, of which the connection takes what it has space for, and it asks what to do whenever it
likes, and does it.  In the end it gives all that is left of the bytes and asks until the session
has ended or awaits more.

The transcript of such a conversation does not change with any of these moves (`step_prospect`), so
it is that of the whole input (`finish_transcript`).
-/

namespace LineFrame

variable {σ : Type}

structure Conversation (σ : Type) where
  connection : Connection σ
  state : σ
  /-- The bytes that the connection has not taken yet. -/
  left : Bytes
  sent : Bytes
  ending : Option Ending

namespace Conversation

/-- A new connection, to which these bytes are to be given. -/
def start (svc : Service σ) (peer : Option Net.SocketAddress) (s : σ) (bytes : Bytes) :
    Conversation σ :=
  let (connection, state) := Connection.accept svc peer s
  ⟨connection, state, bytes, [], none⟩

def offer (x : Conversation σ) (n : Nat) : Conversation σ :=
  let piece := x.left.take n
  let reader := x.connection.reader
  { x with
    connection := { x.connection with reader := reader.feed piece }
    left := piece.drop reader.space ++ x.left.drop n }

/-- Asks what to do, and does it. -/
def ask (svc : Service σ) (x : Conversation σ) : Conversation σ :=
  match x.connection.next svc x.state with
  | (.ok .receive, connection, state) => { x with connection, state }
  | (.ok (.send data), connection, state) => { x with connection, state, sent := x.sent ++ data }
  | (.ok .close, connection, state) => { x with connection, state, ending := some .closed }
  | (.error e, connection, state) => { x with connection, state, ending := some (.failed e) }

/-- One move.  There are none after the end of the session. -/
def step (svc : Service σ) (x : Conversation σ) (m : Move) : Conversation σ :=
  match x.ending, m with
  | some _, _ => x
  | none, .offer n => x.offer n
  | none, .ask => x.ask svc

def run (svc : Service σ) (x : Conversation σ) (moves : List Move) : Conversation σ :=
  moves.foldl (step svc) x

theorem ask_left (svc : Service σ) (x : Conversation σ) : (x.ask svc).left = x.left := by
  unfold ask
  split <;> rfl

theorem ask_connection (svc : Service σ) (x : Conversation σ) :
    (x.ask svc).connection = (x.connection.next svc x.state).2.1 := by
  unfold ask
  split <;> next h => rw [h]

/-- Gives all that is left, and asks until the session has ended or awaits more. -/
def finish (svc : Service σ) (x : Conversation σ) : Conversation σ :=
  if x.ending.isSome then x
  else
    let y := x.ask svc
    match _h : (x.connection.next svc x.state).1 with
    | .ok (.send _) => y.finish svc
    | .ok .receive =>
      let z := y.offer y.left.length
      if _hl : z.left.length < y.left.length then z.finish svc else y
    | .ok .close => y
    | .error _ => y
termination_by (x.left.length, x.connection.backlog)
decreasing_by
  · have hbacklog := (x.connection.next_backlog svc x.state).1 _ _h
    rw [ask_left, ask_connection]
    exact .right _ hbacklog
  · rw [ask_left] at _hl
    exact .left _ _ _hl

def transcript (x : Conversation σ) : Transcript σ := ⟨x.sent, x.ending, x.state⟩

end Conversation

namespace Connection

/-- What a connection is still going to send, once it has been given these bytes too. -/
def owed (svc : Service σ) (c : Connection σ) (left : Bytes) (s : σ) : Transcript σ :=
  let more := (c.reader.held.feed svc.expectationFor (c.reader.unread ++ left)).1
  match c.phase with
  | .awaiting => svc.transcript more s
  | .sending out => svc.remainder out more s
  | .terminated => ⟨[], some .closed, s⟩

/-- What was owed before an action, in terms of what is owed after it. -/
def Owed (svc : Service σ) (left : Bytes) (t : Transcript σ) :
    Except FrameError Action × Connection σ × σ → Prop
  | (.ok .receive, c, s) => t = c.owed svc left s
  | (.ok (.send data), c, s) => t = (c.owed svc left s).after data
  | (.ok .close, _, s) => t = ⟨[], some .closed, s⟩
  | (.error e, _, s) => t = ⟨[], some (.failed e), s⟩

theorem owed_of_awaiting {svc : Service σ} {c : Connection σ} (hp : c.phase = .awaiting)
    (left : Bytes) (s : σ) :
    c.owed svc left s =
      svc.transcript (c.reader.held.feed svc.expectationFor (c.reader.unread ++ left)).1 s := by
  rw [owed, hp]

-- What is owed is what the course is going to hand out.
theorem transcript_course (svc : Service σ) (c : Connection σ) (left : Bytes) (s : σ) :
    (c.course svc left s).transcript = c.owed svc left s := by
  unfold course owed
  cases c.phase with
  | awaiting => exact svc.transcript_course _ s
  | sending out => exact Service.transcript_answering (svc.transcript_course _) _ _ _ s
  | terminated => rfl

/-- **An action does not change what is owed, but for the bytes that it sends.** -/
theorem next_owed {c : Connection σ} (hs : c.reader.held.Sound) (svc : Service σ) (left : Bytes)
    (s : σ) : Owed svc left (c.owed svc left s) (c.next svc s) := by
  have hfollows := next_course hs svc left s
  rw [← transcript_course]
  generalize c.next svc s = after at hfollows ⊢
  obtain ⟨e | action, d, t⟩ := after
  · exact congrArg Course.transcript hfollows
  · have hd := d.transcript_course svc left t
    cases action with
    | receive => exact (congrArg Course.transcript hfollows).trans hd
    | send data =>
      have hafter := (congrArg Course.transcript hfollows).trans (Course.transcript_after data t _)
      rwa [hd] at hafter
    | close => exact congrArg Course.transcript hfollows

theorem accept_ready (svc : Service σ) (peer : Option Net.SocketAddress) (s : σ) :
    (accept svc peer s).1.reader.Ready :=
  ⟨Held.fresh_sound svc.maxPayload, show 0 < Reader.defaultCapacity by decide⟩

theorem next_ready {c : Connection σ} (hr : c.reader.Ready) (svc : Service σ) (s : σ) :
    (c.next svc s).2.1.reader.Ready := by
  fun_induction next svc c s with
  | case1 => exact hr
  | case2 => exact hr
  | case3 c s out hp out' t hpull step ih => exact ih hr
  | case4 c s hp reader h => exact Reader.nextFrame_ready hr h
  | case5 c s hp frame reader h step ih => exact ih (Reader.nextFrame_ready hr h)
  | case6 c s hp e reader h he =>
    exact ⟨Held.fresh_sound reader.limit, (Reader.nextFrame_ready hr h).2⟩
  | case7 c s hp e reader h he step ih => exact ih (Reader.nextFrame_ready hr h)

-- A connection that awaits more bytes has looked at all that it has, and has room for more.
theorem next_receive {svc : Service σ} {c : Connection σ} {s : σ} (hr : c.reader.Ready)
    (h : (c.next svc s).1 = .ok .receive) :
    let d := (c.next svc s).2.1
    d.phase = .awaiting ∧ d.reader.unread = [] ∧ 0 < d.reader.space := by
  fun_induction next svc c s with
  | case1 => cases h
  | case2 => cases h
  | case3 c s out hp out' t hpull step ih => exact ih hr h
  | case4 c s hp reader hnone =>
    have hspace := Reader.space_of_nextFrame hnone
    exact ⟨hp, Reader.unread_of_nextFrame hnone, hspace ▸ hr.2⟩
  | case5 c s hp frame reader hframe step ih => exact ih (Reader.nextFrame_ready hr hframe) h
  | case6 => cases h
  | case7 c s hp e reader herror he step ih => exact ih (Reader.nextFrame_ready hr herror) h

end Connection

namespace Conversation

/-- What has been sent, and what will be once the connection has all of the bytes. -/
def prospect (svc : Service σ) (x : Conversation σ) : Transcript σ :=
  match x.ending with
  | some _ => x.transcript
  | none => (x.connection.owed svc x.left x.state).after x.sent

theorem prospect_of_none (svc : Service σ) {x : Conversation σ} (h : x.ending = none) :
    x.prospect svc = (x.connection.owed svc x.left x.state).after x.sent := by
  rw [prospect, h]

theorem prospect_of_some (svc : Service σ) {x : Conversation σ} (h : x.ending.isSome) :
    x.prospect svc = x.transcript := by
  obtain ⟨e, he⟩ := Option.isSome_iff_exists.mp h
  rw [prospect, he]

theorem offer_prospect (svc : Service σ) (x : Conversation σ) (n : Nat) :
    (x.offer n).prospect svc = x.prospect svc := by
  have hbytes : (x.offer n).connection.reader.unread ++ (x.offer n).left =
      x.connection.reader.unread ++ x.left := Reader.unread_feed_take _ _ _
  have howed : (x.offer n).connection.owed svc (x.offer n).left x.state =
      x.connection.owed svc x.left x.state := by
    unfold Connection.owed
    rw [hbytes]
    rfl
  unfold prospect
  rw [show (x.offer n).state = x.state from rfl, howed]
  rfl

theorem ask_prospect {x : Conversation σ} (hr : x.connection.reader.Ready) (svc : Service σ)
    (he : x.ending = none) : (x.ask svc).prospect svc = x.prospect svc := by
  have howed := Connection.next_owed hr.1 svc x.left x.state
  rw [prospect_of_none svc he]
  unfold ask
  split
  · next c s hn =>
    rw [hn] at howed
    let y : Conversation σ := { x with connection := c, state := s }
    rw [prospect_of_none svc (x := y) he, show _ = _ from howed]
  · next data c s hn =>
    rw [hn] at howed
    let y : Conversation σ := { x with connection := c, state := s, sent := x.sent ++ data }
    rw [prospect_of_none svc (x := y) he, show _ = _ from howed, Transcript.after_after]
  · next c s hn =>
    rw [hn] at howed
    rw [show _ = _ from howed, Transcript.after, List.append_nil]
    rfl
  · next e c s hn =>
    rw [hn] at howed
    rw [show _ = _ from howed, Transcript.after, List.append_nil]
    rfl

theorem offer_ready {x : Conversation σ} (hr : x.connection.reader.Ready) (n : Nat) :
    (x.offer n).connection.reader.Ready := hr

theorem ask_ready {x : Conversation σ} (hr : x.connection.reader.Ready) (svc : Service σ) :
    (x.ask svc).connection.reader.Ready := by
  rw [ask_connection]
  exact Connection.next_ready hr svc x.state

/-- **No move changes what has been sent and will be.** -/
theorem step_prospect {x : Conversation σ} (hr : x.connection.reader.Ready) (svc : Service σ)
    (m : Move) : (x.step svc m).prospect svc = x.prospect svc := by
  unfold step
  split
  · rfl
  · exact offer_prospect svc x _
  · next he => exact ask_prospect hr svc he

theorem step_ready {x : Conversation σ} (hr : x.connection.reader.Ready) (svc : Service σ)
    (m : Move) : (x.step svc m).connection.reader.Ready := by
  unfold step
  split
  · exact hr
  · exact offer_ready hr _
  · exact ask_ready hr svc

theorem run_prospect {x : Conversation σ} (hr : x.connection.reader.Ready) (svc : Service σ)
    (moves : List Move) :
    (x.run svc moves).connection.reader.Ready ∧
      (x.run svc moves).prospect svc = x.prospect svc := by
  induction moves generalizing x with
  | nil => exact ⟨hr, rfl⟩
  | cons m moves ih =>
    obtain ⟨hready, hprospect⟩ := ih (step_ready hr svc m)
    exact ⟨hready, hprospect.trans (step_prospect hr svc m)⟩

-- A connection that awaits more is offered all that is left, and takes some of it.
theorem offer_lt {x : Conversation σ} (hspace : 0 < x.connection.reader.space)
    (hleft : x.left ≠ []) : (x.offer x.left.length).left.length < x.left.length := by
  have hpos : 0 < x.left.length := List.length_pos_iff.mpr hleft
  show ((x.left.take _).drop x.connection.reader.space ++ x.left.drop _).length < _
  rw [List.length_append, List.length_drop, List.length_take, List.length_drop]
  omega

theorem ask_of_receive {svc : Service σ} {x : Conversation σ}
    (h : (x.connection.next svc x.state).1 = .ok .receive) :
    (x.ask svc).ending = x.ending := by
  unfold ask
  split
  · rfl
  · rfl
  · next hn => rw [hn] at h; cases h
  · next hn => rw [hn] at h; cases h

theorem ask_of_close {svc : Service σ} {x : Conversation σ}
    (h : (x.connection.next svc x.state).1 = .ok .close) : (x.ask svc).ending.isSome := by
  unfold ask
  split <;> next hn => rw [hn] at h; cases h <;> rfl

theorem ask_of_error {svc : Service σ} {x : Conversation σ} {e : FrameError}
    (h : (x.connection.next svc x.state).1 = .error e) : (x.ask svc).ending.isSome := by
  unfold ask
  split <;> next hn => rw [hn] at h; cases h <;> rfl

-- A connection that awaits more, when there is no more, owes nothing.
theorem prospect_of_receive {svc : Service σ} {x : Conversation σ}
    (hr : x.connection.reader.Ready) (he : x.ending = none)
    (h : (x.connection.next svc x.state).1 = .ok .receive) (hleft : x.left = []) :
    (x.ask svc).prospect svc = (x.ask svc).transcript := by
  obtain ⟨hphase, hunread, -⟩ := Connection.next_receive hr h
  have hending : (x.ask svc).ending = none := (ask_of_receive h).trans he
  rw [← ask_connection] at hphase hunread
  rw [prospect_of_none svc hending, Connection.owed_of_awaiting hphase, hunread, ask_left, hleft,
    transcript, hending]
  show Transcript.mk ((x.ask svc).sent ++ []) none (x.ask svc).state = _
  rw [List.append_nil]

/-- **Once all bytes are given and all is answered, the prospect is fulfilled.** -/
theorem finish_prospect {x : Conversation σ} (hr : x.connection.reader.Ready) (svc : Service σ) :
    (x.finish svc).transcript = x.prospect svc := by
  fun_induction finish svc x with
  | case1 x he => rw [prospect_of_some svc he]
  | case2 x he y data h ih =>
    rw [ih (ask_ready hr svc)]
    exact ask_prospect hr svc (by simpa using he)
  | case3 x he y h z hl ih =>
    rw [ih (offer_ready (ask_ready hr svc) _)]
    exact (offer_prospect svc _ _).trans (ask_prospect hr svc (by simpa using he))
  | case4 x he y h z hl =>
    have hnone : x.ending = none := by simpa using he
    have hleft : x.left = [] := by
      obtain ⟨-, -, hspace⟩ := Connection.next_receive hr h
      rw [← ask_connection] at hspace
      by_cases hy : y.left = []
      · rwa [ask_left] at hy
      · exact absurd (offer_lt hspace hy) hl
    rw [← ask_prospect hr svc hnone]
    exact (prospect_of_receive hr hnone h hleft).symm
  | case5 x he y h =>
    rw [← ask_prospect hr svc (by simpa using he), prospect_of_some svc (ask_of_close h)]
  | case6 x he y e h =>
    rw [← ask_prospect hr svc (by simpa using he), prospect_of_some svc (ask_of_error h)]

/-- **A session comes to the transcript of its input.** -/
theorem finish_transcript (svc : Service σ) (peer : Option Net.SocketAddress) (s : σ)
    (bytes : Bytes) (moves : List Move) :
    (((start svc peer s bytes).run svc moves).finish svc).transcript =
      svc.transcript (Finding.decodeAll svc.expectationFor svc.maxPayload bytes)
        (svc.sink (.opened peer) s) := by
  have hr : (start svc peer s bytes).connection.reader.Ready := Connection.accept_ready svc peer s
  obtain ⟨hready, hprospect⟩ := run_prospect hr svc moves
  rw [finish_prospect hready svc, hprospect, ← Service.transcript_feed]
  rfl

end Conversation

end LineFrame
