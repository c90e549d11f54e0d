import LineFrame.Proofs.Serve.Script
import LineFrame.Proofs.Server.Conversation

/-!
# What is written when serving fails

Serving a connection sends the responses of its course one after the other, over a link that may
fail at any byte of any of them (`Transport.deliver`).  How the bytes of the peer come in does not
matter to that (`serve_delivers`).
-/

namespace LineFrame

variable {σ : Type}

/-! ## Delivering responses -/

namespace Transport

/-- Sends responses one after the other.  If one cannot be sent, that is why, and the state is that
in which it was handed out. -/
def deliver {τ : Type} [Transport τ] (t : τ) : List (Bytes × σ) → Option (IoError × σ) × τ
  | [] => (none, t)
  | (data, s) :: rest =>
    match send data t with
    | (.ok (), u) => deliver u rest
    | (.error e, u) => (some (e, s), u)

section

variable {τ τ' : Type} [Transport τ] [Transport τ'] {t u : τ} {data : Bytes} {s : σ}

theorem deliver_ok (h : send data t = (.ok (), u)) (rest : List (Bytes × σ)) :
    deliver t ((data, s) :: rest) = deliver u rest := by
  rw [deliver, h]

theorem deliver_error {e : IoError} (h : send data t = (.error e, u)) (rest : List (Bytes × σ)) :
    deliver t ((data, s) :: rest) = (some (e, s), u) := by
  rw [deliver, h]

theorem deliver_through {view : τ → τ'} (hview : SendsThrough view) (t : τ)
    (sends : List (Bytes × σ)) :
    deliver (view t) sends = ((deliver t sends).1, view (deliver t sends).2) := by
  induction sends generalizing t with
  | nil => rfl
  | cons x rest ih =>
    obtain ⟨data, s⟩ := x
    rcases hsend : send data t with ⟨e | _, u⟩
    · rw [deliver_error hsend, deliver_error (send_through hview hsend)]
    · rw [deliver_ok hsend, deliver_ok (send_through hview hsend), ih]

end

end Transport

namespace Link

open Transport (deliver)

-- Where the next bytes come from does not matter to what is sent.
theorem deliver_arrivals (l : Link) (arrivals : List Arrival) (sends : List (Bytes × σ)) :
    (deliver { l with arrivals } sends).1 = (deliver l sends).1 ∧
      (deliver { l with arrivals } sends).2.written = (deliver l sends).2.written := by
  have hview := sendsThrough_arrivals fun _ => arrivals
  rw [Transport.deliver_through hview l sends]
  exact ⟨rfl, rfl⟩

theorem deliver_none {l m : Link} {sends : List (Bytes × σ)} (h : deliver l sends = (none, m)) :
    l.Took m (sends.flatMap Prod.fst) := by
  induction sends generalizing l with
  | nil =>
    cases h
    exact .refl _
  | cons x rest ih =>
    obtain ⟨data, s⟩ := x
    rcases hsend : Transport.send data l with ⟨e | _, u⟩
    · rw [Transport.deliver_error hsend] at h
      cases h
    · rw [Transport.deliver_ok hsend] at h
      rw [List.flatMap_cons]
      exact (send_ok hsend).trans (ih h)

/-- **A delivery that fails stops at the response that it fails at.**  Those before it are written;
of it so much is written as was taken before the write failed, or all of it if its flush did. -/
theorem deliver_some {l m : Link} {sends : List (Bytes × σ)} {e : IoError} {s : σ}
    (h : deliver l sends = (some (e, s), m)) :
    ∃ before data later, sends = before ++ (data, s) :: later ∧
      ((∃ n < data.length, m.written = l.written ++ (before.flatMap Prod.fst ++ data.take n) ∧
          l.FailsAfter (before.flatMap Prod.fst ++ data.take n).length e.kind) ∨
        (m.written = l.written ++ (before.flatMap Prod.fst ++ data) ∧
          l.writes.flushFailure = some e.kind)) := by
  induction sends generalizing l with
  | nil => cases h
  | cons x rest ih =>
    obtain ⟨data, s'⟩ := x
    rcases hsend : Transport.send data l with ⟨e' | _, u⟩
    · rw [Transport.deliver_error hsend] at h
      cases h
      refine ⟨[], data, rest, rfl, ?_⟩
      rcases send_error hsend with ⟨n, hn, hwritten, hfails⟩ | hflush
      · refine .inl ⟨n, hn, hwritten, ?_⟩
        have hlength : (data.take n).length = n := by
          rw [List.length_take]
          omega
        rw [List.flatMap_nil, List.nil_append, hlength]
        exact hfails
      · exact .inr hflush
    · rw [Transport.deliver_ok hsend] at h
      obtain ⟨before, data', later, rfl, hends⟩ := ih h
      have htook := send_ok hsend
      refine ⟨(data, s') :: before, data', later, rfl, ?_⟩
      rw [List.flatMap_cons]
      rcases hends with ⟨n, hn, hwritten, hfails⟩ | ⟨hwritten, hflush⟩
      · refine .inl ⟨n, hn, ?_, ?_⟩
        · rw [hwritten, htook.written, List.append_assoc, List.append_assoc]
        · have hafter := htook.failsAfter hfails
          rw [← List.length_append, ← List.append_assoc] at hafter
          exact hafter
      · refine .inr ⟨?_, htook.flushFailure.symm.trans hflush⟩
        rw [hwritten, htook.written, List.append_assoc, List.append_assoc]

end Link

/-! ## Serving -/

namespace Course

/-- How serving ends once all responses were sent.  A link that is read to its end has this failure. -/
def result (x : Course σ) (failure : Option IoError.Kind) : Except ServeError Unit :=
  match x.ending with
  | some .closed => .ok ()
  | some (.failed e) => .error (.frame e)
  | none =>
    match failure with
    | none => .ok ()
    | some kind => .error (.io (.plain kind))

/-- How serving ends, and in which state. -/
def verdict (x : Course σ) (failure : Option IoError.Kind) :
    Option (IoError × σ) → Except ServeError Unit × σ
  | some (e, s) => (.error (.io e), s)
  | none => (x.result failure, x.state)

end Course

namespace Serve

open Transport (deliver)

/-- Serving read these bytes, and of what was ahead it left the rest.  It comes to delivering the
course of the bytes that it read, and would come to the same with some of the rest. -/
structure Delivers (l : Link) (course : Bytes → Course σ) (y : Served Link σ)
    (read rest : Bytes) : Prop where
  ahead : l.ahead.1 = read ++ rest
  incoming : l.incoming = read ++ y.transport.incoming
  /-- It leaves nothing if it has to go on until the peer ends it. -/
  whole : (deliver l (course read).sends).1 = none → (course read).ending = none → rest = []
  written : ∀ more, more <+: rest →
    y.transport.written = (deliver l (course (read ++ more)).sends).2.written
  verdict : ∀ more, more <+: rest → (y.result, y.state) =
    (course (read ++ more)).verdict l.ahead.2 (deliver l (course (read ++ more)).sends).1

variable {svc : Service σ} {l m : Link} {c d : Connection σ} {s t : σ} {y : Served Link σ}

-- The session is over before more is read.
theorem delivers_of_ending {course : Bytes → Course σ} {ending : Ending}
    (hcourse : ∀ left, course left = ⟨[], some ending, t⟩)
    (result : Except ServeError Unit) (hresult : ∀ failure,
      (⟨[], some ending, t⟩ : Course σ).result failure = result) :
    Delivers l course ⟨result, l, c, t⟩ [] l.ahead.1 where
  ahead := rfl
  incoming := rfl
  whole _ hending := by
    rw [hcourse] at hending
    cases hending
  written more _ := by
    rw [hcourse]
    rfl
  verdict more _ := by
    rw [hcourse]
    show _ = (Course.result _ _, t)
    rw [hresult]

-- The link is over, and nothing is left to be sent.
theorem delivers_of_over {course : Bytes → Course σ} {failure : Option IoError.Kind}
    {result : Except ServeError Unit} (hcourse : course [] = ⟨[], none, t⟩)
    (hahead : l.ahead = ([], failure)) (hincoming : l.incoming = m.incoming)
    (hm : m = { l with arrivals := m.arrivals })
    (hresult : (⟨[], none, t⟩ : Course σ).result failure = result) :
    Delivers l course ⟨result, m, c, t⟩ [] [] where
  ahead := congrArg Prod.fst hahead
  incoming := hincoming
  whole _ _ := rfl
  written more hmore := by
    rw [List.prefix_nil.1 hmore, List.append_nil, hcourse, hm]
    rfl
  verdict more hmore := by
    rw [List.prefix_nil.1 hmore, List.append_nil, hcourse, hahead, ← hresult]
    rfl

-- A response is sent, and then the rest.
theorem Delivers.send {course later : Bytes → Course σ} {data read rest : Bytes}
    (hsend : Transport.send data l = (.ok (), m))
    (hcourse : ∀ left, course left = (later left).after data t)
    (h : Delivers m later y read rest) : Delivers l course y read rest := by
  have harrivals := Link.send_arrivals hsend
  have hahead : l.ahead = m.ahead := by rw [Link.ahead, Link.ahead, harrivals]
  have hdeliver (left : Bytes) : deliver l (course left).sends = deliver m (later left).sends := by
    rw [hcourse]
    exact Transport.deliver_ok hsend _
  exact {
    ahead := hahead ▸ h.ahead
    incoming := by
      rw [Link.incoming, ← harrivals]
      exact h.incoming
    whole := by
      rw [hdeliver, hcourse]
      exact h.whole
    written := fun more hmore => by
      rw [hdeliver]
      exact h.written more hmore
    verdict := fun more hmore => by
      rw [hdeliver, hcourse, hahead]
      exact h.verdict more hmore }

-- A response cannot be sent.
theorem delivers_of_failure {course later : Bytes → Course σ} {data : Bytes} {e : IoError}
    (hsend : Transport.send data l = (.error e, m))
    (hcourse : ∀ left, course left = (later left).after data t) :
    Delivers l course ⟨.error (.io e), m, c, t⟩ [] l.ahead.1 := by
  have harrivals := Link.send_arrivals hsend
  have hdeliver (left : Bytes) : deliver l (course left).sends = (some (e, t), m) := by
    rw [hcourse]
    exact Transport.deliver_error hsend _
  exact {
    ahead := rfl
    incoming := by
      rw [Link.incoming, ← harrivals]
      rfl
    whole := by
      rw [hdeliver]
      intro h
      cases h
    written := fun more _ => by rw [hdeliver]
    verdict := fun more _ => by
      rw [hdeliver]
      rfl }

-- Some bytes are received, if any, and then the rest.
theorem Delivers.receive {course later : Bytes → Course σ} {chunk read rest : Bytes}
    (hm : m = { l with arrivals := m.arrivals })
    (hahead : l.ahead = (chunk ++ m.ahead.1, m.ahead.2))
    (hincoming : l.incoming = chunk ++ m.incoming)
    (hcourse : ∀ left, course (chunk ++ left) = later left)
    (h : Delivers m later y read rest) : Delivers l course y (chunk ++ read) rest := by
  have hdeliver (sends : List (Bytes × σ)) := l.deliver_arrivals m.arrivals sends
  rw [← hm] at hdeliver
  exact {
    ahead := by rw [hahead, h.ahead, List.append_assoc]
    incoming := by rw [hincoming, h.incoming, List.append_assoc]
    whole := by
      rw [hcourse, ← (hdeliver _).1]
      exact h.whole
    written := fun more hmore => by
      rw [List.append_assoc, hcourse, ← (hdeliver _).2]
      exact h.written more hmore
    verdict := fun more hmore => by
      rw [List.append_assoc, hcourse, ← (hdeliver _).1, hahead]
      exact h.verdict more hmore }

-- Received bytes are those that the connection was going to be given.
theorem course_received (svc : Service σ) (c : Connection σ) (chunk left : Bytes) (s : σ) :
    c.course svc (chunk ++ left) s =
      ({ c with reader := { c.reader with buffer := c.reader.buffer.compact.commit chunk } } :
        Connection σ).course svc left s := by
  unfold Connection.course
  rw [← List.append_assoc]
  rfl

-- A connection that awaits more hands out nothing without it.
theorem course_of_receive (hr : c.reader.Ready) (h : c.next svc s = (.ok .receive, d, t)) :
    0 < d.reader.space ∧ d.course svc [] t = ⟨[], none, t⟩ := by
  have hreceive : (c.next svc s).1 = .ok .receive := congrArg Prod.fst h
  obtain ⟨hphase, hunread, hspace⟩ := Connection.next_receive hr hreceive
  rw [h] at hphase hunread hspace
  refine ⟨hspace, ?_⟩
  rw [Connection.course_of_awaiting hphase, hunread]
  rfl

theorem follows_of_next (hr : c.reader.Ready)
    {found : Except FrameError Action × Connection σ × σ} (h : c.next svc s = found) :
    found.2.1.reader.Ready ∧
      ∀ left, Connection.Follows svc left (c.course svc left s) found := by
  rw [← h]
  exact ⟨Connection.next_ready hr svc s, fun left => Connection.next_course hr.1 svc left s⟩

/-- **Serving comes to delivering the course of the bytes that it reads.** -/
theorem blocking_delivers (hr : c.reader.Ready) (svc : Service σ) (l : Link) (s : σ) :
    ∃ read rest, Delivers l (c.course svc · s) (blocking svc l c s) read rest := by
  -- One case for each way in which an action ends.  Those that end the loop have read nothing more;
  -- the others put what they sent or received in front of what the rest of the loop comes to.
  fun_induction blocking svc l c s with
  | case1 l c s e d t h =>
    obtain ⟨-, hcourse⟩ := follows_of_next hr h
    exact ⟨_, _, delivers_of_ending hcourse _ fun _ => rfl⟩
  | case2 l c s d t h =>
    obtain ⟨-, hcourse⟩ := follows_of_next hr h
    exact ⟨_, _, delivers_of_ending hcourse _ fun _ => rfl⟩
  | case3 l c s data d t h m hsend ih =>
    obtain ⟨hready, hcourse⟩ := follows_of_next hr h
    obtain ⟨read, rest, hrest⟩ := ih hready
    exact ⟨read, rest, hrest.send hsend hcourse⟩
  | case4 l c s data d t h e m hsend =>
    obtain ⟨-, hcourse⟩ := follows_of_next hr h
    exact ⟨_, _, delivers_of_failure hsend hcourse⟩
  | case5 l c s d t h reader m hfill =>
    obtain ⟨-, hcourse⟩ := follows_of_next hr h
    obtain ⟨hspace, hnothing⟩ := course_of_receive hr h
    obtain ⟨chunk, hread, hlength, rfl⟩ := Reader.fill_ok hfill
    obtain ⟨hfound, hm⟩ := Link.read_found hspace hread
    rw [List.eq_nil_of_length_eq_zero hlength.symm] at hfound
    exact ⟨[], [], delivers_of_over ((hcourse []).trans hnothing) hfound.1 hfound.2 hm rfl⟩
  | case6 l c s d t h n reader m hfill ih =>
    obtain ⟨hready, hcourse⟩ := follows_of_next hr h
    obtain ⟨hspace, -⟩ := course_of_receive hr h
    obtain ⟨chunk, hread, hlength, rfl⟩ := Reader.fill_ok hfill
    obtain ⟨hfound, hm⟩ := Link.read_found hspace hread
    obtain ⟨read, rest, hrest⟩ := ih hready
    cases chunk with
    | nil => cases hlength
    | cons b chunk =>
      refine ⟨_, rest, hrest.receive hm hfound.1 hfound.2 fun left => ?_⟩
      exact (hcourse _).trans (course_received svc d (b :: chunk) left t)
  | case7 l c s d t h e reader m hfill he ih =>
    obtain ⟨hready, hcourse⟩ := follows_of_next hr h
    obtain ⟨hspace, -⟩ := course_of_receive hr h
    obtain ⟨hread, rfl⟩ := Reader.fill_error hfill
    obtain ⟨⟨-, hincoming, hahead⟩, hm⟩ := Link.read_found hspace hread
    rw [if_pos he] at hahead
    obtain ⟨read, rest, hrest⟩ := ih hready
    exact ⟨[] ++ read, rest, hrest.receive hm hahead hincoming hcourse⟩
  | case8 l c s d t h e reader m hfill he =>
    obtain ⟨-, hcourse⟩ := follows_of_next hr h
    obtain ⟨hspace, hnothing⟩ := course_of_receive hr h
    obtain ⟨hread, rfl⟩ := Reader.fill_error hfill
    obtain ⟨⟨hplain, hincoming, hahead⟩, hm⟩ := Link.read_found hspace hread
    rw [if_neg he] at hahead
    refine ⟨[], [], delivers_of_over ((hcourse []).trans hnothing) hahead hincoming hm ?_⟩
    rw [hplain]
    rfl

/-! ## How serving ends -/

/-- How serving a link ends that read these bytes, the course of which is `x`: with this result,
after these bytes were written, and in this state. -/
inductive Ends (x : Course σ) (l : Link) (read : Bytes) :
    Except ServeError Unit → Bytes → σ → Prop where
  /-- A disconnect command was answered. -/
  | disconnected (h : x.ending = some .closed) : Ends x l read (.ok ()) x.out x.state
  | misread {e : FrameError} (h : x.ending = some (.failed e)) :
      Ends x l read (.error (.frame e)) x.out x.state
  | peerClosed (h : x.ending = none) (hl : l.ahead = (read, none)) :
      Ends x l read (.ok ()) x.out x.state
  | readFailed {kind : IoError.Kind} (h : x.ending = none) (hl : l.ahead = (read, some kind)) :
      Ends x l read (.error (.io (.plain kind))) x.out x.state
  /-- A write failed in the middle of a response, as soon as the script says.  The state is that in
  which the response was handed out. -/
  | writeFailed {before later : List (Bytes × σ)} {data : Bytes} {s : σ} {e : IoError} {n : Nat}
      (h : x.sends = before ++ (data, s) :: later) (hn : n < data.length)
      (hl : l.FailsAfter (before.flatMap Prod.fst ++ data.take n).length e.kind) :
      Ends x l read (.error (.io e)) (before.flatMap Prod.fst ++ data.take n) s
  /-- A response was written, but its flush failed. -/
  | flushFailed {before later : List (Bytes × σ)} {data : Bytes} {s : σ} {e : IoError}
      (h : x.sends = before ++ (data, s) :: later) (hl : l.writes.flushFailure = some e.kind) :
      Ends x l read (.error (.io e)) (before.flatMap Prod.fst ++ data) s

theorem Ends.out {x : Course σ} {read written : Bytes} {result : Except ServeError Unit}
    (h : Ends x l read result written s) : written <+: x.out := by
  cases h with
  | disconnected => exact List.prefix_rfl
  | misread => exact List.prefix_rfl
  | peerClosed => exact List.prefix_rfl
  | readFailed => exact List.prefix_rfl
  | @writeFailed before later data _ e n h =>
    rw [Course.out, h, List.flatMap_append, List.flatMap_cons, List.prefix_append_right_inj]
    exact (List.take_prefix n data).trans (List.prefix_append _ _)
  | flushFailed h =>
    rw [Course.out, h, List.flatMap_append, List.flatMap_cons, List.prefix_append_right_inj]
    exact List.prefix_append _ _

theorem Delivers.ends {course : Bytes → Course σ} {read rest : Bytes}
    (h : Delivers l course y read rest) : ∃ written,
      y.transport.written = l.written ++ written ∧
        Ends (course read) l read y.result written y.state := by
  have hwritten := h.written [] List.nil_prefix
  have hverdict := h.verdict [] List.nil_prefix
  have hwhole := h.whole
  rw [List.append_nil] at hwritten hverdict
  rcases hd : deliver l (course read).sends with ⟨_ | ⟨e, t⟩, m⟩
  · rw [hd] at hwritten hverdict hwhole
    obtain ⟨hresult, hstate⟩ := Prod.mk.inj hverdict
    refine ⟨(course read).out, hwritten.trans (Link.deliver_none hd).written, ?_⟩
    rw [hresult, hstate]
    unfold Course.result
    cases hending : (course read).ending with
    | some ending =>
      cases ending with
      | closed => exact .disconnected hending
      | failed e => exact .misread hending
    | none =>
      -- the session could go on, so it is the link that ended it, and all that was ahead was read
      have hread : l.ahead.1 = read := by rw [h.ahead, hwhole rfl hending, List.append_nil]
      cases hfailure : l.ahead.2 with
      | none => exact .peerClosed hending (Prod.ext hread hfailure)
      | some kind => exact .readFailed hending (Prod.ext hread hfailure)
  · rw [hd] at hwritten hverdict
    obtain ⟨hresult, hstate⟩ := Prod.mk.inj hverdict
    obtain ⟨before, data, later, hsends, hfails⟩ := Link.deliver_some hd
    rw [hresult, hstate, hwritten]
    rcases hfails with ⟨n, hn, hm, hl⟩ | ⟨hm, hl⟩
    · exact ⟨_, hm, .writeFailed hsends hn hl⟩
    · exact ⟨_, hm, .flushFailed hsends hl⟩

-- What serving comes to can be told from all that was ahead, whatever was read of it.
theorem Delivers.all {course : Bytes → Course σ} {read rest : Bytes}
    (h : Delivers l course y read rest) :
    y.transport.written = (deliver l (course l.ahead.1).sends).2.written ∧
      (y.result, y.state) =
        (course l.ahead.1).verdict l.ahead.2 (deliver l (course l.ahead.1).sends).1 := by
  rw [h.ahead]
  exact ⟨h.written rest List.prefix_rfl, h.verdict rest List.prefix_rfl⟩

/-! ## Afterwards -/

theorem next_of_terminated (svc : Service σ) (hc : c.phase = .terminated) (s : σ) :
    c.next svc s = (.ok .close, c, s) := by
  rw [Connection.next]
  split
  · rfl
  · next out hp =>
    rw [hc] at hp
    cases hp
  · next hp =>
    rw [hc] at hp
    cases hp

-- A connection that asks for nothing more is terminated.
theorem terminated_of_next (h : c.next svc s = (.ok .close, d, t) ∨
    ∃ e, c.next svc s = (.error e, d, t)) : d.phase = .terminated := by
  have hnext : (c.next svc s).2.1.phase = .terminated ∨ (c.next svc s).1 = .ok .receive ∨
      ∃ data, (c.next svc s).1 = .ok (.send data) := by
    clear h
    fun_induction Connection.next svc c s with
    | case1 c s hp => exact .inl hp
    | case2 => exact .inr (.inr ⟨_, rfl⟩)
    | case3 c s out hp out' t hpull step ih => exact ih
    | case4 => exact .inr (.inl rfl)
    | case5 c s hp frame reader hframe step ih => exact ih
    | case6 => exact .inl rfl
    | case7 c s hp e reader herror he step ih => exact ih
  rcases h with h | ⟨e, h⟩
  · rw [h] at hnext
    simpa using hnext
  · rw [h] at hnext
    simpa using hnext

/-- However serving ends, the connection is terminated. -/
theorem blocking_terminated (svc : Service σ) (l : Link) (c : Connection σ) (s : σ) :
    (blocking svc l c s).connection.phase = .terminated := by
  fun_induction blocking svc l c s with
  | case1 l c s e d t h => exact terminated_of_next (.inr ⟨e, h⟩)
  | case2 l c s d t h => exact terminated_of_next (.inl h)
  | case3 l c s data d t h m hsend ih => exact ih
  | case4 => rfl
  | case5 => rfl
  | case6 l c s d t h n reader m hfill ih => exact ih
  | case7 l c s d t h e reader m hfill he ih => exact ih
  | case8 => rfl

/-! ## The two ways to serve -/

/-- What serving a new connection keeps to, whatever fails. -/
structure Withstands (svc : Service σ) (serve : Link → Connection σ → σ → Served Link σ) :
    Prop where
  /-- What is written is what the responses to the bytes that were read begin with. -/
  ends : ∀ peer s l,
    let accepted := Connection.accept svc peer s
    let y := serve l accepted.1 accepted.2
    ∃ read written, l.incoming = read ++ y.transport.incoming ∧ read <+: l.ahead.1 ∧
      y.transport.written = l.written ++ written ∧
      let findings := Finding.decodeAll svc.expectationFor svc.maxPayload read
      let x := svc.course findings accepted.2
      x.transcript = svc.transcript findings accepted.2 ∧ written <+: x.out ∧
        Ends x l read y.result written y.state
  /-- How the bytes of the peer come in makes no difference. -/
  steady : ∀ peer s l arrivals, Arrival.ahead arrivals = l.ahead →
    let accepted := Connection.accept svc peer s
    let y := serve l accepted.1 accepted.2
    let z := serve { l with arrivals } accepted.1 accepted.2
    z.result = y.result ∧ z.transport.written = y.transport.written ∧ z.state = y.state
  /-- The connection does nothing more, whatever it is given. -/
  closed : ∀ peer s l,
    let accepted := Connection.accept svc peer s
    let y := serve l accepted.1 accepted.2
    y.connection.isTerminated = true ∧ ∀ reader t,
      let given : Connection σ := { y.connection with reader }
      given.next svc t = (.ok .close, given, t)

theorem course_accept (svc : Service σ) (peer : Option Net.SocketAddress) (s : σ) (bytes : Bytes) :
    let accepted := Connection.accept svc peer s
    accepted.1.course svc bytes accepted.2 =
      svc.course (Finding.decodeAll svc.expectationFor svc.maxPayload bytes) accepted.2 := by
  intro accepted
  rw [← Service.course_feed]
  rfl

theorem blocking_withstands (svc : Service σ) : Withstands svc (blocking svc) where
  ends peer s l := by
    intro accepted y
    have hready := Connection.accept_ready svc peer s
    obtain ⟨read, rest, h⟩ := blocking_delivers hready svc l accepted.2
    obtain ⟨written, hwritten, hends⟩ := h.ends
    rw [course_accept] at hends
    have hread : read <+: l.ahead.1 := ⟨rest, h.ahead.symm⟩
    exact ⟨read, written, h.incoming, hread, hwritten, svc.transcript_course _ _, hends.out, hends⟩
  steady peer s l arrivals hahead := by
    intro accepted y z
    have hready := Connection.accept_ready svc peer s
    obtain ⟨read, rest, h⟩ := blocking_delivers hready svc l accepted.2
    obtain ⟨read', rest', h'⟩ := blocking_delivers hready svc { l with arrivals } accepted.2
    have hsame : ({ l with arrivals } : Link).ahead = l.ahead := hahead
    obtain ⟨hwritten, hverdict⟩ := h.all
    obtain ⟨hwritten', hverdict'⟩ := h'.all
    rw [hsame, (l.deliver_arrivals arrivals _).2, ← hwritten] at hwritten'
    rw [hsame, (l.deliver_arrivals arrivals _).1, ← hverdict] at hverdict'
    obtain ⟨hresult, hstate⟩ := Prod.mk.inj hverdict'
    exact ⟨hresult, hwritten', hstate⟩
  closed peer s l := by
    intro accepted y
    have hy : y.connection.phase = .terminated := blocking_terminated svc l _ _
    constructor
    · rw [Connection.isTerminated, Connection.state, hy]
      rfl
    · intro reader t given
      have hgiven : given.phase = .terminated := hy
      exact next_of_terminated svc hgiven t

-- A task reports an error by its kind, and else nothing is different.
theorem polled_eq (y : Served Link σ) :
    y.polled.transport = y.transport ∧ y.polled.connection = y.connection ∧
      y.polled.state = y.state := by
  unfold Served.polled
  split <;> exact ⟨rfl, rfl, rfl⟩

theorem polled_result {y z : Served Link σ} (h : y.result = z.result) :
    y.polled.result = z.polled.result := by
  unfold Served.polled
  rw [h]
  split
  · rfl
  · exact h

theorem Ends.polled {x : Course σ} {read written : Bytes}
    (h : Ends x l read y.result written y.state) :
    Ends x l read y.polled.result written y.polled.state := by
  have hkind (e : IoError) : e.polled.kind = e.kind := by cases e <;> rfl
  rw [(polled_eq y).2.2, Served.polled]
  split
  · next e hresult =>
    rw [hresult] at h
    generalize y.state = t at h ⊢
    cases h with
    | readFailed h hl => exact .readFailed h hl
    | writeFailed h hn hl => exact .writeFailed h hn (hkind e ▸ hl)
    | flushFailed h hl => exact .flushFailed h (hkind e ▸ hl)
  · exact h

theorem Withstands.polled {serve task : Link → Connection σ → σ → Served Link σ}
    (h : Withstands svc serve) (htask : ∀ l c s, task l c s = (serve l c s).polled) :
    Withstands svc task where
  ends peer s l := by
    intro accepted y
    obtain ⟨read, written, hincoming, hread, hwritten, hcourse, hout, hends⟩ := h.ends peer s l
    have hy : y = (serve l accepted.1 accepted.2).polled := htask _ _ _
    rw [hy, (polled_eq _).1]
    exact ⟨read, written, hincoming, hread, hwritten, hcourse, hout, hends.polled⟩
  steady peer s l arrivals hahead := by
    intro accepted y z
    obtain ⟨hresult, hwritten, hstate⟩ := h.steady peer s l arrivals hahead
    have hy : y = (serve l accepted.1 accepted.2).polled := htask _ _ _
    have hz : z = (serve { l with arrivals } accepted.1 accepted.2).polled := htask _ _ _
    rw [hy, hz, (polled_eq _).1, (polled_eq _).1, (polled_eq _).2.2, (polled_eq _).2.2]
    exact ⟨polled_result hresult, hwritten, hstate⟩
  closed peer s l := by
    intro accepted y
    have hy : y = (serve l accepted.1 accepted.2).polled := htask _ _ _
    rw [hy, (polled_eq _).2.1]
    exact h.closed peer s l

/-- **Serving withstands failures**, waiting for every operation or as a task.  What is written is
what the responses to the bytes that were read begin with: all of it, unless a write or a flush
fails.  A write that fails leaves what was taken before; a flush that fails, whole responses.  After
that no item is run and nothing is completed: the state is that in which the response was handed
out.  The pieces in which the bytes come in, interrupted reads and waiting change nothing.  However
serving ends, the connection is terminated, and does nothing more but close. -/
theorem serving_withstands_failure (svc : Service σ) :
    Withstands svc (blocking svc) ∧ Withstands svc (suspending svc) := by
  have hblocking := blocking_withstands svc
  exact ⟨hblocking, hblocking.polled (suspending_eq_polled svc)⟩

end Serve

end LineFrame
