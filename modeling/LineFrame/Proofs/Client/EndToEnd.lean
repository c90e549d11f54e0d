import Mathlib.Data.List.Forall2
import LineFrame.Proofs.Client.Circuit
import LineFrame.Proofs.Client.Reconnect
import LineFrame.Proofs.Client.Responses
import LineFrame.Proofs.Pool.Acquire
import LineFrame.Service.Echo

/-!
# Client and server together

A client runs one call after the other on a pool whose socket has a server's connection at its other
end.  If all requests and responses survive the wire, and every answer has as many responses as its
call reads, each call returns just what its handler answered (`calls_answered`).

What goes on while a call is in progress is told by the socket's state: the server owes so many
bytes, and what it is going to do then is a session that goes on between two requests (`Carries`).
-/

namespace LineFrame

variable {σ : Type}

/-! ## What a server answers -/

namespace Service

/-- The responses to a request, and the state that they leave. -/
def serve (svc : Service σ) (request : Request) (s : σ) : List Response × σ :=
  let s := svc.sink (.received request.command) s
  let s := svc.sink (.dispatched request.command) s
  let (calls, s) := (svc.handlerFor request.command).calls request s
  let (responses, s) := svc.responses request.command calls s
  (responses, svc.sink (.completed request.command) s)

/-- The responses to several requests, one after the other. -/
def serveAll (svc : Service σ) : List Request → σ → List (List Response)
  | [], _ => []
  | request :: rest, s => (svc.serve request s).1 :: svc.serveAll rest (svc.serve request s).2

/-- What a session that stands between two requests comes to, once it is given these bytes. -/
def session (svc : Service σ) (s : σ) (bytes : Bytes) : Transcript σ :=
  svc.transcript ((Held.fresh svc.maxPayload).feed svc.expectationFor bytes).1 s

/-- What it comes to after it has answered a request. -/
def resume (svc : Service σ) (request : Request) (s : σ) (bytes : Bytes) : Transcript σ :=
  if svc.isDisconnect request.command then ⟨[], some .closed, s⟩ else svc.session s bytes

theorem resume_nil (svc : Service σ) (request : Request) (s : σ) :
    (svc.resume request s []).sent = [] := by
  rw [resume]
  split <;> rfl

theorem transcript_serve (svc : Service σ) (request : Request) (more : List Finding) (s : σ) :
    svc.transcript (.ok request.toFrame :: more) s =
      (if svc.isDisconnect request.command then ⟨[], some .closed, (svc.serve request s).2⟩
        else svc.transcript more (svc.serve request s).2).after
          ((svc.serve request s).1.flatMap Response.encode) := by
  have hrequest :
      (⟨request.toFrame.name, request.toFrame.args, request.toFrame.payload⟩ : Request) =
        request := rfl
  rw [transcript, hrequest, serve, show request.toFrame.name = request.command from rfl]
  dsimp only
  split
  · rw [Transcript.after, List.append_nil]
  · rfl

/-- A request that survives the wire is answered. -/
theorem session_encode (svc : Service σ) (hl : svc.maxPayload < Numeral.bound) {request : Request}
    (h : request.toFrame.Transmissible svc.expectationFor svc.maxPayload) (s : σ) (more : Bytes) :
    svc.session s (request.encode ++ more) =
      (svc.resume request (svc.serve request s).2 more).after
        ((svc.serve request s).1.flatMap Response.encode) := by
  have hfeed := Held.feed_of_scan_some (Held.scan_encode hl h more)
  rw [session, Request.encode, hfeed, transcript_serve]
  rfl

end Service

/-! ## One exchange -/

/-- A socket whose server owes the bytes in `due` and then does as `later` says.  There are reads
enough for these bytes and `spare` more. -/
structure Carries (svc : Service σ) (later : Bytes → Transcript σ) (spare : Nat)
    (s : Pool.Socket (Circuit σ)) (due : Bytes) : Prop where
  disposed : s.disposed = false
  service : s.transport.service = svc
  owes : s.transport.Owes due later
  reads : due.length + spare ≤ s.transport.reads.length

namespace Carries

variable {svc : Service σ} {later : Bytes → Transcript σ} {spare : Nat}
  {s : Pool.Socket (Circuit σ)} {due : Bytes}

-- What an operation of the circuit does is done to the socket.
theorem run {α : Type} {op : Circuit σ → Except IoError α × Circuit σ} {a : α} {y : Circuit σ}
    (hs : s.disposed = false) (hop : op s.transport = (.ok a, y)) :
    Pool.Socket.run op s = (.ok a, { transport := y }) := by
  rw [Pool.Socket.run, hs, if_neg Bool.false_ne_true, hop]
  rfl

theorem delivers (hquiet : (later []).sent = []) :
    Client.Delivers (Carries svc later spare) := by
  intro s due n h hdue hn
  have hreads : s.transport.reads ≠ [] := by
    have hpos := List.length_pos_iff.2 hdue
    have hlength := h.reads
    refine List.length_pos_iff.1 ?_
    omega
  obtain ⟨chunk, y, more, hread, hchunk, hsplit, howes, hservice, hfewer⟩ :=
    h.owes.read hquiet hdue hreads hn
  refine ⟨chunk, { transport := y }, more, run h.disposed hread, hchunk, hsplit, rfl,
    hservice.trans h.service, howes, ?_⟩
  have hlength := h.reads
  have hpos := List.length_pos_iff.2 hchunk
  rw [hsplit, List.length_append] at hlength
  show more.length + spare ≤ y.reads.length
  omega

theorem write (h : Carries svc later spare s due) (b : UInt8) (bs : Bytes) :
    ∃ n t, Transport.write (b :: bs) s = (.ok (n + 1), t) ∧
      Carries svc (fun more => later ((b :: bs).take (n + 1) ++ more)) spare t due := by
  obtain ⟨n, y, hwrite, howes, hservice, hreads⟩ := h.owes.write b bs
  refine ⟨n, { transport := y }, run h.disposed hwrite, rfl, hservice.trans h.service, howes, ?_⟩
  show due.length + spare ≤ y.reads.length
  rw [hreads]
  exact h.reads

-- Bytes that are written come before those that are written later.
theorem writeAll (h : Carries svc later spare s due) (bs : Bytes) :
    ∃ t, Transport.writeAll bs s = (.ok (), t) ∧
      Carries svc (fun more => later (bs ++ more)) spare t due := by
  fun_induction Transport.writeAll bs s generalizing later with
  | case1 s => exact ⟨s, rfl, h⟩
  | case2 s b rest u hw =>
    obtain ⟨n, t, hwrite, -⟩ := h.write b rest
    rw [hwrite] at hw
    cases hw
  | case3 s b rest n u hw ih =>
    obtain ⟨n, t, hwrite, ht⟩ := h.write b rest
    rw [hwrite] at hw
    cases hw
    obtain ⟨v, hall, hv⟩ := ih ht
    refine ⟨v, hall, ?_⟩
    have hbytes (more : Bytes) :
        (b :: rest).take (n + 1) ++ (rest.drop n ++ more) = b :: rest ++ more := by
      rw [List.take_succ_cons, List.cons_append, ← List.append_assoc, List.take_append_drop]
      rfl
    simpa only [hbytes] using hv
  | case4 s b rest e u hw he ih =>
    obtain ⟨n, t, hwrite, -⟩ := h.write b rest
    rw [hwrite] at hw
    cases hw
  | case5 s b rest e u hw he =>
    obtain ⟨n, t, hwrite, -⟩ := h.write b rest
    rw [hwrite] at hw
    cases hw

theorem send (h : Carries svc later spare s due) (bs : Bytes) :
    ∃ t, Transport.send bs s = (.ok (), t) ∧
      Carries svc (fun more => later (bs ++ more)) spare t due := by
  obtain ⟨t, hall, ht⟩ := h.writeAll bs
  have hflush : Transport.flush t = (.ok (), t) := by
    have hrun : Transport.flush t = (.ok (), { transport := t.transport }) := run ht.disposed rfl
    rw [hrun, ← ht.disposed]
  exact ⟨t, by rw [Transport.send, hall]; exact hflush, ht⟩

/-- Once a request was written, the bytes of its responses are due. -/
theorem request (hl : svc.maxPayload < Numeral.bound) {request : Request} {state : σ}
    (hrequest : request.toFrame.Transmissible svc.expectationFor svc.maxPayload)
    (h : Carries svc (svc.session state)
      (((svc.serve request state).1.flatMap Response.encode).length + spare) s []) :
    ∃ t, Transport.send request.encode s = (.ok (), t) ∧
      Carries svc (svc.resume request (svc.serve request state).2) spare t
        ((svc.serve request state).1.flatMap Response.encode) := by
  obtain ⟨t, hsend, ht⟩ := h.send request.encode
  have howes := ht.owes
  simp only [svc.session_encode hl hrequest] at howes
  have hdue := howes.shift
  rw [List.nil_append] at hdue
  have hreads := ht.reads
  rw [List.length_nil, Nat.zero_add] at hreads
  exact ⟨t, hsend, ht.disposed, ht.service, hdue, hreads⟩

end Carries

namespace Client

/-- What a call asks for. -/
inductive Ask where
  | one (request : Request)
  | many (m : MultiRequest)
deriving DecidableEq, Repr, Inhabited

def Ask.request : Ask → Request
  | one request => request
  | many m => m.request

/-- Whether these are as many responses as the call reads. -/
def Ask.Reads : Ask → List Response → Prop
  | one _, responses => ∃ response, responses = [response]
  | many m, responses => ∃ before last, responses = before ++ [last] ∧
      last.status = m.terminator ∧
      ∀ response ∈ before, m.expects response.status = true ∧ response.status ≠ m.terminator

/-- How a call went. -/
structure Report where
  /-- What it returned.  A single response is given as a list, too. -/
  answer : Except Error (List Response)
  /-- How many attempts it made. -/
  attempts : Nat
  /-- What its first attempt received and left in the reader. -/
  unread : Bytes

/-- These responses were returned by the first attempt, and nothing was left. -/
def Report.clean (responses : List Response) : Report := ⟨.ok responses, 1, []⟩

section

variable {κ τ : Type} [Connector κ τ] [Transport τ]

/-- What the first attempt of a call leaves in the reader. -/
def remains {α : Type} (c : Client) (request : Request) (read : Reading τ α) (p : Pool κ τ) :
    Bytes :=
  (once request read (.new bufferSize c.maxPayload) p).2.1.unread

/-- One call. -/
def ask (c : Client) (p : Pool κ τ) : Ask → Report × Pool κ τ
  | .one request =>
    let read := readResponse c.expectationFor
    let (answer, q) := c.exec request p
    (⟨answer.map fun response => [response], (c.trail request read p).length,
      c.remains request read p⟩, q)
  | .many m =>
    let read := readAll m c.expectationFor []
    let (answer, q) := c.execMulti m p
    (⟨answer, (c.trail m.request read p).length, c.remains m.request read p⟩, q)

/-- Several calls, one after the other.  Before each of them some time passes. -/
def askAll (c : Client) : List (Duration × Ask) → Pool κ τ → List Report × Pool κ τ
  | [], p => ([], p)
  | (pause, a) :: rest, p =>
    let (report, p) := c.ask { p with clock := p.clock + pause.nanos } a
    let (reports, p) := c.askAll rest p
    (report :: reports, p)

-- A call whose exchange succeeds makes one attempt, and its socket comes back to the pool.
theorem run_of_exchange {α : Type} {c : Client} {request : Request} {read : Reading τ α}
    (hread : Steady read) {p q : Pool κ τ} {h : Pool.Handle} {s s' : Pool.Socket τ} {r : Reader}
    {answer : α} (hacquire : p.acquire = (.ok h, q)) (hs : q.socket? h.socket = some s)
    (hexchange : exchange request read (.new bufferSize c.maxPayload) s = (.ok answer, r, s')) :
    c.run request read p = (.ok answer, (q.update h.socket fun _ => s').reclaim h) ∧
      (c.trail request read p).length = 1 ∧ c.remains request read p = r.unread := by
  have honce : once request read (.new bufferSize c.maxPayload) p =
      (.ok answer, r, (q.update h.socket fun _ => s').reclaim h) := by
    rw [once, hacquire]
    dsimp only
    rw [attempt, hs]
    dsimp only
    rw [hexchange]
  have hanswer : c.retries true (c.opening request read p).answer = false := by
    rw [opening, Attempt.make, honce]
    rfl
  refine ⟨?_, ?_, ?_⟩
  · rw [run_of_not_retries c hread hanswer, opening, Attempt.make, honce]
  · rw [trail_eq c request hread p, hanswer, if_neg Bool.false_ne_true]
    rfl
  · rw [remains, honce]

end

/-- The request and the responses to it survive the wire, and the call reads them all. -/
structure Answered (c : Client) (svc : Service σ) (a : Ask) (responses : List Response) : Prop where
  request : a.request.toFrame.Transmissible svc.expectationFor svc.maxPayload
  each : ∀ response ∈ responses, response.toFrame.Transmissible c.expectationFor c.maxPayload
  all : a.Reads responses

section

variable {c : Client} {svc : Service σ} {spare : Nat}

-- What is read back was transmissible.
theorem Answered.of_decode {a : Ask} {responses : List Response}
    (hrequest : Finding.decode svc.expectationFor svc.maxPayload (a.request.encode ++ []) =
      some (.ok a.request.toFrame, []))
    (hresponses : ∀ response ∈ responses, Finding.decode c.expectationFor c.maxPayload
      (response.encode ++ []) = some (.ok response.toFrame, []))
    (hall : a.Reads responses) : c.Answered svc a responses where
  request := Frame.transmissible_of_decode hrequest
  each response hresponse := Frame.transmissible_of_decode (hresponses response hresponse)
  all := hall

variable {κ : Type} [Connector κ (Circuit σ)]

-- A call that can read the bytes of the responses makes one attempt.
theorem run_carries {α : Type} {read : Reading (Circuit σ) α} {answer : α} {request : Request}
    {state : σ} {p q : Pool κ (Circuit σ)} {h : Pool.Handle} {s : Pool.Socket (Circuit σ)}
    (hl : svc.maxPayload < Numeral.bound) (hacquire : p.acquire = (.ok h, q)) (hq : q.Lends h s)
    (hrequest : request.toFrame.Transmissible svc.expectationFor svc.maxPayload)
    (hs : Carries svc (svc.session state)
      (((svc.serve request state).1.flatMap Response.encode).length + spare) s [])
    (hsteady : Steady read) (hread : Parses read c.maxPayload
      ((svc.serve request state).1.flatMap Response.encode) answer) :
    ∃ s', c.run request read p = (.ok answer, (q.update h.socket fun _ => s').reclaim h) ∧
      (c.trail request read p).length = 1 ∧ c.remains request read p = [] ∧
      Carries svc (svc.resume request (svc.serve request state).2) spare s' [] := by
  obtain ⟨t, hsend, ht⟩ := hs.request hl hrequest
  have hquiet := svc.resume_nil request (svc.serve request state).2
  have hfirst : (Reader.new bufferSize c.maxPayload).reset.Ready :=
    ⟨Reader.reset_sound _, show 0 < max bufferSize 1 by decide⟩
  obtain ⟨r', s', hr', hend⟩ := hread _ (Carries.delivers hquiet) _ t
    ⟨hfirst, rfl, _, List.nil_append _, ht⟩
  obtain ⟨due, hnil, hs'⟩ := hend.bytes
  obtain ⟨hunread, rfl⟩ := List.append_eq_nil_iff.1 hnil
  have hexchange := exchange_of_read hsend hr' hunread
  obtain ⟨hrun, hattempts, hremains⟩ := run_of_exchange hsteady hacquire hq.socket? hexchange
  exact ⟨s', hrun, hattempts, hremains.trans hunread, hs'⟩

/-- **A call returns what its handler answered**, leaves nothing unread, and gives the socket back
to the pool. -/
theorem ask_carries {a : Ask} {state : σ} {p q : Pool κ (Circuit σ)} {h : Pool.Handle}
    {s : Pool.Socket (Circuit σ)} (hserver : svc.maxPayload < Numeral.bound)
    (hclient : c.maxPayload < Numeral.bound) (hacquire : p.acquire = (.ok h, q))
    (hq : q.Lends h s) (hs : Carries svc (svc.session state)
      (((svc.serve a.request state).1.flatMap Response.encode).length + spare) s [])
    (ha : Answered c svc a (svc.serve a.request state).1) :
    ∃ s', c.ask p a = (.clean (svc.serve a.request state).1,
        (q.update h.socket fun _ => s').reclaim h) ∧
      Carries svc (svc.resume a.request (svc.serve a.request state).2) spare s' [] := by
  cases a with
  | one request =>
    simp only [Ask.request] at hs ha ⊢
    have hrequest : request.toFrame.Transmissible svc.expectationFor svc.maxPayload := ha.request
    obtain ⟨response, hone⟩ : ∃ response, (svc.serve request state).1 = [response] := ha.all
    have hresponse := ha.each response (by rw [hone]; exact List.mem_singleton_self _)
    have hread : Parses (readResponse c.expectationFor : Reading (Circuit σ) Response) c.maxPayload
        ((svc.serve request state).1.flatMap Response.encode) response := by
      rw [hone, List.flatMap_singleton]
      exact readResponse_parses hclient hresponse
    obtain ⟨s', hrun, hattempts, hremains, hs'⟩ :=
      run_carries hserver hacquire hq hrequest hs (readResponse_steady _) hread
    refine ⟨s', ?_, hs'⟩
    rw [ask]
    dsimp only
    rw [exec, hrun, hattempts, hremains, hone]
    rfl
  | many m =>
    simp only [Ask.request] at hs ha ⊢
    have hrequest : m.request.toFrame.Transmissible svc.expectationFor svc.maxPayload := ha.request
    obtain ⟨before, last, hall, hlast, hexpected⟩ := ha.all
    have hresponses := ha.each
    rw [hall] at hresponses
    have hread : Parses (readAll m c.expectationFor [] : Reading (Circuit σ) (List Response))
        c.maxPayload ((svc.serve m.request state).1.flatMap Response.encode)
        (svc.serve m.request state).1 := by
      rw [hall]
      exact readAll_parses hclient hlast hexpected hresponses
    obtain ⟨s', hrun, hattempts, hremains, hs'⟩ :=
      run_carries hserver hacquire hq hrequest hs (readAll_steady m _) hread
    refine ⟨s', ?_, hs'⟩
    rw [ask]
    dsimp only
    rw [execMulti, hrun, hattempts, hremains]
    rfl

end

end Client

/-! ## One call after the other -/

/-- Connects circuits to one server. -/
structure Listener (σ : Type) where
  service : Service σ
  /-- The client's address, as the server sees it. -/
  peer : Option Net.SocketAddress
  /-- The state of the application. -/
  state : σ
  /-- How the reads and writes of a circuit go. -/
  reads : List Passage
  writes : List Passage

instance : Connector (Listener σ) (Circuit σ) where
  connect _ l :=
    let peer := Conversation.start l.service l.peer l.state []
    (.ok { service := l.service, peer, reads := l.reads, writes := l.writes }, l)
  endpoint _ := "listener"

namespace Listener

/-- The state in which a connection starts. -/
def opened (l : Listener σ) : σ := l.service.sink (.opened l.peer) l.state

/-- What these calls are answered on one connection, in order. -/
def answers (l : Listener σ) (calls : List (Duration × Client.Ask)) : List (List Response) :=
  l.service.serveAll (calls.map (·.2.request)) l.opened

def circuit (l : Listener σ) : Circuit σ where
  service := l.service
  peer := .start l.service l.peer l.state []
  reads := l.reads
  writes := l.writes

theorem carries_circuit (l : Listener σ) :
    Carries l.service (l.service.session l.opened) l.reads.length { transport := l.circuit }
      [] where
  disposed := rfl
  service := rfl
  owes := {
    opened := rfl
    ready := Connection.accept_ready l.service l.peer l.state
    taken := Nat.le_refl _
    prospect := by
      intro more
      rfl }
  reads := by
    rw [List.length_nil, Nat.zero_add]
    exact Nat.le_refl _

end Listener

/-- Between two calls: the server is in this state, and the next call is going to run on a socket on
which nothing is owed. -/
inductive Poised (l : Listener σ) (spare : Nat) :
    σ → Pool (Listener σ) (Circuit σ) → Prop where
  | unused {p : Pool (Listener σ) (Circuit σ)} (hp : p.Rests []) (hl : p.connector = l)
    (hspare : spare ≤ l.reads.length) : Poised l spare l.opened p
  | parked {p : Pool (Listener σ) (Circuit σ)} {s : Pool.Socket (Circuit σ)} {state : σ}
    (hp : p.Rests [s]) (hs : Carries l.service (l.service.session state) spare s []) :
    Poised l spare state p

/-- One socket at most was ever connected, and the client has read all that its server sent and is
going to send. -/
structure Tidy (p : Pool (Listener σ) (Circuit σ)) : Prop where
  one : p.sockets.length ≤ 1
  read : ∀ s ∈ p.sockets, s.transport.due = []

theorem Carries.connected {svc : Service σ} {state : σ} {spare : Nat}
    {s : Pool.Socket (Circuit σ)} (h : Carries svc (svc.session state) spare s []) :
    s.connected = true := by
  have hprospect := h.owes.prospect []
  rw [Conversation.given_nil, h.service] at hprospect
  have hending : s.transport.peer.ending = none := by
    cases he : s.transport.peer.ending with
    | none => rfl
    | some e =>
      rw [Conversation.prospect_of_some _ (by rw [he]; rfl)] at hprospect
      have hnone := congrArg Transcript.ending hprospect
      exact he.symm.trans hnone
  show (!s.disposed && (!s.transport.closed && s.transport.peer.ending.isNone)) = true
  rw [h.disposed, h.owes.opened, hending]
  rfl

-- A pool whose only socket is this one, or this one closed, when nothing is owed on it.
theorem Carries.tidy {svc : Service σ} {later : Bytes → Transcript σ} {spare : Nat}
    {s : Pool.Socket (Circuit σ)} (h : Carries svc later spare s [])
    (hquiet : (later []).sent = []) {p : Pool (Listener σ) (Circuit σ)}
    (hp : p.sockets = [s] ∨ p.sockets = [s.close]) : Tidy p := by
  have hdue : s.transport.due = [] := h.owes.due_eq hquiet
  have hclose : s.close.transport.due = [] := hdue
  rcases hp with hp | hp
  · exact ⟨by simp [hp], by simp [hp, hdue]⟩
  · exact ⟨by simp [hp], by simp [hp, hclose]⟩

namespace Poised

variable {l : Listener σ} {spare : Nat} {state : σ} {p : Pool (Listener σ) (Circuit σ)}

theorem pause (h : Poised l spare state p) (clock : Nat) :
    Poised l spare state { p with clock } := by
  cases h with
  | unused hp hl hspare =>
    exact .unused ⟨hp.opened, hp.waiters, hp.room, hp.sockets, hp.parked, hp.busy⟩ hl hspare
  | parked hp hs =>
    exact .parked ⟨hp.opened, hp.waiters, hp.room, hp.sockets, hp.parked, hp.busy⟩ hs

theorem acquire (h : Poised l spare state p) :
    ∃ lease q s, p.acquire = (.ok lease, q) ∧ q.Lends lease s ∧
      Carries l.service (l.service.session state) spare s [] := by
  cases h with
  | unused hp hl hspare =>
    have hconnect : (Connector.connect p.config.connectTimeout p.connector).1 =
        .ok l.circuit := by
      rw [hl]
      rfl
    obtain ⟨lease, q, hacquire, hq⟩ := Pool.acquire_rests_nil hp hconnect
    have hs := l.carries_circuit
    refine ⟨lease, q, _, hacquire, hq, hs.disposed, hs.service, hs.owes, ?_⟩
    rw [List.length_nil, Nat.zero_add]
    exact hspare
  | parked hp hs =>
    obtain ⟨lease, q, hacquire, hq⟩ := Pool.acquire_rests_singleton hp hs.connected
    exact ⟨lease, q, _, hacquire, hq, hs⟩

theorem tidy (h : Poised l spare state p) : Tidy p := by
  cases h with
  | unused hp hl hspare => exact ⟨by simp [hp.sockets], by simp [hp.sockets]⟩
  | parked hp hs => exact hs.tidy rfl (.inl hp.sockets)

/-- A call returns what its handler answered.  Unless it ends the session, another call may
follow. -/
theorem ask {c : Client} {a : Client.Ask} (hserver : l.service.maxPayload < Numeral.bound)
    (hclient : c.maxPayload < Numeral.bound)
    (h : Poised l
      (((l.service.serve a.request state).1.flatMap Response.encode).length + spare) state p)
    (ha : c.Answered l.service a (l.service.serve a.request state).1) :
    (c.ask p a).1 = .clean (l.service.serve a.request state).1 ∧ Tidy (c.ask p a).2 ∧
      (l.service.isDisconnect a.request.command = false →
        Poised l spare (l.service.serve a.request state).2 (c.ask p a).2) := by
  obtain ⟨lease, q, s, hacquire, hq, hs⟩ := h.acquire
  obtain ⟨s', hask, hs'⟩ := Client.ask_carries hserver hclient hacquire hq hs ha
  have hlends := hq.update s'
  rw [hask]
  refine ⟨rfl, ?_, fun hstays => ?_⟩
  · refine hs'.tidy (l.service.resume_nil _ _) ?_
    exact (Pool.reclaim_sockets _ lease).imp (·.trans hlends.sockets)
      (·.trans (hlends.sockets_update Pool.Socket.close))
  · have hsession : l.service.resume a.request (l.service.serve a.request state).2 =
        l.service.session (l.service.serve a.request state).2 := by
      funext bytes
      rw [Service.resume, hstays, if_neg Bool.false_ne_true]
    rw [hsession] at hs'
    exact .parked (hlends.reclaim hs'.connected) hs'

-- By induction on the calls: after each of them the pool is poised for those that are left.
theorem askAll {c : Client} {calls : List (Duration × Client.Ask)}
    (hserver : l.service.maxPayload < Numeral.bound) (hclient : c.maxPayload < Numeral.bound)
    (hanswered : List.Forall₂ (fun call => c.Answered l.service call.2) calls
      (l.service.serveAll (calls.map (·.2.request)) state))
    (hstays : ∀ call ∈ calls.dropLast, l.service.isDisconnect call.2.request.command = false)
    (h : Poised l ((l.service.serveAll (calls.map (·.2.request)) state).flatten.flatMap
      Response.encode).length state p) :
    (c.askAll calls p).1 = (l.service.serveAll (calls.map (·.2.request)) state).map .clean ∧
      Tidy (c.askAll calls p).2 ∧
      ((∀ call ∈ calls, l.service.isDisconnect call.2.request.command = false) →
        ∃ state', Poised l 0 state' (c.askAll calls p).2) := by
  induction calls generalizing state p with
  | nil => exact ⟨rfl, h.tidy, fun _ => ⟨state, h⟩⟩
  | cons call rest ih =>
    obtain ⟨pause, a⟩ := call
    obtain ⟨ha, hrest⟩ := List.forall₂_cons.1 hanswered
    rw [List.map_cons, Service.serveAll, List.flatten_cons, List.flatMap_append,
      List.length_append] at h
    obtain ⟨hreport, htidy, hnext⟩ := (h.pause (p.clock + pause.nanos)).ask hserver hclient ha
    cases rest with
    | nil =>
      refine ⟨congrArg (fun report => [report]) hreport, htidy, fun hall => ?_⟩
      exact ⟨_, hnext (hall _ (List.mem_singleton_self _))⟩
    | cons next rest =>
      have hfirst := hnext (hstays (pause, a) (by simp))
      obtain ⟨hreports, hend, hopen⟩ := ih hrest
        (fun call hcall => hstays call (List.mem_cons_of_mem _ hcall)) hfirst
      refine ⟨congrArg₂ List.cons hreport hreports, hend, fun hall => hopen ?_⟩
      exact fun call hcall => hall call (List.mem_cons_of_mem _ hcall)

theorem rests (h : Poised l spare state p) :
    p.Rests p.sockets ∧ ∀ s ∈ p.sockets, s.connected = true := by
  cases h with
  | unused hp hl hspare =>
    rw [hp.sockets]
    exact ⟨hp, List.forall_mem_nil _⟩
  | parked hp hs =>
    rw [hp.sockets]
    refine ⟨hp, fun s hmem => ?_⟩
    rw [List.mem_singleton.1 hmem]
    exact hs.connected

end Poised

/-- **Client and server agree.**  On a new pool, a client runs one call after the other against a
server, whatever the sizes of the pieces in which bytes arrive.  Each call returns what its handler
answered, at the first attempt, and no byte is left unread.  There is one socket at most, and it
stays with the pool unless the last call ends the session. -/
theorem calls_answered (l : Listener σ) (config : Pool.Config) (c : Client)
    (calls : List (Duration × Client.Ask)) (hroom : 1 ≤ config.maxConnections)
    (hserver : l.service.maxPayload < Numeral.bound) (hclient : c.maxPayload < Numeral.bound)
    (hanswered : List.Forall₂ (fun call => c.Answered l.service call.2) calls (l.answers calls))
    (hstays : ∀ call ∈ calls.dropLast, l.service.isDisconnect call.2.request.command = false)
    (hreads : ((l.answers calls).flatten.flatMap Response.encode).length ≤ l.reads.length) :
    let (reports, p) := c.askAll calls (Pool.create l config)
    reports = (l.answers calls).map .clean ∧ Tidy p ∧
      ((∀ call ∈ calls, l.service.isDisconnect call.2.request.command = false) →
        p.Rests p.sockets ∧ ∀ s ∈ p.sockets, s.connected = true) := by
  have hcreate : (Pool.create l config : Pool (Listener σ) (Circuit σ)).Rests [] :=
    ⟨rfl, rfl, hroom, rfl, rfl, rfl⟩
  obtain ⟨hreports, htidy, hopen⟩ :=
    (Poised.unused hcreate rfl hreads).askAll hserver hclient hanswered hstays
  refine ⟨hreports, htidy, fun hall => ?_⟩
  obtain ⟨state, hpoised⟩ := hopen hall
  exact hpoised.rests

/-- Echoes commands, and gives the arguments of `LIST` one by one. -/
def Service.lister : Service Unit :=
  (Service.echo Service.defaultDisconnectCommand 64).streaming "LIST" .never fun request =>
    .pure ((request.args.map fun arg => .pure { status := "ITEM", args := [arg] }) ++
      [.pure { status := "END" }])

-- Bytes arrive one by one, and the second call comes when the socket is due for a check.  The
-- payload is itself a line.
theorem calls_answered_of_three :
    let writes := List.replicate 5 { moves := [.ask, .offer 1], most := 2 }
    let l : Listener Unit := ⟨.lister, none, (), List.replicate 64 { most := 1 }, writes⟩
    let calls : List (Duration × Client.Ask) :=
      [(.ofSecs 0, .one { command := "PUT", args := ["k"], payload := some Bytes.crlf }),
        (.ofSecs 20, .many ⟨{ command := "LIST", args := ["a", "7"] }, ["ITEM"], "END"⟩),
        (.ofSecs 0, .one { command := "BYE" })]
    let c : Client := Client.expect {} "ITEM" .never
    let (reports, p) := c.askAll calls (Pool.create l)
    Tidy p ∧ reports =
      [.clean [{ status := "PUT", args := ["k"], payload := some Bytes.crlf }],
        .clean [{ status := "ITEM", args := ["a"] }, { status := "ITEM", args := ["7"] },
          { status := "END" }],
        .clean [{ status := "BYE" }]] := by
  intro writes l calls c
  have hanswers : l.answers calls =
      [[{ status := "PUT", args := ["k"], payload := some Bytes.crlf }],
        [{ status := "ITEM", args := ["a"] }, { status := "ITEM", args := ["7"] },
          { status := "END" }],
        [{ status := "BYE" }]] := by decide +kernel
  have hanswered : List.Forall₂ (fun call => c.Answered l.service call.2) calls
      (l.answers calls) := by
    rw [hanswers]
    refine .cons (.of_decode (by decide +kernel) (by decide +kernel) ⟨_, rfl⟩)
      (.cons (.of_decode (by decide +kernel) (by decide +kernel) ?_)
        (.cons (.of_decode (by decide +kernel) (by decide +kernel) ⟨_, rfl⟩) .nil))
    exact ⟨[{ status := "ITEM", args := ["a"] }, { status := "ITEM", args := ["7"] }], _, rfl, rfl,
      by decide +kernel⟩
  have hcalls := calls_answered l {} c calls (by decide) (by decide) (by decide) hanswered
    (by decide +kernel) (by decide +kernel)
  exact ⟨hcalls.2.1, hcalls.1.trans (congrArg _ hanswers)⟩

end LineFrame
