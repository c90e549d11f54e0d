import Mathlib
import LineFrame.Pool.Dialer
import LineFrame.Proofs.Client.Readings
import LineFrame.Proofs.Client.Reconnect

/-!
# Interrupted reads

A read that is interrupted has done nothing, and a socket is not disposed of for it.  An attempt
whose read is interrupted is given up all the same: its answer is another one than without the
interrupt (`opening_calm_iff`), and its socket is closed.  This is so for every interrupt that comes
before the answer is complete (`opening_met`).  A call whose attempts meet none does on a pool just
what it would do without any (`interrupt_costs_attempt`).
-/

namespace LineFrame

namespace Pool

def Dial.calm : Dial → Dial
  | link l => link l.calm
  | dial => dial

def Dialer.calm (d : Dialer) : Dialer :=
  { d with script := d.script.map Dial.calm, otherwise := d.otherwise.calm }

theorem mirrors_calm : Mirrors Dialer.calm Link.calm where
  connected _ := rfl
  close _ := rfl
  connect timeout d := by
    have houtcome (dial : Dial) :
        dial.calm.outcome timeout = (dial.outcome timeout).map Link.calm := by
      cases dial <;> rfl
    obtain ⟨endpoint, _ | ⟨dial, script⟩, otherwise⟩ := d
    · exact Prod.ext (houtcome otherwise) rfl
    · exact Prod.ext (houtcome dial) rfl

/-- The pool without the interrupts on its sockets, and on those that are still to be connected. -/
def calm (p : Pool Dialer Link) : Pool Dialer Link := p.map Dialer.calm Link.calm

end Pool

namespace Client

variable {κ κ' τ τ' α : Type}

/-! ## Attempts -/

/-- The attempt, seen through views of its pool. -/
def Attempt.map (dial : κ → κ') (view : τ → τ') (a : Attempt κ τ α) : Attempt κ' τ' α :=
  ⟨a.before.map dial view, a.lent, a.answer, a.after.map dial view⟩

/-- The attempt sent its request on this socket, and then met an interrupt. -/
structure Attempt.Interrupted [Connector κ τ] [Transport τ] (request : Request)
    (a : Attempt κ τ α) (h : Pool.Handle) (s : Pool.Socket τ) : Prop where
  lent : a.lent = .ok h
  socket : a.before.acquire.2.socket? h.socket = some s
  sent : (Transport.send request.encode s).1 = .ok ()
  answer : a.answer = .error (.io .interruption)

section

variable [Connector κ τ] [Transport τ] [Connector κ' τ'] [Transport τ'] {dial : κ → κ'}
  {view : τ → τ'} {request : Request} {read : Reading τ α} {read' : Reading τ' α}
  (hmirrors : Pool.Mirrors dial view) (hview : Transport.ThroughBut (· = .interruption) view)
  (hread : AgreeBut (· = .interruption) view read read')

include hmirrors hview hread

theorem attempt_map {h : Pool.Handle} {r : Reader} {p : Pool κ τ}
    (hno : ∀ s, p.socket? h.socket = some s → (Transport.send request.encode s).1 = .ok () →
      (attempt request read h r p).1 ≠ .error (.io .interruption)) :
    attempt request read' h r (p.map dial view) =
      ((attempt request read h r p).1, (attempt request read h r p).2.1,
        (attempt request read h r p).2.2.map dial view) := by
  rw [attempt, attempt, Pool.socket?_map]
  cases hs : p.socket? h.socket with
  | none => exact Prod.ext rfl (Prod.ext rfl (Pool.reclaim_map hmirrors p h))
  | some s =>
    rcases hx : exchange request read r s with ⟨answer, r₁, s₁⟩
    have hspared (t) (hsend : Transport.send request.encode s = (.ok (), t)) :
        Spared (· = .interruption) answer := by
      have hanswer := hno s hs (by rw [hsend])
      rw [attempt, hs] at hanswer
      simp only [hx] at hanswer
      intro e he hint
      exact hanswer (by rw [he, hint])
    have hx' := exchange_throughBut hview hread hx (fun {t} => hspared t)
    have hupdate : (p.map dial view).update h.socket (fun _ => s₁.map view) =
        (p.update h.socket fun _ => s₁).map dial view :=
      Pool.update_map (f := fun _ => s₁) (g := fun _ => s₁.map view) (fun _ => rfl) p h.socket
    dsimp only [Option.map_some]
    rw [hx']
    dsimp only
    rw [hupdate, Pool.reclaim_map hmirrors, hx]

theorem opening_map (c : Client) {p : Pool κ τ}
    (hno : ∀ h s, ¬ (c.opening request read p).Interrupted request h s) :
    c.opening request read' (p.map dial view) = (c.opening request read p).map dial view := by
  rw [opening, opening, Attempt.make, Attempt.make, Attempt.map, once, once,
    Pool.acquire_map hmirrors]
  rcases hacquire : p.acquire with ⟨e | h, q⟩
  · rfl
  · dsimp only
    rw [attempt_map hmirrors hview hread]
    intro s hs hsend hanswer
    exact hno h s {
      lent := by rw [opening, Attempt.make, hacquire]
      socket := by
        show p.acquire.2.socket? h.socket = some s
        rw [hacquire, hs]
      sent := hsend
      answer := by rw [opening, Attempt.make, once, hacquire, hanswer] }

variable (hsteady : Steady read) (hsteady' : Steady read') (c : Client) (p : Pool κ τ)
  (hno : ∀ a ∈ c.trail request read p, ∀ h s, ¬ a.Interrupted request h s)

include hsteady hsteady' hno

-- A call whose attempts meet no interrupt makes the same attempts without interrupts.
theorem trail_map :
    c.trail request read' (p.map dial view) =
      (c.trail request read p).map (Attempt.map dial view) := by
  rw [trail_eq c request hsteady p] at hno ⊢
  have hfirst := opening_map hmirrors hview hread c (hno _ List.mem_cons_self)
  rw [trail_eq c request hsteady' _, hfirst]
  show _ :: (if c.retries true (c.opening request read p).answer then _ else _) = _
  split
  · next hagain =>
    rw [if_pos hagain] at hno
    have hsecond := opening_map (p := (c.opening request read p).after) hmirrors hview hread c
      (hno _ (List.mem_cons_of_mem _ List.mem_cons_self))
    show [_, c.opening request read' ((c.opening request read p).after.map dial view)] = _
    rw [hsecond]
    rfl
  · rfl

theorem run_map :
    c.run request read' (p.map dial view) =
      ((c.run request read p).1, (c.run request read p).2.map dial view) := by
  obtain ⟨last, hlast, hrun⟩ :=
    tryFrom_eq_last c request read true (.new bufferSize c.maxPayload) p
  obtain ⟨last', hlast', hrun'⟩ :=
    tryFrom_eq_last c request read' true (.new bufferSize c.maxPayload) (p.map dial view)
  have htrail : (c.trail request read' (p.map dial view)).getLast? = some last' := hlast'
  rw [trail_map hmirrors hview hread hsteady hsteady' c p hno, List.getLast?_map, trail,
    hlast] at htrail
  cases htrail
  rw [run, run, hrun, hrun']
  rfl

end

/-! ## Calls on scripted links -/

/-- What interrupts do to a call on `p`. -/
structure Interrupts (c : Client) (request : Request) (read : Reading Link α)
    (call : Pool Pool.Dialer Link → Except Error α × Pool Pool.Dialer Link)
    (p : Pool Pool.Dialer Link) : Prop where
  /-- The first attempt would have another answer without interrupts just if it meets one. -/
  noticed : (c.opening request read p.calm).answer ≠ (c.opening request read p).answer ↔
    ∃ h s, (c.opening request read p).Interrupted request h s
  /-- It meets the first one on its socket just if its answer is not complete by then: if the peer
  closed there instead, it would find its connection closed. -/
  met : ∀ h s before later, (c.opening request read p).lent = .ok h →
    p.acquire.2.socket? h.socket = some s → (Transport.send request.encode s).1 = .ok () →
    s.transport.arrivals = before ++ .failure .interrupted :: later →
    .failure .interrupted ∉ before → .bytes [] ∉ before →
      ((c.opening request read p).Interrupted request h s ↔
        (exchange request read (.new bufferSize c.maxPayload)
          (s.map fun l => { l with arrivals := before })).1 = .error .closed)
  /-- Interrupts that no attempt meets change nothing. -/
  unmet : (∀ a ∈ c.trail request read p, ∀ h s, ¬ a.Interrupted request h s) →
    c.trail request read p.calm =
        (c.trail request read p).map (Attempt.map Pool.Dialer.calm Link.calm) ∧
      call p.calm = ((call p).1, (call p).2.calm)
  /-- An attempt that meets one has written all of its request, and loses its socket. -/
  lost : ∀ a ∈ c.trail request read p, ∀ h s, a.Interrupted request h s →
    a.after.writtenOn h.socket = some (s.transport.written ++ request.encode) ∧
      GivenBack h a.after
  /-- If it was the first, the request is sent again. -/
  resent : ∀ h s, (c.opening request read p).Interrupted request h s → c.retry = true →
    ∃ second, c.trail request read p = [c.opening request read p, second] ∧
      second.before = (c.opening request read p).after ∧
      call p = (second.answer, second.after)
  /-- If it was the last, the call fails with the interrupt. -/
  failed : ∀ a, (c.trail request read p).getLast? = some a → ∀ h s, a.Interrupted request h s →
    (call p).1 = .error (.io .interruption)

/-- The reading reads, and does nothing else to its socket. -/
structure Listens (read : Reading Link α) : Prop where
  steady : Steady read
  calm : AgreeBut (· = .interruption) Link.calm read read
  stays : Keeps (· = .interruption) Link.Undisturbed read
  breaks : ∀ later r s, r.Ready → s.transport.Unclosed →
    ((read r s).1 = .error .closed →
        (read r (s.map (Link.interrupted later))).1 = .error (.io .interruption)) ∧
      ((read r s).1 ≠ .error .closed →
        (read r (s.map (Link.interrupted later))).1 = (read r s).1)
  silent : ∀ bytes, Keeps (fun _ => False) (·.written = bytes) read

theorem readResponse_listens (expect : String → Expectation) :
    Listens (readResponse expect) where
  steady := readResponse_steady expect
  calm := readResponse_agreeBut Link.throughBut_calm
  stays := readResponse_keeping Link.read_undisturbed nofun
  breaks later r s hr hs := by
    obtain ⟨hend, hgoes⟩ := readResponse_interrupted later hr hs rfl
    refine ⟨hend, fun hne => ?_⟩
    rw [(hgoes hne).1]
  silent bytes :=
    readResponse_keeping (fun n l hl => ⟨Link.read_written bytes n l hl, fun _ _ => id⟩) id

theorem readAll_listens (m : MultiRequest) (expect : String → Expectation) :
    Listens (readAll m expect []) where
  steady := readAll_steady m expect
  calm := readAll_agreeBut Link.throughBut_calm m
  stays := readAll_keeping Link.read_undisturbed nofun m []
  breaks later _ _ hr hs := readAll_interrupted later hr hs rfl
  silent bytes :=
    readAll_keeping (fun n l hl => ⟨Link.read_written bytes n l hl, fun _ _ => id⟩) id m []

section

variable {request : Request} {read : Reading Link α} (hread : Listens read) (c : Client)
  {p : Pool Pool.Dialer Link} {h : Pool.Handle} {s : Pool.Socket Link}

include hread

-- Without interrupts an attempt that met one would have gone on.
theorem opening_calm_answer (hmet : (c.opening request read p).Interrupted request h s) :
    (c.opening request read p.calm).answer ≠ .error (.io .interruption) := by
  have hacquire : p.calm.acquire = _ := Pool.acquire_map Pool.mirrors_calm p
  have hlent : p.calm.acquire.1 = .ok h := by
    rw [hacquire]
    exact hmet.lent
  have hsocket : p.calm.acquire.2.socket? h.socket = some (s.map Link.calm) := by
    have hs : p.acquire.2.socket? h.socket = some s := hmet.socket
    rw [hacquire, Pool.socket?_map, hs]
    rfl
  obtain ⟨t, hsend⟩ : ∃ t, Transport.send request.encode s = (.ok (), t) :=
    ⟨_, Prod.ext hmet.sent rfl⟩
  have hmap := (Pool.Socket.throughBut_map Link.throughBut_calm).toSendsThrough
  obtain ⟨-, hspared⟩ := exchange_keeps hread.stays (r := .new bufferSize c.maxPayload)
    (Transport.send_through hmap hsend) t.transport.calm_undisturbed
  rw [opening, (make_lent hlent hsocket).1]
  exact fun he => hspared _ he rfl

theorem opening_calm_iff :
    (c.opening request read p.calm).answer ≠ (c.opening request read p).answer ↔
      ∃ h s, (c.opening request read p).Interrupted request h s := by
  constructor
  · intro hne
    by_contra hno
    have hsame := opening_map Pool.mirrors_calm Link.throughBut_calm hread.calm c
      fun h s hmet => hno ⟨h, s, hmet⟩
    have hanswer := congrArg Attempt.answer hsame
    exact hne hanswer
  · rintro ⟨h, s, hmet⟩ hsame
    exact opening_calm_answer hread c hmet (hsame.trans hmet.answer)

theorem exchange_interrupted (later : List Arrival) {r : Reader} (hr : r.reset.Ready)
    (hundisturbed : s.transport.Undisturbed) (hunclosed : s.transport.Unclosed)
    (hsent : (Transport.send request.encode s).1 = .ok ()) :
    (exchange request read r (s.map (Link.interrupted later))).1 = .error (.io .interruption) ↔
      (exchange request read r s).1 = .error .closed := by
  obtain ⟨t, hsend⟩ : ∃ t, Transport.send request.encode s = (.ok (), t) :=
    ⟨_, Prod.ext hsent rfl⟩
  have harrivals := Pool.Socket.send_arrivals hsend
  have hview : Transport.SendsThrough (Link.interrupted later) :=
    Link.sendsThrough_arrivals (· ++ .failure .interrupted :: later)
  have hcut := Transport.send_through (Pool.Socket.sendsThrough_map hview) hsend
  have hcalm : t.transport.Undisturbed := by
    rw [Link.Undisturbed, harrivals]
    exact hundisturbed
  have hopen : t.transport.Unclosed := by
    rw [Link.Unclosed, harrivals]
    exact hunclosed
  obtain ⟨hend, hgoes⟩ := hread.breaks later r.reset t hr hopen
  obtain ⟨-, hspared⟩ := hread.stays r.reset t hcalm
  rw [exchange_answer hcut, exchange_answer hsend]
  refine ⟨fun hint => ?_, hend⟩
  by_contra hne
  rw [hgoes hne] at hint
  exact hspared _ hint rfl

theorem opening_met {before later : List Arrival} (hlent : p.acquire.1 = .ok h)
    (hs : p.acquire.2.socket? h.socket = some s)
    (hsent : (Transport.send request.encode s).1 = .ok ())
    (harrivals : s.transport.arrivals = before ++ .failure .interrupted :: later)
    (hundisturbed : .failure .interrupted ∉ before) (hunclosed : .bytes [] ∉ before) :
    (c.opening request read p).Interrupted request h s ↔
      (exchange request read (.new bufferSize c.maxPayload)
        (s.map fun l => { l with arrivals := before })).1 = .error .closed := by
  have hready : (Reader.new bufferSize c.maxPayload).reset.Ready :=
    ⟨Reader.reset_sound _, show 0 < bufferSize by decide⟩
  have hview := Pool.Socket.sendsThrough_map (Link.sendsThrough_arrivals fun _ => before)
  let cut : Pool.Socket Link := s.map fun l => { l with arrivals := before }
  obtain ⟨t, hsend⟩ : ∃ t, Transport.send request.encode s = (.ok (), t) :=
    ⟨_, Prod.ext hsent rfl⟩
  have hcut : (Transport.send request.encode cut).1 = .ok () :=
    congrArg Prod.fst (Transport.send_through hview hsend)
  have hmet := exchange_interrupted (s := cut) hread later hready hundisturbed hunclosed hcut
  have hback : cut.map (Link.interrupted later) = s := by
    obtain ⟨⟨arrivals, writes, sent, up, closed⟩, disposed⟩ := s
    have hsame : arrivals = before ++ .failure .interrupted :: later := harrivals
    rw [hsame]
    rfl
  rw [hback] at hmet
  have hanswer : (c.opening request read p).answer =
      (exchange request read (.new bufferSize c.maxPayload) s).1 := (make_lent hlent hs).1
  rw [← hmet, ← hanswer]
  exact ⟨fun hint => hint.answer, fun hint => ⟨hlent, hs, hsent, hint⟩⟩

-- The request of an attempt that met an interrupt was written.
theorem opening_written (hmet : (c.opening request read p).Interrupted request h s) :
    (c.opening request read p).after.writtenOn h.socket =
      some (s.transport.written ++ request.encode) := by
  have hs : p.acquire.2.socket? h.socket = some s := hmet.socket
  obtain ⟨t, hsend⟩ : ∃ t, Transport.send request.encode s = (.ok (), t) :=
    ⟨_, Prod.ext hmet.sent rfl⟩
  obtain ⟨hkept, -⟩ := exchange_keeps (hread.silent _) (r := .new bufferSize c.maxPayload) hsend
    (Pool.Socket.send_written hsend)
  rw [opening, (make_lent hmet.lent hs).2, Pool.writtenOn_reclaim, Pool.writtenOn,
    Pool.socket?_update, if_pos rfl, hs]
  exact congrArg some hkept

theorem call_interrupts {call : Pool Pool.Dialer Link → Except Error α × Pool Pool.Dialer Link}
    (hcall : ∀ q, call q = c.run request read q) : Interrupts c request read call p where
  noticed := opening_calm_iff hread c
  met _ _ _ _ := opening_met hread c
  unmet hno := by
    have hrun := run_map Pool.mirrors_calm Link.throughBut_calm hread.calm hread.steady
      hread.steady c p hno
    refine ⟨trail_map Pool.mirrors_calm Link.throughBut_calm hread.calm hread.steady
      hread.steady c p hno, ?_⟩
    rw [hcall, hcall]
    exact hrun
  lost a ha h s hmet := by
    obtain ⟨q, rfl⟩ := mem_trail c hread.steady ha
    exact ⟨opening_written hread c hmet, make_failed hmet.lent hmet.answer⟩
  resent h s hmet hretry := by
    have hretries : c.retries true (c.opening request read p).answer = true :=
      (c.retries_true_iff _).2 ⟨hretry, .inr ⟨_, hmet.answer⟩⟩
    refine ⟨c.opening request read (c.opening request read p).after, ?_, rfl, ?_⟩
    · rw [trail_eq c request hread.steady, if_pos hretries]
    · rw [hcall]
      exact run_of_retries c hread.steady hretries
  failed a ha h s hmet := by
    obtain ⟨last, hlast, hrun⟩ :=
      tryFrom_eq_last c request read true (.new bufferSize c.maxPayload) p
    have hsame : last = a := Option.some.inj (hlast.symm.trans ha)
    rw [hcall, run, hrun, hsame]
    exact hmet.answer

end

/-- **An interrupt that a call meets costs it the attempt.**  The socket that it waits on is closed,
and the request, all of which was written to it, is sent once more on another one if that is
allowed.  Interrupts that no attempt meets change neither the call nor what it does to the pool and
its sockets. -/
theorem interrupt_costs_attempt (c : Client) (p : Pool Pool.Dialer Link) :
    (∀ request, Interrupts c request (readResponse c.expectationFor) (c.exec request) p) ∧
    (∀ m : MultiRequest,
      Interrupts c m.request (readAll m c.expectationFor []) (c.execMulti m) p) :=
  ⟨fun _ => call_interrupts (readResponse_listens _) c fun _ => rfl,
    fun m => call_interrupts (readAll_listens m _) c fun _ => rfl⟩

/-- A pool whose connects find these links, one after the other. -/
def awaiting (links : List (List Arrival)) : Pool Pool.Dialer Link :=
  .create { endpoint := "mock:0", script := links.map fun arrivals => .link { arrivals } }

/-- An interrupt after the answer is not met. -/
theorem interrupt_costs_attempt_of_late :
    let c : Client := {}
    let ping : Request := { command := "PING" }
    let p := awaiting [[.bytes (Text.encode "OK\r\n"), .failure .interrupted]]
    (c.exec ping p).1 = .ok { status := "OK" } ∧
      c.exec ping p.calm = ((c.exec ping p).1, (c.exec ping p).2.calm) := by
  intro c ping p
  have hanswers : (c.trail ping (readResponse c.expectationFor) p).map (·.answer) =
      [.ok { status := "OK" }] := by cbv
  refine ⟨by cbv, (((interrupt_costs_attempt c p).1 ping).unmet fun a ha h s hmet => ?_).2⟩
  have hmem := List.mem_map_of_mem (f := (·.answer)) ha
  rw [hanswers, hmet.answer, List.mem_singleton] at hmem
  cases hmem

/-- One before the answer is: the call has the answer of another socket, and the request was written
to both. -/
theorem interrupt_met_of_early :
    let c : Client := {}
    let ping : Request := { command := "PING" }
    let p := awaiting
      [[.failure .interrupted, .bytes (Text.encode "OK\r\n")], [.bytes (Text.encode "AGAIN\r\n")]]
    ((c.exec ping p.calm).1 = .ok { status := "OK" } ∧
        (c.exec ping p.calm).2.events = [.created 1] ∧
        (c.exec ping p.calm).2.sockets.map (·.transport.written) = [ping.encode]) ∧
      ((c.exec ping p).1 = .ok { status := "AGAIN" } ∧
        (c.exec ping p).2.events = [.created 2, .closed 1, .created 1] ∧
        (c.exec ping p).2.sockets.map (·.transport.written) = [ping.encode, ping.encode]) := by
  intro c ping p
  exact ⟨⟨by cbv, by cbv, by cbv⟩, by cbv, by cbv, by cbv⟩

end Client

end LineFrame
