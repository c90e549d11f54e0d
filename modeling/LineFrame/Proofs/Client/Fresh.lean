import Mathlib
import LineFrame.Pool.Dialer
import LineFrame.Proofs.Client.Reconnect
import LineFrame.Proofs.Pool.Acquire

/-!
# The socket of the second attempt

A call that is tried again gets the socket that any call would get then.  That is a new one only if
every parked socket is passed over as stale, and a socket that was parked a moment ago is not: its
peer is not asked after.
-/

namespace LineFrame

namespace Pool

variable {κ τ : Type}

/-! ## Connecting nothing -/

/-- What only a connect changes. -/
def dialled (p : Pool κ τ) : κ × Nat := (p.connector, p.sockets.length)

theorem dialled_update (p : Pool κ τ) (id : Nat) (f : Socket τ → Socket τ) :
    (p.update id f).dialled = p.dialled := by
  rw [dialled, length_update, update]
  split <;> rfl

variable [Transport τ]

theorem dialled_discharge (p : Pool κ τ) (duties : Ledger.Duties) :
    (p.discharge duties).dialled = p.dialled :=
  have hcloses := p.visit_closes p.ledger duties
  Prod.ext hcloses.connector hcloses.sockets

theorem dialled_reclaim (p : Pool κ τ) (h : Handle) : (p.reclaim h).dialled = p.dialled :=
  dialled_discharge { p with ledger := _ } _

end Pool

namespace Client

variable {κ τ α : Type} [Transport τ]

theorem attempt_answer {request : Request} {read : Reading τ α} {h : Pool.Handle} {r : Reader}
    {p : Pool κ τ} {s : Pool.Socket τ} (hs : p.socket? h.socket = some s) :
    (attempt request read h r p).1 = (exchange request read r s).1 := by
  rw [attempt, hs]

theorem dialled_attempt (request : Request) (read : Reading τ α) (h : Pool.Handle) (r : Reader)
    (p : Pool κ τ) : (attempt request read h r p).2.2.dialled = p.dialled := by
  rw [attempt]
  split
  · exact p.dialled_reclaim h
  · exact (Pool.dialled_reclaim _ h).trans (p.dialled_update _ _)

section

variable [Connector κ τ] (c : Client) (request : Request) (read : Reading τ α) {q : Pool κ τ}

/-- If every parked socket is stale, the attempt runs on a new one. -/
theorem opening_of_stale {t : τ} (hopen : q.shut = false)
    (hroom : q.ledger.hasCapacity = true) (hstale : ∀ d ∈ q.ledger.parked, q.isStale d = true)
    (hconnect : (Connector.connect q.config.connectTimeout q.connector).1 = .ok t) :
    (∃ key, (c.opening request read q).lent = .ok ⟨key, q.sockets.length + 1⟩) ∧
      (c.opening request read q).answer =
        (exchange request read (.new bufferSize c.maxPayload) { transport := t }).1 := by
  have hacquire := Pool.acquire_of_stale hopen hroom hstale
  have hdialled : (Pool.discharge { q with ledger := q.ledger.reserved.2 }
      { close := q.passed, send := q.ledger.reserved.1 }).dialled = q.dialled :=
    Pool.dialled_discharge _ _
  generalize Pool.discharge { q with ledger := _ } _ = q' at hacquire hdialled
  obtain ⟨hconnector, hlength⟩ := Prod.mk.inj hdialled
  have hfound : Connector.connect q.config.connectTimeout q.connector =
      (.ok t, (Connector.connect q.config.connectTimeout q.connector).2) := Prod.ext hconnect rfl
  rw [Pool.connect, hconnector, hfound] at hacquire
  rw [opening, Attempt.make, once, hacquire, ← hlength]
  refine ⟨⟨_, rfl⟩, attempt_answer ?_⟩
  rw [Pool.socket?, if_neg (Nat.succ_ne_zero _)]
  exact List.getElem?_concat_length

/-- Otherwise it runs on the parked one that comes first, and nothing is connected. -/
theorem opening_of_parked {d : Pool.Parked} {rest : List Pool.Parked} (hopen : q.shut = false)
    (hd : q.ledger.parked.dropWhile q.isStale = d :: rest) :
    (∃ key, (c.opening request read q).lent = .ok ⟨key, d.socket⟩) ∧
      (c.opening request read q).after.dialled = q.dialled ∧
      (d.socket ∉ q.passed → ∀ s, q.socket? d.socket = some s →
        (c.opening request read q).answer =
          (exchange request read (.new bufferSize c.maxPayload) s).1) := by
  have hacquire := Pool.acquire_of_parked hopen hd
  generalize hq : Pool.discharge { q with ledger := _ } _ = q' at hacquire
  have honce : once request read (.new bufferSize c.maxPayload) q =
      attempt request read ⟨q.ledger.busy.nextKey, d.socket⟩ (.new bufferSize c.maxPayload) q' := by
    rw [once, hacquire]
  refine ⟨⟨q.ledger.busy.nextKey, ?_⟩, ?_, fun hpassed s hs => ?_⟩
  · rw [opening, Attempt.make, hacquire]
  · rw [opening, Attempt.make, honce]
    refine (dialled_attempt _ _ _ _ _).trans ?_
    rw [← hq]
    exact Pool.dialled_discharge _ _
  · rw [opening, Attempt.make, honce]
    refine attempt_answer ?_
    rw [← hq]
    exact ((q.visit_closes _ _).others _ hpassed).trans hs

end

section

variable [Connector κ τ]

/-- The first attempt of a call fails on its socket and is tried again on a pool that has room, and
whose connector finds a transport `t` that would answer. -/
structure FailsOver (c : Client) (request : Request) (p : Pool κ τ) (t : τ) (answer : Response) :
    Prop where
  retry : c.retry = true
  fails : (c.opening request (readResponse c.expectationFor) p).answer = .error .closed ∨
    ∃ e, (c.opening request (readResponse c.expectationFor) p).answer = .error (.io e)
  opened : (c.opening request (readResponse c.expectationFor) p).after.shut = false
  room : (c.opening request (readResponse c.expectationFor) p).after.ledger.hasCapacity = true
  connects : (Connector.connect
    (c.opening request (readResponse c.expectationFor) p).after.config.connectTimeout
    (c.opening request (readResponse c.expectationFor) p).after.connector).1 = .ok t
  answers : (exchange request (readResponse c.expectationFor) (.new bufferSize c.maxPayload)
    { transport := t }).1 = .ok answer

/-- **The second attempt runs on a new socket if every parked one is stale.**  Then it has its
answer.  Otherwise it runs on the last parked of those that are not, whatever state that is in, and
nothing is connected. -/
theorem retry_passes_stale {c : Client} {request : Request} {p : Pool κ τ} {t : τ}
    {answer : Response} (h : FailsOver c request p t answer) :
    let read : Reading τ Response := readResponse c.expectationFor
    let q := (c.opening request read p).after
    ∃ first second, c.trail request read p = [first, second] ∧ first.after = q ∧
      c.exec request p = (second.answer, second.after) ∧
      ((∀ d ∈ q.ledger.parked, q.isStale d = true) →
        (∃ key, second.lent = .ok ⟨key, q.sockets.length + 1⟩) ∧ second.answer = .ok answer) ∧
      (∀ d rest, q.ledger.parked.dropWhile q.isStale = d :: rest →
        (∃ key, second.lent = .ok ⟨key, d.socket⟩) ∧
          second.after.connector = q.connector ∧
          second.after.sockets.length = q.sockets.length ∧
          (d.socket ∉ q.passed → ∀ s, q.socket? d.socket = some s →
            second.answer = (exchange request read (.new bufferSize c.maxPayload) s).1)) := by
  intro read q
  have hretries : c.retries true (c.opening request read p).answer = true :=
    (c.retries_true_iff _).2 ⟨h.retry, h.fails⟩
  have htrail := trail_eq c request (readResponse_steady c.expectationFor) p
  rw [if_pos hretries] at htrail
  refine ⟨c.opening request read p, c.opening request read q, htrail, rfl,
    run_of_retries c (readResponse_steady c.expectationFor) hretries, fun hstale => ?_,
    fun d rest hd => ?_⟩
  · obtain ⟨hlent, hanswer⟩ := opening_of_stale c request read h.opened h.room hstale h.connects
    exact ⟨hlent, hanswer.trans h.answers⟩
  · obtain ⟨hlent, hdialled, hanswer⟩ := opening_of_parked c request read h.opened hd
    obtain ⟨hconnector, hlength⟩ := Prod.mk.inj hdialled
    exact ⟨hlent, hconnector, hlength, hanswer⟩

end

/-! ## A server that was restarted -/

/-- Borrows so many sockets. -/
def borrow : Nat → Pool Pool.Dialer Link → List Pool.Handle × Pool Pool.Dialer Link
  | 0, p => ([], p)
  | n + 1, p =>
    match p.acquire with
    | (.ok h, p) =>
      let (hs, p) := borrow n p
      (h :: hs, p)
    | (.error _, p) => ([], p)

/-- A link whose peer is there and answers. -/
def lively : Link := { arrivals := [.bytes (Text.encode "OK\r\n")] }

/-- A pool with `n` sockets that have just come back, and whose peers have closed since.  A connect
finds a peer that is there. -/
def restarted (n : Nat) : Pool Pool.Dialer Link :=
  let script := List.replicate n (.link {})
  let (hs, p) := borrow n (.create { endpoint := "mock:0", script, otherwise := .link lively })
  hs.foldl Pool.reclaim p

/-- With one dead socket parked the call has its answer. -/
theorem retry_passes_stale_of_one :
    let c : Client := {}
    let ping : Request := { command := "PING" }
    FailsOver c ping (restarted 1) lively { status := "OK" } ∧
      (c.exec ping (restarted 1)).1 = .ok { status := "OK" } := by
  intro c ping
  have h : FailsOver c ping (restarted 1) lively { status := "OK" } := {
    retry := by cbv
    fails := .inl (by cbv)
    opened := by cbv
    room := by cbv
    connects := by cbv
    answers := by cbv }
  have hparked : (c.opening ping (readResponse c.expectationFor)
      (restarted 1)).after.ledger.parked = [] := by cbv
  obtain ⟨first, second, -, -, hexec, hnew, -⟩ := retry_passes_stale h
  obtain ⟨-, hanswer⟩ := hnew (by simp [hparked])
  exact ⟨h, (congrArg Prod.fst hexec).trans hanswer⟩

/-- With two dead sockets parked it fails, since the second attempt runs on the other one. -/
theorem retry_not_fresh_of_two :
    let c : Client := {}
    let ping : Request := { command := "PING" }
    FailsOver c ping (restarted 2) lively { status := "OK" } ∧
      (restarted 2).ledger.parked.map (·.socket) = [2, 1] ∧
      (c.trail ping (readResponse c.expectationFor) (restarted 2)).map (·.lent) =
        [.ok ⟨1, 2⟩, .ok ⟨1, 1⟩] ∧
      (c.exec ping (restarted 2)).1 = .error .closed := by
  intro c ping
  have h : FailsOver c ping (restarted 2) lively { status := "OK" } := {
    retry := by cbv
    fails := .inl (by cbv)
    opened := by cbv
    room := by cbv
    connects := by cbv
    answers := by cbv }
  exact ⟨h, by cbv, by cbv, by cbv⟩

end Client

end LineFrame
