import LineFrame.Client.Basic
import LineFrame.Proofs.Serve.Passes
import LineFrame.Proofs.Serve.Runtimes
import LineFrame.Proofs.Wire.Feeding

/-!
# Loops over the wire

Every loop that has to do with bytes from the wire goes on round by round: a reader that is drained,
a connection that is asked what to do, the two ways to serve a transport, and a client that reads a
response, collects several of them, or tries once more.  Here each loop is given by its round, which
goes on with another state or ends (`Loop.within`), and the loop is shown to end after a number of
rounds with what the function for it gives (`every_loop_ends`).

What is counted down differs.  A reader has fewer unread bytes after each result, and a connection
has looked at a byte or completed an answer, however long the answers are.  Serving and collecting
use up the budget of a transport first, then the bytes and the items at hand.
-/

namespace LineFrame

namespace Loop

variable {α β : Type} {round : α → α ⊕ β} {f : α → β}

/-- What a loop comes to if it ends within `n` rounds. -/
def within (round : α → α ⊕ β) : Nat → α → Option β
  | 0, _ => none
  | n + 1, x =>
    match round x with
    | .inl y => within round n y
    | .inr result => some result

theorem within_of_inl {x y : α} (h : round x = .inl y) (n : Nat) :
    within round (n + 1) x = within round n y := by
  rw [within, h]

theorem within_of_inr {x : α} {result : β} (h : round x = .inr result) (n : Nat) :
    within round (n + 1) x = some result := by
  rw [within, h]

-- A function that each round leaves as it is, is what the loop comes to.
theorem within_of_measure (hf : ∀ x, f x = (round x).elim f id) (size : α → Nat)
    (hsize : ∀ x y, round x = .inl y → size y < size x) {n : Nat} {x : α} (hn : size x < n) :
    within round n x = some (f x) := by
  induction n generalizing x with
  | zero => exact absurd hn (Nat.not_lt_zero _)
  | succ n ih =>
    rw [hf]
    cases hround : round x with
    | inl y =>
      have hless := hsize x y hround
      rw [within_of_inl hround]
      exact ih (by omega)
    | inr result => exact within_of_inr hround n

theorem within_of_wellFounded (hf : ∀ x, f x = (round x).elim f id) {less : α → α → Prop}
    (hwf : WellFounded less) (hless : ∀ x y, round x = .inl y → less y x) (x : α) :
    ∃ n, within round n x = some (f x) := by
  induction x using hwf.induction with
  | h x ih =>
    rw [hf]
    cases hround : round x with
    | inl y =>
      obtain ⟨n, hn⟩ := ih y (hless x y hround)
      exact ⟨n + 1, (within_of_inl hround n).trans hn⟩
    | inr result => exact ⟨1, within_of_inr hround 0⟩

end Loop

variable {σ τ κ α : Type}

/-! ## Frames -/

namespace Reader

/-- Asks once more, with what was found before in `x.1`. -/
def drainRound (expect : String → Expectation) (x : List Finding × Reader) :
    (List Finding × Reader) ⊕ (List Finding × Reader) :=
  let (found, r) := x.2.nextFrame expect
  match Finding.of? found with
  | some f => .inl (x.1 ++ [f], r)
  | none => .inr (x.1, r)

theorem lt_of_finding {r : Reader} {expect : String → Expectation} {f : Finding}
    (h : Finding.of? (r.nextFrame expect).1 = some f) :
    (r.nextFrame expect).2.unread.length < r.unread.length := by
  apply nextFrame_lt (Prod.eta _).symm
  intro hnone
  rw [hnone] at h
  cases h

theorem drainRound_shrinks (expect : String → Expectation) (x y : List Finding × Reader)
    (h : drainRound expect x = .inl y) : y.2.unread.length < x.2.unread.length := by
  unfold drainRound at h
  dsimp only at h
  split at h
  · next hfound =>
    cases h
    exact lt_of_finding hfound
  · cases h

theorem exhaust_drainRound (expect : String → Expectation) (x : List Finding × Reader) :
    (x.1 ++ (x.2.exhaust expect).1, (x.2.exhaust expect).2) =
      (drainRound expect x).elim
        (fun y => (y.1 ++ (y.2.exhaust expect).1, (y.2.exhaust expect).2)) id := by
  unfold drainRound
  rw [exhaust]
  split
  · next h =>
    dsimp only
    rw [h, List.append_nil]
    rfl
  · next found h =>
    dsimp only
    rw [h]
    exact congrArg (·, _) (List.append_assoc _ [found] _).symm

/-- **Draining a reader gives no more results than it has unread bytes**, errors included. -/
theorem exhaust_length_le (expect : String → Expectation) (r : Reader) :
    (r.exhaust expect).1.length ≤ r.unread.length := by
  fun_induction exhaust r expect with
  | case1 => exact Nat.zero_le _
  | case2 r s found hfound more t ht ih =>
    rw [ht] at ih
    have hmore : more.length ≤ s.unread.length := ih
    have hless : s.unread.length < r.unread.length := lt_of_finding hfound
    rw [List.length_cons]
    omega

end Reader

/-! ## A connection -/

namespace Connection

/-- One turn, which is the last one if there is something to tell the caller. -/
def round (svc : Service σ) (x : Connection σ × σ) :
    (Connection σ × σ) ⊕ (Except FrameError Action × Connection σ × σ) :=
  let turn := x.1.turn svc x.2
  match turn.found with
  | some found => .inr (found, turn.connection, turn.state)
  | none => .inl (turn.connection, turn.state)

/-- What bounds the turns that a connection takes by itself. -/
def turnsLeft (c : Connection σ) : Nat := 2 * c.unread.length + c.isSending.toNat

theorem round_turnsLeft (svc : Service σ) (x y : Connection σ × σ) (h : round svc x = .inl y) :
    y.1.turnsLeft < x.1.turnsLeft := by
  unfold round at h
  dsimp only at h
  split at h
  · cases h
  · next hnone =>
    cases h
    exact turn_lt hnone

theorem next_round (svc : Service σ) (x : Connection σ × σ) :
    x.1.next svc x.2 = (round svc x).elim (fun y => y.1.next svc y.2) id := by
  rw [next_eq_turn, round]
  cases (x.1.turn svc x.2).found <;> rfl

/-- **Two turns for each unread byte, and two more, are enough.** -/
theorem next_within (svc : Service σ) (c : Connection σ) (s : σ) :
    Loop.within (round svc) (2 * c.unread.length + 2) (c, s) = some (c.next svc s) := by
  have hbit := Bool.toNat_le c.isSending
  have hturns : c.turnsLeft < 2 * c.unread.length + 2 := by
    unfold turnsLeft
    omega
  exact Loop.within_of_measure (next_round svc) (·.1.turnsLeft) (round_turnsLeft svc) hturns

-- Two commands that are answered with nothing take two turns each, and then more is wanted.
example :
    let svc := (Service.empty : Service Unit).streaming "A" .never fun _ => .pure []
    let c := (Connection.accept svc none ()).1
    let c := { c with reader := c.reader.feed (Text.encode "A\r\nA\r\n") }
    (Loop.within (round svc) 4 (c, ())).isNone ∧ (Loop.within (round svc) 5 (c, ())).isSome := by
  decide +kernel

end Connection

/-! ## Serving -/

namespace Serve

variable [Transport τ]

/-- One pass over the connection and the transport. -/
def round (svc : Service σ) (x : Head τ σ) : Head τ σ ⊕ Served τ σ :=
  match pass svc x with
  | .again y => .inl y
  | .done result y => .inr (y.served result)

-- A loop that ends from where some passes have led to ends from where they began.
theorem within_of_reached {svc : Service σ} {x y : Head τ σ} {served : Served τ σ}
    (h : Reached svc x y) (hy : ∃ n, Loop.within (round svc) n y = some served) :
    ∃ n, Loop.within (round svc) n x = some served := by
  induction h with
  | start => exact hy
  | @again y z _ hp ih =>
    obtain ⟨n, hn⟩ := hy
    have hround : round svc y = .inl z := by rw [round, hp]
    exact ih ⟨n + 1, (Loop.within_of_inl hround n).trans hn⟩

theorem blocking_within (svc : Service σ) (t : τ) (c : Connection σ) (s : σ) :
    ∃ n, Loop.within (round svc) n ⟨t, c, s, []⟩ = some (blocking svc t c s) := by
  obtain ⟨y, result, z, hy, hlast, hserved⟩ := blocking_passes svc t c s []
  have hround : round svc y = .inr (z.served result) := by rw [round, hlast]
  rw [hserved]
  exact within_of_reached hy ⟨1, Loop.within_of_inr hround 0⟩

namespace Task

/-- One step, after which a task that is suspended is taken up again. -/
def round (svc : Service σ) (t : Task σ) : Task σ ⊕ Served Link σ :=
  match t.step svc with
  | .running u | .suspended u => .inl u
  | .finished served => .inr served

theorem step_of_round {svc : Service σ} {t u : Task σ} (h : round svc t = .inl u) :
    (t.step svc).task? = some u := by
  unfold round at h
  split at h
  · next hstep => rw [hstep, ← Sum.inl.inj h]; rfl
  · next hstep => rw [hstep, ← Sum.inl.inj h]; rfl
  · cases h

theorem round_less (svc : Service σ) (t u : Task σ) (h : round svc t = .inl u) :
    Less u.load t.load := step_less (step_of_round h)

theorem run_round (svc : Service σ) (t : Task σ) :
    t.run svc = (round svc t).elim (fun u => u.run svc) id := by
  unfold round
  cases h : t.step svc with
  | running u => exact run_of_running h
  | suspended u => exact run_of_suspended h
  | finished served => exact run_of_finished h

theorem less_wellFounded : WellFounded Less :=
  (Prod.lex Nat.lt_wfRel (Prod.lex (Prod.lex Nat.lt_wfRel Nat.lt_wfRel) Nat.lt_wfRel)).wf

theorem run_within (svc : Service σ) (t : Task σ) :
    ∃ n, Loop.within (round svc) n t = some (t.run svc) :=
  Loop.within_of_wellFounded (run_round svc) (InvImage.wf load less_wellFounded)
    (round_less svc) t

end Task

end Serve

/-! ## A client -/

namespace Client

section

variable [Transport τ]

/-- Looks for a response in the bytes at hand, and receives more if there is none. -/
def responseRound (expect : String → Expectation) (x : Reader × τ) :
    (Reader × τ) ⊕ (Except Error Response × Reader × τ) :=
  match x.1.nextFrame expect with
  | (.error e, r) => .inr (.error (.frame e), r, x.2)
  | (.ok (some frame), r) => .inr (.ok (.ofFrame frame), r, x.2)
  | (.ok none, r) =>
    match r.fill x.2 with
    | (.error e, r, t) => .inr (.error (.io e), r, t)
    | (.ok 0, r, t) => .inr (.error .closed, r, t)
    | (.ok (_ + 1), r, t) => .inl (r, t)

theorem responseRound_budget (expect : String → Expectation) (x y : Reader × τ)
    (h : responseRound expect x = .inl y) : Transport.budget y.2 < Transport.budget x.2 := by
  unfold responseRound at h
  split at h
  · cases h
  · cases h
  · split at h
    · cases h
    · cases h
    · next hfill =>
      cases h
      exact Reader.fill_some hfill

theorem readResponse_round (expect : String → Expectation) (x : Reader × τ) :
    readResponse expect x.1 x.2 =
      (responseRound expect x).elim (fun y => readResponse expect y.1 y.2) id := by
  obtain ⟨r, t⟩ := x
  dsimp only
  fun_cases readResponse expect r t with
  | case1 e r' hf => simp only [responseRound, hf, Sum.elim_inr, id]
  | case2 frame r' hf => simp only [responseRound, hf, Sum.elim_inr, id]
  | case3 r' hf e r'' t' hfill => simp only [responseRound, hf, hfill, Sum.elim_inr, id]
  | case4 r' hf r'' t' hfill => simp only [responseRound, hf, hfill, Sum.elim_inr, id]
  | case5 r' hf n r'' t' hfill => simp only [responseRound, hf, hfill, Sum.elim_inl]

/-- Reads one more response, with those before it in `x.1`, the last of which comes first. -/
def collectRound (m : MultiRequest) (expect : String → Expectation)
    (x : List Response × Reader × Pool.Socket τ) :
    (List Response × Reader × Pool.Socket τ) ⊕
      (Except Error (List Response) × Reader × Pool.Socket τ) :=
  match readResponse expect x.2.1 x.2.2 with
  | (.error e, r, s) => .inr (.error e, r, s)
  | (.ok response, r, s) =>
    if response.status = m.terminator then .inr (.ok (response :: x.1).reverse, r, s)
    else if m.expects response.status then .inl (response :: x.1, r, s)
    else .inr (.ok [response], r, s.dispose)

theorem collectRound_left (m : MultiRequest) (expect : String → Expectation)
    (x y : List Response × Reader × Pool.Socket τ) (h : collectRound m expect x = .inl y) :
    Prod.Lex (· < ·) (· < ·) (left y.2.1 y.2.2) (left x.2.1 x.2.2) := by
  unfold collectRound at h
  split at h
  · cases h
  · next hresponse =>
    split at h
    · cases h
    · split at h
      · cases h
        exact readResponse_left hresponse
      · cases h

theorem readAll_round (m : MultiRequest) (expect : String → Expectation)
    (x : List Response × Reader × Pool.Socket τ) :
    readAll m expect x.1 x.2.1 x.2.2 =
      (collectRound m expect x).elim (fun y => readAll m expect y.1 y.2.1 y.2.2) id := by
  unfold collectRound
  rw [readAll]
  split
  · next h => rw [h]; rfl
  · next h =>
    rw [h]
    dsimp only
    split
    · rfl
    · split <;> rfl

theorem readAll_within (m : MultiRequest) (expect : String → Expectation)
    (x : List Response × Reader × Pool.Socket τ) :
    ∃ n, Loop.within (collectRound m expect) n x = some (readAll m expect x.1 x.2.1 x.2.2) :=
  Loop.within_of_wellFounded (readAll_round m expect)
    (InvImage.wf (fun x => left x.2.1 x.2.2) (Prod.lex Nat.lt_wfRel Nat.lt_wfRel).wf)
    (collectRound_left m expect) x

end

variable [Connector κ τ] [Transport τ]

/-- One attempt, and whether it is the first one in `x.1`. -/
def attemptRound (c : Client) (request : Request) (read : Reading τ α)
    (x : Bool × Reader × Pool κ τ) :
    (Bool × Reader × Pool κ τ) ⊕ (Except Error α × Pool κ τ) :=
  let (answer, r, p) := once request read x.2.1 x.2.2
  if c.retries x.1 answer then .inl (false, r, p) else .inr (answer, p)

theorem attemptRound_first (c : Client) (request : Request) (read : Reading τ α)
    (x y : Bool × Reader × Pool κ τ) (h : c.attemptRound request read x = .inl y) :
    y.1.toNat < x.1.toNat := by
  unfold attemptRound at h
  dsimp only at h
  split at h
  · next hretries =>
    cases h
    rw [first_of_retries hretries]
    exact Nat.one_pos
  · cases h

theorem tryFrom_round (c : Client) (request : Request) (read : Reading τ α)
    (x : Bool × Reader × Pool κ τ) :
    c.tryFrom request read x.1 x.2.1 x.2.2 =
      (c.attemptRound request read x).elim (fun y => c.tryFrom request read y.1 y.2.1 y.2.2)
        id := by
  unfold attemptRound
  rw [tryFrom]
  dsimp only
  split <;> rfl

theorem run_within (c : Client) (request : Request) (read : Reading τ α) (p : Pool κ τ) :
    Loop.within (c.attemptRound request read) 2 (true, .new bufferSize c.maxPayload, p) =
      some (c.run request read p) :=
  Loop.within_of_measure (tryFrom_round c request read) (·.1.toNat)
    (attemptRound_first c request read) Nat.one_lt_two

end Client

/-- **All loops over the wire end**, whatever the bytes are.

A reader that gives a frame or an error has consumed an unread byte, so draining it ends after at
most as many results as it has unread bytes.  A connection that is asked what to do has an answer
after a number of turns that depends on its unread bytes only, so also when the answers to many
commands have no items.  Serving a transport ends, in either way, and so does each loop of a client:
for a response, for all responses to a request, and for another attempt.

The operations of a transport, the calls of handlers and items, and borrowing from a pool are single
steps of these rounds.  A scripted link is a transport, whose reads give no bytes once its script is
over. -/
theorem every_loop_ends [Connector κ τ] [Transport τ] :
    (∀ (expect : String → Expectation) (r : Reader),
      (r.nextFrame expect).2.unread.length + Reader.results (r.nextFrame expect).1 ≤
          r.unread.length ∧
        (r.exhaust expect).1.length ≤ r.unread.length ∧
        Loop.within (Reader.drainRound expect) (r.unread.length + 1) ([], r) =
          some (r.exhaust expect)) ∧
    (∀ (svc : Service σ) (c : Connection σ) (s : σ),
      Loop.within (Connection.round svc) (2 * c.unread.length + 2) (c, s) =
        some (c.next svc s)) ∧
    (∀ (svc : Service σ) (t : τ) (c : Connection σ) (s : σ),
      ∃ n, Loop.within (Serve.round svc) n ⟨t, c, s, []⟩ = some (Serve.blocking svc t c s)) ∧
    (∀ (svc : Service σ) (l : Link) (c : Connection σ) (s : σ),
      ∃ n, Loop.within (Serve.Task.round svc) n ⟨.ask, l, c, s⟩ =
        some (Serve.suspending svc l c s)) ∧
    (∀ (expect : String → Expectation) (r : Reader) (s : Pool.Socket τ),
      Loop.within (Client.responseRound expect) (Transport.budget s + 1) (r, s) =
          some (Client.readResponse expect r s) ∧
        ∀ m : MultiRequest, ∃ n, Loop.within (Client.collectRound m expect) n ([], r, s) =
          some (Client.readAll m expect [] r s)) ∧
    ∀ (c : Client) (p : Pool κ τ),
      (∀ request : Request,
        Loop.within (c.attemptRound request (Client.readResponse c.expectationFor)) 2
            (true, .new Client.bufferSize c.maxPayload, p) = some (c.exec request p)) ∧
        ∀ m : MultiRequest,
          Loop.within (c.attemptRound m.request (Client.readAll m c.expectationFor [])) 2
            (true, .new Client.bufferSize c.maxPayload, p) = some (c.execMulti m p) := by
  refine ⟨?_, Connection.next_within, Serve.blocking_within, ?_, ?_, ?_⟩
  · intro expect r
    exact ⟨r.nextFrame_shrinks expect, Reader.exhaust_length_le expect r,
      Loop.within_of_measure (Reader.exhaust_drainRound expect) (·.2.unread.length)
        (Reader.drainRound_shrinks expect) (Nat.lt_succ_self _)⟩
  · intro svc l c s
    exact Serve.Task.run_within svc _
  · intro expect r s
    exact ⟨Loop.within_of_measure (Client.readResponse_round expect) (Transport.budget ·.2)
      (Client.responseRound_budget expect) (Nat.lt_succ_self _),
      fun m => Client.readAll_within m expect _⟩
  · intro c p
    exact ⟨fun request => c.run_within request _ p, fun m => c.run_within m.request _ p⟩

end LineFrame
