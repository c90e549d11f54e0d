import LineFrame.Client.Basic
import LineFrame.Proofs.Client.Sending

/-!
# Reconnecting once

A call makes one attempt, and a second one if its socket fails.  Its attempts are kept in order
(`trail`), and the call ends as the last of them does.

The attempts share a reader.  All that a reader keeps when it is reset is its size and its limit,
and neither ever changes, so the second attempt is as good as a first one (`make_congr`).
-/

namespace LineFrame

/-! ## What a reset reader keeps -/

namespace Reader

variable {expect : String → Expectation}

theorem reset_congr {r s : Reader} (hcapacity : s.capacity = r.capacity)
    (hlimit : s.limit = r.limit) : s.reset = r.reset := by
  have hclear : s.buffer.clear = r.buffer.clear := congrArg (Buffer.mk · 0 []) hcapacity
  rw [reset, reset, hclear, hlimit]

/-- The reader came of another one by reading: it is in step with its bytes, and a reset would make
the two the same. -/
structure Follows (r s : Reader) : Prop where
  sound : s.held.Sound
  reset : s.reset = r.reset

theorem Follows.trans {r s t : Reader} (hs : r.Follows s) (ht : s.Follows t) : r.Follows t :=
  ⟨ht.sound, ht.reset.trans hs.reset⟩

theorem reset_sound (r : Reader) : r.reset.held.Sound := Held.fresh_sound r.limit

theorem nextFrame_follows {r s : Reader} {found : Except FrameError (Option Frame)}
    (hr : r.held.Sound) (h : r.nextFrame expect = (found, s)) : r.Follows s := by
  have hreads := r.nextFrame_reads expect
  rw [h] at hreads
  exact ⟨nextFrame_sound hr h, reset_congr hreads.capacity_eq hreads.limit⟩

theorem fill_follows {τ : Type} [Transport τ] {r s : Reader} {t u : τ}
    {found : Except IoError Nat} (hr : r.held.Sound) (h : r.fill t = (found, s, u)) :
    r.Follows s := by
  unfold fill at h
  dsimp only at h
  split at h
  · cases h
    exact ⟨hr, rfl⟩
  · cases h
    exact ⟨hr, rfl⟩

end Reader

namespace Client

variable {κ τ α : Type}

/-! ## Readings -/

section

variable [Transport τ]

theorem readResponse_follows (expect : String → Expectation) {r : Reader} (t : τ)
    (hr : r.held.Sound) : r.Follows (readResponse expect r t).2.1 := by
  fun_induction readResponse expect r t with
  | case1 r t e s hf => exact Reader.nextFrame_follows hr hf
  | case2 r t frame s hf => exact Reader.nextFrame_follows hr hf
  | case3 r t s hf e s' t' hfill =>
    have hs := Reader.nextFrame_follows hr hf
    exact hs.trans (Reader.fill_follows hs.sound hfill)
  | case4 r t s hf s' t' hfill =>
    have hs := Reader.nextFrame_follows hr hf
    exact hs.trans (Reader.fill_follows hs.sound hfill)
  | case5 r t s hf n s' t' hfill ih =>
    have hs := Reader.nextFrame_follows hr hf
    have hfilled := hs.trans (Reader.fill_follows hs.sound hfill)
    exact hfilled.trans (ih hfilled.sound)

theorem readAll_follows {m : MultiRequest} {expect : String → Expectation}
    {before : List Response} {r : Reader} (s : Pool.Socket τ) (hr : r.held.Sound) :
    r.Follows (readAll m expect before r s).2.1 := by
  fun_induction readAll m expect before r s with
  | case1 before r s e r' s' h =>
    have hread := readResponse_follows expect s hr
    rwa [h] at hread
  | case2 before r s response r' s' h hlast =>
    have hread := readResponse_follows expect s hr
    rwa [h] at hread
  | case3 before r s response r' s' h hlast hexpected ih =>
    have hread := readResponse_follows expect s hr
    rw [h] at hread
    exact hread.trans (ih hread.sound)
  | case4 before r s response r' s' h hlast hexpected =>
    have hread := readResponse_follows expect s hr
    rwa [h] at hread

/-- A reading does nothing to the reader but read. -/
def Steady (read : Reading τ α) : Prop :=
  ∀ (r : Reader) (s : Pool.Socket τ), r.held.Sound → r.Follows (read r s).2.1

theorem readResponse_steady (expect : String → Expectation) :
    Steady (readResponse expect : Reading τ Response) :=
  fun _ s hr => readResponse_follows expect s hr

theorem readAll_steady (m : MultiRequest) (expect : String → Expectation) :
    Steady (readAll m expect [] : Reading τ (List Response)) := fun _ s hr => readAll_follows s hr

end

/-! ## One attempt -/

/-- An attempt, as it was made. -/
structure Attempt (κ τ α : Type) where
  /-- The pool that it started on. -/
  before : Pool κ τ
  /-- The handle that the pool gave for it, or why it gave none. -/
  lent : Except Pool.Error Pool.Handle
  answer : Except Error α
  /-- The pool that it left. -/
  after : Pool κ τ

/-- The socket of a handle was disposed of and has come back.  It is closed, and the seat that the
handle names is not its own. -/
structure GivenBack [Transport τ] (h : Pool.Handle) (p : Pool κ τ) : Prop where
  /-- With the socket its transport was closed, as it was then. -/
  reclaimed : ∃ q : Pool κ τ, q.isDisposed h = true ∧ p = q.reclaim h ∧
    ∀ s, q.socket? h.socket = some s →
      p.socket? h.socket = some ⟨Transport.close s.transport, true⟩
  disposed : p.isDisposed h = true
  closed : p.events.head? = some (.closed h.socket)
  released : p.ledger.holds h.key h.socket = false

section

variable [Transport τ]

theorem release_holds (l : Pool.Ledger) (k s : Nat) : (l.release k s).holds k s = false := by
  unfold Pool.Ledger.release
  split
  · simp [Pool.Ledger.holds, Slab.get?_remove]
  · next h => exact Bool.not_eq_true _ ▸ h

theorem grantSeats_holds {l : Pool.Ledger} {k s : Nat} (h : l.holds k s = false) :
    l.grantSeats.2.holds k s = false := by
  rw [Pool.Ledger.holds, beq_eq_false_iff_ne] at h ⊢
  exact fun hk => h (Pool.Ledger.lent_of_grantSeats hk)

-- A socket that was disposed of is closed when it comes back, whatever else its visit does.
theorem reclaim_eq_close {q : Pool κ τ} {h : Pool.Handle} (hd : q.isDisposed h = true) :
    ∃ send ledger, q.reclaim h = { q with ledger, mail := q.mail ++ send }.close h.socket ∧
      ledger.holds h.key h.socket = false := by
  have hreleased := release_holds q.ledger h.key h.socket
  have hvisit : ∃ send l,
      q.ledger.reclaim q.shut q.health q.clock h.key h.socket = (.closed, send, l) ∧
        l.holds h.key h.socket = false := by
    have hclosed : (q.health.disposed h.socket || !q.health.connected h.socket) = true :=
      Bool.or_eq_true_iff.2 (.inl hd)
    unfold Pool.Ledger.reclaim
    dsimp only
    split
    · exact ⟨_, _, rfl, hreleased⟩
    · exact ⟨_, _, rfl, grantSeats_holds hreleased⟩
  obtain ⟨send, l, hreclaim, hholds⟩ := hvisit
  refine ⟨send, l, ?_, hholds⟩
  rw [Pool.reclaim, hreclaim]
  rfl

theorem reclaim_socket? {q : Pool κ τ} {h : Pool.Handle} {s : Pool.Socket τ}
    (hd : q.isDisposed h = true) (hs : q.socket? h.socket = some s) :
    (q.reclaim h).socket? h.socket = some ⟨Transport.close s.transport, true⟩ := by
  obtain ⟨send, l, hq, -⟩ := reclaim_eq_close hd
  have hvisited : { q with ledger := l, mail := q.mail ++ send }.socket? h.socket = some s := hs
  rw [hq, Pool.socket?_close, if_pos rfl, hvisited]
  rfl

theorem reclaim_givenBack {q : Pool κ τ} {h : Pool.Handle} (hd : q.isDisposed h = true) :
    GivenBack h (q.reclaim h) := by
  obtain ⟨send, l, hq, hholds⟩ := reclaim_eq_close hd
  refine ⟨⟨q, hd, rfl, fun s hs => reclaim_socket? hd hs⟩, ?_, ?_, ?_⟩
  · rw [hq]
    exact Pool.disposed_close _ h.socket
  · rw [hq, Pool.events_close]
    rfl
  · rw [hq, Pool.ledger_close]
    exact hholds

omit [Transport τ] in
theorem update_socket? {p : Pool κ τ} {id : Nat} {s : Pool.Socket τ} (s' : Pool.Socket τ)
    (hs : p.socket? id = some s) : (p.update id fun _ => s').socket? id = some s' := by
  rw [Pool.socket?_update, if_pos rfl, hs]
  rfl

theorem update_isDisposed {p : Pool κ τ} {h : Pool.Handle} {s s' : Pool.Socket τ}
    (hs : p.socket? h.socket = some s) (hd : s'.disposed = true) :
    (p.update h.socket fun _ => s').isDisposed h = true := by
  show ((p.update h.socket fun _ => s').socket? h.socket).all (·.disposed) = true
  rw [update_socket? s' hs]
  exact hd

-- Whatever was done with its socket, a handle that ends with a disposed one gives it back.
theorem update_givenBack {p : Pool κ τ} {h : Pool.Handle} {s s' : Pool.Socket τ}
    (hs : p.socket? h.socket = some s) (hd : s'.disposed = true) :
    GivenBack h ((p.update h.socket fun _ => s').reclaim h) :=
  reclaim_givenBack (update_isDisposed hs hd)

variable {request : Request} {read : Reading τ α}

theorem exchange_congr {r r' : Reader} (s : Pool.Socket τ) (h : r'.reset = r.reset) :
    exchange request read r' s = exchange request read r s := by
  rw [exchange, exchange, h]

theorem exchange_reset (hread : Steady read) (r : Reader) (s : Pool.Socket τ) :
    (exchange request read r s).2.1.reset = r.reset := by
  rw [exchange]
  split
  · rfl
  · next s' _ =>
    have hfollows := hread r.reset s' r.reset_sound
    split <;> next hr => rw [hr] at hfollows; exact hfollows.reset

-- A socket that an exchange fails on is disposed of.
theorem exchange_error {r : Reader} {s : Pool.Socket τ} {e : Error}
    (h : (exchange request read r s).1 = .error e) :
    (exchange request read r s).2.2.disposed = true := by
  rw [exchange] at h ⊢
  split at h
  · rfl
  · split at h
    · rfl
    · cases h

theorem attempt_error {lease : Pool.Handle} {r : Reader} {p : Pool κ τ} {e : Error}
    (h : (attempt request read lease r p).1 = .error e) :
    GivenBack lease (attempt request read lease r p).2.2 := by
  rw [attempt] at h ⊢
  split at h
  · next hnone =>
    have hd : (p.socket? lease.socket).all (·.disposed) = true := by rw [hnone]; rfl
    exact reclaim_givenBack hd
  · next s hsome => exact update_givenBack hsome (exchange_error h)

end

section

variable [Connector κ τ] [Transport τ] {request : Request} {read : Reading τ α}

/-- An attempt on a pool, as it is made. -/
def Attempt.make (request : Request) (read : Reading τ α) (r : Reader) (p : Pool κ τ) :
    Attempt κ τ α :=
  ⟨p, p.acquire.1, (once request read r p).1, (once request read r p).2.2⟩

-- Of the reader that it is given, an attempt sees only what a reset keeps.
theorem make_congr {r r' : Reader} (p : Pool κ τ) (h : r'.reset = r.reset) :
    Attempt.make request read r' p = Attempt.make request read r p := by
  have houtcome : (once request read r' p).1 = (once request read r p).1 ∧
      (once request read r' p).2.2 = (once request read r p).2.2 := by
    rw [once, once]
    split
    · exact ⟨rfl, rfl⟩
    · rw [attempt, attempt]
      split
      · exact ⟨rfl, rfl⟩
      · next s _ =>
        rw [exchange_congr s h]
        exact ⟨rfl, rfl⟩
  rw [Attempt.make, Attempt.make, houtcome.1, houtcome.2]

theorem once_reset (request : Request) (hread : Steady read) (r : Reader) (p : Pool κ τ) :
    (once request read r p).2.1.reset = r.reset := by
  rw [once]
  split
  · rfl
  · rw [attempt]
    split
    · rfl
    · next s _ => exact exchange_reset hread r s

theorem make_refused {r : Reader} {p : Pool κ τ} {e : Pool.Error}
    (h : (Attempt.make request read r p).lent = .error e) :
    (Attempt.make request read r p).answer = .error (.pool e) ∧
      (Attempt.make request read r p).after = p.acquire.2 := by
  have hacquire : p.acquire = (.error e, p.acquire.2) := Prod.ext h rfl
  have honce : once request read r p = (.error (.pool e), r, p.acquire.2) := by
    rw [once, hacquire]
  rw [Attempt.make, honce]
  exact ⟨rfl, rfl⟩

theorem once_of_lent {r : Reader} {p : Pool κ τ} {lease : Pool.Handle}
    (h : p.acquire.1 = .ok lease) :
    once request read r p = attempt request read lease r p.acquire.2 := by
  have hacquire : p.acquire = (.ok lease, p.acquire.2) := Prod.ext h rfl
  rw [once, hacquire]

theorem make_failed {r : Reader} {p : Pool κ τ} {lease : Pool.Handle} {e : Error}
    (h : (Attempt.make request read r p).lent = .ok lease)
    (he : (Attempt.make request read r p).answer = .error e) :
    GivenBack lease (Attempt.make request read r p).after := by
  rw [Attempt.make, once_of_lent h] at he ⊢
  exact attempt_error he

theorem make_lent {r : Reader} {p : Pool κ τ} {lease : Pool.Handle} {s : Pool.Socket τ}
    (h : p.acquire.1 = .ok lease) (hs : p.acquire.2.socket? lease.socket = some s) :
    (Attempt.make request read r p).answer = (exchange request read r s).1 ∧
      (Attempt.make request read r p).after =
        (p.acquire.2.update lease.socket fun _ => (exchange request read r s).2.2).reclaim
          lease := by
  rw [Attempt.make, once_of_lent h, attempt, hs]
  exact ⟨rfl, rfl⟩

/-- An attempt has used its socket, and this is seen of its exchange with a tap on that. -/
structure Ran (request : Request) (a : Attempt κ τ α) (h : Pool.Handle) (s : Pool.Socket τ)
    (seen : Seen τ α) : Prop where
  answer : a.answer = seen.1
  /-- The socket goes back to the pool in the state that the exchange left it in. -/
  after : a.after = (a.before.acquire.2.update h.socket fun _ => seen.2.2.untapped).reclaim h
  sends : Sends request s seen

theorem make_ran {tapped : Reading (Wiretap τ) α} (hagree : Agree Wiretap.transport tapped read)
    (hsilent : Silent tapped) {r : Reader} {p : Pool κ τ} {h : Pool.Handle} {s : Pool.Socket τ}
    (hlent : (Attempt.make request read r p).lent = .ok h)
    (hs : p.acquire.2.socket? h.socket = some s) :
    Ran request (Attempt.make request read r p) h s (exchange request tapped r s.tapped) := by
  obtain ⟨hanswer, hafter⟩ : (Attempt.make request read r p).answer = _ ∧ _ := make_lent hlent hs
  rw [exchange_tapped request hagree r s] at hanswer hafter
  exact ⟨hanswer, hafter, exchange_sends hsilent r s⟩

-- Without a socket an attempt could not have failed on one.
theorem exists_lent {r : Reader} {p : Pool κ τ}
    (h : (Attempt.make request read r p).answer = .error .closed ∨
      ∃ e, (Attempt.make request read r p).answer = .error (.io e)) :
    ∃ lease, (Attempt.make request read r p).lent = .ok lease := by
  cases hlent : (Attempt.make request read r p).lent with
  | ok lease => exact ⟨lease, rfl⟩
  | error e =>
    rw [(make_refused hlent).1] at h
    rcases h with h | ⟨_, h⟩ <;> cases h

end

/-! ## The attempts of a call -/

section

variable [Connector κ τ] [Transport τ]

/-- The attempts that `tryFrom` makes, in order. -/
def trailFrom (c : Client) (request : Request) (read : Reading τ α) (first : Bool) (r : Reader)
    (p : Pool κ τ) : List (Attempt κ τ α) :=
  let (answer, s, q) := once request read r p
  .make request read r p ::
    if _h : c.retries first answer then c.trailFrom request read false s q else []
termination_by first.toNat
decreasing_by simp [first_of_retries _h]

/-- The attempts of a call, in order. -/
def trail (c : Client) (request : Request) (read : Reading τ α) (p : Pool κ τ) :
    List (Attempt κ τ α) :=
  c.trailFrom request read true (.new bufferSize c.maxPayload) p

/-- The attempt that a call starts with. -/
def opening (c : Client) (request : Request) (read : Reading τ α) (p : Pool κ τ) :
    Attempt κ τ α := .make request read (.new bufferSize c.maxPayload) p

variable (c : Client) {request : Request} {read : Reading τ α}

/-- A call ends as the last of its attempts does. -/
theorem tryFrom_eq_last (request : Request) (read : Reading τ α) (first : Bool) (r : Reader)
    (p : Pool κ τ) :
    ∃ a, (c.trailFrom request read first r p).getLast? = some a ∧
      c.tryFrom request read first r p = (a.answer, a.after) := by
  induction first, r, p using @tryFrom.induct κ τ α _ _ c request read with
  | case1 first r p answer s q h hagain ih =>
    obtain ⟨a, ha, hend⟩ := ih
    refine ⟨a, ?_, ?_⟩
    · rw [trailFrom, h]
      simp only [hagain, dite_true]
      rw [List.getLast?_cons, ha]
      rfl
    · rw [tryFrom, h]
      simp only [hagain, dite_true]
      exact hend
  | case2 first r p answer s q h hstop =>
    refine ⟨.make request read r p, ?_, ?_⟩
    · rw [trailFrom, h]
      simp only [hstop]
      rfl
    · rw [tryFrom, h]
      simp only [hstop]
      rw [Attempt.make, h]
      rfl

theorem retries_false (answer : Except Error α) : c.retries false answer = false := by
  cases answer <;> rfl

theorem retries_true_iff (answer : Except Error α) : c.retries true answer = true ↔
    c.retry = true ∧ (answer = .error .closed ∨ ∃ e, answer = .error (.io e)) := by
  rcases answer with (_ | _ | _ | _) | _ <;> simp [retries, Error.isConnectionLevel]

/-- A call makes one attempt, and one more as good as the first if that is to be retried. -/
theorem trail_eq (request : Request) (hread : Steady read) (p : Pool κ τ) :
    c.trail request read p = c.opening request read p ::
      if c.retries true (c.opening request read p).answer then
        [c.opening request read (c.opening request read p).after] else [] := by
  rw [trail, opening, trailFrom]
  rcases h : once request read (.new bufferSize c.maxPayload) p with ⟨answer, s, q⟩
  have hs : s.reset = (Reader.new bufferSize c.maxPayload).reset := by
    have hreset := once_reset request hread (.new bufferSize c.maxPayload) p
    rwa [h] at hreset
  have hmade : Attempt.make request read (.new bufferSize c.maxPayload) p =
      ⟨p, p.acquire.1, answer, q⟩ := by
    rw [Attempt.make, h]
  rw [hmade]
  dsimp only
  congr 1
  split
  · rw [trailFrom]
    simp only [retries_false, Bool.false_eq_true, dite_false]
    rw [opening, make_congr q hs]
  · rfl

-- All attempts of a call are made with a reader that is as good as new.
theorem mem_trail (hread : Steady read) {p : Pool κ τ} {a : Attempt κ τ α}
    (ha : a ∈ c.trail request read p) : ∃ q, a = c.opening request read q := by
  rw [trail_eq c request hread] at ha
  rcases List.mem_cons.1 ha with rfl | ha
  · exact ⟨p, rfl⟩
  · split at ha
    · rw [List.mem_singleton] at ha
      exact ⟨_, ha⟩
    · cases ha

theorem run_of_retries (hread : Steady read) {p : Pool κ τ}
    (h : c.retries true (c.opening request read p).answer = true) :
    c.run request read p =
      ((c.opening request read (c.opening request read p).after).answer,
        (c.opening request read (c.opening request read p).after).after) := by
  obtain ⟨last, hlast, hrun⟩ :=
    tryFrom_eq_last c request read true (.new bufferSize c.maxPayload) p
  have htrail := trail_eq c request hread p
  rw [if_pos h, trail] at htrail
  rw [htrail] at hlast
  cases hlast
  exact hrun

theorem run_of_not_retries (hread : Steady read) {p : Pool κ τ}
    (h : c.retries true (c.opening request read p).answer = false) :
    c.run request read p =
      ((c.opening request read p).answer, (c.opening request read p).after) := by
  obtain ⟨last, hlast, hrun⟩ :=
    tryFrom_eq_last c request read true (.new bufferSize c.maxPayload) p
  have htrail := trail_eq c request hread p
  rw [h, if_neg Bool.false_ne_true, trail] at htrail
  rw [htrail] at hlast
  cases hlast
  exact hrun

-- A call ends as an attempt of it that is not to be made again.
theorem run_of_settled (hread : Steady read) {p : Pool κ τ} {a : Attempt κ τ α}
    (ha : a ∈ c.trail request read p) (h : c.retries true a.answer = false) :
    c.run request read p = (a.answer, a.after) := by
  rw [trail_eq c request hread] at ha
  rcases List.mem_cons.1 ha with rfl | ha
  · exact run_of_not_retries c hread h
  · split at ha
    · next hagain =>
      rw [List.mem_singleton.1 ha]
      exact run_of_retries c hread hagain
    · cases ha

-- Every attempt of a call that gets a socket sends the request on it.
theorem ran_of_mem_trail (hread : Steady read) {tapped : Reading (Wiretap τ) α}
    (hagree : Agree Wiretap.transport tapped read) (hsilent : Silent tapped) {p : Pool κ τ}
    {a : Attempt κ τ α} (ha : a ∈ c.trail request read p) {h : Pool.Handle} {s : Pool.Socket τ}
    (hlent : a.lent = .ok h) (hs : a.before.acquire.2.socket? h.socket = some s) :
    Ran request a h s (exchange request tapped (.new bufferSize c.maxPayload) s.tapped) := by
  obtain ⟨q, rfl⟩ := mem_trail c hread ha
  exact make_ran hagree hsilent hlent hs

/-! ### Without retries -/

theorem retries_of_not_retry (answer : Except Error α) :
    { c with retry := false }.retries true answer = false := by
  rw [← Bool.not_eq_true, retries_true_iff]
  exact fun h => Bool.false_ne_true h.1

theorem trail_of_not_retry (request : Request) (hread : Steady read) (p : Pool κ τ) :
    { c with retry := false }.trail request read p = [c.opening request read p] := by
  have hnot := c.retries_of_not_retry (c.opening request read p).answer
  rw [trail_eq _ request hread]
  exact congrArg (_ :: ·) (if_neg (Bool.eq_false_iff.1 hnot))

theorem run_of_not_retry (request : Request) (hread : Steady read) (p : Pool κ τ) :
    { c with retry := false }.run request read p =
      ((c.opening request read p).answer, (c.opening request read p).after) :=
  run_of_not_retries { c with retry := false } hread (c.retries_of_not_retry _)

end

/-- How the attempts of a call on `p` depend on each other, when `call` is what a client does, and
`tapped` reads the answer on a socket with a tap. -/
structure Reconnects [Connector κ τ] [Transport τ] (c : Client) (request : Request)
    (read : Reading τ α) (tapped : Reading (Wiretap τ) α)
    (call : Client → Pool κ τ → Except Error α × Pool κ τ) (p : Pool κ τ)
    (first : Attempt κ τ α) (again : List (Attempt κ τ α)) : Prop where
  /-- Every attempt asks for one socket. -/
  borrows : ∀ a ∈ first :: again, a.lent = a.before.acquire.1
  /-- Every attempt sends the request on its socket, from its beginning, and reads with a reader
  that is as good as new. -/
  sends : ∀ a ∈ first :: again, ∀ h s,
    a.lent = .ok h → a.before.acquire.2.socket? h.socket = some s →
      Ran request a h s (exchange request tapped (.new bufferSize c.maxPayload) s.tapped)
  starts : first.before = p
  once : again.length ≤ 1
  /-- The second attempt is made when the first had a socket, and that failed. -/
  retried : again ≠ [] ↔ c.retry = true ∧ (∃ h, first.lent = .ok h) ∧
    (first.answer = .error .closed ∨ ∃ e, first.answer = .error (.io e))
  /-- That socket was disposed of before, and has come back. -/
  givenBack : ∀ h, again ≠ [] → first.lent = .ok h → GivenBack h first.after
  refused : ∀ e, first.lent = .error e →
    again = [] ∧ first.answer = .error (.pool e) ∧ first.after = p.acquire.2
  misread : ∀ e, first.answer = .error (.frame e) → again = []
  returned : again = [] → call c p = (first.answer, first.after)
  /-- The second attempt is all that a call without retries does on the pool that the first left. -/
  resumed : ∀ second ∈ again, second.before = first.after ∧
    { c with retry := false }.trail request read first.after = [second] ∧
    call c p = (second.answer, second.after) ∧
    call { c with retry := false } first.after = (second.answer, second.after)

section

variable [Connector κ τ] [Transport τ] {request : Request} {read : Reading τ α}

theorem run_reconnects (hread : Steady read) {tapped : Reading (Wiretap τ) α}
    (hagree : Agree Wiretap.transport tapped read) (hsilent : Silent tapped) {c : Client}
    {call : Client → Pool κ τ → Except Error α × Pool κ τ}
    (hcall : ∀ retry p, call { c with retry } p = { c with retry }.run request read p)
    (p : Pool κ τ) :
    ∃ first again, c.trail request read p = first :: again ∧
      Reconnects c request read tapped call p first again := by
  have hsends : ∀ a ∈ c.trail request read p, ∀ h s,
      a.lent = .ok h → a.before.acquire.2.socket? h.socket = some s →
        Ran request a h s (exchange request tapped (.new bufferSize c.maxPayload) s.tapped) :=
    fun a ha h s => ran_of_mem_trail c hread hagree hsilent ha
  have hretries := c.retries_true_iff (c.opening request read p).answer
  rw [trail_eq c request hread p] at hsends
  refine ⟨_, _, trail_eq c request hread p, ?_⟩
  cases hagain : c.retries true (c.opening request read p).answer with
  | true =>
    have hrun := (hcall c.retry p).trans (run_of_retries c hread hagain)
    obtain ⟨hretry, hanswer⟩ := hretries.1 hagain
    have hlent : ∃ h, (c.opening request read p).lent = .ok h := exists_lent hanswer
    rw [hagain] at hsends
    rw [if_pos rfl] at hsends ⊢
    exact {
      borrows := by simp [opening, Attempt.make]
      sends := hsends
      starts := rfl
      once := Nat.le_refl 1
      retried := by simp [hretry, hlent, hanswer]
      givenBack := by
        intro h _ hh
        rcases hanswer with he | ⟨e, he⟩
        · exact make_failed hh he
        · exact make_failed hh he
      refused := by
        intro e he
        obtain ⟨h, hh⟩ := hlent
        rw [hh] at he
        cases he
      misread := by
        intro e he
        rw [he] at hanswer
        rcases hanswer with h | ⟨_, h⟩ <;> cases h
      returned := nofun
      resumed := by
        intro second hsecond
        rw [List.mem_singleton] at hsecond
        subst hsecond
        have hfinal := (hcall false _).trans
          (c.run_of_not_retry request hread (c.opening request read p).after)
        exact ⟨rfl, c.trail_of_not_retry request hread _, hrun, hfinal⟩ }
  | false =>
    have hrun := (hcall c.retry p).trans (run_of_not_retries c hread hagain)
    rw [hagain] at hsends
    rw [if_neg Bool.false_ne_true] at hsends ⊢
    exact {
      borrows := by simp [opening, Attempt.make]
      sends := hsends
      starts := rfl
      once := Nat.zero_le 1
      retried := by
        have hnot : ¬ c.retries true (c.opening request read p).answer = true := by
          rw [hagain]
          exact Bool.false_ne_true
        constructor
        · intro h
          exact absurd rfl h
        · rintro ⟨hretry, -, hanswer⟩
          exact absurd (hretries.2 ⟨hretry, hanswer⟩) hnot
      givenBack := fun _ h => absurd rfl h
      refused := fun e he => ⟨rfl, make_refused he⟩
      misread := fun _ _ => rfl
      returned := fun _ => hrun
      resumed := by
        intro second hsecond
        cases hsecond }

-- What a client expects does not depend on whether it retries.
theorem expectationFor_retry (c : Client) (retry : Bool) :
    { c with retry }.expectationFor = c.expectationFor := rfl

theorem exec_retry (c : Client) (retry : Bool) (request : Request) (p : Pool κ τ) :
    { c with retry }.exec request p =
      { c with retry }.run request (readResponse c.expectationFor) p := by
  rw [exec, expectationFor_retry]

theorem execMulti_retry (c : Client) (retry : Bool) (m : MultiRequest) (p : Pool κ τ) :
    { c with retry }.execMulti m p =
      { c with retry }.run m.request (readAll m c.expectationFor []) p := by
  rw [execMulti, expectationFor_retry]

/-- **A call reconnects at most once, and then starts afresh.**  It asks the pool for a second
socket exactly when it may retry, got a first one, and that one failed; by then the first is
disposed of, closed, and back.  Every attempt writes the whole request to its socket and flushes it
before it reads anything, or fails as that does.  What a call without retries would do on the pool
as it is after the first attempt is what the second one does, and what becomes of the call. -/
theorem reconnects_once (c : Client) (p : Pool κ τ) :
    (∀ request : Request, ∃ first again,
      c.trail request (readResponse c.expectationFor) p = first :: again ∧
        Reconnects c request (readResponse c.expectationFor) (readResponse c.expectationFor)
          (fun d q => d.exec request q) p first again) ∧
    (∀ m : MultiRequest, ∃ first again,
      c.trail m.request (readAll m c.expectationFor []) p = first :: again ∧
        Reconnects c m.request (readAll m c.expectationFor []) (readAll m c.expectationFor [])
          (fun d q => d.execMulti m q) p first again) := by
  have hview : Transport.Through (Wiretap.transport : Wiretap τ → τ) := Wiretap.through_transport
  constructor
  · intro request
    exact run_reconnects (readResponse_steady _) (readResponse_agree hview)
      (readResponse_silent _) (fun retry => c.exec_retry retry request) p
  · intro m
    exact run_reconnects (readAll_steady m _) (readAll_agree hview m) (readAll_silent m _)
      (fun retry => c.execMulti_retry retry m) p

end

end Client

end LineFrame
