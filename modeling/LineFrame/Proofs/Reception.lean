import Mathlib
import LineFrame.Pool.Dialer
import LineFrame.Proofs.Client.Reconnect
import LineFrame.Proofs.Loops
import LineFrame.Proofs.Serve.Pace
import LineFrame.Proofs.Server.Intake
import LineFrame.Proofs.Wire.Uses

/-!
# When more is received

A read that gives no bytes tells that the peer has closed, but only if it was to give some.  A server
and a client receive only into a reader that has found nothing more, and such a reader has looked at
all of its bytes (`Reader.Vacant`).  So however long the line or the payload is that it is in the
middle of, the whole of its capacity is free, and an empty read means what it seems to
(`empty_reads_end`).

This is shown of all states that the loops over the wire come to (`Loop.Leads`), and of a connection
in the hands of any caller.
-/

namespace LineFrame

variable {σ τ κ α β : Type}

namespace Loop

variable {round : α → α ⊕ β} {x y : α}

/-- What a loop comes to, round after round. -/
def Leads (round : α → α ⊕ β) : α → α → Prop :=
  Relation.ReflTransGen fun x y => round x = .inl y

theorem Leads.keeps {P : α → Prop} (h : Leads round x y)
    (hround : ∀ x y, P x → round x = .inl y → P y) (hx : P x) : P y := by
  induction h with
  | refl => exact hx
  | tail _ hlast ih => exact hround _ _ ih hlast

-- A loop that ends has come to its last round.
theorem exists_last {n : Nat} {result : β} (h : within round n x = some result) :
    ∃ y, Leads round x y ∧ round y = .inr result := by
  induction n generalizing x with
  | zero => cases h
  | succ n ih =>
    cases hround : round x with
    | inl z =>
      rw [within_of_inl hround] at h
      obtain ⟨y, hy, hlast⟩ := ih h
      exact ⟨y, hy.head hround, hlast⟩
    | inr found =>
      rw [within_of_inr hround] at h
      cases h
      exact ⟨x, .refl, hround⟩

end Loop

/-! ## Vacant readers -/

namespace Reader

/-- Nothing is unread, so all of the capacity can be received into. -/
structure Vacant (r : Reader) (capacity : Nat) : Prop where
  unread : r.unread = []
  space : r.space = capacity

variable {r s : Reader} {expect : String → Expectation}

theorem vacant_of_nextFrame (h : r.nextFrame expect = (.ok none, s)) : s.Vacant r.capacity :=
  ⟨unread_of_nextFrame h, space_of_nextFrame h⟩

theorem capacity_use (r : Reader) (u : Use) : (r.use u).capacity = r.capacity := by
  rw [capacity, (r.use_motion u).2, Buffer.capacity_move]
  rfl

theorem Follows.capacity_eq (h : r.Follows s) : s.capacity = r.capacity := by
  have hreset : s.reset.capacity = r.reset.capacity := by rw [h.reset]
  exact hreset

end Reader

/-- A read that was to give some bytes gives none only if the peer has closed. -/
def Transport.EmptyOnlyIf [Transport τ] (closed : τ → Prop) : Prop :=
  ∀ n t, 0 < n → (Transport.read n t).1 = .ok [] → closed t

section

variable [Transport τ] {closed : τ → Prop}

/-- A vacant reader, for which no transport but one whose peer has closed has nothing to receive. -/
structure Reader.Receptive (closed : τ → Prop) (r : Reader) (capacity : Nat) : Prop
    extends r.Vacant capacity where
  closed_of_fill : ∀ t s u, r.fill t = (.ok 0, s, u) → closed t

theorem Reader.Vacant.receptive {r : Reader} {n : Nat} (h : r.Vacant n) (hn : 0 < n)
    (hclosed : Transport.EmptyOnlyIf closed) : r.Receptive closed n where
  toVacant := h
  closed_of_fill t s u hfill := by
    obtain ⟨chunk, hread, hlength, -⟩ := Reader.fill_ok hfill
    rw [h.space, List.length_eq_zero_iff.mp hlength.symm] at hread
    exact hclosed n t hn (congrArg Prod.fst hread)

theorem Pool.Socket.emptyOnlyIf (hclosed : Transport.EmptyOnlyIf closed) :
    Transport.EmptyOnlyIf fun s : Pool.Socket τ => closed s.transport := by
  intro n s hn hread
  have hrun : (Pool.Socket.run (Transport.read n) s).1 = .ok [] := hread
  unfold Pool.Socket.run at hrun
  split at hrun
  · cases hrun
  · exact hclosed n s.transport hn hrun

theorem Link.emptyOnlyIf : Transport.EmptyOnlyIf fun l : Link => l.ahead = ([], none) := by
  intro n l hn hread
  have hread : Transport.read n l = (.ok [], (Transport.read n l).2) := Prod.ext hread rfl
  exact (Link.read_found hn hread).1.1

end

/-! ## A connection -/

namespace Connection

theorem next_capacity (svc : Service σ) (c : Connection σ) (s : σ) :
    (c.next svc s).2.1.reader.capacity = c.reader.capacity := by
  fun_induction next svc c s with
  | case1 => rfl
  | case2 => rfl
  | case3 c s out hp out' t hpull step ih => exact ih
  | case4 c s hp reader h => exact Reader.capacity_of_nextFrame h
  | case5 c s hp frame reader h step ih => exact ih.trans (Reader.capacity_of_nextFrame h)
  | case6 c s hp e reader h he =>
    show reader.capacity = _
    exact Reader.capacity_of_nextFrame h
  | case7 c s hp e reader h he step ih => exact ih.trans (Reader.capacity_of_nextFrame h)

-- Whatever a connection is in the middle of, it asks for more only when it has looked at all.
theorem next_vacant {svc : Service σ} {c d : Connection σ} {s s' : σ}
    (h : c.next svc s = (.ok .receive, d, s')) : d.reader.Vacant c.reader.capacity := by
  fun_induction next svc c s with
  | case1 => cases h
  | case2 => cases h
  | case3 c s out hp out' t hpull step ih => exact ih h
  | case4 c s hp reader hnone =>
    cases h
    exact Reader.vacant_of_nextFrame hnone
  | case5 c s hp frame reader hframe step ih =>
    have hcapacity := Reader.capacity_of_nextFrame hframe
    rw [← hcapacity]
    exact ih h
  | case6 => cases h
  | case7 c s hp e reader herror he step ih =>
    have hcapacity := Reader.capacity_of_nextFrame herror
    rw [← hcapacity]
    exact ih h

end Connection

namespace Usage

/-- What can be done with a connection and with its reader. -/
inductive Handling : Type 1 where
  | use (u : Use)
  | read (u : Reader.Use)

def handle (svc : Service σ) (x : Usage σ) : Handling → Usage σ
  | .use u => x.step svc u
  | .read u => { x with connection := { x.connection with reader := x.connection.reader.use u } }

/-- The connection after it was handled in some ways. -/
def handled (svc : Service σ) (x : Usage σ) (handlings : List Handling) : Usage σ :=
  handlings.foldl (handle svc) x

theorem step_capacity (svc : Service σ) (x : Usage σ) (u : Use) :
    (x.step svc u).connection.reader.capacity = x.connection.reader.capacity := by
  cases u with
  | give chunk => rfl
  | ask => exact x.connection.next_capacity svc x.state
  | hangUp => rfl
  | stop => rfl

theorem run_capacity (svc : Service σ) (x : Usage σ) (uses : List Use) :
    (x.run svc uses).connection.reader.capacity = x.connection.reader.capacity := by
  induction uses generalizing x with
  | nil => rfl
  | cons u uses ih => exact (ih (x.step svc u)).trans (x.step_capacity svc u)

theorem handled_capacity (svc : Service σ) (x : Usage σ) (handlings : List Handling) :
    (x.handled svc handlings).connection.reader.capacity = x.connection.reader.capacity := by
  induction handlings generalizing x with
  | nil => rfl
  | cons handling handlings ih =>
    have hfirst : (x.handle svc handling).connection.reader.capacity =
        x.connection.reader.capacity := by
      cases handling with
      | use u => exact x.step_capacity svc u
      | read u => exact x.connection.reader.capacity_use u
    exact (ih (x.handle svc handling)).trans hfirst

end Usage

/-! ## Serving -/

namespace Serve

section

variable [Transport τ]

theorem round_capacity (svc : Service σ) (x y : Head τ σ) (h : round svc x = .inl y) :
    y.usage.connection.reader.capacity = x.usage.connection.reader.capacity := by
  obtain ⟨uses, -, huses⟩ := pass_uses svc x
  have hpass : pass svc x = .again y := by
    unfold round at h
    split at h
    · next hpass =>
      cases h
      exact hpass
    · cases h
  rw [hpass] at huses
  have husage : y.usage = (x.usage.ask svc).run svc uses := huses
  rw [husage, Usage.run_capacity]
  exact x.usage.connection.next_capacity svc x.usage.state

theorem leads_capacity {svc : Service σ} {x y : Head τ σ} (h : Loop.Leads (round svc) x y) :
    y.usage.connection.reader.capacity = x.usage.connection.reader.capacity :=
  h.keeps (fun y z hy hround => (round_capacity svc y z hround).trans hy) rfl

-- The connection is told that the peer has closed only after a read that gave nothing.
theorem pass_hungUp {closed : τ → Prop} (hclosed : Transport.EmptyOnlyIf closed)
    {svc : Service σ} {y z : Head τ σ} (hcapacity : 0 < y.usage.connection.reader.capacity)
    {result : Except ServeError Unit} (hp : pass svc y = .done result z)
    (hlast : z.usage.history.getLast? = some .hungUp) : closed y.transport := by
  have hasked : (y.usage.ask svc).history.getLast? =
      some (.returned (y.usage.connection.next svc y.usage.state).1) := by
    show (y.usage.history ++ .asked :: y.usage.connection.deeds svc y.usage.state).getLast? = _
    rw [List.getLast?_append, List.getLast?_cons, Connection.getLast?_deeds]
    rfl
  have hstopped {history : List (Deed σ)} :
      (history ++ [Deed.stopped]).getLast? ≠ some .hungUp := by
    rw [List.getLast?_concat]
    exact nofun
  rcases hn : y.usage.connection.next svc y.usage.state with ⟨found, d, s⟩
  rw [hn] at hasked
  rw [pass, hn] at hp
  match found with
  | .error e =>
    cases hp
    cases hasked.symm.trans hlast
  | .ok .close =>
    cases hp
    cases hasked.symm.trans hlast
  | .ok (.send data) =>
    rw [act] at hp
    split at hp
    · cases hp
    · cases hp
      exact absurd hlast hstopped
  | .ok .receive =>
    have hspace : (y.usage.ask svc).connection.reader.space =
        y.usage.connection.reader.capacity := by
      show (y.usage.connection.next svc y.usage.state).2.1.reader.space = _
      rw [hn]
      exact (Connection.next_vacant hn).space
    rw [act, hspace] at hp
    split at hp
    · next hread => exact hclosed _ y.transport hcapacity (congrArg Prod.fst hread)
    · cases hp
    · split at hp
      · cases hp
      · cases hp
        exact absurd hlast hstopped

-- The loop ends with a pass, and tells what it has found to the connection in it.
theorem blocking_ends {closed : τ → Prop} (hclosed : Transport.EmptyOnlyIf closed)
    (svc : Service σ) (t : τ) {c : Connection σ} (s : σ) (hcapacity : 0 < c.reader.capacity) :
    ∃ y result z, Loop.Leads (round svc) ⟨t, c, s, []⟩ y ∧ pass svc y = .done result z ∧
      blocking svc t c s = z.served result ∧
      (z.usage.history.getLast? = some .hungUp → closed y.transport) := by
  obtain ⟨n, hwithin⟩ := blocking_within svc t c s
  obtain ⟨y, hy, hlast⟩ := Loop.exists_last hwithin
  have hpositive : 0 < y.usage.connection.reader.capacity := by
    rw [leads_capacity hy]
    exact hcapacity
  unfold round at hlast
  split at hlast
  · cases hlast
  · next result z hp =>
    exact ⟨y, result, z, hy, hp, (Sum.inr.inj hlast).symm, pass_hungUp hclosed hpositive hp⟩

end

namespace Task

-- A task waits to receive because the connection asks for it, or because nothing has come so far.
theorem waits_of_step {svc : Service σ} {t u : Task σ} (hs : (t.step svc).task? = some u)
    (hwaits : u.stage = .receive) :
    (t.stage = .receive ∧ u.connection.reader.unread = t.connection.reader.unread) ∨
      ∃ s, t.connection.next svc t.state = (.ok .receive, u.connection, s) := by
  obtain ⟨stage, l, c, s⟩ := t
  cases stage with
  | ask =>
    rcases hn : c.next svc s with ⟨found, d, s'⟩
    rw [step_ask svc l hn] at hs
    match found with
    | .error e => cases hs
    | .ok .close => cases hs
    | .ok .receive =>
      cases hs
      exact .inr ⟨s', rfl⟩
    | .ok (.send data) =>
      cases hs
      cases hwaits
  | receive =>
    unfold Task.step at hs
    dsimp only at hs
    split at hs
    · cases hs
      exact .inl ⟨rfl, rfl⟩
    · cases hs
    · cases hs
      cases hwaits
    · split at hs
      · cases hs
        cases hwaits
      · cases hs
  | write rest =>
    cases rest with
    | nil =>
      cases hs
      cases hwaits
    | cons b rest =>
      unfold Task.step at hs
      dsimp only at hs
      split at hs
      · cases hs
      · cases hs
        cases hwaits
      · split at hs
        · cases hs
          cases hwaits
        · cases hs
  | flush =>
    unfold Task.step at hs
    dsimp only at hs
    split at hs
    · cases hs
      cases hwaits
    · cases hs

/-- A task that waits to receive has looked at all bytes that it has. -/
structure Emptied (t : Task σ) (capacity : Nat) : Prop where
  capacity : t.connection.reader.capacity = capacity
  unread : t.stage = .receive → t.connection.reader.unread = []

theorem Emptied.vacant {t : Task σ} {capacity : Nat} (h : t.Emptied capacity)
    (hstage : t.stage = .receive) : t.connection.reader.Vacant capacity where
  unread := h.unread hstage
  space := by
    have hunread : t.connection.reader.buffer.unread = [] := h.unread hstage
    rw [Reader.space, Buffer.space, hunread]
    exact h.capacity

theorem Emptied.step {svc : Service σ} {t u : Task σ} {capacity : Nat} (h : t.Emptied capacity)
    (hs : (t.step svc).task? = some u) : u.Emptied capacity where
  capacity := by
    have husage := usage_of_step hs []
    have hconnection : u.connection = ((t.usage []).run svc t.uses).connection :=
      congrArg Usage.connection husage
    rw [hconnection, Usage.run_capacity]
    exact h.capacity
  unread hstage := by
    rcases waits_of_step hs hstage with ⟨hwaits, hunread⟩ | ⟨s, hasked⟩
    · rw [hunread]
      exact h.unread hwaits
    · exact (Connection.next_vacant hasked).unread

-- A task tells its connection that the peer has closed only if it has.
theorem Emptied.ahead_of_hangUp {t : Task σ} {capacity : Nat} (h : t.Emptied capacity)
    (hcapacity : 0 < capacity) (hup : .hangUp ∈ t.uses) : t.link.ahead = ([], none) := by
  unfold Task.uses at hup
  split at hup
  · simp at hup
  · next hstage =>
    rw [(h.vacant hstage).space] at hup
    split at hup
    · simp at hup
    · next hpoll =>
      have hread : t.link.poll capacity = (some (.ok []), (t.link.poll capacity).2) :=
        Prod.ext hpoll rfl
      exact (Link.poll_found hcapacity hread).1.1
    · simp at hup
    · split at hup <;> simp at hup
  · simp at hup
  · split at hup
    · simp at hup
    · simp at hup
    · split at hup <;> simp at hup
  · split at hup <;> simp at hup

theorem round_emptied {svc : Service σ} {capacity : Nat} (t u : Task σ) (ht : t.Emptied capacity)
    (h : round svc t = .inl u) : u.Emptied capacity := ht.step (step_of_round h)

end Task

end Serve

/-! ## A client -/

namespace Client

/-- A call on `p` has sent its request, and reads the answer with this reader from this socket. -/
inductive Begins [Connector κ τ] [Transport τ] (c : Client) (request : Request)
    (read : Reading τ α) (p : Pool κ τ) : Reader × Pool.Socket τ → Prop
  | sent {x : Bool × Reader × Pool κ τ} {h : Pool.Handle} {q : Pool κ τ} {s t : Pool.Socket τ}
      (hx : Loop.Leads (c.attemptRound request read) (true, .new bufferSize c.maxPayload, p) x)
      (hlent : x.2.2.acquire = (.ok h, q)) (hsocket : q.socket? h.socket = some s)
      (hsent : Transport.send request.encode s = (.ok (), t)) : Begins c request read p
        (x.2.1.reset, t)

section

variable [Transport τ] {expect : String → Expectation} {closed : τ → Prop} {r : Reader}

/-- How a response is read: whenever more is received, the reader is vacant, and that the peer has
closed is the answer only if it has. -/
structure Attentive (expect : String → Expectation) (closed : τ → Prop)
    (x : Reader × Pool.Socket τ) : Prop where
  receptive : ∀ y r, Loop.Leads (responseRound expect) x y →
    y.1.nextFrame expect = (.ok none, r) →
    r.Receptive (fun s : Pool.Socket τ => closed s.transport) 4096
  ended : (readResponse expect x.1 x.2).1 = .error .closed →
    ∃ y, Loop.Leads (responseRound expect) x y ∧ closed y.2.transport

theorem responseRound_follows (x y : Reader × τ) (hx : r.Follows x.1)
    (h : responseRound expect x = .inl y) : r.Follows y.1 := by
  unfold responseRound at h
  split at h
  · cases h
  · cases h
  · next s hnone =>
    have hs := Reader.nextFrame_follows hx.sound hnone
    split at h
    · cases h
    · cases h
    · next hfill =>
      cases h
      exact hx.trans (hs.trans (Reader.fill_follows hs.sound hfill))

theorem fill_of_closed {x : Reader × τ} {result : Except Error Response × Reader × τ}
    (h : responseRound expect x = .inr result) (hresult : result.1 = .error .closed) :
    ∃ s s' u, x.1.nextFrame expect = (.ok none, s) ∧ s.fill x.2 = (.ok 0, s', u) := by
  unfold responseRound at h
  split at h
  · cases h
    cases hresult
  · cases h
    cases hresult
  · next s hnone =>
    split at h
    · cases h
      cases hresult
    · next s' u hfill => exact ⟨s, s', u, hnone, hfill⟩
    · cases h

theorem attentive (hclosed : Transport.EmptyOnlyIf closed) {limit : Nat}
    {x : Reader × Pool.Socket τ} (hx : (Reader.new bufferSize limit).Follows x.1) :
    Attentive expect closed x := by
  have hreceptive (y : Reader × Pool.Socket τ) (s : Reader)
      (hy : Loop.Leads (responseRound expect) x y)
      (hnone : y.1.nextFrame expect = (.ok none, s)) :
      s.Receptive (fun s : Pool.Socket τ => closed s.transport) 4096 := by
    have hfollows : (Reader.new bufferSize limit).Follows y.1 :=
      hy.keeps responseRound_follows hx
    have hcapacity : y.1.capacity = 4096 := hfollows.capacity_eq
    have hvacant := hcapacity ▸ Reader.vacant_of_nextFrame hnone
    exact hvacant.receptive (by decide) (Pool.Socket.emptyOnlyIf hclosed)
  refine ⟨hreceptive, fun hanswer => ?_⟩
  have hwithin := Loop.within_of_measure (readResponse_round expect) (Transport.budget ·.2)
    (responseRound_budget expect) (Nat.lt_succ_self (Transport.budget x.2))
  obtain ⟨y, hy, hlast⟩ := Loop.exists_last hwithin
  obtain ⟨s, s', u, hnone, hfill⟩ := fill_of_closed hlast hanswer
  exact ⟨y, hy, (hreceptive y s hy hnone).closed_of_fill y.2 s' u hfill⟩

theorem collectRound_follows {m : MultiRequest} (x y : List Response × Reader × Pool.Socket τ)
    (hx : r.Follows x.2.1) (h : collectRound m expect x = .inl y) : r.Follows y.2.1 := by
  have hread := readResponse_follows expect x.2.2 hx.sound
  unfold collectRound at h
  split at h
  · cases h
  · next hresponse =>
    rw [hresponse] at hread
    split at h
    · cases h
    · split at h
      · cases h
        exact hx.trans hread
      · cases h

theorem readResponse_of_closed {m : MultiRequest} {x : List Response × Reader × Pool.Socket τ}
    {result : Except Error (List Response) × Reader × Pool.Socket τ}
    (h : collectRound m expect x = .inr result) (hresult : result.1 = .error .closed) :
    (readResponse expect x.2.1 x.2.2).1 = .error .closed := by
  unfold collectRound at h
  split at h
  · next hread =>
    cases h
    cases hresult
    rw [hread]
  · split at h
    · cases h
      cases hresult
    · split at h
      · cases h
      · cases h
        cases hresult

theorem readAll_attentive (hclosed : Transport.EmptyOnlyIf closed) {limit : Nat}
    {x : Reader × Pool.Socket τ} (hx : (Reader.new bufferSize limit).Follows x.1)
    {m : MultiRequest} :
    (∀ y, Loop.Leads (collectRound m expect) ([], x) y → Attentive expect closed y.2) ∧
      ((readAll m expect [] x.1 x.2).1 = .error .closed →
        ∃ y z, Loop.Leads (collectRound m expect) ([], x) y ∧
          Loop.Leads (responseRound expect) y.2 z ∧ closed z.2.transport) := by
  have hattentive (y : List Response × Reader × Pool.Socket τ)
      (hy : Loop.Leads (collectRound m expect) ([], x) y) : Attentive expect closed y.2 :=
    attentive hclosed (hy.keeps collectRound_follows hx)
  refine ⟨hattentive, fun hanswer => ?_⟩
  obtain ⟨n, hwithin⟩ := readAll_within m expect ([], x)
  obtain ⟨y, hy, hlast⟩ := Loop.exists_last hwithin
  obtain ⟨z, hz, hended⟩ := (hattentive y hy).ended (readResponse_of_closed hlast hanswer)
  exact ⟨y, z, hy, hz, hended⟩

end

variable [Connector κ τ] [Transport τ] {c : Client} {request : Request} {read : Reading τ α}
  {p : Pool κ τ}

theorem attemptRound_reset (hread : Steady read) (x y : Bool × Reader × Pool κ τ)
    (h : c.attemptRound request read x = .inl y) : y.2.1.reset = x.2.1.reset := by
  unfold attemptRound at h
  dsimp only at h
  split at h
  · cases h
    exact once_reset request hread x.2.1 x.2.2
  · cases h

-- Every attempt reads with a reader that is as good as new.
theorem Begins.follows {x : Reader × Pool.Socket τ} (h : c.Begins request read p x)
    (hread : Steady read) : (Reader.new bufferSize c.maxPayload).Follows x.1 := by
  cases h with
  | @sent y _ _ _ _ hy =>
    have hreset : y.2.1.reset = (Reader.new bufferSize c.maxPayload).reset :=
      hy.keeps (fun x y hx hround => (attemptRound_reset hread x y hround).trans hx) rfl
    exact ⟨y.2.1.reset_sound, hreset⟩

end Client

/-- **An empty read always means that the peer has closed.**  Whatever a connection is in the middle
of, and whatever was done with it and with its reader before: when it asks for more, its reader has
looked at all bytes that it was given, and can take as many as it ever could.  So it is in all
states of the two ways to serve a transport and of a client's call, also in its second attempt and
between the responses to one request.  None of them takes a full buffer for the end of the stream:
that the peer has closed is what a connection and a caller are told only if it has. -/
theorem empty_reads_end [Connector κ τ] [Transport τ] {closed : τ → Prop}
    (hclosed : Transport.EmptyOnlyIf closed) :
    (∀ (svc : Service σ) (c d : Connection σ) (s s' : σ),
      c.next svc s = (.ok .receive, d, s') → d.reader.Vacant c.reader.capacity) ∧
    (∀ (svc : Service σ) (peer : Option Net.SocketAddress) (s : σ),
      let start := Usage.start svc peer s
      (∀ handlings d s', let x := start.handled svc handlings
        x.connection.next svc x.state = (.ok .receive, d, s') →
        d.reader.Receptive closed 16384) ∧
      (∀ t : τ, let x : Serve.Head τ σ := ⟨t, start⟩
        (∀ y d s', Loop.Leads (Serve.round svc) x y →
          y.usage.connection.next svc y.usage.state = (.ok .receive, d, s') →
          d.reader.Receptive closed 16384) ∧
        ∃ y result z, Loop.Leads (Serve.round svc) x y ∧ Serve.pass svc y = .done result z ∧
          Serve.blocking svc t start.connection start.state = z.served result ∧
          (z.usage.history.getLast? = some .hungUp → closed y.transport)) ∧
      ∀ l u, Loop.Leads (Serve.Task.round svc) ⟨.ask, l, start.connection, start.state⟩ u →
        (u.stage = .receive → u.connection.reader.Vacant 16384) ∧
        (.hangUp ∈ u.uses → u.link.ahead = ([], none))) ∧
    ∀ (c : Client) (p : Pool κ τ),
      (∀ request x, c.Begins request (Client.readResponse c.expectationFor) p x →
        Client.Attentive c.expectationFor closed x) ∧
      ∀ (m : MultiRequest) x, c.Begins m.request (Client.readAll m c.expectationFor []) p x →
        (∀ y, Loop.Leads (Client.collectRound m c.expectationFor) ([], x) y →
          Client.Attentive c.expectationFor closed y.2) ∧
        ((Client.readAll m c.expectationFor [] x.1 x.2).1 = .error .closed →
          ∃ y z, Loop.Leads (Client.collectRound m c.expectationFor) ([], x) y ∧
            Loop.Leads (Client.responseRound c.expectationFor) y.2 z ∧
            closed z.2.transport) := by
  refine ⟨fun svc c d s s' => Connection.next_vacant, fun svc peer s => ?_, fun c p => ⟨?_, ?_⟩⟩
  · intro start
    have hstart : start.connection.reader.capacity = 16384 := rfl
    have hpositive : 0 < start.connection.reader.capacity := by
      rw [hstart]
      decide
    refine ⟨?_, fun t => ⟨?_, Serve.blocking_ends hclosed svc t start.state hpositive⟩, ?_⟩
    · intro handlings d s' x hn
      have hcapacity : x.connection.reader.capacity = 16384 :=
        (start.handled_capacity svc handlings).trans hstart
      exact (hcapacity ▸ Connection.next_vacant hn).receptive (by decide) hclosed
    · intro y d s' hy hn
      have hcapacity : y.usage.connection.reader.capacity = 16384 :=
        (Serve.leads_capacity hy).trans hstart
      exact (hcapacity ▸ Connection.next_vacant hn).receptive (by decide) hclosed
    · intro l u hu
      have hemptied : u.Emptied 16384 := hu.keeps Serve.Task.round_emptied ⟨hstart, nofun⟩
      exact ⟨hemptied.vacant, hemptied.ahead_of_hangUp (by decide)⟩
  · intro request x hx
    exact Client.attentive hclosed (hx.follows (Client.readResponse_steady _))
  · intro m x hx
    have hfollows := hx.follows (Client.readAll_steady m _)
    exact Client.readAll_attentive hclosed hfollows

-- Both payloads are longer than the buffer, and two bytes of them have come.  Then the one peer is
-- waited for, and the other one has closed.
theorem empty_reads_end_of_long_payload :
    let svc := (Service.empty : Service Unit).streaming "PUT" .auto fun _ => .pure []
    let x := (Usage.start svc none ()).handled svc
      [.use (.give (Text.encode "PUT 20000\r\n")), .use .ask, .read (.feed [1, 2])]
    let after := x.connection.next svc x.state
    let c : Client := {}
    let get : Request := { command := "GET" }
    let link : Link := { arrivals := [.bytes (Text.encode "OK 5000\r\n"), .bytes [1, 2]] }
    let p := Pool.create ({ endpoint := "mock:0", otherwise := .link link } : Pool.Dialer)
    let closed := fun l : Link => l.ahead = ([], none)
    Transport.EmptyOnlyIf closed ∧
      (after.1 = .ok .receive ∧ after.2.1.reader.phase = .payload 20000 19998 ∧
        after.2.1.reader.Receptive closed 16384) ∧
      ∃ y, c.Begins get (Client.readResponse c.expectationFor) p y ∧
        (Client.readResponse c.expectationFor y.1 y.2).1 = .error .closed ∧
        ∃ z, Loop.Leads (Client.responseRound c.expectationFor) y z ∧ closed z.2.transport := by
  intro svc x after c get link p closed
  have hclosed : Transport.EmptyOnlyIf closed := Link.emptyOnlyIf
  obtain ⟨-, hserver, hclient⟩ := @empty_reads_end Unit Link Pool.Dialer _ _ closed hclosed
  have hasked : after.1 = .ok .receive := by decide +kernel
  have hphase : after.2.1.reader.phase = .payload 20000 19998 := by decide +kernel
  have hreceptive := (hserver svc none ()).1 _ after.2.1 after.2.2 (Prod.ext hasked rfl)
  let t : Pool.Socket Link := ⟨{ link with sent := (Text.encode "GET\r\n").reverse }, false⟩
  have hlent : p.acquire = (.ok ⟨0, 1⟩, p.acquire.2) := by cbv
  have hsocket : p.acquire.2.socket? 1 = some { transport := link } := by cbv
  have hsent : Transport.send get.encode ({ transport := link } : Pool.Socket Link) =
      (.ok (), t) := by cbv
  let y : Reader × Pool.Socket Link := (.new Client.bufferSize c.maxPayload, t)
  have hbegins : c.Begins get (Client.readResponse c.expectationFor) p y :=
    .sent .refl hlent hsocket hsent
  have hanswer : (Client.readResponse c.expectationFor y.1 y.2).1 = .error .closed := by cbv
  have hattentive := (hclient c p).1 get y hbegins
  exact ⟨hclosed, ⟨hasked, hphase, hreceptive⟩, y, hbegins, hanswer, hattentive.ended hanswer⟩

end LineFrame
