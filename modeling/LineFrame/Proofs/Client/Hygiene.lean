import Mathlib
import LineFrame.Pool.Dialer
import LineFrame.Proofs.Client.Reconnect
import LineFrame.Proofs.Client.Responses
import LineFrame.Proofs.Client.Wiretap
import LineFrame.Proofs.Pool.Conservation

/-!
# Sockets that are used again

After an attempt its socket is in order, or it is disposed of (`sockets_kept_clean`).  In order
means that the attempt was answered, that the whole request went out, and that what came in is the
frames of the answer and nothing beyond them (`Clean`), as a tap on the socket shows.  A socket
that is disposed of is closed when it comes back, and nobody gets it again.
-/

namespace LineFrame

namespace Pool.Socket

variable {τ : Type}

/-! ## What a tap shows -/

/-- From the one state to the other these bytes were read, and nothing was written. -/
structure Reads (s s' : Socket (Wiretap τ)) (bytes : Bytes) : Prop where
  read : s'.transport.read = s.transport.read ++ bytes
  written : s'.transport.written = s.transport.written
  flushed : s'.transport.flushed = s.transport.flushed
  live : s.disposed = false → s'.disposed = false

theorem Reads.refl (s : Socket (Wiretap τ)) : s.Reads s [] :=
  ⟨(List.append_nil _).symm, rfl, rfl, id⟩

theorem Reads.trans {s s' s'' : Socket (Wiretap τ)} {bytes more : Bytes} (h : s.Reads s' bytes)
    (h' : s'.Reads s'' more) : s.Reads s'' (bytes ++ more) where
  read := by rw [h'.read, h.read, List.append_assoc]
  written := h'.written.trans h.written
  flushed := h'.flushed.trans h.flushed
  live hs := h'.live (h.live hs)

variable [Transport τ] {s s' : Socket (Wiretap τ)}

theorem read_reads {n : Nat} {chunk : Bytes} (h : Transport.read n s = (.ok chunk, s')) :
    s.Reads s' chunk := by
  obtain ⟨-, hlive, hop⟩ := run_ok h
  have hfound : (Transport.read n s.transport.transport).1 = .ok chunk := congrArg Prod.fst hop
  have hlog : (Transport.read n s.transport).2 = s'.transport := congrArg Prod.snd hop
  refine ⟨?_, ?_, ?_, fun _ => hlive⟩
  · rw [← hlog]
    show _ ++ Wiretap.given _ = _
    rw [hfound]
    rfl
  · rw [← hlog]
    rfl
  · rw [← hlog]
    rfl

theorem fill_reads {r r' : Reader} {n : Nat} (h : r.fill s = (.ok n, r', s')) :
    ∃ chunk, s.Reads s' chunk ∧ r'.unread = r.unread ++ chunk ∧ r'.held = r.held := by
  obtain ⟨chunk, hread, -, rfl⟩ := Reader.fill_ok h
  exact ⟨chunk, read_reads hread, rfl, rfl⟩

end Pool.Socket

namespace Client

/-! ## The bytes of an answer -/

section

variable {expect : String → Expectation} {limit : Nat}

/-- The bytes are those of the frames of these responses, one after the other, and then the rest. -/
def Spells (expect : String → Expectation) (limit : Nat) :
    List Response → Bytes → Bytes → Prop
  | [], bytes, rest => bytes = rest
  | response :: responses, bytes, rest => ∃ more,
    Finding.decode expect limit bytes = some (.ok response.toFrame, more) ∧
      Spells expect limit responses more rest

end

section

variable {τ α : Type} [Transport τ] {expect : String → Expectation} {limit : Nat}

/-! ## Readings -/

open Pool (Socket)

theorem readResponse_scan {r r' : Reader} {s s' : Socket (Wiretap τ)} {response : Response}
    (hr : r.held.Sound) (h : readResponse expect r s = (.ok response, r', s')) :
    ∃ bytes frame, s.Reads s' bytes ∧ response = .ofFrame frame ∧
      r.held.scan expect (r.unread ++ bytes) = (some (.ok frame), r'.held, r'.unread) := by
  fun_induction readResponse expect r s with
  | case1 r s e r₁ hf => cases h
  | case2 r s frame r₁ hf =>
    cases h
    refine ⟨[], frame, .refl _, rfl, ?_⟩
    rw [List.append_nil]
    exact Reader.scan_of_nextFrame hr hf
  | case3 r s r₁ hf e r₂ s₁ hfill => cases h
  | case4 r s r₁ hf r₂ s₁ hfill => cases h
  | case5 r s r₁ hf n r₂ s₁ hfill ih =>
    have hnone := Reader.unread_of_nextFrame hf
    obtain ⟨chunk, hreads, hunread, hheld⟩ := Pool.Socket.fill_reads hfill
    have hsound : r₂.held.Sound := hheld ▸ Reader.nextFrame_sound hr hf
    obtain ⟨more, frame, hmore, hframe, hscan⟩ := ih hsound h
    refine ⟨chunk ++ more, frame, hreads.trans hmore, hframe, ?_⟩
    rw [hheld, hunread, hnone, List.nil_append] at hscan
    rw [Held.scan_append, Reader.scan_of_nextFrame hr hf]
    exact hscan

/-- **A response that is read is spelt by the bytes that came in**, up to those left unread. -/
theorem readResponse_decode {r r' : Reader} {s s' : Socket (Wiretap τ)} {response : Response}
    (hr : r.held = .fresh limit) (h : readResponse expect r s = (.ok response, r', s')) :
    ∃ bytes, s.Reads s' bytes ∧ r'.held = .fresh limit ∧
      Finding.decode expect limit (r.unread ++ bytes) = some (.ok response.toFrame, r'.unread) := by
  have hsound : r.held.Sound := hr ▸ Held.fresh_sound limit
  obtain ⟨bytes, frame, hreads, rfl, hscan⟩ := readResponse_scan hsound h
  refine ⟨bytes, hreads, ?_⟩
  have hagrees := Held.scan_fresh expect limit (r.unread ++ bytes)
  rw [hr] at hscan
  rw [hscan] at hagrees
  cases hdecode : Finding.decode expect limit (r.unread ++ bytes) with
  | none =>
    rw [hdecode] at hagrees
    cases hagrees
  | some x =>
    obtain ⟨found, rest⟩ := x
    rw [hdecode] at hagrees
    obtain ⟨hfound, hrest, hheld⟩ := hagrees
    cases hfound
    cases hrest
    exact ⟨hheld rfl, rfl⟩

/-- The responses end with the terminator, and those before it are expected. -/
def Complete (m : MultiRequest) (responses : List Response) : Prop :=
  ∃ before last, responses = before ++ [last] ∧ last.status = m.terminator ∧
    ∀ response ∈ before, m.expects response.status = true ∧ response.status ≠ m.terminator

theorem readAll_spells {m : MultiRequest} {before answer : List Response} {r r' : Reader}
    {s s' : Socket (Wiretap τ)} (hr : r.held = .fresh limit)
    (h : readAll m expect before r s = (.ok answer, r', s')) :
    (∃ responses bytes, answer = before.reverse ++ responses ∧ Complete m responses ∧
      s.Reads s' bytes ∧ r'.held = .fresh limit ∧
      Spells expect limit responses (r.unread ++ bytes) r'.unread) ∨
    (¬ Complete m answer ∧ s'.disposed = true) := by
  fun_induction readAll m expect before r s with
  | case1 before r s e r₁ s₁ hread => cases h
  | case2 before r s response r₁ s₁ hread hlast =>
    cases h
    obtain ⟨bytes, hreads, hheld, hdecode⟩ := readResponse_decode hr hread
    left
    refine ⟨[response], bytes, List.reverse_cons, ?_, hreads, hheld, _, hdecode, rfl⟩
    exact ⟨[], response, rfl, hlast, List.forall_mem_nil _⟩
  | case3 before r s response r₁ s₁ hread hlast hexpected ih =>
    obtain ⟨bytes, hreads, hheld, hdecode⟩ := readResponse_decode hr hread
    rcases ih hheld h with ⟨responses, more, hanswer, hcomplete, hmore, hend, hspells⟩ | hspoilt
    · left
      obtain ⟨others, last, rfl, hterminator, hothers⟩ := hcomplete
      refine ⟨response :: (others ++ [last]), bytes ++ more, ?_, ?_, hreads.trans hmore, hend, ?_⟩
      · rw [hanswer, List.reverse_cons, List.append_assoc]
        rfl
      · refine ⟨response :: others, last, rfl, hterminator, ?_⟩
        exact List.forall_mem_cons.2 ⟨⟨hexpected, hlast⟩, hothers⟩
      · refine ⟨r₁.unread ++ more, ?_, hspells⟩
        rw [← List.append_assoc]
        exact Finding.decode_append hdecode more
    · exact .inr hspoilt
  | case4 before r s response r₁ s₁ hread hlast hexpected =>
    cases h
    right
    refine ⟨?_, rfl⟩
    rintro ⟨others, last, hanswer, hterminator, -⟩
    have hsame : last = response := by
      have hend := congrArg List.getLast? hanswer
      simpa using hend.symm
    rw [hsame] at hterminator
    exact hlast hterminator

/-- Whether a reading leaves its socket in order shows in its answer. -/
structure Tidy (read : Reading (Wiretap τ) α) (expect : String → Expectation)
    (responses : α → List Response) (complete : α → Prop) : Prop where
  kept : ∀ {limit r s answer r' s'}, r.held = .fresh limit → read r s = (.ok answer, r', s') →
    complete answer → ∃ bytes, s.Reads s' bytes ∧ r'.held = .fresh limit ∧
      Spells expect limit (responses answer) (r.unread ++ bytes) r'.unread
  spoilt : ∀ {limit r s answer r' s'}, r.held = .fresh limit → read r s = (.ok answer, r', s') →
    ¬ complete answer → s'.disposed = true

theorem readResponse_tidy :
    Tidy (readResponse expect : Reading (Wiretap τ) Response) expect ([·]) fun _ => True where
  kept hr h _ := by
    obtain ⟨bytes, hreads, hheld, hdecode⟩ := readResponse_decode hr h
    exact ⟨bytes, hreads, hheld, _, hdecode, rfl⟩
  spoilt _ _ hcomplete := absurd trivial hcomplete

theorem readAll_tidy (m : MultiRequest) :
    Tidy (readAll m expect [] : Reading (Wiretap τ) (List Response)) expect id (Complete m) where
  kept hr h hcomplete := by
    rcases readAll_spells hr h with ⟨responses, bytes, rfl, -, hreads, hheld, hspells⟩ | hspoilt
    · exact ⟨bytes, hreads, hheld, hspells⟩
    · exact absurd hcomplete hspoilt.1
  spoilt hr h hcomplete := by
    rcases readAll_spells hr h with ⟨responses, bytes, rfl, hall, -⟩ | hspoilt
    · exact absurd hall hcomplete
    · exact hspoilt.2

/-! ## Exchanges -/

/-- After an exchange: the whole request was written and flushed, what was read is the frames of
these responses, and the reader holds nothing that came after them. -/
structure Clean (request : Request) (expect : String → Expectation) (limit : Nat)
    (responses : List Response) (r : Reader) (w : Wiretap τ) : Prop where
  written : w.written = request.encode
  flushed : w.flushed = request.encode
  read : Spells expect limit responses w.read []
  held : r.held = .fresh limit
  unread : r.unread = []

-- What was sent and then read, when nothing is left unread.
theorem clean_of_reads {request : Request} {responses : List Response} {s : Socket τ}
    {t s' : Socket (Wiretap τ)} {r : Reader} {bytes : Bytes}
    (hsend : Transport.send request.encode s.tapped = (.ok (), t)) (hreads : t.Reads s' bytes)
    (hspells : Spells expect limit responses bytes r.unread) (hheld : r.held = .fresh limit)
    (hunread : r.unread = []) : Clean request expect limit responses r s'.transport := by
  obtain ⟨hwritten, hflushed, hnothing, -⟩ := Pool.Socket.send_log hsend
  have hlog : s'.transport.read = bytes := by
    rw [hreads.read, hnothing]
    rfl
  have hall : s'.transport.written = request.encode := hreads.written.trans hwritten
  rw [hunread] at hspells
  exact {
    written := hall
    flushed := by rw [hreads.flushed, hflushed, ← hreads.written, hall]
    read := hlog ▸ hspells
    held := hheld
    unread := hunread }

/-- **An exchange disposes of its socket, unless it leaves it clean.** -/
theorem exchange_clean_iff {request : Request} {read : Reading (Wiretap τ) α}
    {responses : α → List Response} {complete : α → Prop}
    (hread : Tidy read expect responses complete) (r : Reader) (s : Socket τ) :
    let seen := exchange request read r s.tapped
    seen.2.2.disposed = false ↔ ∃ answer, seen.1 = .ok answer ∧ complete answer ∧
      Clean request expect r.limit (responses answer) seen.2.1 seen.2.2.transport := by
  have hfresh : r.reset.held = .fresh r.limit := rfl
  rw [exchange]
  rcases hsend : Transport.send request.encode s.tapped with ⟨e | _, t⟩
  · constructor
    · intro h
      cases h
    · rintro ⟨answer, h, -⟩
      cases h
  have hlive := (Pool.Socket.send_log hsend).2.2.2
  dsimp only
  rcases hr : read r.reset t with ⟨e | answer, r', s'⟩
  · constructor
    · intro h
      cases h
    · rintro ⟨answer, h, -⟩
      cases h
  dsimp only
  by_cases hcomplete : complete answer
  · obtain ⟨bytes, hreads, hheld, hspells⟩ := hread.kept hfresh hr hcomplete
    by_cases hunread : r'.unread = []
    · have hnone : ¬ r'.hasUnread = true := by simp [Reader.hasUnread, hunread]
      rw [if_neg hnone]
      refine ⟨fun _ => ⟨answer, rfl, hcomplete, ?_⟩, fun _ => hreads.live hlive⟩
      exact clean_of_reads hsend hreads hspells hheld hunread
    · have hsome : r'.hasUnread = true := by simp [Reader.hasUnread, hunread]
      rw [if_pos hsome]
      constructor
      · intro h
        cases h
      · rintro ⟨other, -, -, hclean⟩
        exact absurd hclean.unread hunread
  · have hdisposed : (if r'.hasUnread then s'.dispose else s').disposed = true := by
      split
      · rfl
      · exact hread.spoilt hfresh hr hcomplete
    rw [hdisposed]
    constructor
    · intro h
      cases h
    · rintro ⟨other, h, hother, -⟩
      cases h
      exact absurd hother hcomplete

end

/-! ## Sockets that were disposed of -/

section

variable {κ τ α : Type} [Transport τ] {request : Request} {read : Reading τ α}

open Pool (Handle Socket Traffic)

theorem writeAll_disposed {bs : Bytes} {s s' : Socket τ} {found : Except IoError Unit}
    (hs : s.disposed = true) (h : Transport.writeAll bs s = (found, s')) : s'.disposed = true := by
  have hwrite : ∀ bs, Transport.write bs s = (.error .disposed, s) := fun bs => if_pos hs
  cases bs with
  | nil =>
    rw [Transport.writeAll] at h
    cases h
    exact hs
  | cons b rest =>
    have hstops : ¬ IoError.isInterrupted .disposed = true := by decide
    rw [Transport.writeAll, hwrite] at h
    simp only [hstops] at h
    cases h
    exact hs

-- No exchange revives its socket.
theorem exchange_disposed {s : Socket τ} (hs : s.disposed = true) (r : Reader) :
    (exchange request read r s).2.2.disposed = true := by
  rw [exchange]
  rcases hsend : Transport.send request.encode s with ⟨e | _, t⟩
  · rfl
  · rw [Transport.send] at hsend
    split at hsend
    · next t hwrite =>
      have ht := writeAll_disposed hs hwrite
      rw [(Pool.Socket.run_ok hsend).1] at ht
      cases ht
    · cases hsend

/-- What an attempt does to its socket. -/
def spend (request : Request) (read : Reading τ α) (r : Reader) (s : Socket τ) :
    Except IoError Unit × Socket τ := (.ok (), (exchange request read r s).2.2)

-- An attempt uses its socket, and gives it back.
theorem attempt_eq (h : Handle) (r : Reader) (p : Pool κ τ) :
    (attempt request read h r p).2.2 = (p.use h (spend request read r)).2.reclaim h := by
  rw [attempt, Pool.use]
  cases p.socket? h.socket <;> rfl

variable [Connector κ τ] (request read)

theorem run_attempt {x : Traffic κ τ} {h : Handle} (hh : h ∈ x.handles) (r : Reader) :
    ∃ moves, x.run moves =
      { x with
        pool := (attempt request read h r x.pool).2.2
        handles := x.handles.erase h } := by
  have hop : ∀ s, s.disposed = true → (spend request read r s).2.disposed = true :=
    fun _ hs => exchange_disposed hs r
  obtain ⟨first, hfirst⟩ := Traffic.run_use hh hop
  let y : Traffic κ τ := { x with pool := (x.pool.use h (spend request read r)).2 }
  obtain ⟨second, hsecond⟩ := Traffic.run_reclaim (x := y) hh
  refine ⟨first ++ second, ?_⟩
  rw [Traffic.run, List.foldl_append, ← Traffic.run, ← Traffic.run, hfirst, hsecond, attempt_eq]

-- A socket that was disposed of in an attempt is not lent again, and is left as it is.
theorem not_live_of_givenBack {x : Traffic κ τ} (hx : x.Sound) {h : Handle} (hh : h ∈ x.handles)
    {r : Reader} (hback : GivenBack h (attempt request read h r x.pool).2.2) :
    ∃ moves, (x.run moves).pool = (attempt request read h r x.pool).2.2 ∧ ∀ more,
      ((x.run moves).run more).pool.socket? h.socket =
          (attempt request read h r x.pool).2.2.socket? h.socket ∧
        h.socket ∉ ((x.run moves).run more).liveIds := by
  obtain ⟨moves, hmoves⟩ := run_attempt request read hh r
  have hpool : (x.run moves).pool = (attempt request read h r x.pool).2.2 := by rw [hmoves]
  have hclosed : h.socket ∈ (x.run moves).pool.closedIds := by
    rw [hpool]
    apply List.mem_filterMap.2
    exact ⟨_, List.mem_of_head? hback.closed, rfl⟩
  have hsound : (x.run moves).Sound := Traffic.run_sound hx moves
  refine ⟨moves, hpool, fun more => ⟨?_, Traffic.not_live_of_closed hsound hclosed more⟩⟩
  rw [Traffic.run_socket?_of_closed hsound hclosed more, hpool]

end

/-! ## Attempts -/

section

variable {κ τ α : Type} [Connector κ τ] [Transport τ]

open Pool (Handle Socket Traffic)

/-- What becomes of the socket of an attempt, when this is seen of the exchange. -/
structure Kept (request : Request) (a : Attempt κ τ α) (h : Handle) (s : Socket τ)
    (seen : Seen τ α) (clean : Prop) : Prop extends Ran request a h s seen where
  clean : seen.2.2.disposed = false ↔ clean
  /-- If it is disposed of then it is given back, and its transport is closed as the exchange left
  it. -/
  closed : seen.2.2.disposed = true → GivenBack h a.after ∧
    a.after.socket? h.socket = some ⟨Transport.close seen.2.2.untapped.transport, true⟩
  /-- It stays so, and nobody gets it again. -/
  lost : seen.2.2.disposed = true → ∀ connector config moves,
    let x := (Traffic.start connector config : Traffic κ τ).run moves
    x.pool = a.before.acquire.2 → h ∈ x.handles →
      ∃ own, (x.run own).pool = a.after ∧ ∀ more,
        ((x.run own).run more).pool.socket? h.socket = a.after.socket? h.socket ∧
          h.socket ∉ ((x.run own).run more).liveIds

theorem make_kept {request : Request} {read : Reading τ α} {tapped : Reading (Wiretap τ) α}
    {expect : String → Expectation} {responses : α → List Response} {complete : α → Prop}
    (hagree : Agree Wiretap.transport tapped read) (hsilent : Silent tapped)
    (htidy : Tidy tapped expect responses complete) (r : Reader) (p : Pool κ τ) {h : Handle}
    {s : Socket τ} (hlent : (Attempt.make request read r p).lent = .ok h)
    (hs : p.acquire.2.socket? h.socket = some s) :
    let seen := exchange request tapped r s.tapped
    Kept request (Attempt.make request read r p) h s seen
      (∃ answer, seen.1 = .ok answer ∧ complete answer ∧
        Clean request expect r.limit (responses answer) seen.2.1 seen.2.2.transport) := by
  intro seen
  have hran := make_ran hagree hsilent hlent hs
  have hback (hdisposed : seen.2.2.disposed = true) :
      GivenBack h (Attempt.make request read r p).after := by
    rw [hran.after]
    exact update_givenBack hs hdisposed
  exact {
    toRan := hran
    clean := exchange_clean_iff htidy r s
    closed := by
      intro hdisposed
      refine ⟨hback hdisposed, ?_⟩
      rw [hran.after]
      exact reclaim_socket? (update_isDisposed hs hdisposed) (update_socket? _ hs)
    lost := by
      intro hdisposed connector config moves x hx hh
      have hsound : x.Sound := Traffic.run_sound (Traffic.start_sound connector config) moves
      have hafter : (attempt request read h r x.pool).2.2 =
          (Attempt.make request read r p).after := by
        rw [hx, Attempt.make, once_of_lent hlent]
      have hlost := not_live_of_givenBack request read hsound hh (r := r)
      rw [hafter] at hlost
      exact hlost (hback hdisposed) }

/-- **The sockets that a client gives back are clean or closed.**  Whatever the transport does, the
socket of an attempt goes back in order exactly when the attempt had its answer, the whole request
was written and flushed, and the bytes that were read are the frames of the answer and nothing more,
the last of several responses being the terminator.  In every other case it is disposed of: it comes
back, its transport is closed, and whatever is done with the pool then, it stays so and nobody gets
it again. -/
theorem sockets_kept_clean (c : Client) (p : Pool κ τ) :
    (∀ request : Request, ∀ a ∈ c.trail request (readResponse c.expectationFor) p, ∀ h s,
      a.lent = .ok h → a.before.acquire.2.socket? h.socket = some s →
        let seen := exchange request (readResponse c.expectationFor)
          (.new bufferSize c.maxPayload) s.tapped
        Kept request a h s seen (∃ response, seen.1 = .ok response ∧
          Clean request c.expectationFor c.maxPayload [response] seen.2.1 seen.2.2.transport)) ∧
    (∀ m : MultiRequest, ∀ a ∈ c.trail m.request (readAll m c.expectationFor []) p, ∀ h s,
      a.lent = .ok h → a.before.acquire.2.socket? h.socket = some s →
        let seen := exchange m.request (readAll m c.expectationFor [])
          (.new bufferSize c.maxPayload) s.tapped
        Kept m.request a h s seen (∃ responses, seen.1 = .ok responses ∧ Complete m responses ∧
          Clean m.request c.expectationFor c.maxPayload responses seen.2.1
            seen.2.2.transport)) := by
  have hview : Transport.Through (Wiretap.transport : Wiretap τ → τ) := Wiretap.through_transport
  refine ⟨fun request a ha h s hlent hs => ?_, fun m a ha h s hlent hs => ?_⟩
  · obtain ⟨q, rfl⟩ := mem_trail c (readResponse_steady _) ha
    have hkept := make_kept (readResponse_agree hview) (readResponse_silent _) readResponse_tidy _ q
      hlent hs
    simp only [true_and] at hkept
    exact hkept
  · obtain ⟨q, rfl⟩ := mem_trail c (readAll_steady m _) ha
    exact make_kept (readAll_agree hview m) (readAll_silent m _) (readAll_tidy m) _ q hlent hs

end

/-- A byte comes in after the answer.  The call has its answer, its socket is closed, and nobody
gets it again. -/
theorem sockets_kept_clean_of_surplus :
    let c : Client := {}
    let ping : Request := { command := "PING" }
    let link : Link := { arrivals := [.bytes (Text.encode "OK\r\nX")] }
    let dialer : Pool.Dialer := { endpoint := "mock:0", otherwise := .link link }
    let a := c.opening ping (readResponse c.expectationFor) (Pool.create dialer)
    let here : Pool.Glimpse := { connected := fun _ => true }
    let moves : List (Pool.Move Link) := [.arrive, .enter here, .connect 0 (.ofSecs 10)]
    let x := (Pool.Traffic.start dialer {}).run moves
    a.lent = .ok ⟨0, 1⟩ ∧ x.handles = [⟨0, 1⟩] ∧ a.answer = .ok { status := "OK" } ∧
      GivenBack ⟨0, 1⟩ a.after ∧ (∃ t, a.after.socket? 1 = some ⟨Transport.close t, true⟩) ∧
      ∃ own, (x.run own).pool = a.after ∧ ∀ more,
        ((x.run own).run more).pool.socket? 1 = a.after.socket? 1 ∧
          1 ∉ ((x.run own).run more).liveIds := by
  intro c ping link dialer a here moves x
  have hlent : a.lent = .ok ⟨0, 1⟩ := by cbv
  have hs : a.before.acquire.2.socket? 1 = some { transport := link } := by cbv
  have ha : a ∈ c.trail ping (readResponse c.expectationFor) (Pool.create dialer) := by
    rw [trail_eq c ping (readResponse_steady _)]
    exact List.mem_cons_self
  have hdisposed : (exchange ping (readResponse c.expectationFor) (.new bufferSize c.maxPayload)
      (Pool.Socket.tapped { transport := link })).2.2.disposed = true := by cbv
  have hhandles : x.handles = [⟨0, 1⟩] := by cbv
  have hpool : x.pool = a.before.acquire.2 := by rfl
  have hkept := (sockets_kept_clean c _).1 ping a ha ⟨0, 1⟩ { transport := link } hlent hs
  have hheld : ⟨0, 1⟩ ∈ x.handles := hhandles ▸ List.mem_cons_self
  have hlost := hkept.lost hdisposed dialer {} moves hpool hheld
  obtain ⟨hback, hclosed⟩ := hkept.closed hdisposed
  exact ⟨hlent, hhandles, by cbv, hback, ⟨_, hclosed⟩, hlost⟩

end Client

end LineFrame
