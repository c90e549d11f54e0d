import Mathlib
import LineFrame.Pool.Dialer
import LineFrame.Proofs.Client.Readings
import LineFrame.Proofs.Client.Reconnect
import LineFrame.Proofs.Client.Responses

/-!
# Collecting responses

A call that is answered by several responses goes on while these are expected, and ends at the first
frame or error that is not (`MultiRequest.stop?`): with all of them if that is the terminator's, with
this one alone if it is another frame, and with an error otherwise (`MultiRequest.collect`).  In
which pieces the reply arrives does not matter (`collects_until_stop`).
-/

namespace LineFrame

/-! ## Replies -/

def Response.found (response : Response) : Finding := .ok response.toFrame

def Finding.response? : Finding → Option Response
  | .ok frame => some (.ofFrame frame)
  | .error _ => none

theorem filterMap_found (responses : List Response) :
    (responses.map Response.found).filterMap Finding.response? = responses := by
  rw [List.filterMap_map]
  exact List.filterMap_some

namespace MultiRequest

variable (m : MultiRequest)

/-- Whether a call goes on after this. -/
def goesOn : Finding → Bool
  | .ok frame => m.expects frame.name && frame.name != m.terminator
  | .error _ => false

/-- What ends the call, of all that is found in a reply. -/
def stop? (found : List Finding) : Option Finding := found.find? (! m.goesOn ·)

/-- What a call returns when this is found in its reply, and the peer closes after it. -/
def collect (found : List Finding) : Except Client.Error (List Response) :=
  match m.stop? found with
  | none => .error .closed
  | some (.error e) => .error (.frame e)
  | some (.ok last) =>
    if last.name = m.terminator then
      .ok ((found.takeWhile m.goesOn).filterMap Finding.response? ++ [.ofFrame last])
    else .ok [.ofFrame last]

theorem goesOn_found_iff (response : Response) : m.goesOn response.found = true ↔
    m.expects response.status = true ∧ response.status ≠ m.terminator := by
  simp [goesOn, Response.found, Response.toFrame]

section

variable {m} {before : List Response} (hbefore : ∀ r ∈ before, m.goesOn r.found = true)

include hbefore

theorem stop?_append (found : List Finding) :
    m.stop? (before.map Response.found ++ found) = m.stop? found := by
  rw [stop?, List.find?_append, List.find?_eq_none.2, Option.none_or]
  · rfl
  · simpa using hbefore

theorem stop?_append_cons {f : Finding} (hf : m.goesOn f = false) (after : List Finding) :
    m.stop? (before.map Response.found ++ f :: after) = some f := by
  rw [stop?_append hbefore, stop?, List.find?_cons, hf]
  rfl

theorem collect_closed : m.collect (before.map Response.found) = .error .closed := by
  have hstop := stop?_append hbefore []
  rw [List.append_nil] at hstop
  rw [collect, hstop]
  rfl

theorem collect_error (e : FrameError) (after : List Finding) :
    m.collect (before.map Response.found ++ .error e :: after) = .error (.frame e) := by
  rw [collect, stop?_append_cons hbefore rfl]

theorem collect_complete {last : Response} (hlast : last.status = m.terminator)
    (after : List Finding) :
    m.collect (before.map Response.found ++ last.found :: after) = .ok (before ++ [last]) := by
  have hstop : m.goesOn last.found = false := by
    rw [Bool.eq_false_iff, Ne, goesOn_found_iff]
    exact fun hgoes => hgoes.2 hlast
  have hpassed : (before.map Response.found ++ last.found :: after).takeWhile m.goesOn =
      before.map Response.found := by
    rw [List.takeWhile_append_of_pos (by simpa using hbefore),
      List.takeWhile_cons_of_neg (by rw [hstop]; exact Bool.false_ne_true), List.append_nil]
  rw [collect, stop?_append_cons hbefore hstop, hpassed, filterMap_found]
  exact if_pos hlast

theorem collect_unexpected {last : Response} (hlast : last.status ≠ m.terminator)
    (hunexpected : ¬ m.expects last.status = true) (after : List Finding) :
    m.collect (before.map Response.found ++ last.found :: after) = .ok [last] := by
  have hstop : m.goesOn last.found = false := by
    rw [Bool.eq_false_iff, Ne, goesOn_found_iff]
    exact fun hgoes => hunexpected hgoes.1
  rw [collect, stop?_append_cons hbefore hstop]
  exact if_neg hlast

end

end MultiRequest

namespace Client

variable {κ τ : Type} [Transport τ]

/-! ## Replies that end -/

/-- When nothing is due any more, the peer closes. -/
def Ends (P : τ → Bytes → Prop) : Prop :=
  ∀ t n, P t [] → 0 < n → ∃ u, Transport.read n t = (.ok [], u)

section

variable {P : τ → Bytes → Prop} {expect : String → Expectation} {limit : Nat}

-- While some bytes are due, they are received; then the peer closes.
theorem fill_ends (hP : Delivers P) (hend : Ends P) {r s : Reader} {t u : τ} {due : Bytes}
    {found : Except IoError Nat} (ht : P t due) (hunread : r.unread = []) (hspace : 0 < r.space)
    (hfill : r.fill t = (found, s, u)) :
    found = .ok 0 ∨ ∃ n more, found = .ok (n + 1) ∧ s.held = r.held ∧ due = s.unread ++ more ∧
      s.capacity = r.capacity ∧ P u more := by
  by_cases hdue : due = []
  · rw [hdue] at ht
    obtain ⟨v, hread⟩ := hend t r.space ht hspace
    rw [Reader.fill_of_ok hread] at hfill
    cases hfill
    exact .inl rfl
  · obtain ⟨n, s', u', more, hfill', hheld, hsplit, hcapacity, hu⟩ :=
      fill_delivers hP ht hdue hunread hspace
    rw [hfill'] at hfill
    cases hfill
    exact .inr ⟨n, more, rfl, hheld, hsplit, hcapacity, hu⟩

/-- **A response that is never completed is missed.** -/
theorem readResponse_ends (hP : Delivers P) (hend : Ends P) {r : Reader} {t : τ} {due : Bytes}
    (hr : r.Ready) (ht : P t due) (hscan : (r.held.scan expect (r.unread ++ due)).1 = none) :
    (readResponse expect r t).1 = .error .closed := by
  fun_induction readResponse expect r t generalizing due with
  | case1 r t e s hf =>
    rw [Held.scan_append, Reader.scan_of_nextFrame hr.1 hf] at hscan
    cases hscan
  | case2 r t frame s hf =>
    rw [Held.scan_append, Reader.scan_of_nextFrame hr.1 hf] at hscan
    cases hscan
  | case3 r t s hf e s' u hfill =>
    have hunread := Reader.unread_of_nextFrame hf
    have hspace : 0 < s.space := Reader.space_of_nextFrame hf ▸ hr.2
    rcases fill_ends hP hend ht hunread hspace hfill with hnone | ⟨n, more, hsome, -⟩
    · cases hnone
    · cases hsome
  | case4 r t s hf s' u hfill => rfl
  | case5 r t s hf n s' u hfill ih =>
    have hs := Reader.nextFrame_ready hr hf
    have hunread := Reader.unread_of_nextFrame hf
    have hspace : 0 < s.space := Reader.space_of_nextFrame hf ▸ hr.2
    rw [Held.scan_append, Reader.scan_of_nextFrame hr.1 hf] at hscan
    rcases fill_ends hP hend ht hunread hspace hfill with
      hnone | ⟨n, more, -, hheld, hsplit, hcapacity, hu⟩
    · cases hnone
    · apply ih ⟨hheld ▸ hs.1, hcapacity ▸ hs.2⟩ hu
      rw [hheld, ← hsplit]
      exact hscan

theorem readResponse_missing (hP : Delivers P) (hend : Ends P) {r : Reader} {t : τ}
    {bytes : Bytes} (h : Between P limit bytes r t)
    (hdecode : Finding.decode expect limit bytes = none) :
    (readResponse expect r t).1 = .error .closed := by
  obtain ⟨due, hbytes, ht⟩ := h.bytes
  have hscan := Held.scan_fresh expect limit bytes
  rw [hdecode, ← h.held, ← hbytes] at hscan
  exact readResponse_ends hP hend h.ready ht hscan

end

/-! ## All responses -/

section

variable {P : Pool.Socket τ → Bytes → Prop} {expect : String → Expectation} {limit : Nat}
  {m : MultiRequest}

/-- **The responses are read up to where the call ends.** -/
theorem readAll_collects (hP : Delivers P) {before : List Response}
    (hbefore : ∀ r ∈ before, m.goesOn r.found = true) {r : Reader} {s : Pool.Socket τ}
    {bytes : Bytes} (h : Between P limit bytes r s)
    (hend : m.stop? (Finding.decodeAll expect limit bytes) = none → Ends P) :
    (readAll m expect before r s).1 =
      m.collect (before.reverse.map Response.found ++ Finding.decodeAll expect limit bytes) := by
  have hearlier : ∀ r ∈ before.reverse, m.goesOn r.found = true := by
    simpa using hbefore
  fun_induction Finding.decodeAll expect limit bytes generalizing before r s with
  | case1 bytes hnone =>
    have hread := readResponse_missing hP (hend rfl) h hnone
    rw [List.append_nil, MultiRequest.collect_closed hearlier, readAll]
    split
    · next hresponse =>
      rw [hresponse] at hread
      cases hread
      rfl
    · next hresponse =>
      rw [hresponse] at hread
      cases hread
  | case2 bytes found rest hsome hfatal =>
    cases found with
    | ok frame => cases hfatal
    | error e =>
      obtain ⟨s', u, hread, -⟩ := readResponse_decodes hP h hsome
      rw [MultiRequest.collect_error hearlier, readAll, hread]
      rfl
  | case3 bytes found rest hsome hfatal ih =>
    obtain ⟨r', s', hread, hnext⟩ := readResponse_decodes hP h hsome
    cases found with
    | error e =>
      rw [MultiRequest.collect_error hearlier, readAll, hread]
      rfl
    | ok frame =>
      let response : Response := .ofFrame frame
      have hread : readResponse expect r s = (.ok response, r', s') := hread
      show _ = m.collect (_ ++ response.found :: _)
      rw [readAll, hread]
      dsimp only
      by_cases hlast : response.status = m.terminator
      · rw [if_pos hlast, MultiRequest.collect_complete hearlier hlast, List.reverse_cons]
      · by_cases hexpected : m.expects response.status = true
        · have hgoes : m.goesOn response.found = true :=
            (m.goesOn_found_iff response).2 ⟨hexpected, hlast⟩
          have hall : ∀ r ∈ response :: before, m.goesOn r.found = true :=
            List.forall_mem_cons.2 ⟨hgoes, hbefore⟩
          have hstop : m.stop? (response.found :: Finding.decodeAll expect limit rest) =
              m.stop? (Finding.decodeAll expect limit rest) := by
            rw [MultiRequest.stop?, List.find?_cons, hgoes]
            rfl
          rw [if_neg hlast, if_pos hexpected,
            ih hall (hnext rfl) (fun hnone => hend (hstop.trans hnone))
              (fun r hr => hall r (List.mem_reverse.1 hr)),
            List.reverse_cons, List.map_append, List.append_assoc]
          rfl
        · rw [if_neg hlast, if_neg hexpected,
            MultiRequest.collect_unexpected hearlier hlast hexpected]

-- A call that returns something else than its responses disposes of the socket.
theorem readAll_disposes {before : List Response} {r : Reader} {s : Pool.Socket τ}
    {last : Response} (hlast : last.status ≠ m.terminator)
    (h : (readAll m expect before r s).1 = .ok [last]) :
    (readAll m expect before r s).2.2.disposed = true := by
  fun_induction readAll m expect before r s with
  | case1 => cases h
  | case2 before r s response r₁ s₁ hread hstatus =>
    have hsame : (response :: before).reverse = [last] := Except.ok.inj h
    rw [List.reverse_cons] at hsame
    have hresponse : response = last := by simpa using congrArg List.getLast? hsame
    rw [hresponse] at hstatus
    exact absurd hstatus hlast
  | case3 before r s response r₁ s₁ hread hstatus hexpected ih => exact ih h
  | case4 => rfl

end

theorem exchange_of_disposes {α : Type} {request : Request} {read : Reading τ α} {r : Reader}
    {s t : Pool.Socket τ} (hsend : Transport.send request.encode s = (.ok (), t))
    (hdisposes : (read r.reset t).2.2.disposed = true) :
    (exchange request read r s).2.2.disposed = true := by
  rw [exchange, hsend]
  dsimp only
  split
  · rfl
  · next hread =>
    rw [hread] at hdisposes
    dsimp only
    split
    · rfl
    · exact hdisposes

-- Unless the peer closed, there is no other attempt.
theorem retries_collect (c : Client) {m : MultiRequest} {found : List Finding}
    (h : m.stop? found ≠ none) : c.retries true (m.collect found) = false := by
  rw [MultiRequest.collect]
  cases hstop : m.stop? found with
  | none => exact absurd hstop h
  | some f =>
    cases f with
    | error e => simp [retries, Error.isConnectionLevel]
    | ok last =>
      dsimp only
      split <;> rfl

/-! ## Calls -/

section

variable [Connector κ τ]

/-- **A call that collects responses ends at the first that is not among the expected ones.**  In
whatever pieces the reply to an attempt comes, the attempt goes on while the frames that the reply
decodes to are expected and not the terminator's.  If what comes next is the terminator's frame, it
returns all frames up to it, in order; if it is another frame, it returns this one alone, and its
socket comes back closed; if it is an error, it fails with this; and if nothing comes, since the peer
closes before, it fails for that.  Unless the peer closed before, this is what becomes of the
call. -/
theorem collects_until_stop (c : Client) (m : MultiRequest) (p : Pool κ τ)
    {P : Pool.Socket τ → Bytes → Prop} (hP : Delivers P) {a : Attempt κ τ (List Response)}
    (ha : a ∈ c.trail m.request (readAll m c.expectationFor []) p) {h : Pool.Handle}
    (hlent : a.lent = .ok h) {s t : Pool.Socket τ}
    (hs : a.before.acquire.2.socket? h.socket = some s)
    (hsend : Transport.send m.request.encode s = (.ok (), t)) {reply : Bytes} (hreply : P t reply)
    (hend : m.stop? (Finding.decodeAll c.expectationFor c.maxPayload reply) = none → Ends P) :
    let found := Finding.decodeAll c.expectationFor c.maxPayload reply
    a.answer = m.collect found ∧
      (∀ last, m.stop? found = some (.ok last) → last.name ≠ m.terminator →
        GivenBack h a.after) ∧
      (m.stop? found ≠ none → c.execMulti m p = (a.answer, a.after)) := by
  intro found
  let r : Reader := .new bufferSize c.maxPayload
  have hsteady : Steady (readAll m c.expectationFor [] : Reading τ (List Response)) :=
    readAll_steady m _
  have hready : Between P c.maxPayload reply r.reset t := {
    ready := ⟨r.reset_sound, show 0 < max bufferSize 1 by decide⟩
    held := rfl
    bytes := ⟨reply, rfl, hreply⟩ }
  have hread : (readAll m c.expectationFor [] r.reset t).1 = m.collect found :=
    readAll_collects hP (List.forall_mem_nil _) hready hend
  have hmade : a.answer = (exchange m.request (readAll m c.expectationFor []) r s).1 ∧
      a.after = (a.before.acquire.2.update h.socket fun _ =>
        (exchange m.request (readAll m c.expectationFor []) r s).2.2).reclaim h := by
    obtain ⟨q, rfl⟩ := mem_trail c hsteady ha
    exact make_lent hlent hs
  have hanswer : a.answer = m.collect found := by
    rw [hmade.1, exchange_answer hsend, hread]
  refine ⟨hanswer, fun last hstop hlast => ?_, fun hstop => ?_⟩
  · have halone : m.collect found = .ok [.ofFrame last] := by
      rw [MultiRequest.collect, hstop]
      exact if_neg hlast
    rw [hmade.2]
    apply update_givenBack hs
    apply exchange_of_disposes hsend
    exact readAll_disposes hlast (hread.trans halone)
  · apply run_of_settled c hsteady ha
    rw [hanswer]
    exact c.retries_collect hstop

end

/-! ## Scripted replies -/

/-- These bytes are ahead of the socket, in some pieces, and then its peer closes. -/
structure Brings (s : Pool.Socket Link) (bytes : Bytes) : Prop where
  live : s.disposed = false
  undisturbed : s.transport.Undisturbed
  ahead : s.transport.ahead = (bytes, none)

theorem read_brings {s : Pool.Socket Link} {bytes : Bytes} (h : Brings s bytes) {n : Nat}
    (hn : 0 < n) :
    (bytes = [] ∧ ∃ u, Transport.read n s = (.ok [], u)) ∨
      ∃ chunk u more, Transport.read n s = (.ok chunk, u) ∧ chunk ≠ [] ∧ bytes = chunk ++ more ∧
        Brings u more := by
  rcases hread : Transport.read n s.transport with ⟨found, l⟩
  have hsocket : Transport.read n s = _ := Pool.Socket.run_of_live h.live hread
  obtain ⟨hfound, -⟩ := Link.read_found hn hread
  have hkept := Link.read_undisturbed n s.transport h.undisturbed
  rw [show s.transport.read n = (found, l) from hread] at hkept
  cases found with
  | error e =>
    obtain ⟨hplain, -, hahead⟩ := hfound
    rw [h.ahead] at hahead
    split at hahead
    · next hinterrupted =>
      refine absurd ?_ (hkept.2 e rfl)
      rw [hplain] at hinterrupted ⊢
      exact congrArg IoError.plain (of_decide_eq_true hinterrupted)
    · cases hahead
  | ok chunk =>
    cases chunk with
    | nil =>
      have hnone := h.ahead.symm.trans hfound.1
      exact .inl ⟨congrArg Prod.fst hnone, _, hsocket⟩
    | cons b chunk =>
      have hsome := h.ahead.symm.trans hfound.1
      refine .inr ⟨b :: chunk, _, l.ahead.1, hsocket, List.cons_ne_nil _ _,
        congrArg Prod.fst hsome, rfl, hkept.1, ?_⟩
      exact Prod.ext rfl (congrArg Prod.snd hsome).symm

theorem brings_delivers : Delivers Brings := by
  intro s bytes n h hbytes hn
  exact (read_brings h hn).resolve_left fun hnone => hbytes hnone.1

theorem brings_ends : Ends Brings := by
  intro s n h hn
  rcases read_brings h hn with ⟨-, hend⟩ | ⟨chunk, u, more, -, hchunk, hnil, -⟩
  · exact hend
  · exact absurd (List.append_eq_nil_iff.1 hnil.symm).1 hchunk

/-- A payload that is itself a terminator's line comes in two pieces, and then a frame that is not
expected.  The call returns this frame, and its socket is closed. -/
theorem collects_until_stop_of_unexpected :
    let c : Client := {}
    let m : MultiRequest := ⟨{ command := "LIST" }, ["ITEM"], "END"⟩
    let link : Link := { arrivals :=
      [.bytes (Text.encode "ITEM 5\r\nEN"), .pending, .bytes (Text.encode "D\r\n\r\nGONE\r"),
        .bytes (Text.encode "\nEND\r\n")] }
    let dialer : Pool.Dialer := { endpoint := "mock:0", otherwise := .link link }
    let a := c.opening m.request (readAll m c.expectationFor []) (Pool.create dialer)
    a.lent = .ok ⟨0, 1⟩ ∧ a.answer = .ok [{ status := "GONE" }] ∧ GivenBack ⟨0, 1⟩ a.after ∧
      c.execMulti m (Pool.create dialer) = (a.answer, a.after) := by
  intro c m link dialer a
  have hlent : a.lent = .ok ⟨0, 1⟩ := by cbv
  have hs : a.before.acquire.2.socket? 1 = some { transport := link } := by cbv
  have ha : a ∈ c.trail m.request (readAll m c.expectationFor []) (Pool.create dialer) := by
    rw [trail_eq c m.request (readAll_steady m _)]
    exact List.mem_cons_self
  let t : Pool.Socket Link := ⟨{ link with sent := (Text.encode "LIST\r\n").reverse }, false⟩
  have hsend : Transport.send m.request.encode ({ transport := link } : Pool.Socket Link) =
      (.ok (), t) := by cbv
  let reply := Text.encode "ITEM 5\r\nEND\r\n\r\nGONE\r\nEND\r\n"
  have hreply : Brings t reply := ⟨rfl, by simp [Link.Undisturbed, t, link], by decide +kernel⟩
  have hfound : Finding.decodeAll c.expectationFor c.maxPayload reply =
      [.ok ⟨"ITEM", [], some (Text.encode "END\r\n")⟩, .ok ⟨"GONE", [], none⟩,
        .ok ⟨"END", [], none⟩] := by decide +kernel
  obtain ⟨hanswer, hback, hcall⟩ := collects_until_stop c m _ brings_delivers ha hlent hs hsend
    hreply fun _ => brings_ends
  rw [hfound] at hanswer hback hcall
  exact ⟨hlent, hanswer, hback ⟨"GONE", [], none⟩ rfl (by decide), hcall (Option.some_ne_none _)⟩

end Client

end LineFrame
