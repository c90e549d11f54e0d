import LineFrame.Client.Exchange
import LineFrame.Proofs.Wire.Feeding
import LineFrame.Proofs.Wire.RoundTrip

/-!
# Reading responses

What a client reads from a transport that is going to give some bytes, in pieces of whatever size
(`Delivers`).  If these are the bytes of responses that survive the wire, they are read back one
after the other, and nothing is read beyond them (`Parses`).
-/

namespace LineFrame

namespace Held

variable {expect : String → Expectation}

theorem scan_append (h : Held) (xs ys : Bytes) :
    h.scan expect (xs ++ ys) =
      match h.scan expect xs with
      | (some found, g, rest) => (some found, g, rest ++ ys)
      | (none, g, _) => g.scan expect ys := by
  induction xs generalizing h with
  | nil => rfl
  | cons b xs ih =>
    rw [List.cons_append, scan, scan]
    split
    · exact ih _
    · rfl

-- A transmissible frame is the first that a fresh reader finds in its bytes.
theorem scan_encode {limit : Nat} (hl : limit < Numeral.bound) {f : Frame}
    (hf : f.Transmissible expect limit) (rest : Bytes) :
    (fresh limit).scan expect (f.encode ++ rest) = (some (.ok f), fresh limit, rest) := by
  have hscan := scan_fresh expect limit (f.encode ++ rest)
  rw [Frame.decode_encode hl hf rest] at hscan
  obtain ⟨hfound, hrest, hheld⟩ := hscan
  exact Prod.ext hfound (Prod.ext (hheld rfl) hrest)

end Held

-- What follows the first frame or error does not matter to it.
theorem Finding.decode_append {expect : String → Expectation} {limit : Nat} {bytes rest : Bytes}
    {found : Finding} (h : decode expect limit bytes = some (found, rest)) (more : Bytes) :
    decode expect limit (bytes ++ more) = some (found, rest ++ more) := by
  have hscan := Held.scan_fresh expect limit bytes
  have hmore := Held.scan_fresh expect limit (bytes ++ more)
  rw [h] at hscan
  obtain ⟨hfound, hrest, -⟩ := hscan
  have hfirst : (Held.fresh limit).scan expect bytes =
      (some found, ((Held.fresh limit).scan expect bytes).2.1, rest) :=
    Prod.ext hfound (Prod.ext rfl hrest)
  rw [Held.scan_append, hfirst] at hmore
  cases hall : decode expect limit (bytes ++ more) with
  | none =>
    rw [hall] at hmore
    cases hmore
  | some x =>
    obtain ⟨found', rest'⟩ := x
    rw [hall] at hmore
    obtain ⟨hsame, hleft, -⟩ := hmore
    cases hsame
    rw [← hleft]

namespace Client

variable {τ : Type} [Transport τ]

/-- While `P t due` holds, the transport is going to give the bytes in `due`: as long as there are
any, a read gives some of them. -/
def Delivers (P : τ → Bytes → Prop) : Prop :=
  ∀ t due n, P t due → due ≠ [] → 0 < n →
    ∃ chunk u more, Transport.read n t = (.ok chunk, u) ∧ chunk ≠ [] ∧ due = chunk ++ more ∧
      P u more

section

variable {P : τ → Bytes → Prop} {expect : String → Expectation}

-- A reader with nothing unread receives the next bytes that are due.
theorem fill_delivers (hP : Delivers P) {r : Reader} {t : τ} {due : Bytes} (ht : P t due)
    (hdue : due ≠ []) (hunread : r.unread = []) (hspace : 0 < r.space) :
    ∃ n s u more, r.fill t = (.ok (n + 1), s, u) ∧ s.held = r.held ∧ due = s.unread ++ more ∧
      s.capacity = r.capacity ∧ P u more := by
  obtain ⟨chunk, u, more, hread, hchunk, hsplit, hu⟩ := hP t due r.space ht hdue hspace
  have hread' : Transport.read ({ r with buffer := r.buffer.compact } : Reader).space t =
      (.ok chunk, u) := hread
  obtain ⟨b, rest, rfl⟩ := List.exists_cons_of_ne_nil hchunk
  have hbuffer : r.buffer.unread = [] := hunread
  refine ⟨rest.length, { r with buffer := r.buffer.compact.commit (b :: rest) }, u, more, ?_, rfl,
    ?_, rfl, hu⟩
  · rw [Reader.fill]
    dsimp only
    rw [hread']
    rfl
  · rw [hsplit]
    show _ = (r.buffer.unread ++ (b :: rest)) ++ more
    rw [hbuffer]
    rfl

-- As long as the frame is not complete, bytes of it are due, and some are received.
theorem fill_incomplete (hP : Delivers P) {r s : Reader} {t : τ} {due rest : Bytes}
    {found : Finding} {g : Held} (hr : r.Ready) (ht : P t due)
    (hscan : r.held.scan expect (r.unread ++ due) = (some found, g, rest))
    (hnone : r.nextFrame expect = (.ok none, s)) :
    ∃ n s' u more, s.fill t = (.ok (n + 1), s', u) ∧ s'.Ready ∧ P u more ∧
      s'.held.scan expect (s'.unread ++ more) = (some found, g, rest) := by
  have hs := Reader.nextFrame_ready hr hnone
  have hunread := Reader.unread_of_nextFrame hnone
  have hspace : 0 < s.space := Reader.space_of_nextFrame hnone ▸ hr.2
  rw [Held.scan_append, Reader.scan_of_nextFrame hr.1 hnone] at hscan
  have hleft : s.held.scan expect due = (some found, g, rest) := hscan
  have hdue : due ≠ [] := by
    rintro rfl
    cases hleft
  obtain ⟨n, s', u, more, hfill, hheld, hsplit, hcapacity, hu⟩ :=
    fill_delivers hP ht hdue hunread hspace
  refine ⟨n, s', u, more, hfill, ⟨hheld ▸ hs.1, hcapacity ▸ hs.2⟩, hu, ?_⟩
  rw [hheld, ← hsplit]
  exact hleft

/-- What a client is told of a frame, or of an error in its place. -/
def told : Finding → Except Error Response
  | .ok frame => .ok (.ofFrame frame)
  | .error e => .error (.frame e)

/-- **A response that is due is read**, or the error in its place, and nothing of what follows it is
lost. -/
theorem readResponse_delivers (hP : Delivers P) {r : Reader} {t : τ} {due rest : Bytes}
    {found : Finding} {g : Held} (hr : r.Ready) (ht : P t due)
    (hscan : r.held.scan expect (r.unread ++ due) = (some found, g, rest)) :
    ∃ s u more, readResponse expect r t = (told found, s, u) ∧ s.Ready ∧ s.held = g ∧
      s.unread ++ more = rest ∧ P u more := by
  fun_induction readResponse expect r t generalizing due with
  | case1 r t e s hf =>
    have hs := Reader.nextFrame_ready hr hf
    rw [Held.scan_append, Reader.scan_of_nextFrame hr.1 hf] at hscan
    cases hscan
    exact ⟨s, t, due, rfl, hs, rfl, rfl, ht⟩
  | case2 r t frame s hf =>
    have hs := Reader.nextFrame_ready hr hf
    rw [Held.scan_append, Reader.scan_of_nextFrame hr.1 hf] at hscan
    cases hscan
    exact ⟨s, t, due, rfl, hs, rfl, rfl, ht⟩
  | case3 r t s hf e s' u hfill =>
    obtain ⟨n, s', u, more, hfill', -⟩ := fill_incomplete hP hr ht hscan hf
    rw [hfill'] at hfill
    cases hfill
  | case4 r t s hf s' u hfill =>
    obtain ⟨n, s', u, more, hfill', -⟩ := fill_incomplete hP hr ht hscan hf
    rw [hfill'] at hfill
    cases hfill
  | case5 r t s hf n s' u hfill ih =>
    obtain ⟨n, s', u, more, hfill', hs', hu, hscan'⟩ := fill_incomplete hP hr ht hscan hf
    rw [hfill'] at hfill
    cases hfill
    exact ih hs' hu hscan'

end

/-! ## The responses of an answer -/

/-- Between two responses: the reader holds nothing, and these bytes are unread or due. -/
structure Between (P : τ → Bytes → Prop) (limit : Nat) (bytes : Bytes) (r : Reader) (t : τ) :
    Prop where
  ready : r.Ready
  held : r.held = .fresh limit
  bytes : ∃ due, r.unread ++ due = bytes ∧ P t due

section

variable {P : τ → Bytes → Prop} {expect : String → Expectation} {limit : Nat}

/-- **What the bytes decode to is read.** -/
theorem readResponse_decodes (hP : Delivers P) {r : Reader} {t : τ} {bytes rest : Bytes}
    {found : Finding} (h : Between P limit bytes r t)
    (hdecode : Finding.decode expect limit bytes = some (found, rest)) :
    ∃ s u, readResponse expect r t = (told found, s, u) ∧
      (found.fatal = false → Between P limit rest s u) := by
  obtain ⟨due, hbytes, ht⟩ := h.bytes
  have hscan := Held.scan_fresh expect limit bytes
  rw [hdecode, ← h.held, ← hbytes] at hscan
  obtain ⟨hfound, hleft, hfresh⟩ := hscan
  obtain ⟨s, u, more, hread, hs, hheld, hrest, hu⟩ :=
    readResponse_delivers hP h.ready ht (Prod.ext hfound rfl)
  refine ⟨s, u, hread, fun hfatal => ⟨hs, hheld.trans (hfresh hfatal), more, ?_, hu⟩⟩
  exact hrest.trans hleft

theorem readResponse_between (hP : Delivers P) (hl : limit < Numeral.bound) {r : Reader} {t : τ}
    {response : Response} (hresponse : response.toFrame.Transmissible expect limit) {rest : Bytes}
    (h : Between P limit (response.encode ++ rest) r t) :
    ∃ s u, readResponse expect r t = (.ok response, s, u) ∧ Between P limit rest s u := by
  obtain ⟨s, u, hread, hrest⟩ :=
    readResponse_decodes hP h (Frame.decode_encode hl hresponse rest)
  exact ⟨s, u, hread, hrest rfl⟩

end

section

variable {P : Pool.Socket τ → Bytes → Prop} {expect : String → Expectation} {limit : Nat}

/-- **All responses up to the terminator are read**, in order. -/
theorem readAll_between (hP : Delivers P) (hl : limit < Numeral.bound) {m : MultiRequest}
    {last : Response} (hlast : last.status = m.terminator) (before : List Response)
    {responses : List Response}
    (hexpected : ∀ response ∈ responses,
      m.expects response.status = true ∧ response.status ≠ m.terminator)
    (htransmissible : ∀ response ∈ responses ++ [last],
      response.toFrame.Transmissible expect limit) {r : Reader} {s : Pool.Socket τ} {rest : Bytes}
    (h : Between P limit ((responses ++ [last]).flatMap Response.encode ++ rest) r s) :
    ∃ r' s', readAll m expect before r s = (.ok (before.reverse ++ (responses ++ [last])), r', s') ∧
      Between P limit rest r' s' := by
  induction responses generalizing before r s with
  | nil =>
    have hfirst := htransmissible last (by simp)
    rw [List.nil_append, List.flatMap_singleton] at h
    obtain ⟨r', s', hread, hrest⟩ := readResponse_between hP hl hfirst h
    refine ⟨r', s', ?_, hrest⟩
    rw [readAll, hread]
    dsimp only
    rw [if_pos hlast, List.reverse_cons]
    rfl
  | cons response responses ih =>
    obtain ⟨⟨hexpect, hnext⟩, hothers⟩ := List.forall_mem_cons.1 hexpected
    have hfirst := htransmissible response (by simp)
    rw [List.cons_append, List.flatMap_cons, List.append_assoc] at h
    obtain ⟨r', s', hread, hrest⟩ := readResponse_between hP hl hfirst h
    obtain ⟨r'', s'', hmore, hend⟩ := ih (response :: before) hothers
      (fun other hother => htransmissible other (List.mem_cons_of_mem _ hother)) hrest
    refine ⟨r'', s'', ?_, hend⟩
    rw [readAll, hread]
    dsimp only
    rw [if_neg hnext, if_pos hexpect, hmore, List.reverse_cons, List.append_assoc]
    rfl

end

/-- However these bytes arrive, this is what is read from them, and nothing of them is left. -/
def Parses {α : Type} (read : Reading τ α) (limit : Nat) (bytes : Bytes) (answer : α) : Prop :=
  ∀ P, Delivers P → ∀ r s, Between P limit bytes r s →
    ∃ r' s', read r s = (.ok answer, r', s') ∧ Between P limit [] r' s'

section

variable {expect : String → Expectation} {limit : Nat} (hl : limit < Numeral.bound)

include hl

theorem readResponse_parses {response : Response}
    (hresponse : response.toFrame.Transmissible expect limit) :
    Parses (readResponse expect : Reading τ Response) limit response.encode response := by
  intro P hP r s h
  rw [← List.append_nil response.encode] at h
  exact readResponse_between hP hl hresponse h

theorem readAll_parses {m : MultiRequest} {responses : List Response} {last : Response}
    (hlast : last.status = m.terminator) (hexpected : ∀ response ∈ responses,
      m.expects response.status = true ∧ response.status ≠ m.terminator)
    (htransmissible : ∀ response ∈ responses ++ [last],
      response.toFrame.Transmissible expect limit) :
    Parses (readAll m expect [] : Reading τ (List Response)) limit
      ((responses ++ [last]).flatMap Response.encode) (responses ++ [last]) := by
  intro P hP r s h
  rw [← List.append_nil ((responses ++ [last]).flatMap Response.encode)] at h
  exact readAll_between hP hl hlast [] hexpected htransmissible h

end

-- An exchange that leaves nothing unread leaves the socket as it is.
theorem exchange_of_read {α : Type} {request : Request} {read : Reading τ α} {r r' : Reader}
    {s t u : Pool.Socket τ} {answer : α} (hsend : Transport.send request.encode s = (.ok (), t))
    (hread : read r.reset t = (.ok answer, r', u)) (hunread : r'.unread = []) :
    exchange request read r s = (.ok answer, r', u) := by
  have hempty : r'.hasUnread = false := by rw [Reader.hasUnread, hunread]; rfl
  rw [exchange, hsend]
  dsimp only
  rw [hread]
  dsimp only
  rw [hempty, if_neg Bool.false_ne_true]

end Client

end LineFrame
