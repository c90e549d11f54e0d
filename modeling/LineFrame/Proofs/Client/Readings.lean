import LineFrame.Proofs.Client.Wiretap
import LineFrame.Proofs.Pool.Custody
import LineFrame.Proofs.Transport.Interrupts
import LineFrame.Proofs.Wire.Feeding

/-!
# Sockets that an answer is read from

What reads keep of a transport is kept while an answer is read from it (`Keeps`); what was written
to a link is an example.  When an interrupt comes before an answer is complete, reading it ends with
the interrupt just where it would end without one if the peer closed (`readResponse_interrupted`).
-/

namespace LineFrame

/-! ## Sockets of links -/

namespace Pool

namespace Socket

variable {s s' : Socket Link} {bs : Bytes}

theorem write_written {found : Except IoError Nat} (h : Transport.write bs s = (found, s')) :
    s'.transport.written = s.transport.written ++ Wiretap.taken bs found := by
  rcases run_cases h with ⟨-, rfl, rfl⟩ | ⟨-, hwrite, -⟩
  · exact (List.append_nil _).symm
  · cases found with
    | ok n => exact (Link.write_ok hwrite).1.written
    | error e => exact (Link.write_error hwrite).1.written

theorem send_written (h : Transport.send bs s = (.ok (), s')) :
    s'.transport.written = s.transport.written ++ bs := by
  rw [Transport.send] at h
  split at h
  · next t hwrite =>
    rcases run_cases h with ⟨-, hd, -⟩ | ⟨-, hflush, -⟩
    · cases hd
    · have hsame : s'.transport = t.transport := Link.flush_ok hflush
      rw [hsame]
      exact Wiretap.writeAll_appends write_written hwrite
  · cases h

-- Sending does not look at what is still to come.
theorem send_arrivals {found : Except IoError Unit} (h : Transport.send bs s = (found, s')) :
    s'.transport.arrivals = s.transport.arrivals := by
  have hview := sendsThrough_map (Link.sendsThrough_arrivals fun _ => s.transport.arrivals)
  have hsame := Transport.send_through hview h
  have hself : (s.map fun l => { l with arrivals := s.transport.arrivals }) = s := rfl
  rw [hself, h] at hsame
  exact congrArg (·.2.transport.arrivals) hsame

end Socket

/-- The bytes that were written to a socket. -/
def writtenOn {κ : Type} (p : Pool κ Link) (id : Nat) : Option Bytes :=
  (p.socket? id).map (·.transport.written)

-- Closing sockets writes nothing.
theorem writtenOn_reclaim {κ : Type} (p : Pool κ Link) (h : Handle) (id : Nat) :
    (p.reclaim h).writtenOn id = p.writtenOn id := by
  have hclose (q : Pool κ Link) (i : Nat) : (q.close i).writtenOn id = q.writtenOn id := by
    show ((q.update i Socket.close).socket? id).map _ = _
    rw [socket?_update, writtenOn]
    split
    · cases q.socket? id <;> rfl
    · rfl
  have hfold (ids : List Nat) (q : Pool κ Link) :
      (ids.foldl close q).writtenOn id = q.writtenOn id := by
    induction ids generalizing q with
    | nil => rfl
    | cons i ids ih => exact (ih (q.close i)).trans (hclose q i)
  exact hfold _ _

end Pool

namespace Client

variable {τ α : Type}

/-! ## What reading keeps -/

section

variable [Transport τ] {but : IoError → Prop} {inv : τ → Prop}
  {expect : String → Expectation}

theorem readResponse_keeps
    (hinv : ∀ {n t found u}, inv t → Transport.read n t = (found, u) →
      inv u ∧ ∀ e, found = .error e → ¬ but e)
    {r r' : Reader} {t u : τ} {found : Except Error Response} (ht : inv t)
    (h : readResponse expect r t = (found, r', u)) : inv u ∧ Spared but found := by
  fun_induction readResponse expect r t with
  | case1 r t e s hf =>
    cases h
    exact ⟨ht, by rintro e ⟨⟩⟩
  | case2 r t frame s hf =>
    cases h
    exact ⟨ht, by rintro e ⟨⟩⟩
  | case3 r t s hf e s' v hfill =>
    cases h
    obtain ⟨hread, -⟩ := Reader.fill_error hfill
    obtain ⟨hu, hspared⟩ := hinv ht hread
    exact ⟨hu, fun e' he => hspared e' (by cases he; rfl)⟩
  | case4 r t s hf s' v hfill =>
    cases h
    obtain ⟨chunk, hread, -⟩ := Reader.fill_ok hfill
    exact ⟨(hinv ht hread).1, by rintro e ⟨⟩⟩
  | case5 r t s hf n s' v hfill ih =>
    obtain ⟨chunk, hread, -⟩ := Reader.fill_ok hfill
    exact ih (hinv ht hread).1 h

/-- The reading keeps an invariant of the transport, and then does not end with one of these errors
of it. -/
def Keeps (but : IoError → Prop) (inv : τ → Prop) (read : Reading τ α) : Prop :=
  ∀ r s, inv s.transport → inv (read r s).2.2.transport ∧ Spared but (read r s).1

variable (hinv : ∀ n t, inv t → inv (Transport.read n t).2 ∧
  ∀ e, (Transport.read n t).1 = .error e → ¬ but e) (hbut : ¬ but .disposed)

include hinv hbut

theorem socket_keeps {n : Nat} {s s' : Pool.Socket τ} {found : Except IoError Bytes}
    (hs : inv s.transport) (h : Transport.read n s = (found, s')) :
    inv s'.transport ∧ ∀ e, found = .error e → ¬ but e := by
  rcases Pool.Socket.run_cases h with ⟨-, rfl, rfl⟩ | ⟨-, hread, -⟩
  · refine ⟨hs, fun e he => ?_⟩
    cases he
    exact hbut
  · have hkept := hinv n s.transport hs
    rw [hread] at hkept
    exact hkept

theorem readResponse_keeping : Keeps but inv (readResponse expect) :=
  fun _ _ hs => readResponse_keeps (socket_keeps hinv hbut) hs rfl

theorem readAll_keeping (m : MultiRequest) (before : List Response) :
    Keeps but inv (readAll m expect before) := by
  intro r s hs
  have hread : Keeps but inv (readResponse expect) := readResponse_keeping hinv hbut
  fun_induction readAll m expect before r s with
  | case1 before r s e r₁ s₁ hresponse =>
    obtain ⟨hkept, hspared⟩ := hread r s hs
    rw [hresponse] at hkept hspared
    exact ⟨hkept, fun e' he => hspared e' (by cases he; rfl)⟩
  | case2 before r s response r₁ s₁ hresponse hlast =>
    have hkept := (hread r s hs).1
    rw [hresponse] at hkept
    exact ⟨hkept, by rintro e ⟨⟩⟩
  | case3 before r s response r₁ s₁ hresponse hlast hexpected ih =>
    have hkept := (hread r s hs).1
    rw [hresponse] at hkept
    exact ih hkept
  | case4 before r s response r₁ s₁ hresponse hlast hexpected =>
    have hkept := (hread r s hs).1
    rw [hresponse] at hkept
    exact ⟨hkept, by rintro e ⟨⟩⟩

omit hinv hbut

theorem exchange_answer {request : Request} {read : Reading τ α} {r : Reader}
    {s t : Pool.Socket τ} (hsend : Transport.send request.encode s = (.ok (), t)) :
    (exchange request read r s).1 = (read r.reset t).1 := by
  rw [exchange, hsend]
  dsimp only
  split <;> next hr => rw [hr]

theorem exchange_keeps {request : Request} {read : Reading τ α} (hread : Keeps but inv read)
    {r : Reader} {s t : Pool.Socket τ} (hsend : Transport.send request.encode s = (.ok (), t))
    (ht : inv t.transport) :
    inv (exchange request read r s).2.2.transport ∧ Spared but (exchange request read r s).1 := by
  obtain ⟨hkept, hspared⟩ := hread r.reset t ht
  rw [exchange, hsend]
  dsimp only
  split
  · next hr =>
    rw [hr] at hkept hspared
    exact ⟨hkept, hspared⟩
  · next hr =>
    rw [hr] at hkept hspared
    refine ⟨?_, hspared⟩
    split <;> exact hkept

end

/-! ## Where a reading is interrupted -/

section

variable (later : List Arrival) {expect : String → Expectation} {r r' : Reader}
  {s s' : Pool.Socket Link}

theorem read_interrupted {n : Nat} (hn : 0 < n) {found : Except IoError Bytes}
    (hs : s.transport.Unclosed) (h : Transport.read n s = (found, s')) :
    (found = .ok [] →
        (Transport.read n (s.map (Link.interrupted later))).1 = .error .interruption) ∧
      (found ≠ .ok [] →
        Transport.read n (s.map (Link.interrupted later)) =
            (found, s'.map (Link.interrupted later)) ∧ s'.transport.Unclosed) := by
  rcases Pool.Socket.run_cases h with ⟨hdisposed, rfl, rfl⟩ | ⟨hlive, hread, hspoils⟩
  · exact ⟨nofun, fun _ => ⟨if_pos hdisposed, hs⟩⟩
  · obtain ⟨hend, hgoes⟩ := Link.read_interrupted hn later hs
    have hfound : s.transport.read n = (found, s'.transport) := hread
    rw [hfound] at hend hgoes
    constructor
    · intro hnil
      have hcut : Transport.read n (s.map (Link.interrupted later)) =
          (.error .interruption, _) := Pool.Socket.run_of_live hlive (Prod.ext (hend hnil) rfl)
      rw [hcut]
    · intro hne
      have hcut : Transport.read n (s.map (Link.interrupted later)) =
          (found, ⟨s'.transport.interrupted later, Pool.Socket.spoils found⟩) :=
        Pool.Socket.run_of_live hlive (hgoes hne).1
      rw [hcut, Pool.Socket.map, hspoils]
      exact ⟨rfl, (hgoes hne).2⟩

theorem fill_interrupted (hspace : 0 < r.space) {found : Except IoError Nat}
    (hs : s.transport.Unclosed) (h : r.fill s = (found, r', s')) :
    (found = .ok 0 → (r.fill (s.map (Link.interrupted later))).1 = .error .interruption) ∧
      (found ≠ .ok 0 →
        r.fill (s.map (Link.interrupted later)) =
            (found, r', s'.map (Link.interrupted later)) ∧ s'.transport.Unclosed) := by
  cases found with
  | ok n =>
    obtain ⟨chunk, hread, rfl, rfl⟩ := Reader.fill_ok h
    obtain ⟨hend, hgoes⟩ := read_interrupted later hspace hs hread
    constructor
    · intro hnone
      have hchunk : chunk = [] := List.eq_nil_of_length_eq_zero (Except.ok.inj hnone)
      have hcut := Reader.fill_of_error (Prod.ext (hend (congrArg _ hchunk)) rfl)
      rw [hcut]
    · intro hsome
      obtain ⟨hcut, hunclosed⟩ := hgoes fun hnil => hsome (by cases hnil; rfl)
      exact ⟨Reader.fill_of_ok hcut, hunclosed⟩
  | error e =>
    obtain ⟨hread, rfl⟩ := Reader.fill_error h
    obtain ⟨-, hgoes⟩ := read_interrupted later hspace hs hread
    obtain ⟨hcut, hunclosed⟩ := hgoes nofun
    exact ⟨nofun, fun _ => ⟨Reader.fill_of_error hcut, hunclosed⟩⟩

theorem readResponse_interrupted {found : Except Error Response} (hr : r.Ready)
    (hs : s.transport.Unclosed) (h : readResponse expect r s = (found, r', s')) :
    (found = .error .closed →
        (readResponse expect r (s.map (Link.interrupted later))).1 =
          .error (.io .interruption)) ∧
      (found ≠ .error .closed →
        readResponse expect r (s.map (Link.interrupted later)) =
            (found, r', s'.map (Link.interrupted later)) ∧ r'.Ready ∧ s'.transport.Unclosed) := by
  fun_induction readResponse expect r s with
  | case1 r s e t hf =>
    cases h
    rw [readResponse, hf]
    exact ⟨by rintro ⟨⟩, fun _ => ⟨rfl, Reader.nextFrame_ready hr hf, hs⟩⟩
  | case2 r s frame t hf =>
    cases h
    rw [readResponse, hf]
    exact ⟨by rintro ⟨⟩, fun _ => ⟨rfl, Reader.nextFrame_ready hr hf, hs⟩⟩
  | case3 r s t hf e t' u hfill =>
    cases h
    have hspace : 0 < t.space := Reader.space_of_nextFrame hf ▸ hr.2
    have ht := Reader.nextFrame_ready hr hf
    obtain ⟨hcut, hunclosed⟩ := (fill_interrupted later hspace hs hfill).2 (by rintro ⟨⟩)
    obtain ⟨-, rfl⟩ := Reader.fill_error hfill
    rw [readResponse, hf]
    dsimp only
    rw [hcut]
    exact ⟨by rintro ⟨⟩, fun _ => ⟨rfl, ht, hunclosed⟩⟩
  | case4 r s t hf t' u hfill =>
    cases h
    have hspace : 0 < t.space := Reader.space_of_nextFrame hf ▸ hr.2
    have hcut := (fill_interrupted later hspace hs hfill).1 rfl
    refine ⟨fun _ => ?_, fun hne => absurd rfl hne⟩
    rw [readResponse, hf]
    dsimp only
    rcases hmet : t.fill (s.map (Link.interrupted later)) with ⟨found, v⟩
    rw [hmet] at hcut
    cases hcut
    rfl
  | case5 r s t hf n t' u hfill ih =>
    have hspace : 0 < t.space := Reader.space_of_nextFrame hf ▸ hr.2
    have ht := Reader.nextFrame_ready hr hf
    obtain ⟨hcut, hunclosed⟩ := (fill_interrupted later hspace hs hfill).2 (by rintro ⟨⟩)
    obtain ⟨chunk, -, -, rfl⟩ := Reader.fill_ok hfill
    rw [readResponse, hf]
    dsimp only
    rw [hcut]
    exact ih ht hunclosed h

theorem readAll_interrupted {m : MultiRequest} {before : List Response}
    {found : Except Error (List Response)} (hr : r.Ready) (hs : s.transport.Unclosed)
    (h : readAll m expect before r s = (found, r', s')) :
    (found = .error .closed →
        (readAll m expect before r (s.map (Link.interrupted later))).1 =
          .error (.io .interruption)) ∧
      (found ≠ .error .closed →
        (readAll m expect before r (s.map (Link.interrupted later))).1 = found) := by
  fun_induction readAll m expect before r s with
  | case1 before r s e t u hread =>
    cases h
    obtain ⟨hend, hgoes⟩ := readResponse_interrupted later hr hs hread
    constructor
    · intro hclosed
      have hcut := hend (by cases hclosed; rfl)
      rw [readAll]
      rcases hmet : readResponse expect r (s.map (Link.interrupted later)) with ⟨found, v, w⟩
      rw [hmet] at hcut
      cases hcut
      rfl
    · intro hne
      have hcut := (hgoes fun hclosed => hne (by cases hclosed; rfl)).1
      rw [readAll, hcut]
  | case2 before r s response t u hread hlast =>
    cases h
    obtain ⟨hcut, -⟩ := (readResponse_interrupted later hr hs hread).2 (by rintro ⟨⟩)
    rw [readAll, hcut]
    dsimp only
    rw [if_pos hlast]
    exact ⟨by rintro ⟨⟩, fun _ => rfl⟩
  | case3 before r s response t u hread hlast hexpected ih =>
    obtain ⟨hcut, ht, hu⟩ := (readResponse_interrupted later hr hs hread).2 (by rintro ⟨⟩)
    rw [readAll, hcut]
    dsimp only
    rw [if_neg hlast, if_pos hexpected]
    exact ih ht hu h
  | case4 before r s response t u hread hlast hexpected =>
    cases h
    obtain ⟨hcut, -⟩ := (readResponse_interrupted later hr hs hread).2 (by rintro ⟨⟩)
    rw [readAll, hcut]
    dsimp only
    rw [if_neg hlast, if_neg hexpected]
    exact ⟨by rintro ⟨⟩, fun _ => rfl⟩

end

end Client

end LineFrame
