import LineFrame.Client.Exchange
import LineFrame.Proofs.Pool.Views

/-!
# Taps

A transport with a tap on it behaves as it does without one, and what passes is written down.  So
what an exchange did to its socket can be read off the tap: the exchange is the same one
(`exchange_through`).
-/

namespace LineFrame

/-- A transport, and what was read from it and written to it. -/
structure Wiretap (τ : Type) where
  transport : τ
  read : Bytes := []
  written : Bytes := []
  /-- What had been written when it was last flushed. -/
  flushed : Bytes := []

namespace Wiretap

/-- What a read has given. -/
def given : Except IoError Bytes → Bytes
  | .ok chunk => chunk
  | .error _ => []

/-- What a write of these bytes has taken. -/
def taken (bs : Bytes) : Except IoError Nat → Bytes
  | .ok n => bs.take n
  | .error _ => []

variable {τ : Type} [Transport τ]

instance : Transport (Wiretap τ) where
  read n w :=
    let (found, transport) := Transport.read n w.transport
    (found, { w with transport, read := w.read ++ given found })
  write bs w :=
    let (found, transport) := Transport.write bs w.transport
    (found, { w with transport, written := w.written ++ taken bs found })
  flush w :=
    let (found, transport) := Transport.flush w.transport
    (found, { w with transport, flushed := if found.isOk then w.written else w.flushed })
  connected w := Transport.connected w.transport
  close w := { w with transport := Transport.close w.transport }
  budget w := Transport.budget w.transport
  read_length n w := Transport.read_length n w.transport
  read_budget n w := Transport.read_budget n w.transport
  write_budget bs w := Transport.write_budget bs w.transport
  flush_budget w := Transport.flush_budget w.transport

theorem through_transport : Transport.Through (transport : Wiretap τ → τ) where
  read h := by cases h; rfl
  write h := by cases h; rfl
  flush h := by cases h; rfl

-- What is written when all of some bytes are, if every write adds the bytes that it takes.
theorem writeAll_appends {σ : Type} [Transport σ] {log : σ → Bytes}
    (hlog : ∀ {bs t found u}, Transport.write bs t = (found, u) →
      log u = log t ++ taken bs found) {bs : Bytes} {t u : σ}
    (h : Transport.writeAll bs t = (.ok (), u)) : log u = log t ++ bs := by
  fun_induction Transport.writeAll bs t with
  | case1 t =>
    cases h
    exact (List.append_nil _).symm
  | case2 t b rest v hwrite => cases h
  | case3 t b rest n v hwrite ih =>
    rw [ih h, hlog hwrite, taken, List.append_assoc, List.take_succ_cons, List.cons_append,
      List.take_append_drop]
  | case4 t b rest e v hwrite he ih =>
    rw [ih h, hlog hwrite, taken, List.append_nil]
  | case5 t b rest e v hwrite he => cases h

-- Bytes that are sent are written, and flushed.
theorem send_ok {bs : Bytes} {t u : Wiretap τ} (h : Transport.send bs t = (.ok (), u)) :
    u.written = t.written ++ bs ∧ u.flushed = u.written := by
  rw [Transport.send] at h
  split at h
  · next v hwrite =>
    have hwritten : v.written = t.written ++ bs :=
      writeAll_appends (fun hw => by cases hw; rfl) hwrite
    have hfound : (Transport.flush v.transport).1 = .ok () := congrArg Prod.fst h
    have hlog : (Transport.flush v).2 = u := congrArg Prod.snd h
    have hflushed : u.flushed = v.written := by
      rw [← hlog]
      show (if _ then _ else _) = _
      rw [hfound]
      rfl
    rw [hflushed, ← hlog]
    exact ⟨hwritten, rfl⟩
  · cases h

end Wiretap

/-! ## Exchanges -/

variable {σ τ : Type} [Transport σ] [Transport τ]

namespace Client

/-- It did not end with one of these errors of the transport. -/
def Spared {α : Type} (but : IoError → Prop) (found : Except Error α) : Prop :=
  ∀ e, found = .error (.io e) → ¬ but e

variable {expect : String → Expectation} {but : IoError → Prop} {view : σ → τ}

theorem readResponse_throughBut (hview : Transport.ThroughBut but view) {r r' : Reader} {t u : σ}
    {found : Except Error Response} (h : readResponse expect r t = (found, r', u))
    (hfound : Spared but found) : readResponse expect r (view t) = (found, r', view u) := by
  fun_induction readResponse expect r t with
  | case1 r t e s hf =>
    cases h
    rw [readResponse, hf]
  | case2 r t frame s hf =>
    cases h
    rw [readResponse, hf]
  | case3 r t s hf e s' v hfill =>
    cases h
    have hspared : ∀ e', Except.error e = (.error e' : Except IoError Nat) → ¬ but e' :=
      fun e' he => hfound e' (by rw [Except.error.inj he])
    rw [readResponse, hf]
    dsimp only
    rw [Transport.fill_throughBut hview hfill hspared]
  | case4 r t s hf s' v hfill =>
    cases h
    rw [readResponse, hf]
    dsimp only
    rw [Transport.fill_throughBut hview hfill (by rintro e' ⟨⟩)]
  | case5 r t s hf n s' v hfill ih =>
    rw [readResponse, hf]
    dsimp only
    rw [Transport.fill_throughBut hview hfill (by rintro e' ⟨⟩)]
    exact ih h

section

variable (hview : Transport.ThroughBut but view)

include hview

theorem readAll_throughBut {m : MultiRequest} {before : List Response} {r r' : Reader}
    {s s' : Pool.Socket σ} {found : Except Error (List Response)}
    (h : readAll m expect before r s = (found, r', s')) (hfound : Spared but found) :
    readAll m expect before r (s.map view) = (found, r', s'.map view) := by
  have hmap := Pool.Socket.throughBut_map hview
  fun_induction readAll m expect before r s with
  | case1 before r s e r₁ s₁ hread =>
    cases h
    have hspared : Spared but (.error e : Except Error Response) :=
      fun e' he => hfound e' (by rw [Except.error.inj he])
    rw [readAll, readResponse_throughBut hmap hread hspared]
  | case2 before r s response r₁ s₁ hread hlast =>
    cases h
    rw [readAll, readResponse_throughBut hmap hread nofun]
    exact if_pos hlast
  | case3 before r s response r₁ s₁ hread hlast hexpected ih =>
    rw [readAll, readResponse_throughBut hmap hread nofun]
    dsimp only
    rw [if_neg hlast, if_pos hexpected]
    exact ih h
  | case4 before r s response r₁ s₁ hread hlast hexpected =>
    cases h
    rw [readAll, readResponse_throughBut hmap hread nofun]
    dsimp only
    rw [if_neg hlast, if_neg hexpected]
    rfl

end

/-- Both readings do the same, each on its transport, unless the first ends with one of these
errors. -/
def AgreeBut {α : Type} (but : IoError → Prop) (view : σ → τ) (read : Reading σ α)
    (read' : Reading τ α) : Prop :=
  ∀ r s, Spared but (read r s).1 →
    read' r (s.map view) = ((read r s).1, (read r s).2.1, (read r s).2.2.map view)

/-- Both readings do the same, each on its transport. -/
def Agree {α : Type} (view : σ → τ) (read : Reading σ α) (read' : Reading τ α) : Prop :=
  ∀ r s, read' r (s.map view) = ((read r s).1, (read r s).2.1, (read r s).2.2.map view)

theorem readResponse_agreeBut (hview : Transport.ThroughBut but view) :
    AgreeBut but view (readResponse expect) (readResponse expect) :=
  fun _ _ => readResponse_throughBut (Pool.Socket.throughBut_map hview) rfl

theorem readAll_agreeBut (hview : Transport.ThroughBut but view) (m : MultiRequest) :
    AgreeBut but view (readAll m expect []) (readAll m expect []) :=
  fun _ _ => readAll_throughBut hview rfl

theorem readResponse_agree (hview : Transport.Through view) :
    Agree view (readResponse expect) (readResponse expect) :=
  fun r s => readResponse_agreeBut hview.throughBut r s fun _ _ => id

theorem readAll_agree (hview : Transport.Through view) (m : MultiRequest) :
    Agree view (readAll m expect []) (readAll m expect []) :=
  fun r s => readAll_agreeBut hview.throughBut m r s fun _ _ => id

section

variable {α : Type} {request : Request} {read : Reading σ α} {read' : Reading τ α} {r r' : Reader}
  {s s' : Pool.Socket σ} {found : Except Error α}

/-- An exchange does the same on both transports, unless its reading ends with one of these
errors. -/
theorem exchange_throughBut (hview : Transport.ThroughBut but view)
    (hread : AgreeBut but view read read') (h : exchange request read r s = (found, r', s'))
    (hfound : ∀ {u}, Transport.send request.encode s = (.ok (), u) → Spared but found) :
    exchange request read' r (s.map view) = (found, r', s'.map view) := by
  have hmap := Pool.Socket.throughBut_map hview
  rw [exchange] at h ⊢
  split at h
  · next e t hsend =>
    cases h
    rw [Transport.send_through hmap.toSendsThrough hsend]
    rfl
  · next t hsend =>
    rw [Transport.send_through hmap.toSendsThrough hsend]
    dsimp only
    split at h
    · next e r₁ s₁ hr =>
      cases h
      have hsame := hread r.reset t (by rw [hr]; exact hfound hsend)
      rw [hsame, hr]
      rfl
    · next answer r₁ s₁ hr =>
      cases h
      have hsame := hread r.reset t (by rw [hr]; nofun)
      rw [hsame, hr]
      dsimp only
      split <;> rfl

/-- **An exchange does the same on both transports.** -/
theorem exchange_through (hview : Transport.Through view) (hread : Agree view read read')
    (h : exchange request read r s = (found, r', s')) :
    exchange request read' r (s.map view) = (found, r', s'.map view) := by
  have hagree : AgreeBut (fun _ => False) view read read' := fun r s _ => hread r s
  exact exchange_throughBut hview.throughBut hagree h fun _ _ _ => id

end

end Client

end LineFrame
