import LineFrame.Proofs.Client.Readings

/-!
# What an exchange sends

A tap on the socket of an exchange shows what is written to it.  That is the whole request, which is
flushed before anything is read.  Only if sending fails it is less, a beginning of the request; then
nothing is read, and the exchange fails in the same way (`exchange_sends`).
-/

namespace LineFrame

/-! ## What a tap shows -/

namespace Wiretap

variable {σ : Type} [Transport σ]

-- However it ends, the first of the bytes are written, if every write adds the bytes that it takes.
theorem writeAll_begins {log : σ → Bytes}
    (hlog : ∀ {bs t found u}, Transport.write bs t = (found, u) →
      log u = log t ++ taken bs found) {bs : Bytes} {t u : σ} {found : Except IoError Unit}
    (h : Transport.writeAll bs t = (found, u)) : ∃ n, log u = log t ++ bs.take n := by
  fun_induction Transport.writeAll bs t with
  | case1 t =>
    cases h
    exact ⟨0, (List.append_nil _).symm⟩
  | case2 t b rest v hwrite =>
    cases h
    exact ⟨0, hlog hwrite⟩
  | case3 t b rest n v hwrite ih =>
    obtain ⟨m, hm⟩ := ih h
    refine ⟨n + m + 1, ?_⟩
    rw [hm, hlog hwrite, taken, List.append_assoc, List.take_succ_cons, List.take_succ_cons,
      List.cons_append, List.take_add]
  | case4 t b rest e v hwrite he ih =>
    obtain ⟨m, hm⟩ := ih h
    refine ⟨m, ?_⟩
    rw [hm, hlog hwrite, taken, List.append_nil]
  | case5 t b rest e v hwrite he =>
    cases h
    exact ⟨0, hlog hwrite⟩

end Wiretap

namespace Pool.Socket

variable {τ : Type}

/-- The socket, with a new tap on it. -/
def tapped (s : Socket τ) : Socket (Wiretap τ) := s.map fun t => { transport := t }

/-- The socket without its tap. -/
def untapped (s : Socket (Wiretap τ)) : Socket τ := s.map Wiretap.transport

theorem run_ok {α : Type} {op : τ → Except IoError α × τ} {s s' : Socket τ} {a : α}
    (h : run op s = (.ok a, s')) :
    s.disposed = false ∧ s'.disposed = false ∧ op s.transport = (.ok a, s'.transport) := by
  rcases run_cases h with ⟨-, hd, -⟩ | ⟨hlive, hop, hspoils⟩
  · cases hd
  · exact ⟨hlive, hspoils, hop⟩

variable [Transport τ] {s s' : Socket (Wiretap τ)}

theorem write_log {bs : Bytes} {found : Except IoError Nat}
    (h : Transport.write bs s = (found, s')) :
    s'.transport.written = s.transport.written ++ Wiretap.taken bs found ∧
      s'.transport.read = s.transport.read := by
  obtain ⟨t, disposed⟩ := s
  cases disposed with
  | true =>
    cases h
    exact ⟨(List.append_nil _).symm, rfl⟩
  | false =>
    cases h
    exact ⟨rfl, rfl⟩

theorem flush_log {found : Except IoError Unit} (h : Transport.flush s = (found, s')) :
    s'.transport.written = s.transport.written ∧ s'.transport.read = s.transport.read ∧
      (found = .ok () → s'.transport.flushed = s.transport.written) := by
  rcases run_cases h with ⟨-, rfl, rfl⟩ | ⟨-, hop, -⟩
  · exact ⟨rfl, rfl, nofun⟩
  · have hfound : (Transport.flush s.transport.transport).1 = found := congrArg Prod.fst hop
    have hlog : (Transport.flush s.transport).2 = s'.transport := congrArg Prod.snd hop
    rw [← hlog]
    refine ⟨rfl, rfl, fun hok => ?_⟩
    show (if _ then _ else _) = _
    rw [hfound, hok]
    rfl

theorem writeAll_read {bs : Bytes} {found : Except IoError Unit}
    (h : Transport.writeAll bs s = (found, s')) : s'.transport.read = s.transport.read :=
  Transport.writeAll_keeps (fun hwrite => (write_log hwrite).2) h

theorem send_log {bs : Bytes} (h : Transport.send bs s = (.ok (), s')) :
    s'.transport.written = s.transport.written ++ bs ∧
      s'.transport.flushed = s'.transport.written ∧ s'.transport.read = s.transport.read ∧
      s'.disposed = false := by
  rw [Transport.send] at h
  split at h
  · next t hwrite =>
    have hwritten : t.transport.written = s.transport.written ++ bs :=
      Wiretap.writeAll_appends (fun hwrite => (write_log hwrite).1) hwrite
    obtain ⟨hsame, hread, hflushed⟩ := flush_log h
    rw [hflushed rfl, hread, hsame]
    exact ⟨hwritten, rfl, writeAll_read hwrite, (run_ok h).2.1⟩
  · cases h

-- When bytes cannot be sent, it is the first of them that were written.
theorem send_begins {bs : Bytes} {e : IoError} (h : Transport.send bs s = (.error e, s')) :
    (∃ n, s'.transport.written = s.transport.written ++ bs.take n) ∧
      s'.transport.read = s.transport.read := by
  have hlog {bs : Bytes} {t u : Socket (Wiretap τ)} {found : Except IoError Nat}
      (hwrite : Transport.write bs t = (found, u)) :
      u.transport.written = t.transport.written ++ Wiretap.taken bs found := (write_log hwrite).1
  rw [Transport.send] at h
  split at h
  · next t hwrite =>
    obtain ⟨n, hn⟩ := Wiretap.writeAll_begins hlog hwrite
    obtain ⟨hsame, hread, -⟩ := flush_log h
    exact ⟨⟨n, hsame.trans hn⟩, hread.trans (writeAll_read hwrite)⟩
  · next e' t hwrite =>
    cases h
    exact ⟨Wiretap.writeAll_begins hlog hwrite, writeAll_read hwrite⟩

end Pool.Socket

namespace Client

variable {τ α : Type} [Transport τ]

open Pool (Socket)

/-! ## Readings -/

/-- The reading writes nothing and flushes nothing, however it ends. -/
def Silent (read : Reading (Wiretap τ) α) : Prop :=
  ∀ written flushed,
    Keeps (fun _ => False) (fun w => w.written = written ∧ w.flushed = flushed) read

theorem readResponse_silent (expect : String → Expectation) :
    Silent (readResponse expect : Reading (Wiretap τ) Response) :=
  fun _ _ => readResponse_keeping (fun _ _ hw => ⟨hw, fun _ _ => id⟩) id

theorem readAll_silent (m : MultiRequest) (expect : String → Expectation) :
    Silent (readAll m expect [] : Reading (Wiretap τ) (List Response)) :=
  fun _ _ => readAll_keeping (fun _ _ hw => ⟨hw, fun _ _ => id⟩) id m []

/-! ## Exchanges -/

/-- The exchange of an attempt on a socket, with a tap on it. -/
abbrev Seen (τ α : Type) := Except Error α × Reader × Socket (Wiretap τ)

-- An exchange does to its socket what it does to one with a tap on it.
theorem exchange_tapped (request : Request) {read : Reading τ α} {tapped : Reading (Wiretap τ) α}
    (hagree : Agree Wiretap.transport tapped read) (r : Reader) (s : Socket τ) :
    let seen := exchange request tapped r s.tapped
    exchange request read r s = (seen.1, seen.2.1, seen.2.2.untapped) := by
  intro seen
  have hseen : exchange request tapped r s.tapped = (seen.1, seen.2.1, seen.2.2) := rfl
  exact exchange_through Wiretap.through_transport hagree hseen

/-- What is seen of an exchange is that the request was sent on its socket. -/
structure Sends (request : Request) (s : Socket τ) (seen : Seen τ α) : Prop where
  /-- If the socket takes it, the request is written whole and flushed, and nothing else is. -/
  whole : (Transport.send request.encode s).1 = .ok () →
    seen.2.2.transport.written = request.encode ∧ seen.2.2.transport.flushed = request.encode
  /-- If the socket fails, so does the exchange, before it reads anything; no more than a beginning
  of the request was written. -/
  begun : ∀ e, (Transport.send request.encode s).1 = .error e →
    seen.1 = .error (.io e) ∧ seen.2.2.transport.written <+: request.encode ∧
      seen.2.2.transport.read = []

/-- **An exchange sends its request**, once and whole, and nothing else. -/
theorem exchange_sends {request : Request} {read : Reading (Wiretap τ) α} (hread : Silent read)
    (r : Reader) (s : Socket τ) : Sends request s (exchange request read r s.tapped) := by
  have hview := Pool.Socket.sendsThrough_map
    (Wiretap.through_transport (τ := τ)).toSendsThrough
  rcases hsend : Transport.send request.encode s.tapped with ⟨found, t⟩
  have hfound : (Transport.send request.encode s).1 = found :=
    congrArg Prod.fst (Transport.send_through hview hsend)
  cases found with
  | ok =>
    obtain ⟨hwritten, hflushed, -, -⟩ := Pool.Socket.send_log hsend
    have hlog : t.transport.written = request.encode ∧ t.transport.flushed = request.encode :=
      ⟨hwritten, hflushed.trans hwritten⟩
    refine ⟨fun _ => (exchange_keeps (hread _ _) hsend hlog).1, fun e he => ?_⟩
    cases hfound.symm.trans he
  | error e =>
    obtain ⟨⟨n, hwritten⟩, hnothing⟩ := Pool.Socket.send_begins hsend
    refine ⟨fun hok => ?_, fun e' he' => ?_⟩
    · cases hfound.symm.trans hok
    · cases hfound.symm.trans he'
      rw [exchange, hsend]
      refine ⟨rfl, ?_, hnothing⟩
      show t.transport.written <+: request.encode
      rw [hwritten]
      exact List.take_prefix n _

end Client

end LineFrame
