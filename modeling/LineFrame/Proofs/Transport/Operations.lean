import LineFrame.Transport.Basic

/-!
# Receiving and sending

What a reader receives from a transport, and what sending over one transport comes to on another one
that takes writes in the same way.
-/

namespace LineFrame

namespace Reader

variable {τ : Type} [Transport τ] {r s : Reader} {t u : τ}

theorem fill_ok {n : Nat} (h : r.fill t = (.ok n, s, u)) :
    ∃ chunk, Transport.read r.space t = (.ok chunk, u) ∧ n = chunk.length ∧
      s = { r with buffer := r.buffer.compact.commit chunk } := by
  rw [fill] at h
  dsimp only at h
  split at h
  · next chunk v hread =>
    cases h
    exact ⟨chunk, hread, rfl, rfl⟩
  · cases h

theorem fill_error {e : IoError} (h : r.fill t = (.error e, s, u)) :
    Transport.read r.space t = (.error e, u) ∧ s = { r with buffer := r.buffer.compact } := by
  rw [fill] at h
  dsimp only at h
  split at h
  · cases h
  · next hread =>
    cases h
    exact ⟨hread, rfl⟩

theorem fill_of_ok {chunk : Bytes} (h : Transport.read r.space t = (.ok chunk, u)) :
    r.fill t = (.ok chunk.length, { r with buffer := r.buffer.compact.commit chunk }, u) := by
  have hread : Transport.read ({ r with buffer := r.buffer.compact } : Reader).space t = _ := h
  rw [fill]
  dsimp only
  rw [hread]

theorem fill_of_error {e : IoError} (h : Transport.read r.space t = (.error e, u)) :
    r.fill t = (.error e, { r with buffer := r.buffer.compact }, u) := by
  have hread : Transport.read ({ r with buffer := r.buffer.compact } : Reader).space t = _ := h
  rw [fill]
  dsimp only
  rw [hread]

theorem feed_of_le {r : Reader} {chunk : Bytes} (h : chunk.length ≤ r.space) :
    r.feed chunk = { r with buffer := r.buffer.compact.commit chunk } := by
  have hspace : chunk.length ≤ r.buffer.space := h
  rw [feed, Buffer.feed, List.take_of_length_le hspace]

theorem feed_nil (r : Reader) : r.feed [] = { r with buffer := r.buffer.compact } := by
  rw [feed, Buffer.feed, List.take_nil, Buffer.commit, List.append_nil]

-- What is received is fed to the reader.
theorem fill_feeds {n : Nat} (h : r.fill t = (.ok n, s, u)) :
    ∃ chunk, Transport.read r.space t = (.ok chunk, u) ∧ n = chunk.length ∧
      s = r.feed chunk := by
  obtain ⟨chunk, hread, hn, hs⟩ := fill_ok h
  have hlength := Transport.read_length _ t chunk (congrArg Prod.fst hread)
  exact ⟨chunk, hread, hn, hs.trans (feed_of_le hlength).symm⟩

theorem fill_feeds_nil {e : IoError} (h : r.fill t = (.error e, s, u)) :
    Transport.read r.space t = (.error e, u) ∧ s = r.feed [] := by
  obtain ⟨hread, hs⟩ := fill_error h
  exact ⟨hread, hs.trans (feed_nil r).symm⟩

end Reader

namespace Transport

variable {σ τ : Type} [Transport σ] [Transport τ]

/-- Seen through `view`, the one transport takes what the other one does. -/
structure SendsThrough (view : σ → τ) : Prop where
  write : ∀ {bs t found u}, Transport.write bs t = (found, u) →
    Transport.write bs (view t) = (found, view u)
  flush : ∀ {t found u}, Transport.flush t = (found, u) →
    Transport.flush (view t) = (found, view u)

/-- Seen through `view`, the one transport does what the other one does, but for the reads that fail
with one of these errors. -/
structure ThroughBut (but : IoError → Prop) (view : σ → τ) : Prop extends SendsThrough view where
  read : ∀ {n t found u}, Transport.read n t = (found, u) → (∀ e, found = .error e → ¬ but e) →
    Transport.read n (view t) = (found, view u)

/-- Seen through `view`, the one transport does what the other one does. -/
structure Through (view : σ → τ) : Prop extends SendsThrough view where
  read : ∀ {n t found u}, Transport.read n t = (found, u) →
    Transport.read n (view t) = (found, view u)

theorem Through.throughBut {view : σ → τ} (hview : Through view) :
    ThroughBut (fun _ => False) view where
  toSendsThrough := hview.toSendsThrough
  read h _ := hview.read h

section

variable {view : σ → τ} (hview : SendsThrough view)

include hview

theorem writeAll_through {bs : Bytes} {t u : σ} {found : Except IoError Unit}
    (h : writeAll bs t = (found, u)) : writeAll bs (view t) = (found, view u) := by
  fun_induction writeAll bs t with
  | case1 t =>
    cases h
    rw [writeAll]
  | case2 t b rest v hwrite =>
    cases h
    rw [writeAll, hview.write hwrite]
  | case3 t b rest n v hwrite ih =>
    rw [writeAll, hview.write hwrite]
    exact ih h
  | case4 t b rest e v hwrite he ih =>
    rw [writeAll, hview.write hwrite]
    simpa only [he, dite_true] using ih h
  | case5 t b rest e v hwrite he =>
    cases h
    rw [writeAll, hview.write hwrite]
    simp only [he]
    rfl

theorem send_through {bs : Bytes} {t u : σ} {found : Except IoError Unit}
    (h : send bs t = (found, u)) : send bs (view t) = (found, view u) := by
  rw [send] at h ⊢
  split at h
  · next v hv =>
    rw [writeAll_through hview hv]
    exact hview.flush h
  · next e v hv =>
    cases h
    rw [writeAll_through hview hv]

end

-- What no write changes is the same when all bytes are written.
theorem writeAll_keeps {α : Type} {view : σ → α}
    (hview : ∀ {bs t found u}, write bs t = (found, u) → view u = view t) {bs : Bytes} {t u : σ}
    {found : Except IoError Unit} (h : writeAll bs t = (found, u)) : view u = view t := by
  fun_induction writeAll bs t with
  | case1 t =>
    cases h
    rfl
  | case2 t b rest v hwrite =>
    cases h
    exact hview hwrite
  | case3 t b rest n v hwrite ih => exact (ih h).trans (hview hwrite)
  | case4 t b rest e v hwrite he ih => exact (ih h).trans (hview hwrite)
  | case5 t b rest e v hwrite he =>
    cases h
    exact hview hwrite

theorem fill_throughBut {but : IoError → Prop} {view : σ → τ} (hview : ThroughBut but view)
    {r r' : Reader} {t u : σ} {found : Except IoError Nat} (h : r.fill t = (found, r', u))
    (hfound : ∀ e, found = .error e → ¬ but e) : r.fill (view t) = (found, r', view u) := by
  rw [Reader.fill] at h ⊢
  dsimp only at h ⊢
  split at h
  · next hread =>
    cases h
    rw [hview.read hread nofun]
  · next hread =>
    cases h
    rw [hview.read hread fun e he => hfound e (by rw [Except.error.inj he])]

end Transport

end LineFrame
