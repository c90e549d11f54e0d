import LineFrame.Wire.Reader

/-!
# What reading takes from the buffer

Whatever a reader is asked for, it takes bytes from the front of its buffer, none but unread ones,
and leaves the rest of it alone (`Reads`).  If it finds nothing, it has taken all of them (`Spent`),
whatever it was in the middle of.  One lemma for each function of the reader says so.
-/

namespace LineFrame

namespace Reader

/-- The second reader is the first one after it has read some of its unread bytes. -/
structure Reads (r s : Reader) : Prop where
  limit : s.limit = r.limit
  buffer : ∃ n ≤ r.unread.length, s.buffer = r.buffer.consume n

namespace Reads

variable {r s t : Reader}

theorem of_buffer (hl : s.limit = r.limit) (hb : s.buffer = r.buffer) : r.Reads s :=
  ⟨hl, 0, Nat.zero_le _, hb⟩

theorem of_cons {b : UInt8} {rest : Bytes} (h : r.unread = b :: rest) (hl : s.limit = r.limit)
    (hb : s.buffer = r.buffer.consume 1) : r.Reads s :=
  ⟨hl, 1, by simp [h], hb⟩

theorem refl (r : Reader) : r.Reads r := of_buffer rfl rfl

theorem trans (hrs : r.Reads s) (hst : s.Reads t) : r.Reads t := by
  obtain ⟨hs, n, hn, hsn⟩ := hrs
  obtain ⟨ht, m, hm, htm⟩ := hst
  refine ⟨ht.trans hs, n + m, ?_, ?_⟩
  · rw [unread, hsn, Buffer.unread_consume, List.length_drop] at hm
    rw [unread] at *
    omega
  · rw [htm, hsn, Buffer.consume, Buffer.consume, List.drop_drop, Nat.add_assoc]
    rfl

theorem capacity_eq (h : r.Reads s) : s.buffer.capacity = r.buffer.capacity := by
  obtain ⟨-, n, -, hs⟩ := h
  rw [hs]
  rfl

end Reads

variable (r : Reader)

theorem scanLine_reads : r.Reads r.scanLine := by
  have htext := (r.unread.takeWhile_prefix (· ≠ Bytes.cr)).length_le
  unfold scanLine
  dsimp only
  generalize (r.unread.takeWhile (· ≠ Bytes.cr)) = text at htext
  have hscan : r.Reads { r.consume text.length with line := text.reverse ++ r.line } :=
    ⟨rfl, text.length, htext, rfl⟩
  split
  · exact hscan
  · next hunread => exact hscan.trans (.of_cons hunread rfl rfl)

theorem endLine_reads : r.Reads r.endLine.2 := by
  unfold endLine
  split
  · exact .refl r
  · next hunread =>
    dsimp only
    split <;> exact .of_cons hunread rfl rfl

theorem nextLine_reads : r.Reads r.nextLine.2 := by
  have hscan : r.Reads (if r.pendingCr then r else r.scanLine) := by
    split
    · exact .refl r
    · exact r.scanLine_reads
  unfold nextLine
  generalize (if r.pendingCr then r else r.scanLine) = s at hscan
  dsimp only
  split
  · exact hscan.trans s.endLine_reads
  · exact hscan

theorem beginPayload_reads (length : Nat) : r.Reads (r.beginPayload length).2 := by
  unfold beginPayload
  split
  · exact .refl r
  · exact .of_buffer rfl rfl

theorem endTrailer_reads (declared : Nat) : r.Reads (r.endTrailer declared).2 := by
  unfold endTrailer
  split
  · exact .refl r
  · next hunread =>
    dsimp only
    split <;> exact .of_cons hunread rfl rfl

theorem readTrailer_reads (declared : Nat) : r.Reads (r.readTrailer declared).2 := by
  unfold readTrailer
  split
  · exact r.endTrailer_reads declared
  · split
    · exact .refl r
    · next hunread =>
      have hcr : r.Reads { r.consume 1 with pendingCr := true } := .of_cons hunread rfl rfl
      dsimp only
      split
      · exact hcr.trans (endTrailer_reads _ declared)
      · split <;> exact .of_cons hunread rfl rfl

theorem nextPayload_reads : r.Reads r.nextPayload.2 := by
  unfold nextPayload
  split
  · exact .refl r
  · next declared remaining _ =>
    have htake := (r.unread.take_prefix remaining).length_le
    dsimp only
    generalize r.unread.take remaining = chunk at htake
    have hchunk (phase : Phase) : r.Reads { r.consume chunk.length with
        payload := chunk.reverse ++ r.payload, phase } := ⟨rfl, chunk.length, htake, rfl⟩
    split
    · exact hchunk _
    · exact (hchunk _).trans (readTrailer_reads _ declared)
  · exact r.readTrailer_reads _

theorem finishFrame_reads : r.Reads r.finishFrame.2 := by
  have hpayload := r.nextPayload_reads
  unfold finishFrame
  split
  · next h => simpa only [h] using hpayload
  · next h => simpa only [h] using hpayload
  · next h =>
    rw [h] at hpayload
    split
    · exact hpayload.trans (.of_buffer rfl rfl)
    · exact hpayload

theorem startFrame_reads (line : CommandLine) : r.Reads (r.startFrame line).2 := by
  unfold startFrame
  split
  · exact .refl r
  · next n _ =>
    have hbegin := r.beginPayload_reads n
    split
    · next h => simpa only [h] using hbegin
    · next s h =>
      rw [h] at hbegin
      have hannounced : r.Reads { s with announced := some line } :=
        hbegin.trans (.of_buffer rfl rfl)
      exact hannounced.trans (finishFrame_reads _)

theorem nextFrame_reads (expect : String → Expectation) : r.Reads (r.nextFrame expect).2 := by
  have hline := r.nextLine_reads
  unfold nextFrame
  split
  · split
    · next h => simpa only [h] using hline
    · next h => simpa only [h] using hline
    · next s h =>
      rw [h] at hline
      split
      · exact hline
      · exact hline.trans (s.startFrame_reads _)
  · exact r.finishFrame_reads

/-! ## Finding nothing -/

/-- If nothing was found, no byte is left to look at. -/
def Spent {α : Type} (x : Except FrameError (Option α) × Reader) : Prop :=
  x.1 = .ok none → x.2.unread = []

theorem endLine_spent : Spent r.endLine := by
  unfold endLine
  split
  · next hunread => exact fun _ => hunread
  · dsimp only
    split
    · intro hnone
      have hmap : (CommandLine.tokenize r.line.reverse).map some = .ok none := hnone
      cases htokens : CommandLine.tokenize r.line.reverse <;> rw [htokens] at hmap <;> cases hmap
    · nofun

theorem scanLine_spent (h : r.scanLine.pendingCr = false) : r.scanLine.unread = [] := by
  unfold scanLine at h ⊢
  dsimp only at h ⊢
  split
  · next hunread => exact hunread
  · next hunread =>
    rw [hunread] at h
    cases h

theorem nextLine_spent : Spent r.nextLine := by
  have hscan : (if r.pendingCr then r else r.scanLine).pendingCr = false →
      (if r.pendingCr then r else r.scanLine).unread = [] := by
    split
    · next hcr =>
      intro h
      rw [hcr] at h
      cases h
    · exact r.scanLine_spent
  unfold nextLine
  generalize (if r.pendingCr then r else r.scanLine) = s at hscan
  dsimp only
  split
  · exact s.endLine_spent
  · next hcr => exact fun _ => hscan (Bool.eq_false_iff.mpr hcr)

theorem endTrailer_spent (declared : Nat) : Spent (r.endTrailer declared) := by
  unfold endTrailer
  split
  · next hunread => exact fun _ => hunread
  · dsimp only
    split
    · split <;> nofun
    · nofun

theorem readTrailer_spent (declared : Nat) : Spent (r.readTrailer declared) := by
  unfold readTrailer
  split
  · exact r.endTrailer_spent declared
  · split
    · next hunread => exact fun _ => hunread
    · dsimp only
      split
      · exact endTrailer_spent _ declared
      · split <;> nofun

theorem nextPayload_spent (h : r.phase ≠ .line) : Spent r.nextPayload := by
  unfold nextPayload
  split
  · next hphase => exact absurd hphase h
  · next declared remaining _ =>
    dsimp only
    split
    · next hshort =>
      intro _
      have hall : r.unread.length ≤ (r.unread.take remaining).length := by
        rw [List.length_take] at hshort ⊢
        omega
      exact List.drop_eq_nil_of_le hall
    · exact readTrailer_spent _ declared
  · exact r.readTrailer_spent _

theorem finishFrame_spent (h : r.phase ≠ .line) : Spent r.finishFrame := by
  have hpayload := r.nextPayload_spent h
  unfold finishFrame
  split
  · nofun
  · next hfound =>
    rw [hfound] at hpayload
    exact fun _ => hpayload rfl
  · split <;> nofun

theorem phase_of_beginPayload {r s : Reader} {length : Nat}
    (h : r.beginPayload length = (.ok (), s)) : s.phase ≠ .line := by
  unfold beginPayload at h
  split at h
  · cases h
  · cases h
    dsimp only
    split <;> nofun

theorem startFrame_spent (line : CommandLine) : Spent (r.startFrame line) := by
  unfold startFrame
  split
  · nofun
  · next n _ =>
    split
    · nofun
    · next s hbegun =>
      have hphase : s.phase ≠ .line := phase_of_beginPayload hbegun
      exact finishFrame_spent _ hphase

theorem nextFrame_spent (expect : String → Expectation) : Spent (r.nextFrame expect) := by
  have hline := r.nextLine_spent
  unfold nextFrame
  split
  · split
    · nofun
    · next hfound =>
      rw [hfound] at hline
      exact fun _ => hline rfl
    · next s _ =>
      split
      · nofun
      · exact s.startFrame_spent _
  · next hphase => exact r.finishFrame_spent hphase

/-- **A reader that finds no frame has looked at all of its bytes**, however it came to be. -/
theorem unread_of_nextFrame {r s : Reader} {expect : String → Expectation}
    (h : r.nextFrame expect = (.ok none, s)) : s.unread = [] := by
  have hspent := r.nextFrame_spent expect
  rw [h] at hspent
  exact hspent rfl

end Reader

end LineFrame
