import LineFrame.Proofs.Wire.Memory
import LineFrame.Proofs.Wire.Reading
import LineFrame.Proofs.Wire.Reencoding
import LineFrame.Transport.Basic

/-!
# A reader in any use

A reader can be asked for frames, or for lines and payloads one at a time, and given bytes in
between, in any order and whatever errors it has found.  What it keeps fits together all the while
(`uses_wellFormed`): its buffer's places are in order, and the bytes that it has of a payload and
those that it is owed make up the length that was declared, which is within the limit.
-/

namespace LineFrame

namespace Reader

/-! ## What is owed -/

/-- What a reader has of a payload agrees with what it is in the middle of. -/
def Owes (r : Reader) : Prop :=
  match r.phase with
  | .line => r.payload = []
  | .payload declared remaining =>
    0 < remaining ∧ r.payload.length + remaining = declared ∧ declared ≤ r.limit
  | .trailer declared => r.payload.length = declared ∧ declared ≤ r.limit

variable {r s : Reader}

theorem Owes.congr (h : r.Owes) (hlimit : s.limit = r.limit) (hphase : s.phase = r.phase)
    (hpayload : s.payload = r.payload) : s.Owes := by
  unfold Owes
  rw [hphase, hpayload, hlimit]
  exact h

theorem Owes.within (h : r.Owes) :
    r.payload.length ≤ r.phase.declared ∧ r.phase.declared ≤ r.limit := by
  unfold Owes at h
  split at h
  · next hp =>
    rw [hp, h]
    exact ⟨Nat.le_refl _, Nat.zero_le _⟩
  · next declared remaining hp =>
    rw [hp]
    show _ ≤ declared ∧ declared ≤ _
    omega
  · next declared hp =>
    rw [hp]
    show _ ≤ declared ∧ declared ≤ _
    omega

-- A line leaves alone what is kept of a payload.
theorem nextLine_keeps (r : Reader) :
    r.nextLine.2.phase = r.phase ∧ r.nextLine.2.payload = r.payload := by
  have hend (s : Reader) : s.endLine.2.phase = s.phase ∧ s.endLine.2.payload = s.payload := by
    unfold endLine
    split
    · exact ⟨rfl, rfl⟩
    · dsimp only
      split <;> exact ⟨rfl, rfl⟩
  have hscan : r.scanLine.phase = r.phase ∧ r.scanLine.payload = r.payload := by
    unfold scanLine
    dsimp only
    split <;> exact ⟨rfl, rfl⟩
  have hread : (if r.pendingCr then r else r.scanLine).phase = r.phase ∧
      (if r.pendingCr then r else r.scanLine).payload = r.payload := by
    split
    · exact ⟨rfl, rfl⟩
    · exact hscan
  unfold nextLine
  generalize (if r.pendingCr then r else r.scanLine) = s at hread
  dsimp only
  split
  · exact ⟨(hend s).1.trans hread.1, (hend s).2.trans hread.2⟩
  · exact hread

theorem nextLine_owes (h : r.Owes) : r.nextLine.2.Owes :=
  h.congr r.nextLine_reads.limit r.nextLine_keeps.1 r.nextLine_keeps.2

theorem beginPayload_owes (h : r.Owes) (length : Nat) : (r.beginPayload length).2.Owes := by
  unfold beginPayload
  by_cases hlimit : r.limit < length
  · rw [if_pos hlimit]
    exact h
  · rw [if_neg hlimit]
    by_cases hzero : length = 0
    · rw [if_pos hzero]
      exact ⟨rfl, Nat.zero_le _⟩
    · rw [if_neg hzero]
      exact ⟨Nat.pos_of_ne_zero hzero, Nat.zero_add _, Nat.le_of_not_lt hlimit⟩

theorem declared_of_beginPayload {length : Nat} (h : r.beginPayload length = (.ok (), s)) :
    s.phase.declared = length ∧ s.phase ≠ .line ∧ length ≤ r.limit := by
  unfold beginPayload at h
  by_cases hlimit : r.limit < length
  · rw [if_pos hlimit] at h
    cases h
  · rw [if_neg hlimit] at h
    cases h
    by_cases hzero : length = 0
    · rw [if_pos hzero]
      exact ⟨hzero.symm, nofun, by omega⟩
    · rw [if_neg hzero]
      exact ⟨rfl, nofun, by omega⟩

/-! ## What is found -/

/-- What a reader finds of a payload, and what it owes after that: either the payload is whole and
as long as was declared, or the same is declared as before. -/
structure Pays (r : Reader) (x : Except FrameError (Option Bytes) × Reader) : Prop where
  owes : x.2.Owes
  declared : (∀ data, x.1 ≠ .ok (some data)) → x.2.phase.declared = r.phase.declared
  no_mismatch : ∀ declared received, x.1 ≠ .error (.payloadLengthMismatch declared received)
  whole : ∀ data, x.1 = .ok (some data) →
    r.phase ≠ .line ∧ x.2.phase = .line ∧ data.length = r.phase.declared

theorem pays_of_none (r : Reader) (h : s.Owes) (hd : s.phase.declared = r.phase.declared) :
    r.Pays (.ok none, s) :=
  ⟨h, fun _ => hd, nofun, nofun⟩

theorem pays_of_error (r : Reader) (h : s.Owes) (hd : s.phase.declared = r.phase.declared)
    {e : FrameError} (he : ∀ declared received, e ≠ .payloadLengthMismatch declared received) :
    r.Pays (.error e, s) :=
  ⟨h, fun _ => hd, fun _ _ h => he _ _ (Except.error.inj h), nofun⟩

theorem pays_of_found (hr : r.phase ≠ .line) (h : s.Owes) (hs : s.phase = .line) {data : Bytes}
    (hd : data.length = r.phase.declared) : r.Pays (.ok (some data), s) where
  owes := h
  declared hx := absurd rfl (hx data)
  no_mismatch := nofun
  whole _ hx := by
    cases hx
    exact ⟨hr, hs, hd⟩

theorem Pays.of_phase {x : Except FrameError (Option Bytes) × Reader} (h : s.Pays x)
    (hd : s.phase.declared = r.phase.declared) (hr : r.phase ≠ .line) : r.Pays x where
  owes := h.owes
  declared hx := (h.declared hx).trans hd
  no_mismatch := h.no_mismatch
  whole data hx :=
    have hwhole := h.whole data hx
    ⟨hr, hwhole.2.1, hwhole.2.2.trans hd⟩

theorem endTrailer_pays {declared : Nat} (hp : r.phase = .trailer declared) (h : r.Owes) :
    r.Pays (r.endTrailer declared) := by
  have hne : r.phase ≠ .line := by simp [hp]
  have hlength : r.payload.length = declared := by
    rw [Owes, hp] at h
    exact h.1
  have hdeclared : r.payload.reverse.length = r.phase.declared := by
    rw [List.length_reverse, hp]
    exact hlength
  unfold endTrailer
  split
  · exact pays_of_none r h rfl
  · have hskip : Owes { r.consume 1 with pendingCr := false } := h.congr rfl rfl rfl
    dsimp only
    split
    · rw [if_pos (show (r.consume 1).payload.length = declared from hlength)]
      have hdone : Owes { r.consume 1 with pendingCr := false, phase := .line, payload := [] } :=
        rfl
      exact pays_of_found hne hdone rfl hdeclared
    · exact pays_of_error r hskip rfl (by simp)

theorem readTrailer_pays {declared : Nat} (hp : r.phase = .trailer declared) (h : r.Owes) :
    r.Pays (r.readTrailer declared) := by
  have hne : r.phase ≠ .line := by simp [hp]
  unfold readTrailer
  split
  · exact endTrailer_pays hp h
  · split
    · exact pays_of_none r h rfl
    · have hskip : (r.consume 1).Owes := h.congr rfl rfl rfl
      have hcr : Owes { r.consume 1 with pendingCr := true } := h.congr rfl rfl rfl
      have hend := endTrailer_pays (r := { r.consume 1 with pendingCr := true }) hp hcr
      dsimp only
      split
      · exact hend.of_phase rfl hne
      · split <;> exact pays_of_error r hskip rfl (by simp)

theorem nextPayload_pays (h : r.Owes) : r.Pays r.nextPayload := by
  unfold nextPayload
  split
  · exact pays_of_none r h rfl
  · next declared remaining hp =>
    have hne : r.phase ≠ .line := by simp [hp]
    rw [Owes, hp] at h
    obtain ⟨hpos, hsum, hlimit⟩ := h
    have htake : (r.unread.take remaining).length ≤ remaining := List.length_take_le _ _
    dsimp only
    generalize r.unread.take remaining = chunk at htake
    have hpayload : (chunk.reverse ++ r.payload).length = chunk.length + r.payload.length := by
      rw [List.length_append, List.length_reverse]
    -- either the unread bytes end before the payload does, or only its terminator is owed
    by_cases hshort : chunk.length < remaining
    · rw [if_pos hshort]
      have howed : Owes { r.consume chunk.length with
          payload := chunk.reverse ++ r.payload
          phase := .payload declared (remaining - chunk.length) } := by
        refine ⟨by omega, ?_, hlimit⟩
        show (chunk.reverse ++ r.payload).length + (remaining - chunk.length) = declared
        omega
      exact pays_of_none r howed (by rw [hp]; rfl)
    · rw [if_neg hshort]
      have howed : Owes { r.consume chunk.length with
          payload := chunk.reverse ++ r.payload
          phase := .trailer declared } := by
        refine ⟨?_, hlimit⟩
        show (chunk.reverse ++ r.payload).length = declared
        omega
      exact (readTrailer_pays rfl howed).of_phase (by rw [hp]; rfl) hne
  · next hp => exact readTrailer_pays hp h

/-! ## Frames -/

-- A line is refused for other reasons than its payload.
theorem nextLine_ne_mismatch (r : Reader) (declared received : Nat) :
    r.nextLine.1 ≠ .error (.payloadLengthMismatch declared received) := by
  have hend (s : Reader) : s.endLine.1 ≠ .error (.payloadLengthMismatch declared received) := by
    intro h
    unfold endLine CommandLine.tokenize at h
    split at h
    · cases h
    · dsimp only at h
      split at h
      · split at h <;> cases h
      · cases h
  intro h
  unfold nextLine at h
  generalize (if r.pendingCr then r else r.scanLine) = s at h
  dsimp only at h
  split at h
  · exact hend s h
  · cases h

theorem resolve_ne_mismatch (e : Expectation) (tokens : List String) (declared received : Nat) :
    e.resolve tokens ≠ .error (.payloadLengthMismatch declared received) := by
  intro h
  unfold Expectation.resolve at h
  split at h
  · cases h
  · split at h <;> cases h

/-- What a reader finds when it is asked for a frame, and what it owes after that.  A payload that
comes with the frame has one of these lengths. -/
structure Yields (lengths : Nat → Prop) (x : Except FrameError (Option Frame) × Reader) : Prop where
  owes : x.2.Owes
  no_mismatch : ∀ declared received, x.1 ≠ .error (.payloadLengthMismatch declared received)
  whole : ∀ f data, x.1 = .ok (some f) → f.payload = some data → lengths data.length

theorem finishFrame_yields (h : r.Owes) :
    Yields (fun n => r.phase ≠ .line ∧ n = r.phase.declared) r.finishFrame := by
  have hpays := nextPayload_pays h
  unfold finishFrame
  split
  · next e s hx =>
    rw [hx] at hpays
    exact ⟨hpays.owes, fun declared received he => hpays.no_mismatch declared received
      (congrArg Except.error (Except.error.inj he)), nofun⟩
  · next s hx =>
    rw [hx] at hpays
    exact ⟨hpays.owes, nofun, nofun⟩
  · next data s hx =>
    rw [hx] at hpays
    obtain ⟨hne, -, hlength⟩ := hpays.whole data rfl
    split
    · refine ⟨hpays.owes.congr rfl rfl rfl, nofun, fun f data' hf hdata => ?_⟩
      cases hf
      cases hdata
      exact ⟨hne, hlength⟩
    · exact ⟨hpays.owes, nofun, nofun⟩

theorem finishFrame_phase (r : Reader) : r.finishFrame.2.phase = r.nextPayload.2.phase := by
  unfold finishFrame
  split
  · next hx => rw [hx]
  · next hx => rw [hx]
  · next hx =>
    rw [hx]
    split <;> rfl

theorem startFrame_yields (h : r.Owes) (line : CommandLine) :
    Yields (fun n => line.length = some n) (r.startFrame line) := by
  unfold startFrame
  split
  · refine ⟨h, nofun, fun f data hf hdata => ?_⟩
    cases hf
    cases hdata
  · next n hn =>
    have hbegun := beginPayload_owes h n
    split
    · next e s hx =>
      rw [hx] at hbegun
      refine ⟨hbegun, fun declared received he => ?_, nofun⟩
      cases he
      unfold beginPayload at hx
      split at hx <;> cases hx
    · next s hx =>
      rw [hx] at hbegun
      obtain ⟨hdeclared, -⟩ := declared_of_beginPayload hx
      have hannounced : Owes { s with announced := some line } := hbegun.congr rfl rfl rfl
      have hyields := finishFrame_yields hannounced
      refine ⟨hyields.owes, hyields.no_mismatch, fun f data hf hdata => ?_⟩
      rw [hn, (hyields.whole f data hf hdata).2]
      exact congrArg some hdeclared.symm

/-- A payload of this length is being read, or else the next line declares one. -/
def Declares (r : Reader) (expect : String → Expectation) (n : Nat) : Prop :=
  if r.phase = .line then
    ∃ tokens line, r.nextLine.1 = .ok (some tokens) ∧
      (expectationOf expect tokens).resolve tokens = .ok line ∧ line.length = some n
  else r.phase.declared = n

theorem nextFrame_yields (h : r.Owes) (expect : String → Expectation) :
    Yields (r.Declares expect) (r.nextFrame expect) := by
  have howes := nextLine_owes h
  have hmismatch := r.nextLine_ne_mismatch
  unfold nextFrame
  by_cases hp : r.phase = .line
  · rw [if_pos hp]
    split
    · next e s hx =>
      rw [hx] at howes hmismatch
      exact ⟨howes, fun declared received he => hmismatch declared received
        (congrArg Except.error (Except.error.inj he)), nofun⟩
    · next s hx =>
      rw [hx] at howes
      exact ⟨howes, nofun, nofun⟩
    · next tokens s hx =>
      rw [hx] at howes
      split
      · next e he =>
        refine ⟨howes, fun declared received hd => ?_, nofun⟩
        rw [Except.error.inj hd] at he
        exact resolve_ne_mismatch _ tokens declared received he
      · next line hline =>
        have hyields := startFrame_yields howes line
        refine ⟨hyields.owes, hyields.no_mismatch, fun f data hf hdata => ?_⟩
        rw [Declares, if_pos hp]
        exact ⟨tokens, line, congrArg Prod.fst hx, hline, hyields.whole f data hf hdata⟩
  · rw [if_neg hp]
    have hyields := finishFrame_yields h
    refine ⟨hyields.owes, hyields.no_mismatch, fun f data hf hdata => ?_⟩
    rw [Declares, if_neg hp]
    exact (hyields.whole f data hf hdata).2.symm

/-! ## Uses -/

/-- What the owner of a reader can do with it. -/
inductive Use : Type 1 where
  | feed (chunk : Bytes)
  | fill {τ : Type} [Transport τ] (source : τ)
  /-- These bytes are put into the space behind the unread ones, if it is large enough. -/
  | receive (chunk : Bytes)
  | nextFrame (expect : String → Expectation)
  | nextLine
  | beginPayload (length : Nat)
  | nextPayload
  | reset

/-- The reader after a use, whatever was found or went wrong. -/
def use (r : Reader) : Use → Reader
  | .feed chunk => r.feed chunk
  | @Use.fill _ _ source => (r.fill source).2.1
  | .receive chunk =>
    let compacted := r.buffer.compact
    { r with buffer := if chunk.length ≤ r.space then compacted.commit chunk else compacted }
  | .nextFrame expect => (r.nextFrame expect).2
  | .nextLine => r.nextLine.2
  | .beginPayload length => (r.beginPayload length).2
  | .nextPayload => r.nextPayload.2
  | .reset => r.reset

/-- What a use does to the buffer. -/
def Use.motion (r : Reader) : Use → Buffer.Motion
  | .feed chunk => .receive (chunk.take r.space)
  | @Use.fill _ _ source => .receive ((Transport.read r.space source).1.toOption.getD [])
  | .receive chunk => .receive (if chunk.length ≤ r.space then chunk else [])
  | .reset => .clear
  | asked => .consume ((r.use asked).buffer.position - r.buffer.position)

-- Reading consumes the bytes by which the buffer's position moves on.
theorem Reads.motion (h : r.Reads s) :
    r.buffer.Allows (.consume (s.buffer.position - r.buffer.position)) ∧
      s.buffer = r.buffer.move (.consume (s.buffer.position - r.buffer.position)) := by
  obtain ⟨-, n, hn, hs⟩ := h
  have hposition : s.buffer.position - r.buffer.position = n := by
    rw [hs]
    exact Nat.add_sub_cancel_left _ _
  rw [hposition]
  exact ⟨hn, hs⟩

theorem fill_receives {τ : Type} [Transport τ] (r : Reader) (source : τ) :
    let chunk := (Transport.read r.space source).1.toOption.getD []
    chunk.length ≤ r.space ∧
      (r.fill source).2.1 = { r with buffer := r.buffer.compact.commit chunk } := by
  have hread := Transport.read_length r.space source
  have hspace : ({ r with buffer := r.buffer.compact } : Reader).space = r.space := rfl
  unfold fill
  dsimp only
  rw [hspace]
  split
  · next chunk left hx =>
    rw [hx] at hread ⊢
    exact ⟨hread chunk rfl, rfl⟩
  · next e left hx =>
    rw [hx]
    refine ⟨Nat.zero_le _, ?_⟩
    show _ = { r with buffer := r.buffer.compact.commit [] }
    rw [Buffer.commit_nil]

theorem use_motion (r : Reader) (u : Use) :
    r.buffer.Allows (u.motion r) ∧ (r.use u).buffer = r.buffer.move (u.motion r) := by
  have hcompact := r.buffer.compact.commit_nil
  cases u with
  | feed chunk => exact ⟨List.length_take_le _ _, rfl⟩
  | fill source =>
    obtain ⟨hfits, hfill⟩ := r.fill_receives source
    exact ⟨hfits, congrArg Reader.buffer hfill⟩
  | receive chunk =>
    by_cases hfits : chunk.length ≤ r.space
    · rw [Use.motion, use, if_pos hfits, if_pos hfits]
      exact ⟨hfits, rfl⟩
    · rw [Use.motion, use, if_neg hfits, if_neg hfits]
      exact ⟨Nat.zero_le _, hcompact.symm⟩
  | nextFrame expect => exact (r.nextFrame_reads expect).motion
  | nextLine => exact r.nextLine_reads.motion
  | beginPayload length => exact (r.beginPayload_reads length).motion
  | nextPayload => exact r.nextPayload_reads.motion
  | reset => exact ⟨trivial, rfl⟩

theorem use_owes (h : r.Owes) (u : Use) : (r.use u).Owes := by
  cases u with
  | feed chunk => exact h.congr rfl rfl rfl
  | fill source =>
    show (r.fill source).2.1.Owes
    rw [(r.fill_receives source).2]
    exact h.congr rfl rfl rfl
  | receive chunk => exact h.congr rfl rfl rfl
  | nextFrame expect => exact (nextFrame_yields h expect).owes
  | nextLine => exact nextLine_owes h
  | beginPayload length => exact beginPayload_owes h length
  | nextPayload => exact (nextPayload_pays h).owes
  | reset => exact rfl

-- What is declared stays the same until the payload is whole or another one is begun.
theorem use_declared (h : r.Owes) {u : Use} (hu : ∀ length, u ≠ .beginPayload length)
    (hr : r.phase ≠ .line) (hs : (r.use u).phase ≠ .line) :
    (r.use u).phase.declared = r.phase.declared := by
  have hpays := nextPayload_pays h
  cases u with
  | feed chunk => rfl
  | fill source =>
    show (r.fill source).2.1.phase.declared = _
    rw [(r.fill_receives source).2]
  | receive chunk => rfl
  | nextFrame expect =>
    have hframe : (r.nextFrame expect).2.phase = r.nextPayload.2.phase := by
      rw [nextFrame, if_neg hr, finishFrame_phase]
    have hne : r.nextPayload.2.phase ≠ .line := by
      rw [← hframe]
      exact hs
    show (r.nextFrame expect).2.phase.declared = _
    rw [hframe]
    exact hpays.declared fun data hx => hne (hpays.whole data hx).2.1
  | nextLine => exact congrArg Phase.declared r.nextLine_keeps.1
  | beginPayload length => exact absurd rfl (hu length)
  | nextPayload => exact hpays.declared fun data hx => hs (hpays.whole data hx).2.1
  | reset => exact absurd rfl hs

theorem use_limit (r : Reader) (u : Use) : (r.use u).limit = r.limit := by
  cases u with
  | feed chunk => rfl
  | fill source =>
    show (r.fill source).2.1.limit = r.limit
    rw [(r.fill_receives source).2]
  | receive chunk => rfl
  | nextFrame expect => exact (r.nextFrame_reads expect).limit
  | nextLine => exact r.nextLine_reads.limit
  | beginPayload length => exact (r.beginPayload_reads length).limit
  | nextPayload => exact r.nextPayload_reads.limit
  | reset => rfl

/-- The reader after some uses. -/
def after (r : Reader) (uses : List Use) : Reader := uses.foldl use r

/-- The memory of a reader's buffer after some uses, if none of them has failed. -/
def memoryAfter? (m : Buffer.Memory) (r : Reader) : List Use → Option Buffer.Memory
  | [] => some m
  | u :: uses => do memoryAfter? (← m.move? (u.motion r)) (r.use u) uses

-- No use reaches for bytes that are not there, so the memory is that of the buffer at all times.
theorem memoryAfter?_holds {m : Buffer.Memory} {r : Reader} (h : m.Holds r.buffer)
    (uses : List Use) : ∃ m', memoryAfter? m r uses = some m' ∧ m'.Holds (r.after uses).buffer := by
  induction uses generalizing m r with
  | nil => exact ⟨m, rfl, h⟩
  | cons u uses ih =>
    obtain ⟨hallows, hbuffer⟩ := r.use_motion u
    obtain ⟨n, hmove, hn⟩ := Buffer.Memory.holds_move h hallows
    rw [← hbuffer] at hn
    obtain ⟨m', hafter, hm'⟩ := ih hn
    refine ⟨m', ?_, hm'⟩
    rw [memoryAfter?, hmove]
    exact hafter

theorem after_keeps (h : r.Owes) (uses : List Use) :
    (r.after uses).Owes ∧ (r.after uses).limit = r.limit ∧
      (r.after uses).buffer.capacity = r.buffer.capacity := by
  induction uses generalizing r with
  | nil => exact ⟨h, rfl, rfl⟩
  | cons u uses ih =>
    obtain ⟨howes, hlimit, hcapacity⟩ := ih (use_owes h u)
    have hmove : (r.use u).buffer.capacity = r.buffer.capacity := by
      rw [(r.use_motion u).2, Buffer.capacity_move]
    exact ⟨howes, hlimit.trans (r.use_limit u), hcapacity.trans hmove⟩

/-- **A reader is well formed in any use**, with any capacity and any limit, whatever is done with
it and in whatever order, also after errors.  Its places are in order and within its memory, and no
use has reached for bytes outside of them.  The bytes that it has of a payload and those that it is
owed make up the length that was declared; neither this nor what it has exceeds the limit, and it
stays declared until the payload is whole or another one is begun.  So a payload that is found, by
itself or with a frame, is as long as was declared, and none is refused because it is not. -/
theorem uses_wellFormed (capacity limit : Nat) (uses : List Use) :
    let r := (Reader.new capacity limit).after uses
    (∃ m, memoryAfter? (.blank (max capacity 1)) (.new capacity limit) uses = some m ∧
      m.Holds r.buffer ∧ m.position ≤ m.filled ∧ m.filled ≤ max capacity 1) ∧
    r.Owes ∧ r.phase.declared ≤ limit ∧ r.payload.length ≤ limit ∧
    (∀ length, (r.beginPayload length).1 = .ok () →
      length ≤ limit ∧ (r.beginPayload length).2.phase.declared = length) ∧
    (∀ u, (∀ length, u ≠ .beginPayload length) → r.phase ≠ .line → (r.use u).phase ≠ .line →
      (r.use u).phase.declared = r.phase.declared) ∧
    r.Pays r.nextPayload ∧ ∀ expect, Yields (r.Declares expect) (r.nextFrame expect) := by
  intro r
  obtain ⟨howes, hlimit, hcapacity⟩ : r.Owes ∧ r.limit = limit ∧
    r.buffer.capacity = max capacity 1 := after_keeps (r := .new capacity limit) rfl uses
  obtain ⟨m, hafter, hm⟩ := memoryAfter?_holds (r := .new capacity limit)
    (Buffer.Memory.holds_blank capacity) uses
  refine ⟨⟨m, hafter, hm, ?_, ?_⟩, howes, ?_, ?_, ?_, fun u => use_declared howes,
    nextPayload_pays howes, nextFrame_yields howes⟩
  · rw [hm.position, hm.filled]
    exact Nat.le_add_right _ _
  · rw [hm.filled, ← hcapacity]
    exact hm.filled_le
  · rw [← hlimit]
    exact howes.within.2
  · rw [← hlimit]
    exact Nat.le_trans howes.within.1 howes.within.2
  · intro length h
    obtain ⟨hdeclared, -, hle⟩ := declared_of_beginPayload (Prod.ext h rfl)
    rw [hlimit] at hle
    exact ⟨hle, hdeclared⟩

-- The carriage return before the payload counts for its terminator, which is found only after an
-- error, and after another payload was refused.
theorem uses_wellFormed_of_mixed :
    let uses : List Use := [.feed [65, 13], .nextLine, .beginPayload 3, .feed [1, 2, 3],
      .nextPayload, .feed [7], .nextPayload, .beginPayload 9, .receive [13, 10, 66]]
    let r := (Reader.new 4 4).after uses
    (∃ m, memoryAfter? (.blank 4) (.new 4 4) uses = some m ∧ m.Holds r.buffer) ∧
      r.nextPayload.1 = .ok (some [1, 2, 3]) ∧ [1, 2, 3].length = r.phase.declared := by
  intro uses r
  obtain ⟨⟨m, hafter, hm, -⟩, -, -, -, -, -, hpays, -⟩ := uses_wellFormed 4 4 uses
  have hfound : r.nextPayload.1 = .ok (some [1, 2, 3]) := rfl
  exact ⟨⟨m, hafter, hm⟩, hfound, (hpays.whole [1, 2, 3] hfound).2.2⟩

end Reader

end LineFrame
