import Mathlib.Data.List.Forall2
import LineFrame.Proofs.Wire.RoundTrip
import LineFrame.Service.Echo

/-!
# Encoding what was decoded

However odd the bytes are that a reader is given, the frames that it finds in them are frames that
survive the wire: their tokens can stand on a line, and whether they have a payload is what their
command and their last argument say (`feed_transmissible`).  So a frame that was found and is encoded
again is found again, alone and with nothing left over, and an echo of frames is taken for just these
frames (`found_frames_reencode`).

What carries this is an invariant of all that a reader can hold (`Held.Proper`), also of what it is
left with by an error in the middle of a line or of a payload.
-/

namespace LineFrame

namespace CommandLine

/-- A line of tokens whose command may have a payload. -/
def TakesPayload (expect : String → Expectation) (line : CommandLine) : Prop :=
  (IsToken line.name ∧ ∀ arg ∈ line.args, IsToken arg) ∧
    (expect line.name = .auto ∨ expect line.name = .always)

-- What the tokens of a line are, and what its command expects, where it is read at all.
theorem of_parse {expect : String → Expectation} {bytes : Bytes} {line : CommandLine}
    (hcr : Bytes.cr ∉ bytes) (h : parse expect bytes = .ok line) :
    (IsToken line.name ∧ ∀ arg ∈ line.args, IsToken arg) ∧
      match line.length with
      | some _ => expect line.name = .auto ∨ expect line.name = .always
      | none =>
        expect line.name = .never ∨ expect line.name = .auto ∧
          ∀ arg, line.args.getLast? = some arg → ¬ Numeral.IsLength arg := by
  rw [parse] at h
  cases htok : tokenize bytes with
  | error e => rw [htok] at h; cases h
  | ok tokens =>
    rw [htok] at h
    have htokens := isToken_of_tokenize htok hcr
    obtain ⟨hname, hargs⟩ := Expectation.mem_of_resolve h
    refine ⟨⟨htokens _ hname, fun arg harg => htokens _ (hargs arg harg)⟩, ?_⟩
    cases tokens with
    | nil => cases h
    | cons name args =>
      rcases Expectation.resolve_eq_ok_iff.mp h with ⟨rfl, hexpect⟩ | ⟨rest, n, rfl, hexpect, -⟩
      · rw [Expectation.splitLength_eq_none_iff] at hexpect
        exact hexpect
      · exact hexpect

end CommandLine

/-- The declared length of the payload that is being read. -/
def Reader.Phase.declared : Reader.Phase → Nat
  | line => 0
  | payload declared _ => declared
  | trailer declared => declared

namespace Held

/-! ## What a reader can hold -/

/-- What holds of a reader whatever bytes it was given, and whatever errors it found in them. -/
structure Proper (expect : String → Expectation) (limit : Nat) (h : Held) : Prop where
  limit_eq : h.limit = limit
  /-- No carriage return becomes part of a line, not even a bare one. -/
  text : Bytes.cr ∉ h.line
  /-- No payload beyond the limit is begun. -/
  within : h.phase.declared ≤ limit
  announced : ∀ line, h.announced = some line → line.TakesPayload expect

/-- A step that keeps what is held proper and finds only frames that survive the wire. -/
def Keeps (expect : String → Expectation) (limit : Nat) (x : Option Finding × Held) : Prop :=
  (∀ f, x.1 = some (.ok f) → f.Transmissible expect limit) ∧ x.2.Proper expect limit

variable {expect : String → Expectation} {limit : Nat} {h : Held}

theorem fresh_proper (expect : String → Expectation) (limit : Nat) :
    (fresh limit).Proper expect limit := ⟨rfl, List.not_mem_nil, Nat.zero_le _, nofun⟩

theorem keeps_of_none (hh : h.Proper expect limit) : Keeps expect limit (none, h) := ⟨nofun, hh⟩

theorem keeps_of_error (hh : h.Proper expect limit) (e : FrameError) :
    Keeps expect limit (some (.error e), h) := ⟨nofun, hh⟩

theorem start_keeps (hh : h.Proper expect limit) {bytes : Bytes} {line : CommandLine}
    (hcr : Bytes.cr ∉ bytes) (hparse : CommandLine.parse expect bytes = .ok line) :
    Keeps expect limit (h.start line) := by
  have hline := CommandLine.of_parse hcr hparse
  unfold start
  cases hlength : line.length with
  | none =>
    refine ⟨fun f hf => ?_, hh⟩
    cases hf
    rw [hlength] at hline
    exact hline
  | some n =>
    dsimp only
    by_cases hlimit : h.limit < n
    · rw [if_pos hlimit]
      exact keeps_of_error hh _
    · rw [if_neg hlimit]
      have hn : n ≤ limit := by
        have hlim := hh.limit_eq
        omega
      have hdeclared : (if n = 0 then .trailer 0 else .payload n n : Reader.Phase).declared ≤
          limit := by
        by_cases hzero : n = 0
        · rw [if_pos hzero]
          exact Nat.zero_le _
        · rw [if_neg hzero]
          exact hn
      refine keeps_of_none ⟨hh.limit_eq, hh.text, hdeclared, fun l hl => ?_⟩
      cases hl
      rw [hlength] at hline
      exact hline

theorem endLine_keeps (hh : h.Proper expect limit) : Keeps expect limit (h.endLine expect) := by
  have hleft : Proper expect limit { h with pendingCr := false, line := [] } :=
    ⟨hh.limit_eq, List.not_mem_nil, hh.within, hh.announced⟩
  rw [endLine_eq]
  cases hparse : CommandLine.parse expect h.line.reverse with
  | error e => exact keeps_of_error hleft e
  | ok line => exact start_keeps hleft (fun hmem => hh.text (List.mem_reverse.mp hmem)) hparse

theorem endPayload_keeps (hh : h.Proper expect limit) {declared : Nat}
    (hphase : h.phase = .trailer declared) : Keeps expect limit (h.endPayload declared) := by
  have hleft : Proper expect limit { h with pendingCr := false, phase := .line, payload := [] } :=
    ⟨hh.limit_eq, hh.text, Nat.zero_le _, hh.announced⟩
  unfold endPayload
  dsimp only
  split
  · next hlength =>
    cases hannounced : h.announced with
    | none => exact keeps_of_error (hannounced ▸ hleft) _
    | some line =>
      refine ⟨fun f hf => ?_, ⟨hh.limit_eq, hh.text, Nat.zero_le _, nofun⟩⟩
      cases hf
      have hwithin : declared ≤ limit := by
        have hle := hh.within
        rw [hphase] at hle
        exact hle
      obtain ⟨htokens, hexpect⟩ := hh.announced line hannounced
      refine ⟨htokens, hexpect, ?_⟩
      rw [List.length_reverse, hlength]
      exact hwithin
  · exact keeps_of_error hleft _

-- One byte at a time, through every phase.
theorem push_keeps (hh : h.Proper expect limit) (b : UInt8) :
    Keeps expect limit (h.push expect b) := by
  have hcr (pendingCr : Bool) : Proper expect limit { h with pendingCr } :=
    ⟨hh.limit_eq, hh.text, hh.within, hh.announced⟩
  unfold push
  cases hphase : h.phase with
  | line =>
    dsimp only
    by_cases hpending : h.pendingCr = true
    · rw [if_pos hpending]
      split
      · exact endLine_keeps hh
      · rw [← hphase]
        exact keeps_of_error (hcr false) _
    · rw [if_neg hpending]
      by_cases hb : b = Bytes.cr
      · rw [if_pos hb, ← hphase]
        exact keeps_of_none (hcr true)
      · rw [if_neg hb, ← hphase]
        refine keeps_of_none ⟨hh.limit_eq, fun hmem => ?_, hh.within, hh.announced⟩
        rcases List.mem_cons.mp hmem with heq | hmem
        · exact hb heq.symm
        · exact hh.text hmem
  | payload declared remaining =>
    have hwithin : declared ≤ limit := by
      have hle := hh.within
      rw [hphase] at hle
      exact hle
    refine keeps_of_none ⟨hh.limit_eq, hh.text, ?_, hh.announced⟩
    dsimp only
    split
    · exact hwithin
    · exact hwithin
  | trailer declared =>
    dsimp only
    by_cases hpending : h.pendingCr = true
    · rw [if_pos hpending]
      split
      · exact endPayload_keeps hh hphase
      · rw [← hphase]
        exact keeps_of_error (hcr false) _
    · rw [if_neg hpending]
      split
      · rw [← hphase]
        exact keeps_of_none (hcr true)
      · split
        · exact keeps_of_error hh _
        · exact keeps_of_error hh _

/-- **All frames that are found survive the wire.** -/
theorem feed_transmissible (hh : h.Proper expect limit) (bytes : Bytes) {f : Frame}
    (hf : .ok f ∈ (h.feed expect bytes).1) : f.Transmissible expect limit := by
  induction bytes generalizing h with
  | nil => cases hf
  | cons b bytes ih =>
    obtain ⟨hfound, hnext⟩ := push_keeps hh b
    rw [feed_cons] at hf
    rcases List.mem_append.mp hf with hf | hf
    · exact hfound f (Option.mem_toList.mp hf)
    · exact ih hnext hf

end Held

namespace Feeding

variable {expect : String → Expectation} {limit : Nat}

-- What has been found is found in the bytes, however far they have been taken.
theorem mem_feed_of_mem_found {capacity : Nat} {bytes : Bytes} {moves : List Move}
    {found : Finding} (h : found ∈ ((start capacity limit bytes).run expect moves).found) :
    found ∈ ((Held.fresh limit).feed expect bytes).1 := by
  have hprospect : ((start capacity limit bytes).run expect moves).prospect expect =
      (Held.fresh limit).feed expect bytes :=
    run_prospect (start_sound capacity limit bytes) moves
  rw [← hprospect, prospect_eq]
  exact List.mem_append_left _ h

-- Transmissible frames are found in their bytes, in whatever pieces these come.
theorem finish_encodeAll (hl : limit < Numeral.bound) {frames : List Frame}
    (hframes : ∀ f ∈ frames, f.Transmissible expect limit) {capacity : Nat} {moves : List Move}
    (hleft : ((start capacity limit (Frame.encodeAll frames)).run expect moves).left = []) :
    let last := ((start capacity limit (Frame.encodeAll frames)).run expect moves).finish expect
    last.found = frames.map .ok ∧ last.reader.held = .fresh limit ∧ last.reader.unread = [] := by
  intro last
  have hlast : (last.found, last.reader.held) =
      (Held.fresh limit).feed expect (Frame.encodeAll frames) := finish_run hleft
  rw [Frame.feed_encodeAll hl hframes] at hlast
  obtain ⟨hfound, hheld⟩ := Prod.mk.inj hlast
  have hsound := run_sound expect (start_sound capacity limit (Frame.encodeAll frames)) moves
  exact ⟨hfound, hheld, (Reader.exhaust_eq_feed expect hsound).2.2⟩

/-- The frames among what has been found, in order. -/
def frames (x : Feeding) : List Frame := x.found.filterMap Except.toOption

theorem mem_frames {x : Feeding} {f : Frame} : f ∈ x.frames ↔ .ok f ∈ x.found := by
  rw [frames, List.mem_filterMap]
  constructor
  · rintro ⟨found, hmem, hf⟩
    cases found with
    | error e => cases hf
    | ok g => cases hf; exact hmem
  · intro hmem
    exact ⟨.ok f, hmem, rfl⟩

/-- The responses of the echo handler to some frames. -/
def Echoes (frames : List Frame) (responses : List Response) : Prop :=
  List.Forall₂ (fun f response =>
    Service.echoed (Request.ofFrame f) () = (.returned response, ())) frames responses

theorem echoes_map (frames : List Frame) : Echoes frames (frames.map .ofFrame) := by
  rw [Echoes, List.forall₂_map_right_iff, List.forall₂_same]
  exact fun f _ => rfl

theorem encode_of_echoes {frames : List Frame} {responses : List Response}
    (h : Echoes frames responses) :
    responses.flatMap Response.encode = Frame.encodeAll frames := by
  induction h with
  | nil => rfl
  | cons hecho _ ih =>
    cases hecho
    rw [List.flatMap_cons, ih, Frame.encodeAll_cons]
    rfl

/-- **Encoding undoes decoding.**  A reader is given any bytes, in whatever pieces, and is asked on
and on, also after errors.  Each frame that it has found is encoded to bytes in which a new reader,
given them in whatever pieces, finds this frame alone and holds nothing after it.  And in the bytes
of an echo of all these frames it finds these frames, one for one: an echo splits none and brings in
none.  The limit is a number of 64 bits, as lengths are. -/
theorem found_frames_reencode (expect : String → Expectation) {limit : Nat}
    (hl : limit < Numeral.bound) (bytes : Bytes) (capacity : Nat) (moves : List Move) :
    let emitted := ((start capacity limit bytes).run expect moves).frames
    (∀ f ∈ emitted, ∀ (capacity : Nat) (moves : List Move),
      ((start capacity limit f.encode).run expect moves).left = [] →
      let last := ((start capacity limit f.encode).run expect moves).finish expect
      last.found = [.ok f] ∧ last.reader.held = .fresh limit ∧ last.reader.unread = []) ∧
    ∀ responses, Echoes emitted responses → ∀ (capacity : Nat) (moves : List Move),
      let echo := responses.flatMap Response.encode
      ((start capacity limit echo).run expect moves).left = [] →
      let last := ((start capacity limit echo).run expect moves).finish expect
      last.found = emitted.map .ok ∧ last.reader.held = .fresh limit ∧
        last.reader.unread = [] := by
  intro emitted
  have hemitted : ∀ f ∈ emitted, f.Transmissible expect limit := fun f hf =>
    Held.feed_transmissible (Held.fresh_proper expect limit) bytes
      (mem_feed_of_mem_found (mem_frames.mp hf))
  constructor
  · intro f hf capacity moves hleft
    have hone : Frame.encodeAll [f] = f.encode := List.append_nil _
    rw [← hone] at hleft ⊢
    refine finish_encodeAll hl (fun g hg => ?_) hleft
    rw [List.mem_singleton.mp hg]
    exact hemitted f hf
  · intro responses hechoes capacity moves echo hleft
    have hecho : echo = Frame.encodeAll emitted := encode_of_echoes hechoes
    rw [hecho] at hleft ⊢
    exact finish_encodeAll hl hemitted hleft

-- A line with a bare carriage return, whose text is carried on to the next line; blanks in a row, a
-- line feed inside a token and a length with a sign and zeros; then a payload that runs over.
theorem found_frames_reencode_of_errors :
    let expect : String → Expectation := fun _ => .auto
    let bytes := Text.encode "P\rxUT  k\nk   +002\r\n\r\n\r\nGET é 1\r\nab\r\n"
    let moves := (List.replicate 60 [Move.offer 3, .ask]).flatten
    let f : Frame := ⟨"PUT", ["k\nk"], some Bytes.crlf⟩
    let emitted := ((start 4 8 bytes).run expect moves).frames
    let responses := emitted.map Response.ofFrame
    let one := (start 1 8 f.encode).run expect moves
    let echo := (start 64 8 (responses.flatMap Response.encode)).run expect [.offer 64]
    (8 < Numeral.bound ∧ f ∈ emitted ∧ one.left = [] ∧ Echoes emitted responses ∧
      echo.left = []) ∧
      (one.finish expect).found = [.ok f] ∧ (echo.finish expect).found = emitted.map .ok := by
  intro expect bytes moves f emitted responses one echo
  have hlimit : 8 < Numeral.bound := by decide
  have hmem : f ∈ emitted := by decide +kernel
  have hone : one.left = [] := by decide +kernel
  have hecho : echo.left = [] := by decide +kernel
  obtain ⟨hframes, hechoed⟩ := found_frames_reencode expect hlimit bytes 4 moves
  exact ⟨⟨hlimit, hmem, hone, echoes_map emitted, hecho⟩, (hframes f hmem 1 moves hone).1,
    (hechoed responses (echoes_map emitted) 64 [.offer 64] hecho).1⟩

end Feeding

end LineFrame
