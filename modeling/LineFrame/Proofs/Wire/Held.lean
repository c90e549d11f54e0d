import LineFrame.Wire.Reader

/-!
# The reader, byte by byte

`Reader.nextFrame` works on whatever stretch of bytes has been received.  What it does is described
here one byte at a time: `Held` is a reader without its buffer, and `Held.push` takes it past one
byte, at which a frame may be complete or an error be found.

`nextFrame_eq_scan` says that a call is `push` on byte after byte until something is found, and
`exhaust_eq_feed` that calls repeated until nothing more is found are `push` on every unread byte.
Where one stretch ends and the next begins does not show in either.
-/

namespace LineFrame

/-- A frame or an error: what a call of `Reader.nextFrame` finds, if it finds anything. -/
abbrev Finding := Except FrameError Frame

/-- Nothing if the unread bytes did not complete a frame. -/
def Finding.of? : Except FrameError (Option Frame) → Option Finding
  | .ok none => none
  | .ok (some f) => some (.ok f)
  | .error e => some (.error e)

theorem Finding.of?_injective {a b : Except FrameError (Option Frame)}
    (h : Finding.of? a = Finding.of? b) : a = b := by
  rcases a with _ | _ | _ <;> rcases b with _ | _ | _ <;> cases h <;> rfl

/-- A reader without its buffer: what it carries from one reception to the next. -/
structure Held where
  limit : Nat
  line : Bytes
  pendingCr : Bool
  phase : Reader.Phase
  announced : Option CommandLine
  payload : Bytes
deriving DecidableEq, Repr

def Reader.held (r : Reader) : Held :=
  ⟨r.limit, r.line, r.pendingCr, r.phase, r.announced, r.payload⟩

namespace Held

/-- Nothing of a frame is held. -/
def fresh (limit : Nat) : Held := ⟨limit, [], false, .line, none, []⟩

/-- A payload phase owes at least one byte. -/
def Sound (h : Held) : Prop := ∀ declared, h.phase ≠ .payload declared 0

/-! ## One byte -/

/-- Starts the payload of an announced length, or ends a frame without payload. -/
def start (h : Held) (line : CommandLine) : Option Finding × Held :=
  match line.length with
  | none => (some (.ok ⟨line.name, line.args, none⟩), h)
  | some n =>
    if h.limit < n then (some (.error (.payloadTooLarge n h.limit)), h)
    else
      let phase := if n = 0 then .trailer 0 else .payload n n
      (none, { h with payload := [], phase, announced := some line })

/-- The line feed that ends a line. -/
def endLine (expect : String → Expectation) (h : Held) : Option Finding × Held :=
  let left := { h with pendingCr := false, line := [] }
  match CommandLine.tokenize h.line.reverse with
  | .error e => (some (.error e), left)
  | .ok tokens =>
    match (Reader.expectationOf expect tokens).resolve tokens with
    | .error e => (some (.error e), left)
    | .ok line => left.start line

/-- The line feed that ends a payload. -/
def endPayload (h : Held) (declared : Nat) : Option Finding × Held :=
  let left := { h with pendingCr := false, phase := .line, payload := [] }
  if h.payload.length = declared then
    match h.announced with
    | some line =>
      (some (.ok ⟨line.name, line.args, some h.payload.reverse⟩), { left with announced := none })
    | none => (some (.error .dataTerminatorMissing), left)
  else (some (.error (.payloadLengthMismatch declared h.payload.length)), left)

def push (expect : String → Expectation) (h : Held) (b : UInt8) : Option Finding × Held :=
  match h.phase with
  | .line =>
    if h.pendingCr then
      if b = Bytes.lf then h.endLine expect
      else (some (.error .incompleteCommandTerminator), { h with pendingCr := false })
    else if b = Bytes.cr then (none, { h with pendingCr := true })
    else (none, { h with line := b :: h.line })
  | .payload declared remaining =>
    let phase := if remaining ≤ 1 then .trailer declared else .payload declared (remaining - 1)
    (none, { h with payload := b :: h.payload, phase })
  | .trailer declared =>
    if h.pendingCr then
      if b = Bytes.lf then h.endPayload declared
      else (some (.error .dataTerminatorMissing), { h with pendingCr := false })
    else if b = Bytes.cr then (none, { h with pendingCr := true })
    else if b = Bytes.lf then (some (.error .dataTerminatorMissing), h)
    else (some (.error (.payloadOverrun declared)), h)

/-! ## Stretches of bytes -/

/-- Up to the byte at which something is found: what is found, and the bytes after it. -/
def scan (expect : String → Expectation) (h : Held) : Bytes → Option Finding × Held × Bytes
  | [] => (none, h, [])
  | b :: bs =>
    match h.push expect b with
    | (none, g) => g.scan expect bs
    | (some found, g) => (some found, g, bs)

/-- Past all of the bytes: what is found on the way, in order. -/
def feed (expect : String → Expectation) (h : Held) : Bytes → List Finding × Held
  | [] => ([], h)
  | b :: bs =>
    let (found, g) := h.push expect b
    let (more, g) := g.feed expect bs
    (found.toList ++ more, g)

variable {expect : String → Expectation}

theorem feed_cons (h : Held) (b : UInt8) (bs : Bytes) :
    h.feed expect (b :: bs) =
      ((h.push expect b).1.toList ++ ((h.push expect b).2.feed expect bs).1,
        ((h.push expect b).2.feed expect bs).2) := rfl

theorem feed_append (h : Held) (xs ys : Bytes) :
    h.feed expect (xs ++ ys) =
      let (found, g) := h.feed expect xs
      let (more, g) := g.feed expect ys
      (found ++ more, g) := by
  induction xs generalizing h with
  | nil => rfl
  | cons b xs ih => simp only [List.cons_append, feed, ih, List.append_assoc]

-- A scan that finds something has fed the bytes up to there.
theorem feed_of_scan_some {h g : Held} {bs rest : Bytes} {found : Finding}
    (hs : h.scan expect bs = (some found, g, rest)) :
    h.feed expect bs = (found :: (g.feed expect rest).1, (g.feed expect rest).2) := by
  induction bs generalizing h with
  | nil => cases hs
  | cons b bs ih =>
    rw [scan] at hs
    rw [feed_cons]
    split at hs
    -- nothing is found at this byte, so the scan goes on after it
    · next k hk => rw [hk, ih hs]; rfl
    · next f k hk => cases hs; rw [hk]; rfl

theorem feed_of_scan_none {h g : Held} {bs rest : Bytes} (hs : h.scan expect bs = (none, g, rest)) :
    h.feed expect bs = ([], g) ∧ rest = [] := by
  induction bs generalizing h with
  | nil => cases hs; exact ⟨rfl, rfl⟩
  | cons b bs ih =>
    rw [scan] at hs
    rw [feed_cons]
    split at hs
    · next k hk => rw [hk, (ih hs).1]; exact ⟨rfl, (ih hs).2⟩
    · cases hs

-- The bytes of a line before its carriage return are scanned in one go.
theorem scan_line {h : Held} (hp : h.phase = .line) (hc : h.pendingCr = false) (bs : Bytes) :
    h.scan expect bs =
      match bs.dropWhile (· ≠ Bytes.cr) with
      | [] => (none, { h with line := bs.reverse ++ h.line }, [])
      | _ :: rest =>
        let text := bs.takeWhile (· ≠ Bytes.cr)
        scan expect { h with line := text.reverse ++ h.line, pendingCr := true } rest := by
  induction bs generalizing h with
  | nil => rfl
  | cons b bs ih =>
    by_cases hb : b = Bytes.cr
    · -- the text ends here, and what follows is scanned by the reader that awaits the line feed
      subst hb
      rw [scan, push, hp]
      simp [hc]
    · have hpush : h.push expect b = (none, { h with line := b :: h.line }) := by
        rw [push, hp]
        simp [hc, hb]
      rw [scan, hpush]
      dsimp only
      rw [ih (h := { h with line := b :: h.line }) hp hc,
        List.dropWhile_cons_of_pos (by simpa using hb),
        List.takeWhile_cons_of_pos (by simpa using hb)]
      simp only [List.reverse_cons, List.append_assoc, List.singleton_append]

-- The bytes that a payload owes are scanned in one go.
theorem scan_payload {h : Held} {declared remaining : Nat}
    (hp : h.phase = .payload declared (remaining + 1)) (bs : Bytes) :
    h.scan expect bs =
      if bs.length < remaining + 1 then
        (none, { h with payload := bs.reverse ++ h.payload,
                        phase := .payload declared (remaining + 1 - bs.length) }, [])
      else
        scan expect { h with payload := (bs.take (remaining + 1)).reverse ++ h.payload,
                             phase := .trailer declared } (bs.drop (remaining + 1)) := by
  induction bs generalizing h remaining with
  | nil =>
    obtain ⟨limit, line, pendingCr, phase, announced, payload⟩ := h
    cases hp
    simp [scan]
  | cons b bs ih =>
    -- the last byte that is owed, or one of several: only the last one changes the kind of phase
    cases remaining with
    | zero =>
      have hpush : h.push expect b =
          (none, { h with payload := b :: h.payload, phase := .trailer declared }) := by
        rw [push, hp]
        rfl
      rw [scan, hpush]
      simp
    | succ remaining =>
      have hpush : h.push expect b = (none, { h with
          payload := b :: h.payload, phase := .payload declared (remaining + 1) }) := by
        rw [push, hp]
        simp
      rw [scan, hpush]
      dsimp only
      rw [ih (h := { h with payload := b :: h.payload, phase := .payload declared (remaining + 1) })
        rfl]
      simp only [List.length_cons, Nat.add_lt_add_iff_right, List.reverse_cons, List.append_assoc,
        List.singleton_append, List.take_succ_cons, List.drop_succ_cons, Nat.add_sub_add_right]

/-! ## Soundness -/

theorem fresh_sound (limit : Nat) : (fresh limit).Sound := nofun

theorem start_sound {h : Held} (hs : h.Sound) (line : CommandLine) : (h.start line).2.Sound := by
  unfold start
  split
  · exact hs
  · next n _ =>
    split
    · exact hs
    · intro declared
      cases n <;> simp

theorem push_sound (expect : String → Expectation) {h : Held} (hs : h.Sound) (b : UInt8) :
    (h.push expect b).2.Sound := by
  unfold push
  cases hp : h.phase with
  | line =>
    dsimp only
    split
    · split
      · unfold endLine
        have hleft : Sound { h with pendingCr := false, line := [] } := hs
        dsimp only
        split
        · exact hleft
        · split
          · exact hleft
          · exact start_sound hleft _
      · nofun
    · split <;> nofun
  | payload declared remaining =>
    -- the phase becomes a trailer before it owes nothing
    intro d
    by_cases hlast : remaining ≤ 1
    · simp [hlast]
    · simp only [if_neg hlast, ne_eq, Reader.Phase.payload.injEq, not_and]
      omega
  | trailer declared =>
    dsimp only
    split
    · split
      · intro d
        unfold endPayload
        split
        · split <;> simp
        · simp
      · nofun
    · split
      · nofun
      · split <;> exact hs

theorem scan_sound (expect : String → Expectation) {h : Held} (hs : h.Sound) (bs : Bytes) :
    (h.scan expect bs).2.1.Sound := by
  induction bs generalizing h with
  | nil => exact hs
  | cons b bs ih =>
    have hpush := push_sound expect hs b
    rw [scan]
    split
    · next g hg => rw [hg] at hpush; exact ih hpush
    · next found g hg => rw [hg] at hpush; exact hpush

end Held

/-! ## The reader's steps -/

namespace Reader

variable {expect : String → Expectation}

/-- What a call leaves to be seen, but for the buffer's layout. -/
def seen (x : Except FrameError (Option Frame) × Reader) : Option Finding × Held × Bytes :=
  (Finding.of? x.1, x.2.held, x.2.unread)

-- Two readers at the same payload finish the frame in the same way.
theorem finishFrame_congr {r s : Reader} (h : r.nextPayload = s.nextPayload) :
    r.finishFrame = s.finishFrame := by
  rw [finishFrame, h, finishFrame]

theorem finishFrame_trailer_cr {r : Reader} {declared : Nat} (hp : r.phase = .trailer declared)
    (hc : r.pendingCr = true) : seen r.finishFrame = r.held.scan expect r.unread := by
  obtain ⟨⟨capacity, position, unread⟩, limit, line, pendingCr, phase, announced, payload⟩ := r
  cases hp
  cases hc
  cases unread with
  | nil => rfl
  | cons b rest =>
    by_cases hlf : b = Bytes.lf
    · by_cases hlen : payload.length = declared
      · cases announced <;>
          simp [finishFrame, nextPayload, readTrailer, endTrailer, Reader.unread, consume,
            Buffer.consume, seen, held, Held.scan, Held.push, Held.endPayload, Finding.of?,
            hlf, hlen]
      · simp [finishFrame, nextPayload, readTrailer, endTrailer, Reader.unread, consume,
          Buffer.consume, seen, held, Held.scan, Held.push, Held.endPayload, Finding.of?, hlf, hlen]
    · simp [finishFrame, nextPayload, readTrailer, endTrailer, Reader.unread, consume,
        Buffer.consume, seen, held, Held.scan, Held.push, Finding.of?, hlf]

theorem finishFrame_trailer {r : Reader} {declared : Nat} (hp : r.phase = .trailer declared) :
    seen r.finishFrame = r.held.scan expect r.unread := by
  by_cases hc : r.pendingCr = true
  · exact finishFrame_trailer_cr hp hc
  · obtain ⟨⟨capacity, position, unread⟩, limit, line, pendingCr, phase, announced, payload⟩ := r
    cases hp
    rw [Bool.not_eq_true] at hc
    cases hc
    cases unread with
    | nil => rfl
    | cons b rest =>
      by_cases hcr : b = Bytes.cr
      · -- from the carriage return on, it is the reader that waits for the line feed
        subst hcr
        let s : Reader :=
          ⟨⟨capacity, position + 1, rest⟩, limit, line, true, .trailer declared, announced, payload⟩
        exact finishFrame_trailer_cr (r := s) rfl rfl
      · by_cases hlf : b = Bytes.lf
        · subst hlf
          rfl
        · simp [finishFrame, nextPayload, readTrailer, Reader.unread, consume, Buffer.consume, seen,
            held, Held.scan, Held.push, Finding.of?, hcr, hlf]

theorem finishFrame_payload {r : Reader} {declared remaining : Nat}
    (hp : r.phase = .payload declared (remaining + 1)) :
    seen r.finishFrame = r.held.scan expect r.unread := by
  rw [Held.scan_payload hp]
  by_cases hlen : r.unread.length < remaining + 1
  · -- all of the unread bytes are payload
    have htake : r.unread.take (remaining + 1) = r.unread := List.take_of_length_le (by omega)
    have hnext : r.nextPayload = (.ok none, { r.consume r.unread.length with
        payload := r.unread.reverse ++ r.payload,
        phase := .payload declared (remaining + 1 - r.unread.length) }) := by
      rw [nextPayload, hp]
      simp only [htake, if_pos hlen, consume]
    rw [if_pos hlen, finishFrame, hnext]
    simp [seen, held, Finding.of?, consume, Reader.unread]
  · -- the payload is complete, and it is the reader `s` that goes on with the trailer
    have htake : (r.unread.take (remaining + 1)).length = remaining + 1 := by
      rw [List.length_take]; omega
    let s : Reader := { r.consume (remaining + 1) with
      payload := (r.unread.take (remaining + 1)).reverse ++ r.payload, phase := .trailer declared }
    have hnext : r.nextPayload = s.nextPayload := by
      rw [nextPayload, hp]
      simp only [htake, Nat.lt_irrefl, if_false]
      rfl
    rw [if_neg hlen, finishFrame_congr hnext]
    exact finishFrame_trailer (r := s) rfl

-- What follows a line's line feed.
theorem startFrame_eq (expect : String → Expectation) (r : Reader) (line : CommandLine) :
    seen (r.startFrame line) =
      match r.held.start line with
      | (none, g) => g.scan expect r.unread
      | (some found, g) => (some found, g, r.unread) := by
  rw [startFrame, Held.start]
  cases hl : line.length with
  | none => rfl
  | some n =>
    by_cases hlim : r.limit < n
    · simp [beginPayload, held, hlim, seen, Finding.of?]
    · cases n with
      | zero =>
        have hread : _ = Held.scan expect _ _ := finishFrame_trailer
          (r := { r with payload := [], phase := .trailer 0, announced := some line }) rfl
        simpa [beginPayload, held, Reader.unread, hlim] using hread
      | succ n =>
        have hread : _ = Held.scan expect _ _ := finishFrame_payload (r :=
          { r with payload := [], phase := .payload (n + 1) (n + 1), announced := some line }) rfl
        simpa [beginPayload, held, Reader.unread, hlim] using hread

-- What follows a line's carriage return.
theorem nextFrame_line_cr {r : Reader} (hp : r.phase = .line) (hc : r.pendingCr = true) :
    seen (r.nextFrame expect) = r.held.scan expect r.unread := by
  obtain ⟨⟨capacity, position, unread⟩, limit, line, pendingCr, phase, announced, payload⟩ := r
  cases hp
  cases hc
  cases unread with
  | nil => rfl
  | cons b rest =>
    by_cases hlf : b = Bytes.lf
    · subst hlf
      -- the reader past the line feed, with which the tokens of the line are found
      let s : Reader :=
        ⟨⟨capacity, position + 1, rest⟩, limit, [], false, .line, announced, payload⟩
      cases htok : CommandLine.tokenize line.reverse with
      | error e =>
        simp [nextFrame, nextLine, endLine, Reader.unread, consume, Buffer.consume, seen, held,
          Held.scan, Held.push, Held.endLine, Finding.of?, htok, Except.map]
      | ok tokens =>
        cases hres : (expectationOf expect tokens).resolve tokens with
        | error e =>
          simp [nextFrame, nextLine, endLine, Reader.unread, consume, Buffer.consume, seen, held,
            Held.scan, Held.push, Held.endLine, Finding.of?, htok, hres, Except.map]
        | ok found =>
          refine Eq.trans ?_ (Eq.trans (startFrame_eq expect s found) ?_)
          · simp [nextFrame, nextLine, endLine, Reader.unread, consume, Buffer.consume, htok, hres,
              Except.map, s]
          · simp [Held.scan, Held.push, Held.endLine, held, Reader.unread, htok, hres, s]
    · simp [nextFrame, nextLine, endLine, Reader.unread, consume, Buffer.consume, seen, held,
        Held.scan, Held.push, Finding.of?, hlf]

theorem drop_takeWhile (p : UInt8 → Bool) (bs : Bytes) :
    bs.drop (bs.takeWhile p).length = bs.dropWhile p := by
  have h : (bs.takeWhile p ++ bs.dropWhile p).drop (bs.takeWhile p).length = bs.dropWhile p :=
    List.drop_left
  rw [List.takeWhile_append_dropWhile] at h
  exact h

-- What follows the bytes of a line before its carriage return.
theorem nextFrame_line {r : Reader} (hp : r.phase = .line) (hc : r.pendingCr = false) :
    seen (r.nextFrame expect) = r.held.scan expect r.unread := by
  have hsplit : ({ r.consume (r.unread.takeWhile (· ≠ Bytes.cr)).length with
      line := (r.unread.takeWhile (· ≠ Bytes.cr)).reverse ++ r.line } : Reader).unread =
      r.unread.dropWhile (· ≠ Bytes.cr) := drop_takeWhile _ _
  rw [Held.scan_line hp hc]
  cases hrest : r.unread.dropWhile (· ≠ Bytes.cr) with
  | nil =>
    -- there is no carriage return yet: all of the unread bytes go to the line
    have hall : r.unread.takeWhile (· ≠ Bytes.cr) = r.unread := by
      have h : r.unread.takeWhile (· ≠ Bytes.cr) ++ r.unread.dropWhile (· ≠ Bytes.cr) = r.unread :=
        List.takeWhile_append_dropWhile
      rw [hrest, List.append_nil] at h
      exact h
    have hscan : r.scanLine =
        { r.consume r.unread.length with line := r.unread.reverse ++ r.line } := by
      rw [scanLine]
      dsimp only
      rw [hsplit, hrest, hall]
    have hnext : r.nextLine = (.ok none, r.scanLine) := by
      rw [nextLine, hc]
      simp [hscan, consume, hc]
    rw [nextFrame, if_pos hp, hnext, hscan]
    simp [seen, held, Finding.of?, consume, Reader.unread]
  | cons b rest =>
    -- past the carriage return it is the reader `s` that looks for the line feed
    let s : Reader := { (r.consume (r.unread.takeWhile (· ≠ Bytes.cr)).length).consume 1 with
      line := (r.unread.takeWhile (· ≠ Bytes.cr)).reverse ++ r.line, pendingCr := true }
    have hscan : r.scanLine = s := by
      rw [scanLine]
      dsimp only
      rw [hsplit, hrest]
      rfl
    have hnext : r.nextLine = s.nextLine := by
      rw [nextLine, hc, nextLine]
      simp [hscan, s]
    have hs : r.nextFrame expect = s.nextFrame expect := by
      rw [nextFrame, nextFrame, hnext, if_pos hp, if_pos (show s.phase = .line from hp)]
    have hrest' : s.unread = rest := by
      have h : s.unread = (r.unread.dropWhile (· ≠ Bytes.cr)).drop 1 := by
        rw [← hsplit]
        rfl
      rw [h, hrest]
      rfl
    have hread : _ = Held.scan expect _ _ := nextFrame_line_cr (r := s) hp rfl
    rw [hs, hread, hrest']
    rfl

/-- **A call takes the held state past byte after byte, until something is found.** -/
theorem nextFrame_eq_scan {r : Reader} (hs : r.held.Sound) :
    seen (r.nextFrame expect) = r.held.scan expect r.unread := by
  have hrest : r.phase ≠ .line → r.nextFrame expect = r.finishFrame := by
    intro hp
    rw [nextFrame, if_neg hp]
  cases hp : r.phase with
  | line =>
    by_cases hc : r.pendingCr = true
    · exact nextFrame_line_cr hp hc
    · exact nextFrame_line hp (Bool.not_eq_true _ ▸ hc)
  | payload declared remaining =>
    rw [hrest (by rw [hp]; nofun)]
    cases remaining with
    -- no reader is in a payload phase that owes nothing, which `push` would take a byte in
    | zero => exact absurd hp (hs declared)
    | succ remaining => exact finishFrame_payload hp
  | trailer declared =>
    rw [hrest (by rw [hp]; nofun)]
    exact finishFrame_trailer hp

theorem scan_of_nextFrame {r s : Reader} {found : Except FrameError (Option Frame)}
    (hs : r.held.Sound) (h : r.nextFrame expect = (found, s)) :
    r.held.scan expect r.unread = (Finding.of? found, s.held, s.unread) := by
  rw [← nextFrame_eq_scan hs, h]
  rfl

theorem nextFrame_sound {r s : Reader} {found : Except FrameError (Option Frame)}
    (hs : r.held.Sound) (h : r.nextFrame expect = (found, s)) : s.held.Sound := by
  have hscan := Held.scan_sound expect hs r.unread
  rw [scan_of_nextFrame hs h] at hscan
  exact hscan

end Reader

end LineFrame
