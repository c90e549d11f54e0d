import LineFrame.Proofs.Wire.Held

/-!
# What bytes decode to

The wire format, read off bytes that are all there (`Finding.decode`): a line up to its carriage
return and line feed, then the payload that it announces, with a terminator of its own.  A reader at
the start of a line finds just this (`scan_fresh`), and after a frame or a usage error it is at the
start of a line again.
-/

namespace LineFrame

namespace CommandLine

/-- The command line that a line is, given what commands expect. -/
def parse (expect : String → Expectation) (line : Bytes) : Except FrameError CommandLine :=
  match tokenize line with
  | .error e => .error e
  | .ok tokens => (Reader.expectationOf expect tokens).resolve tokens

end CommandLine

namespace Finding

/-- Whether the stream is out of step after this. -/
def fatal : Finding → Bool
  | .ok _ => false
  | .error e => e.fatal

/-- The terminator of a frame's payload, which has `declared` bytes. -/
def decodeTrailer (f : Frame) (declared : Nat) : Bytes → Option (Finding × Bytes)
  | [] => none
  | b :: rest =>
    if b = Bytes.cr then
      match rest with
      | [] => none
      | c :: rest =>
        if c = Bytes.lf then some (.ok f, rest) else some (.error .dataTerminatorMissing, rest)
    else if b = Bytes.lf then some (.error .dataTerminatorMissing, rest)
    else some (.error (.payloadOverrun declared), rest)

/-- What follows a line that announces what it does. -/
def decodeBody (limit : Nat) (line : CommandLine) (bytes : Bytes) : Option (Finding × Bytes) :=
  match line.length with
  | none => some (.ok ⟨line.name, line.args, none⟩, bytes)
  | some n =>
    if limit < n then some (.error (.payloadTooLarge n limit), bytes)
    else decodeTrailer ⟨line.name, line.args, some (bytes.take n)⟩ n (bytes.drop n)

/-- The first frame or error of bytes that start with a line, and the bytes after it.  There is none
if they end before it does. -/
def decode (expect : String → Expectation) (limit : Nat) (bytes : Bytes) :
    Option (Finding × Bytes) :=
  match bytes.dropWhile (· ≠ Bytes.cr) with
  | [] => none
  | [_] => none
  | _ :: b :: rest =>
    if b = Bytes.lf then
      match CommandLine.parse expect (bytes.takeWhile (· ≠ Bytes.cr)) with
      | .error e => some (.error e, rest)
      | .ok line => decodeBody limit line rest
    else some (.error .incompleteCommandTerminator, rest)

theorem decodeTrailer_le {f : Frame} {declared : Nat} {bytes rest : Bytes} {found : Finding}
    (h : decodeTrailer f declared bytes = some (found, rest)) : rest.length ≤ bytes.length := by
  unfold decodeTrailer at h
  split at h
  · cases h
  · next b tail =>
    split at h
    · split at h
      · cases h
      · split at h <;> cases h <;> simp only [List.length_cons] <;> omega
    · split at h <;> cases h <;> exact Nat.le_succ _

theorem decodeBody_le {limit : Nat} {line : CommandLine} {bytes rest : Bytes} {found : Finding}
    (h : decodeBody limit line bytes = some (found, rest)) : rest.length ≤ bytes.length := by
  unfold decodeBody at h
  split at h
  · cases h
    exact Nat.le_refl _
  · next n _ =>
    split at h
    · cases h
      exact Nat.le_refl _
    · have hdrop : (bytes.drop n).length ≤ bytes.length := by
        rw [List.length_drop]
        omega
      exact Nat.le_trans (decodeTrailer_le h) hdrop

-- Whatever is decoded took at least the end of a line.
theorem decode_lt {expect : String → Expectation} {limit : Nat} {bytes rest : Bytes}
    {found : Finding} (h : decode expect limit bytes = some (found, rest)) :
    rest.length < bytes.length := by
  have hsuffix := (List.dropWhile_suffix (· ≠ Bytes.cr) (l := bytes)).length_le
  unfold decode at h
  split at h
  · cases h
  · cases h
  · next c b tail hdrop =>
    rw [hdrop, List.length_cons, List.length_cons] at hsuffix
    split at h
    · split at h
      · cases h
        omega
      · have hbody := decodeBody_le h
        omega
    · cases h
      omega

/-- The frames and errors of bytes that start with a line, up to the first error after which the
stream is out of step. -/
def decodeAll (expect : String → Expectation) (limit : Nat) (bytes : Bytes) : List Finding :=
  match _h : decode expect limit bytes with
  | none => []
  | some (found, rest) => if found.fatal then [found] else found :: decodeAll expect limit rest
termination_by bytes.length
decreasing_by exact decode_lt _h

/-- What a scan leaves is what was decoded, and after anything but a fatal error it is fresh. -/
def Agrees (limit : Nat) (x : Option Finding × Held × Bytes) : Option (Finding × Bytes) → Prop
  | none => x.1 = none
  | some (f, rest) => x.1 = some f ∧ x.2.2 = rest ∧ (f.fatal = false → x.2.1 = .fresh limit)

end Finding

namespace Held

open Finding (Agrees decodeTrailer decodeBody decode)

theorem endLine_eq (expect : String → Expectation) (h : Held) :
    h.endLine expect =
      match CommandLine.parse expect h.line.reverse with
      | .error e => (some (.error e), { h with pendingCr := false, line := [] })
      | .ok line => start { h with pendingCr := false, line := [] } line := by
  rw [endLine, CommandLine.parse]
  cases CommandLine.tokenize h.line.reverse with
  | error e => rfl
  | ok tokens => rfl

theorem scan_trailer (expect : String → Expectation) (limit : Nat) (line : CommandLine)
    (payload bs : Bytes) :
    Agrees limit
      (scan expect ⟨limit, [], false, .trailer payload.length, some line, payload⟩ bs)
      (decodeTrailer ⟨line.name, line.args, some payload.reverse⟩ payload.length bs) := by
  cases bs with
  | nil => rfl
  | cons b rest =>
    by_cases hcr : b = Bytes.cr
    · subst hcr
      cases rest with
      | nil => rfl
      | cons c rest =>
        by_cases hlf : c = Bytes.lf <;>
          simp [scan, push, endPayload, decodeTrailer, Agrees, Finding.fatal, FrameError.fatal,
            fresh, hlf]
    · by_cases hlf : b = Bytes.lf
      · subst hlf
        simp [scan, push, decodeTrailer, Agrees, Finding.fatal, FrameError.fatal, Bytes.lf,
          Bytes.cr]
      · simp [scan, push, decodeTrailer, Agrees, Finding.fatal, FrameError.fatal, hcr, hlf]

-- What follows the line feed of a line that is well-formed.
theorem scan_start (expect : String → Expectation) (limit : Nat) (line : CommandLine) (bs : Bytes) :
    Agrees limit
      (match (fresh limit).start line with
        | (none, g) => g.scan expect bs
        | (some found, g) => (some found, g, bs))
      (decodeBody limit line bs) := by
  unfold start decodeBody
  cases hl : line.length with
  | none => exact ⟨rfl, rfl, fun _ => rfl⟩
  | some n =>
    by_cases hlim : limit < n
    · dsimp only
      rw [if_pos (show (fresh limit).limit < n from hlim), if_pos hlim]
      exact ⟨rfl, rfl, nofun⟩
    · dsimp only
      rw [if_neg (show ¬ (fresh limit).limit < n from hlim), if_neg hlim]
      cases n with
      | zero => exact scan_trailer expect limit line [] bs
      | succ n =>
        show Agrees limit
          (scan expect ⟨limit, [], false, .payload (n + 1) (n + 1), some line, []⟩ bs) _
        rw [scan_payload rfl]
        by_cases hlen : bs.length < n + 1
        · rw [if_pos hlen, List.drop_eq_nil_of_le (by omega)]
          exact rfl
        · have htake : (bs.take (n + 1)).length = n + 1 := by
            rw [List.length_take]; omega
          have htail := scan_trailer expect limit line (bs.take (n + 1)).reverse (bs.drop (n + 1))
          rw [List.length_reverse, List.reverse_reverse, htake] at htail
          rw [if_neg hlen, List.append_nil]
          exact htail

/-- **A reader at the start of a line finds what the bytes decode to.** -/
theorem scan_fresh (expect : String → Expectation) (limit : Nat) (bs : Bytes) :
    Agrees limit ((fresh limit).scan expect bs) (decode expect limit bs) := by
  rw [scan_line rfl rfl, decode]
  cases hrest : bs.dropWhile (· ≠ Bytes.cr) with
  | nil => exact rfl
  | cons c rest =>
    cases rest with
    | nil => exact rfl
    | cons b rest =>
      by_cases hlf : b = Bytes.lf
      · subst hlf
        let h : Held :=
          ⟨limit, (bs.takeWhile (· ≠ Bytes.cr)).reverse ++ [], true, .line, none, []⟩
        have hpush : h.push expect Bytes.lf = h.endLine expect := rfl
        show Agrees limit (h.scan expect (Bytes.lf :: rest)) _
        rw [scan, hpush, endLine_eq, show h.line.reverse = bs.takeWhile (· ≠ Bytes.cr) by simp [h]]
        simp only [if_true]
        cases CommandLine.parse expect (bs.takeWhile (· ≠ Bytes.cr)) with
        | error e => exact ⟨rfl, rfl, fun _ => rfl⟩
        | ok line => exact scan_start expect limit line rest
      · simp [scan, push, Agrees, fresh, Finding.fatal, FrameError.fatal, hlf]

-- A frame or error that bytes start with is the first one that a fresh reader finds in them.
theorem feed_of_decode_some {expect : String → Expectation} {limit : Nat} {bs rest : Bytes}
    {f : Finding} (h : decode expect limit bs = some (f, rest)) :
    ∃ g, (fresh limit).feed expect bs = (f :: (feed expect g rest).1, (feed expect g rest).2) ∧
      (f.fatal = false → g = fresh limit) := by
  have hscan := scan_fresh expect limit bs
  rw [h] at hscan
  obtain ⟨hf, hrest, hg⟩ := hscan
  refine ⟨((fresh limit).scan expect bs).2.1, feed_of_scan_some ?_, hg⟩
  rw [← hf, ← hrest]

theorem feed_of_decode_none {expect : String → Expectation} {limit : Nat} {bs : Bytes}
    (h : decode expect limit bs = none) : ((fresh limit).feed expect bs).1 = [] := by
  have hscan := scan_fresh expect limit bs
  rw [h] at hscan
  have hnone : (fresh limit).scan expect bs =
      (none, ((fresh limit).scan expect bs).2.1, ((fresh limit).scan expect bs).2.2) :=
    Prod.ext hscan rfl
  rw [(feed_of_scan_none hnone).1]

end Held

end LineFrame
