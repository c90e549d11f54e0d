import LineFrame.Proofs.Serve.Runtimes
import LineFrame.Proofs.Transport.Operations

/-!
# What a script comes to

The script of a link says what comes in piece by piece.  What matters to its reader is `ahead`: the
bytes that come in before the peer closes or a read fails, and how it fails.  The pieces, the reads
that are interrupted and the waiting in between do not show in it.

Of what is sent over a link all or a front part is written (`send_ok`, `send_error`).
-/

namespace LineFrame

namespace Arrival

/-- The bytes of a whole script. -/
def incoming : List Arrival → Bytes
  | [] => []
  | .bytes data :: rest => data ++ incoming rest
  | _ :: rest => incoming rest

/-- The bytes that come in before the peer closes or a read fails, and how it fails.  A peer shows
that it has closed by giving no bytes. -/
def ahead : List Arrival → Bytes × Option IoError.Kind
  | [] => ([], none)
  | .pending :: rest => ahead rest
  | .failure kind :: rest => if kind = .interrupted then ahead rest else ([], some kind)
  | .bytes [] :: _ => ([], none)
  | .bytes (b :: data) :: rest => (b :: data ++ (ahead rest).1, (ahead rest).2)

example : ahead [.pending, .bytes [1], .failure .interrupted, .bytes [2, 3], .failure .timedOut] =
    ([1, 2, 3], some .timedOut) := rfl

theorem ahead_bytes {data : Bytes} (h : data ≠ []) (rest : List Arrival) :
    ahead (.bytes data :: rest) = (data ++ (ahead rest).1, (ahead rest).2) := by
  obtain ⟨b, data, rfl⟩ := List.exists_cons_of_ne_nil h
  rfl

theorem dropWhile_pending (as : List Arrival) :
    incoming (as.dropWhile (· == .pending)) = incoming as ∧
      ahead (as.dropWhile (· == .pending)) = ahead as := by
  induction as with
  | nil => exact ⟨rfl, rfl⟩
  | cons a as ih =>
    cases a with
    | pending => exact ih
    | bytes data => exact ⟨rfl, rfl⟩
    | failure kind => exact ⟨rfl, rfl⟩

-- What is left in front of a piece of which a read takes a part.
theorem ahead_drop {n : Nat} {data : Bytes} (hn : 0 < n) (h : data ≠ []) (rest : List Arrival) :
    let left := if (data.drop n).isEmpty then rest else .bytes (data.drop n) :: rest
    data.take n ≠ [] ∧ incoming (.bytes data :: rest) = data.take n ++ incoming left ∧
      ahead (.bytes data :: rest) = (data.take n ++ (ahead left).1, (ahead left).2) := by
  have hsplit := List.take_append_drop n data
  have htake : data.take n ≠ [] := by
    intro hnil
    rcases List.take_eq_nil_iff.1 hnil with hzero | hdata
    · omega
    · exact h hdata
  cases hleft : data.drop n with
  | nil =>
    rw [hleft, List.append_nil] at hsplit
    rw [hsplit]
    exact ⟨h, rfl, ahead_bytes h rest⟩
  | cons b more =>
    rw [hleft] at hsplit
    refine ⟨htake, ?_, ?_⟩
    · show data ++ incoming rest = data.take n ++ (b :: more ++ incoming rest)
      rw [← List.append_assoc, hsplit]
    · show _ = (data.take n ++ (b :: more ++ (ahead rest).1), (ahead rest).2)
      rw [ahead_bytes h, ← List.append_assoc, hsplit]

end Arrival

namespace Link

def incoming (l : Link) : Bytes := Arrival.incoming l.arrivals

def ahead (l : Link) : Bytes × Option IoError.Kind := Arrival.ahead l.arrivals

/-! ## Receiving -/

/-- What was ahead before a read that found this. -/
def Found (l m : Link) : Except IoError Bytes → Prop
  | .ok [] => l.ahead = ([], none) ∧ l.incoming = m.incoming
  | .ok (b :: chunk) => l.ahead = (b :: chunk ++ m.ahead.1, m.ahead.2) ∧
      l.incoming = b :: chunk ++ m.incoming
  | .error e => e = .plain e.kind ∧ l.incoming = m.incoming ∧
      l.ahead = if e.isInterrupted then m.ahead else ([], some e.kind)

theorem poll_found {n : Nat} {l m : Link} {found : Except IoError Bytes} (hn : 0 < n)
    (h : l.poll n = (some found, m)) : l.Found m found ∧ m = { l with arrivals := m.arrivals } := by
  rw [poll] at h
  split at h
  · next hl =>
    cases h
    have hahead : l.ahead = ([], none) := by rw [ahead, hl, Arrival.ahead]
    exact ⟨⟨hahead, rfl⟩, rfl⟩
  · cases h
  · next kind rest hl =>
    cases h
    refine ⟨⟨rfl, ?_, ?_⟩, rfl⟩
    · rw [incoming, hl]
      rfl
    · rw [ahead, hl, Arrival.ahead]
      cases kind <;> rfl
  · next data rest hl =>
    cases h
    refine ⟨?_, rfl⟩
    by_cases hdata : data = []
    · subst hdata
      rw [List.take_nil, List.drop_nil]
      refine ⟨?_, ?_⟩
      · rw [ahead, hl, Arrival.ahead]
      · rw [incoming, hl]
        rfl
    · obtain ⟨htake, hincoming, hahead⟩ := Arrival.ahead_drop hn hdata rest
      obtain ⟨b, chunk, hchunk⟩ := List.exists_cons_of_ne_nil htake
      rw [hchunk] at hincoming hahead ⊢
      refine ⟨?_, ?_⟩
      · rw [ahead, hl]
        exact hahead
      · rw [incoming, hl]
        exact hincoming

/-- **A read gives what is ahead, in order.** -/
theorem read_found {n : Nat} {l m : Link} {found : Except IoError Bytes} (hn : 0 < n)
    (h : Transport.read n l = (found, m)) :
    l.Found m found ∧ m = { l with arrivals := m.arrivals } := by
  have hpoll : l.awaited.poll n = (some found, m) := by
    rw [poll_awaited, show l.read n = (found, m) from h]
  obtain ⟨hfound, hsame⟩ := poll_found hn hpoll
  obtain ⟨hincoming, hahead⟩ := Arrival.dropWhile_pending l.arrivals
  have hin : l.awaited.incoming = l.incoming := hincoming
  have hah : l.awaited.ahead = l.ahead := hahead
  refine ⟨?_, hsame⟩
  unfold Found at hfound ⊢
  rw [hin, hah] at hfound
  exact hfound

/-! ## Sending -/

end Link

namespace WriteScript

/-- How many of `n` bytes the next write takes, unless it fails. -/
def allows (w : WriteScript) (n : Nat) : Nat :=
  min n (min (w.most.getD n) ((w.failure.map Prod.fst).getD n))

variable {w : WriteScript} {n left : Nat} {kind : IoError.Kind}

theorem allows_le_left (h : w.failure = some (left, kind)) : w.allows n ≤ left := by
  simp only [allows, h, Option.map_some, Option.getD_some]
  omega

theorem allows_of_most (h : w.most = some 0) : w.allows n = 0 := by
  simp only [allows, h, Option.getD_some]
  omega

-- A write takes nothing only where the script says so.
theorem most_of_allows (hn : 0 < n) (hw : w.allows n = 0)
    (hleft : ∀ kind, w.failure ≠ some (0, kind)) : w.most = some 0 := by
  have hfailure : 0 < (w.failure.map Prod.fst).getD n := by
    cases hf : w.failure with
    | none => exact hn
    | some failure =>
      obtain ⟨left, kind⟩ := failure
      apply Nat.pos_of_ne_zero
      intro hzero
      have hnone : left = 0 := hzero
      exact hleft kind (hnone ▸ hf)
  have hmost : w.most.getD n = 0 := by
    rw [allows] at hw
    omega
  cases hm : w.most with
  | none =>
    rw [hm] at hmost
    exact absurd hmost (Nat.ne_of_gt hn)
  | some most =>
    rw [hm] at hmost
    exact congrArg some hmost

end WriteScript

namespace Link

theorem taken_eq (l : Link) (bs : Bytes) : l.taken bs = bs.take (l.writes.allows bs.length) := by
  rw [taken, WriteScript.allows]
  cases l.writes.most with
  | none =>
    cases l.writes.failure with
    | none => simp
    | some failure =>
      simp only [Option.getD_none, Option.map_some, Option.getD_some, List.take_eq_take_iff]
      omega
  | some most =>
    cases l.writes.failure with
    | none =>
      simp only [Option.getD_none, Option.map_none, Option.getD_some, List.take_eq_take_iff]
      omega
    | some failure =>
      simp only [Option.map_some, Option.getD_some, List.take_eq_take_iff]
      omega

/-- All of these bytes were taken.  The link goes on as before, but that so many bytes less are
taken before a write fails. -/
structure Took (l m : Link) (bs : Bytes) : Prop where
  written : m.written = l.written ++ bs
  failure : ∀ n kind, m.writes.failure = some (n, kind) →
    l.writes.failure = some (bs.length + n, kind)
  most : m.writes.most = l.writes.most
  flushFailure : m.writes.flushFailure = l.writes.flushFailure
  /-- Nothing at all is taken by a link that never takes anything. -/
  stuck : l.writes.most = some 0 → bs = []

theorem Took.refl (l : Link) : l.Took l [] where
  written := (List.append_nil _).symm
  failure n kind h := by rw [h, List.length_nil, Nat.zero_add]
  most := rfl
  flushFailure := rfl
  stuck _ := rfl

theorem Took.trans {l m o : Link} {xs ys : Bytes} (h : l.Took m xs) (h' : m.Took o ys) :
    l.Took o (xs ++ ys) where
  written := by rw [h'.written, h.written, List.append_assoc]
  failure n kind hn := by
    rw [h.failure _ _ (h'.failure n kind hn), List.length_append, Nat.add_assoc]
  most := h'.most.trans h.most
  flushFailure := h'.flushFailure.trans h.flushFailure
  stuck hm := by rw [h.stuck hm, h'.stuck (h.most.trans hm), List.append_nil]

theorem write_ok {l m : Link} {bs : Bytes} {n : Nat} (h : Transport.write bs l = (.ok n, m)) :
    l.Took m (bs.take n) ∧ (bs ≠ [] → n = 0 → l.writes.most = some 0) := by
  have hw : l.write bs = (.ok n, m) := h
  rw [write] at hw
  split at hw
  · cases hw
  · next hleft =>
    cases hw
    have hle : l.writes.allows bs.length ≤ bs.length := Nat.min_le_left _ _
    have hlength : (l.taken bs).length = l.writes.allows bs.length := by
      rw [taken_eq, List.length_take, Nat.min_eq_left hle]
    have htake : bs.take (l.taken bs).length = l.taken bs := by rw [hlength, ← taken_eq]
    constructor
    · rw [htake]
      exact {
        written := by simp [written]
        failure := by
          intro k kind hk
          obtain ⟨⟨left, kind'⟩, hl, hsame⟩ := Option.map_eq_some_iff.1 hk
          obtain ⟨hk', rfl⟩ := Prod.mk.inj hsame
          have hroom := WriteScript.allows_le_left (n := bs.length) hl
          rw [hl]
          congr 2
          omega
        most := rfl
        flushFailure := rfl
        stuck := by
          intro hmost
          apply List.eq_nil_of_length_eq_zero
          rw [hlength, WriteScript.allows_of_most hmost] }
    · intro hbs hnone
      have hpos : 0 < bs.length := List.length_pos_iff.2 hbs
      exact WriteScript.most_of_allows hpos (hlength.symm.trans hnone) hleft

theorem write_error {l m : Link} {bs : Bytes} {e : IoError}
    (h : Transport.write bs l = (.error e, m)) :
    l.Took m [] ∧ l.writes.failure = some (0, e.kind) := by
  have hw : l.write bs = (.error e, m) := h
  rw [write] at hw
  split at hw
  · next kind hl =>
    cases hw
    refine ⟨?_, hl⟩
    exact {
      written := (List.append_nil _).symm
      failure := by
        intro n kind' hn
        cases hn
      most := rfl
      flushFailure := rfl
      stuck := fun _ => rfl }
  · cases hw

theorem flush_ok {l m : Link} (h : Transport.flush l = (.ok (), m)) : m = l := by
  have hf : l.flush = (.ok (), m) := h
  rw [flush] at hf
  split at hf <;> cases hf
  rfl

theorem flush_error {l m : Link} {e : IoError} (h : Transport.flush l = (.error e, m)) :
    m.written = l.written ∧ l.writes.flushFailure = some e.kind := by
  have hf : l.flush = (.error e, m) := h
  rw [flush] at hf
  split at hf
  · next kind hl =>
    cases hf
    exact ⟨rfl, hl⟩
  · cases hf

theorem writeAll_ok {l m : Link} {bs : Bytes} (h : Transport.writeAll bs l = (.ok (), m)) :
    l.Took m bs := by
  fun_induction Transport.writeAll bs l with
  | case1 l =>
    cases h
    exact .refl _
  | case2 l b rest v hwrite => cases h
  | case3 l b rest n v hwrite ih =>
    have htook := (write_ok hwrite).1.trans (ih h)
    rwa [List.take_succ_cons, List.cons_append, List.take_append_drop] at htook
  | case4 l b rest e v hwrite he ih => exact (write_error hwrite).1.trans (ih h)
  | case5 l b rest e v hwrite he => cases h

/-- Writes fail with an error of this kind once so many bytes were taken. -/
def FailsAfter (l : Link) (n : Nat) (kind : IoError.Kind) : Prop :=
  (l.writes.failure = some (n, kind) ∧ kind ≠ .interrupted) ∨
    (l.writes.most = some 0 ∧ n = 0 ∧ kind = .writeZero)

theorem Took.failsAfter {l m : Link} {bs : Bytes} {n : Nat} {kind : IoError.Kind}
    (h : l.Took m bs) (hm : m.FailsAfter n kind) : l.FailsAfter (bs.length + n) kind := by
  rcases hm with ⟨hfailure, hkind⟩ | ⟨hmost, rfl, rfl⟩
  · exact .inl ⟨h.failure n kind hfailure, hkind⟩
  · have hstuck := h.most.symm.trans hmost
    rw [h.stuck hstuck]
    exact .inr ⟨hstuck, rfl, rfl⟩

/-- **A write that fails has taken what the script allows**, which is not all of the bytes. -/
theorem writeAll_error {l m : Link} {bs : Bytes} {e : IoError}
    (h : Transport.writeAll bs l = (.error e, m)) :
    ∃ n < bs.length, m.written = l.written ++ bs.take n ∧ l.FailsAfter n e.kind := by
  fun_induction Transport.writeAll bs l with
  | case1 l => cases h
  | case2 l b rest v hwrite =>
    cases h
    obtain ⟨htook, hmost⟩ := write_ok hwrite
    exact ⟨0, Nat.succ_pos _, htook.written, .inr ⟨hmost (List.cons_ne_nil _ _) rfl, rfl, rfl⟩⟩
  | case3 l b rest n v hwrite ih =>
    obtain ⟨k, hk, hwritten, hfails⟩ := ih h
    have htook := (write_ok hwrite).1
    rw [List.length_drop] at hk
    have hlength : ((b :: rest).take (n + 1)).length = n + 1 := by
      rw [List.length_take, List.length_cons]
      omega
    have hafter := htook.failsAfter hfails
    rw [hlength] at hafter
    refine ⟨n + 1 + k, ?_, ?_, hafter⟩
    · rw [List.length_cons]
      omega
    · rw [hwritten, htook.written, List.append_assoc, List.take_add, List.drop_succ_cons]
  | case4 l b rest e v hwrite he ih =>
    obtain ⟨n, hn, hwritten, hfails⟩ := ih h
    have htook := (write_error hwrite).1
    have hafter := htook.failsAfter hfails
    rw [List.length_nil, Nat.zero_add] at hafter
    rw [htook.written, List.append_nil] at hwritten
    exact ⟨n, hn, hwritten, hafter⟩
  | case5 l b rest e v hwrite he =>
    cases h
    obtain ⟨htook, hfailure⟩ := write_error hwrite
    refine ⟨0, Nat.succ_pos _, htook.written, .inl ⟨hfailure, ?_⟩⟩
    intro hkind
    exact he (beq_iff_eq.2 hkind)

/-- **What fails to be sent is written up to where the script says**, if a write fails, and all of
it if the flush does. -/
theorem send_error {l m : Link} {bs : Bytes} {e : IoError}
    (h : Transport.send bs l = (.error e, m)) :
    (∃ n < bs.length, m.written = l.written ++ bs.take n ∧ l.FailsAfter n e.kind) ∨
      (m.written = l.written ++ bs ∧ l.writes.flushFailure = some e.kind) := by
  rw [Transport.send] at h
  split at h
  · next v hv =>
    have htook := writeAll_ok hv
    obtain ⟨hwritten, hfailure⟩ := flush_error h
    exact .inr ⟨hwritten.trans htook.written, htook.flushFailure.symm.trans hfailure⟩
  · next e' v hv =>
    cases h
    exact .inl (writeAll_error hv)

theorem send_ok {l m : Link} {bs : Bytes} (h : Transport.send bs l = (.ok (), m)) :
    l.Took m bs := by
  rw [Transport.send] at h
  split at h
  · next v hv =>
    rw [flush_ok h]
    exact writeAll_ok hv
  · cases h

-- Sending does not look at what is still to come.
theorem sendsThrough_arrivals (f : List Arrival → List Arrival) :
    Transport.SendsThrough fun l : Link => { l with arrivals := f l.arrivals } where
  write {bs l found m} h := by
    have hw : l.write bs = (found, m) := h
    have hsame : ({ l with arrivals := f l.arrivals } : Link).write bs =
        ((l.write bs).1, { (l.write bs).2 with arrivals := f (l.write bs).2.arrivals }) := by
      unfold write
      dsimp only
      split <;> rfl
    rw [hw] at hsame
    exact hsame
  flush {l found m} h := by
    have hf : l.flush = (found, m) := h
    have hsame : ({ l with arrivals := f l.arrivals } : Link).flush =
        ((l.flush).1, { (l.flush).2 with arrivals := f (l.flush).2.arrivals }) := by
      unfold flush
      dsimp only
      split <;> rfl
    rw [hf] at hsame
    exact hsame

theorem send_arrivals {l m : Link} {bs : Bytes} {found : Except IoError Unit}
    (h : Transport.send bs l = (found, m)) : m.arrivals = l.arrivals := by
  have hsame : Transport.send bs l = (found, { m with arrivals := l.arrivals }) :=
    Transport.send_through (sendsThrough_arrivals fun _ => l.arrivals) h
  rw [h] at hsame
  rw [(Prod.mk.inj hsame).2]

end Link

end LineFrame
