import Mathlib.Data.List.Induction
import LineFrame.Proofs.Wire.RoundTrip

/-!
# What a line is taken for

A command may expect a payload or not, or leave it to its last argument.  The three readings of a
line agree as far as they can (`expectations_agree`): a command that leaves it open is read like one
that expects a payload if its last argument is a numeral of a 64 bit word, and otherwise like one
that expects none.

Such a numeral is the shortest one of its value, after any zeros and one plus sign at most
(`Numeral.denotes_iff_padded`).
-/

namespace LineFrame

namespace Numeral

/-- The numeral of `n` with so many zeros in front, and maybe a plus sign before these. -/
def padded (plus : Bool) (zeros n : Nat) : String :=
  String.ofList ((if plus then ['+'] else []) ++ List.replicate zeros '0') ++ write n

theorem digitChar_value {c : Char} (h : c.isDigit = true) :
    c.toNat - '0'.toNat < 10 ∧ (c.toNat - '0'.toNat).digitChar = c := by
  have hrange : 48 ≤ c.toNat ∧ c.toNat ≤ 57 := by
    rw [Char.isDigit, Bool.and_eq_true, decide_eq_true_iff, decide_eq_true_iff] at h
    exact h
  have hzero : '0'.toNat = 48 := rfl
  have hlt : c.toNat - '0'.toNat < 10 := by omega
  refine ⟨hlt, ?_⟩
  rw [← Char.toNat_inj, Nat.toNat_digitChar_of_lt_ten hlt]
  omega

-- Digits are the shortest ones of their value, but for zeros in front.
theorem exists_zeros {cs : List Char} (hne : cs ≠ []) (hdigit : ∀ c ∈ cs, c.isDigit = true) :
    ∃ zeros, cs = List.replicate zeros '0' ++ Nat.toDigits 10 (Nat.ofDigitChars 10 cs 0) := by
  induction cs using List.reverseRecOn with
  | nil => exact absurd rfl hne
  | append_singleton cs c ih =>
    obtain ⟨hlt, hc⟩ := digitChar_value (hdigit c (by simp))
    have hvalue : Nat.ofDigitChars 10 (cs ++ [c]) 0 =
        10 * Nat.ofDigitChars 10 cs 0 + (c.toNat - '0'.toNat) := by
      rw [Nat.ofDigitChars_append, Nat.ofDigitChars_cons, Nat.ofDigitChars_nil]
    rw [hvalue]
    generalize c.toNat - '0'.toNat = d at hlt hc
    have hlast : Nat.toDigits 10 d = [c] := by rw [Nat.toDigits_of_lt_base hlt, hc]
    by_cases hcs : cs = []
    · subst hcs
      exact ⟨0, by simp [hlast]⟩
    · obtain ⟨zeros, hzeros⟩ := ih hcs fun e he => hdigit e (List.mem_append_left _ he)
      generalize Nat.ofDigitChars 10 cs 0 = v at hzeros
      by_cases hv : v = 0
      · -- the digits before the last one are zeros, down to the shortest numeral of nothing
        subst hv
        refine ⟨zeros + 1, ?_⟩
        rw [Nat.mul_zero, Nat.zero_add, hlast, hzeros, List.replicate_succ']
        rfl
      · refine ⟨zeros, ?_⟩
        rw [← Nat.toDigits_append_toDigits (by decide) (Nat.pos_of_ne_zero hv) hlt, hlast,
          ← List.append_assoc, ← hzeros]

/-- **A numeral is the shortest one of its value, after any zeros and one plus sign at most.** -/
theorem denotes_iff_padded (token : String) (n : Nat) :
    Denotes token n ↔ n < UInt64.size ∧ ∃ plus zeros, token = padded plus zeros n := by
  have hwrite : (write n).toList = Nat.toDigits 10 n := by
    rw [write, Nat.repr_eq_ofList_toDigits, String.toList_ofList]
  have hpadded (plus : Bool) (zeros : Nat) : (padded plus zeros n).toList =
      (if plus then ['+'] else []) ++ (List.replicate zeros '0' ++ Nat.toDigits 10 n) := by
    rw [padded, String.toList_append, String.toList_ofList, hwrite, List.append_assoc]
  constructor
  · rintro ⟨digits, hsign, hne, hdigit, rfl, hbound⟩
    obtain ⟨zeros, hzeros⟩ := exists_zeros hne hdigit
    refine ⟨hbound, ?_⟩
    rcases hsign with hplain | hplus
    · refine ⟨false, zeros, String.toList_inj.mp ?_⟩
      rw [hpadded, hplain, ← hzeros]
      rfl
    · refine ⟨true, zeros, String.toList_inj.mp ?_⟩
      rw [hpadded, hplus, ← hzeros]
      rfl
  · rintro ⟨hbound, plus, zeros, rfl⟩
    refine ⟨List.replicate zeros '0' ++ Nat.toDigits 10 n, ?_, ?_, ?_, ?_, hbound⟩
    · rw [hpadded]
      cases plus
      · exact .inl rfl
      · exact .inr rfl
    · intro hnil
      exact Nat.toDigits_ne_nil (List.append_eq_nil_iff.mp hnil).2
    · intro c hc
      rcases List.mem_append.mp hc with hc | hc
      · rw [(List.mem_replicate.mp hc).2]
        rfl
      · exact Nat.isDigit_of_mem_toDigits (by decide) (by decide) hc
    · rw [Nat.ofDigitChars_append, Nat.ofDigitChars_replicate_zero, Nat.mul_zero,
        Nat.ofDigitChars_ten_toDigits]

end Numeral

namespace Expectation

theorem splitLength_eq_some_iff {args rest : List String} {n : Nat} :
    splitLength args = some (rest, n) ↔
      ∃ token, args = rest ++ [token] ∧ Numeral.Denotes token n := by
  cases args using List.reverseRecOn with
  | nil => exact iff_of_false nofun fun ⟨_, h, _⟩ => by simp at h
  | append_singleton before last =>
    have hread : splitLength (before ++ [last]) = some (rest, n) ↔
        Numeral.read? last = some n ∧ before = rest := by
      simp only [splitLength, List.getLast?_concat, Option.bind_some, List.dropLast_concat]
      cases Numeral.read? last <;> simp [and_comm]
    rw [hread, Numeral.read?_eq_some_iff]
    constructor
    · rintro ⟨hn, rfl⟩
      exact ⟨last, rfl, hn⟩
    · rintro ⟨token, happend, hn⟩
      obtain ⟨rfl, hlast⟩ := List.append_inj' happend rfl
      cases hlast
      exact ⟨hn, rfl⟩

theorem resolve_always_iff {name : String} {args : List String} {line : CommandLine} :
    always.resolve (name :: args) = .ok line ↔
      ∃ rest n, line = ⟨name, rest, some n⟩ ∧ splitLength args = some (rest, n) := by
  simp [resolve_eq_ok_iff]

theorem resolve_auto_iff {name : String} {args : List String} {line : CommandLine} :
    auto.resolve (name :: args) = .ok line ↔
      line = ⟨name, args, none⟩ ∧ splitLength args = none ∨
        always.resolve (name :: args) = .ok line := by
  simp [resolve_eq_ok_iff]

-- A line without a length at its end is one without payload, or it is refused.
theorem resolve_of_no_length {name : String} {args : List String} (h : splitLength args = none) :
    auto.resolve (name :: args) = never.resolve (name :: args) ∧
      always.resolve (name :: args) =
        .error (.invalidCommand s!"{name} requires a trailing data length") := by
  simp [resolve, h]

/-- **The three readings of a line agree.**  Without a payload every token is kept.  A line that can
be read with a payload is read in the same way if that is left open, and it is read with a length
just then; any other line is read as one without payload if it is left open, and is refused if a
payload is expected.

Whatever is expected, the name and the arguments that a line is read with, and the token that was
taken for a length, if one was, are the tokens of the line, in order; and the length is what that
token denotes.  Where a payload is expected, a line has the length `n` if its last argument is the
shortest numeral of `n`, after any zeros and one plus sign at most, and `n` fits in 64 bits. -/
theorem expectations_agree (name : String) (args : List String) :
    let tokens := name :: args
    never.resolve tokens = .ok ⟨name, args, none⟩ ∧
      (∀ line, always.resolve tokens = .ok line ↔
        auto.resolve tokens = .ok line ∧ line.length.isSome) ∧
      ((∃ line, always.resolve tokens = .ok line) ∨
        auto.resolve tokens = never.resolve tokens ∧ always.resolve tokens =
          .error (.invalidCommand s!"{name} requires a trailing data length")) ∧
      (∀ e line, resolve e tokens = .ok line → ∃ dropped : Option String,
        line.name :: line.args ++ dropped.toList = tokens ∧
          Option.Rel Numeral.Denotes dropped line.length) ∧
      ∀ rest n, always.resolve tokens = .ok ⟨name, rest, some n⟩ ↔
        n < UInt64.size ∧ ∃ plus zeros, args = rest ++ [Numeral.padded plus zeros n] := by
  intro tokens
  refine ⟨rfl, fun line => ?_, ?_, fun e line h => ?_, fun rest n => ?_⟩
  · rw [resolve_auto_iff]
    constructor
    · intro h
      obtain ⟨rest, n, rfl, -⟩ := resolve_always_iff.mp h
      exact ⟨.inr h, rfl⟩
    · rintro ⟨⟨rfl, -⟩ | h, hlength⟩
      · cases hlength
      · exact h
  · cases hsplit : splitLength args with
    | none => exact .inr (resolve_of_no_length hsplit)
    | some split => exact .inl ⟨_, resolve_always_iff.mpr ⟨split.1, split.2, rfl, hsplit⟩⟩
  · rcases resolve_eq_ok_iff.mp h with ⟨rfl, -⟩ | ⟨rest, n, rfl, -, hsplit⟩
    · exact ⟨none, List.append_nil _, .none⟩
    · obtain ⟨token, rfl, hn⟩ := splitLength_eq_some_iff.mp hsplit
      exact ⟨some token, rfl, .some hn⟩
  · have hlength : always.resolve tokens = .ok ⟨name, rest, some n⟩ ↔
        splitLength args = some (rest, n) := by
      rw [resolve_always_iff]
      simp [eq_comm]
    rw [hlength, splitLength_eq_some_iff]
    simp only [Numeral.denotes_iff_padded]
    constructor
    · rintro ⟨token, rfl, hbound, plus, zeros, rfl⟩
      exact ⟨hbound, plus, zeros, rfl⟩
    · rintro ⟨hbound, plus, zeros, rfl⟩
      exact ⟨_, rfl, hbound, plus, zeros, rfl⟩

theorem expectations_agree_of_padded :
    always.resolve ["PUT", "k", "+007"] = .ok ⟨"PUT", ["k"], some 7⟩ ∧
      auto.resolve ["PUT", "k", "+007"] = .ok ⟨"PUT", ["k"], some 7⟩ ∧
      always.resolve ["PUT", "18446744073709551615"] = .ok ⟨"PUT", [], some (UInt64.size - 1)⟩ := by
  obtain ⟨-, hauto, -, -, hpadded⟩ := expectations_agree "PUT" ["k", "+007"]
  have halways := (hpadded ["k"] 7).mpr ⟨by decide, true, 2, by decide +kernel⟩
  have hlargest := (expectations_agree "PUT" ["18446744073709551615"]).2.2.2.2 [] (UInt64.size - 1)
  exact ⟨halways, ((hauto _).mp halways).1,
    hlargest.mpr ⟨by decide, false, 0, by decide +kernel⟩⟩

end Expectation

end LineFrame
