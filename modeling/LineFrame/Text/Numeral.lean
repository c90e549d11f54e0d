/-!
# Numerals

A length is written in decimal digits.  Reading one (`Numeral.read?`) is more lenient than writing:
leading zeros and one leading plus sign are allowed, and the value has to fit in 64 bits.
-/

namespace LineFrame.Numeral

/-- One more than the largest length that can be declared. -/
def bound : Nat := UInt64.size

/-- Appends a digit to a number, unless that takes it to the bound. -/
def append? (n : Nat) (c : Char) : Option Nat :=
  let next := 10 * n + (c.toNat - '0'.toNat)
  if c.isDigit && next < bound then some next else none

/-- The value of a non-empty run of decimal digits.  One that is too large is given up at the digit
that makes it so. -/
def digits? : List Char → Option Nat
  | [] => none
  | c :: cs => (c :: cs).foldlM append? 0

/-- The digits of a numeral, without its sign. -/
def unsigned : List Char → List Char
  | '+' :: cs => cs
  | cs => cs

def read? (token : String) : Option Nat := digits? (unsigned token.toList)

/-- The shortest numeral of `n`. -/
def write (n : Nat) : String := n.repr

theorem le_ofDigitChars (cs : List Char) (n : Nat) : n ≤ Nat.ofDigitChars 10 cs n := by
  induction cs generalizing n with
  | nil => simp
  | cons c cs ih =>
    rw [Nat.ofDigitChars_cons]
    have := ih (10 * n + (c.toNat - '0'.toNat))
    omega

theorem foldlM_append? (cs : List Char) {n : Nat} (h : n < bound) :
    cs.foldlM append? n =
      if cs.all Char.isDigit ∧ Nat.ofDigitChars 10 cs n < bound then
        some (Nat.ofDigitChars 10 cs n)
      else none := by
  induction cs generalizing n with
  | nil => simp [h]
  | cons c cs ih =>
    rw [List.foldlM_cons, append?, Nat.ofDigitChars_cons]
    generalize 10 * n + (c.toNat - '0'.toNat) = next
    by_cases digit : c.isDigit = true
    · by_cases small : next < bound
      · simp [digit, small, ih small]
      · have large : ¬ Nat.ofDigitChars 10 cs next < bound := by
          have := le_ofDigitChars cs next
          omega
        simp [small, large]
    · simp [digit]

theorem digits?_eq (cs : List Char) :
    digits? cs =
      if cs ≠ [] ∧ cs.all Char.isDigit ∧ Nat.ofDigitChars 10 cs 0 < bound then
        some (Nat.ofDigitChars 10 cs 0)
      else none := by
  cases cs with
  | nil => rfl
  | cons c cs =>
    rw [digits?, foldlM_append? _ (by decide)]
    simp

theorem digits?_toDigits {n : Nat} (h : n < bound) : digits? (Nat.toDigits 10 n) = some n := by
  have digit : (Nat.toDigits 10 n).all Char.isDigit = true := by
    simpa using fun c hc => Nat.isDigit_of_mem_toDigits (by decide) (by decide) hc
  simp [digits?_eq, digit, h]

theorem unsigned_toDigits (n : Nat) : unsigned (Nat.toDigits 10 n) = Nat.toDigits 10 n := by
  unfold unsigned
  split
  · next cs h =>
    have hd : Char.isDigit '+' = true :=
      Nat.isDigit_of_mem_toDigits (b := 10) (n := n) (by decide) (by decide) (by simp [h])
    exact absurd hd (by decide)
  · rfl

theorem read?_write {n : Nat} (h : n < bound) : read? (write n) = some n := by
  simp [read?, write, Nat.repr_eq_ofList_toDigits, unsigned_toDigits, digits?_toDigits h]

theorem read?_lt {token : String} {n : Nat} (h : read? token = some n) : n < bound := by
  rw [read?, digits?_eq] at h
  split at h
  · next hs => exact Option.some.inj h ▸ hs.2.2
  · cases h

end LineFrame.Numeral
