import LineFrame.Text.Numeral

/-!
# Literals

Values that handlers read from an argument: integers within bounds, truth values, characters and
decimal fractions.  Each reader tells why it refuses a text.
-/

namespace LineFrame.Literal

/-- Why a text is not an integer. -/
inductive IntegerFault where
  | empty
  | invalidDigit
  | tooLarge
  | tooSmall
deriving DecidableEq, Repr, Inhabited

def IntegerFault.message : IntegerFault → String
  | empty => "cannot parse integer from empty string"
  | invalidDigit => "invalid digit found in string"
  | tooLarge => "number too large to fit in target type"
  | tooSmall => "number too small to fit in target type"

/-- Appends digits to a number whose size stays within `bound`.  What comes first, a character that
is no digit or a number that is too large, decides. -/
def magnitude (bound : Nat) (beyond : IntegerFault) (n : Nat) :
    List Char → Except IntegerFault Nat
  | [] => .ok n
  | c :: rest =>
    let next := 10 * n + (c.toNat - '0'.toNat)
    if !c.isDigit then .error .invalidDigit
    else if bound < next then .error beyond
    else magnitude bound beyond next rest

/-- An integer between `low` and `high`.  A minus sign is read only if `low` is negative. -/
def integer (low high : Int) (s : String) : Except IntegerFault Int :=
  match s.toList with
  | [] => .error .empty
  | ['+'] | ['-'] => .error .invalidDigit
  | '+' :: cs => Int.ofNat <$> magnitude high.toNat .tooLarge 0 cs
  | '-' :: cs =>
    if low < 0 then (fun n => -Int.ofNat n) <$> magnitude (-low).toNat .tooSmall 0 cs
    else .error .invalidDigit
  | cs => Int.ofNat <$> magnitude high.toNat .tooLarge 0 cs

def truth? : String → Option Bool
  | "true" => some true
  | "false" => some false
  | _ => none

/-- Why a text is not one character. -/
inductive CharacterFault where
  | empty
  | several
deriving DecidableEq, Repr, Inhabited

def CharacterFault.message : CharacterFault → String
  | empty => "cannot parse char from empty string"
  | several => "too many characters in string"

def character (s : String) : Except CharacterFault Char :=
  match s.toList with
  | [] => .error .empty
  | [c] => .ok c
  | _ => .error .several

/-- Why a text is not a decimal fraction. -/
inductive FractionFault where
  | empty
  | invalid
deriving DecidableEq, Repr, Inhabited

def FractionFault.message : FractionFault → String
  | empty => "cannot parse float from empty string"
  | invalid => "invalid float literal"

def isSign (c : Char) : Bool := c == '+' || c == '-'

/-- The text without one sign in front. -/
def unsigned : List Char → List Char
  | c :: rest => if isSign c then rest else c :: rest
  | [] => []

/-- Whether this is nothing, or the mark of an exponent and its digits. -/
def isExponent : List Char → Bool
  | [] => true
  | mark :: rest =>
    let digits := unsigned rest
    (mark == 'e' || mark == 'E') && !digits.isEmpty && digits.all Char.isDigit

/-- Digits with at most one point before, among or after them, then an exponent. -/
def isDecimal (cs : List Char) : Bool :=
  let whole := cs.takeWhile Char.isDigit
  match cs.dropWhile Char.isDigit with
  | '.' :: rest =>
    let part := rest.takeWhile Char.isDigit
    !(whole.isEmpty && part.isEmpty) && isExponent (rest.dropWhile Char.isDigit)
  | rest => !whole.isEmpty && isExponent rest

/-- The names of the values that are not numbers, in any case. -/
def isNamedFraction (cs : List Char) : Bool :=
  ["inf", "infinity", "nan"].contains (String.ofList (cs.map Char.toLower))

/-- Accepts the texts that denote a floating-point value. -/
def fraction (s : String) : Except FractionFault Unit :=
  let cs := unsigned s.toList
  if s.isEmpty then .error .empty
  else if isDecimal cs || isNamedFraction cs then .ok ()
  else .error .invalid

end LineFrame.Literal
