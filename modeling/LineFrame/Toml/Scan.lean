/-!
# Scanners

A scanner takes what it reads off the front of a text, or refuses.  `first <|> second` tries the
second one where the first one refused.
-/

namespace LineFrame.Toml

abbrev Scan := StateT (List Char) Option

namespace Scan

variable {α β : Type}

/-- A character with the property. -/
def satisfy (p : Char → Bool) : Scan Char := fun cs =>
  match cs with
  | c :: rest => if p c then some (c, rest) else none
  | [] => none

def char (c : Char) : Scan Unit := do
  let _ ← satisfy (· = c)

/-- The characters of a word. -/
def word (s : String) : Scan Unit := s.toList.forM char

/-- The characters at the front that have the property. -/
def takeWhile (p : Char → Bool) : Scan (List Char) := fun cs =>
  some (cs.takeWhile p, cs.dropWhile p)

/-- What is next, which is left where it is. -/
def peek : Scan (Option Char) := fun cs => some (cs.head?, cs)

/-- The end of the text. -/
def atEnd : Scan Unit := fun cs => if cs.isEmpty then some ((), cs) else none

/-- As many as there are, but no more than there are characters in `limit`.  They are added to those
in `found`, the last of which comes first. -/
def manyOnto (p : Scan α) : List Char → List α → List Char → List α × List Char
  | [], found, cs => (found.reverse, cs)
  | _ :: limit, found, cs =>
    match p cs with
    | some (a, rest) => manyOnto p limit (a :: found) rest
    | none => (found.reverse, cs)

/-- As many as there are.  What is repeated has to take at least one character. -/
def many (p : Scan α) : Scan (List α) := fun cs => some (manyOnto p cs [] cs)

/-- One at least. -/
def many1 (p : Scan α) : Scan (List α) := do return (← p) :: (← many p)

/-- One at least, with separators between them. -/
def separated (p : Scan α) (separator : Scan β) : Scan (List α) := do
  return (← p) :: (← many (do let _ ← separator; p))

/-- Between `least` and `most` characters with the property, as many as there are up to that. -/
def between (least most : Nat) (p : Char → Bool) : Scan (List Char) := fun cs =>
  let found := (cs.take most).takeWhile p
  if found.length < least then none else some (found, cs.drop found.length)

end Scan

end LineFrame.Toml
