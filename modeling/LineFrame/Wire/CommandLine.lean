import LineFrame.Bytes
import LineFrame.Text.Numeral
import LineFrame.Wire.FrameError

/-!
# Command lines

A line is split into its tokens (`CommandLine.tokenize`); then the command's `Expectation` decides
whether the last token is the length of a payload (`Expectation.resolve`).
-/

namespace LineFrame

/-- What a command expects after its line. -/
inductive Expectation where
  /-- A payload if the last argument is a length. -/
  | auto
  /-- A payload, whose length is the last argument. -/
  | always
  /-- No payload: every token is an argument. -/
  | never
deriving DecidableEq, Repr, Inhabited

structure CommandLine where
  name : String
  args : List String
  /-- The declared length of the payload, if one follows. -/
  length : Option Nat
deriving DecidableEq, Repr, Inhabited

namespace CommandLine

/-- The runs of characters between blanks. -/
def words (cs : List Char) : List (List Char) :=
  match _h : cs.dropWhile (· = ' ') with
  | [] => []
  | c :: rest => (c :: rest.takeWhile (· ≠ ' ')) :: words (rest.dropWhile (· ≠ ' '))
termination_by cs.length
decreasing_by
  have h1 : (c :: rest).length ≤ cs.length := _h ▸ (List.dropWhile_suffix _).length_le
  have h2 : (rest.dropWhile (· ≠ ' ')).length ≤ rest.length := (List.dropWhile_suffix _).length_le
  simp only [List.length_cons] at h1
  omega

/-- The tokens of a line, which has to be text.  Blanks in a row separate once. -/
def tokenize (line : Bytes) : Except FrameError (List String) :=
  match Text.decode? line with
  | some text => .ok ((words text.toList).map String.ofList)
  | none => .error .invalidUtf8

end CommandLine

namespace Expectation

/-- Takes the length off the end of the arguments, if the last one is a numeral. -/
def splitLength (args : List String) : Option (List String × Nat) :=
  match args.getLast?.bind Numeral.read? with
  | some n => some (args.dropLast, n)
  | none => none

def resolve (e : Expectation) : List String → Except FrameError CommandLine
  | [] => .error .emptyCommand
  | name :: args =>
    match e, splitLength args with
    | .never, _ => .ok ⟨name, args, none⟩
    | _, some (rest, n) => .ok ⟨name, rest, some n⟩
    | .auto, none => .ok ⟨name, args, none⟩
    | .always, none => .error (.invalidCommand s!"{name} requires a trailing data length")

end Expectation

end LineFrame
