import LineFrame.Bytes

/-!
# Where text stops being UTF-8

`Utf8Fault.find` looks for the first place at which bytes are no longer UTF-8.  There either a
sequence is wrong, and some of its first bytes are to be skipped, or the bytes end inside one.
-/

namespace LineFrame

structure Utf8Fault where
  /-- Where the sequence starts that is not right. -/
  index : Nat
  /-- How many of its bytes are wrong together, or nothing if the bytes end too early. -/
  width : Option Nat
deriving DecidableEq, Repr, Inhabited

namespace Utf8Fault

def message (f : Utf8Fault) : String :=
  match f.width with
  | some n => s!"invalid utf-8 sequence of {n} bytes from index {f.index}"
  | none => s!"incomplete utf-8 byte sequence from index {f.index}"

/-- The bounds of the bytes that follow a sequence's first byte, if it can be one. -/
def followers (b : UInt8) : Option (List (UInt8 × UInt8)) :=
  let any : UInt8 × UInt8 := (0x80, 0xbf)
  if b < 0x80 then some []
  else if b < 0xc2 then none
  else if b < 0xe0 then some [any]
  else if b = 0xe0 then some [(0xa0, 0xbf), any]
  else if b = 0xed then some [(0x80, 0x9f), any]
  else if b < 0xf0 then some [any, any]
  else if b = 0xf0 then some [(0x90, 0xbf), any, any]
  else if b < 0xf4 then some [any, any, any]
  else if b = 0xf4 then some [(0x80, 0x8f), any, any]
  else none

/-- Goes on at byte `i`, in a sequence that started at `start` and is owed bytes in these bounds. -/
def scan (i start : Nat) (owed : List (UInt8 × UInt8)) : Bytes → Option Utf8Fault
  | [] => if owed.isEmpty then none else some ⟨start, none⟩
  | b :: rest =>
    match owed with
    | (low, high) :: owed =>
      if low ≤ b && b ≤ high then scan (i + 1) start owed rest else some ⟨start, some (i - start)⟩
    | [] =>
      match followers b with
      | some owed => scan (i + 1) i owed rest
      | none => some ⟨i, some 1⟩

def find (bs : Bytes) : Option Utf8Fault := scan 0 0 [] bs

end Utf8Fault

end LineFrame
