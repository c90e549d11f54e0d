import LineFrame.Bytes
import LineFrame.Text.Numeral

/-!
# Frames

A frame is a name, its arguments and an optional payload.  On the wire it is one line of tokens
separated by single spaces; the payload's length is the line's last token, and the payload follows
the line with a terminator of its own.
-/

namespace LineFrame

structure Frame where
  name : String
  args : List String
  payload : Option Bytes
deriving DecidableEq, Repr, Inhabited

namespace Frame

/-- The tokens of the frame's line: the name, the arguments and the payload's length, if any. -/
def tokens (f : Frame) : List String :=
  f.name :: f.args ++ (f.payload.map fun data => Numeral.write data.length).toList

/-- The frame's line, without its terminator. -/
def line (f : Frame) : String := " ".intercalate f.tokens

/-- What follows the line. -/
def body (f : Frame) : Bytes :=
  match f.payload with
  | some data => data ++ Bytes.crlf
  | none => []

def encode (f : Frame) : Bytes := Text.encode f.line ++ Bytes.crlf ++ f.body

/-- Several frames, one after the other. -/
def encodeAll (fs : List Frame) : Bytes := fs.flatMap encode

end Frame

end LineFrame
