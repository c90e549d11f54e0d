import LineFrame.Toml.Node
import LineFrame.Toml.Scan

/-!
# Values of a TOML document

The scanners for keys and values: strings of four kinds, numbers, dates and times, arrays, and
tables between braces.
-/

namespace LineFrame.Toml

open Scan

/-! ## Space -/

def isBlank (c : Char) : Bool := c = ' ' || c = '\t'

def blanks : Scan Unit := do
  let _ ← takeWhile isBlank

/-- Line feeds end lines, also after a carriage return. -/
def newline : Scan Unit := char '\n' <|> word "\r\n"

/-- The control characters, without the tab. -/
def isControl (c : Char) : Bool := (c.toNat < 0x20 && c ≠ '\t') || c.toNat = 0x7F

def comment : Scan Unit := do
  char '#'
  let _ ← takeWhile (! isControl ·)

/-- Blanks, line ends and comments. -/
def space : Scan Unit := do
  let _ ← many do
    let _ ← (do let _ ← satisfy isBlank) <|> newline <|> (do comment; newline)

/-! ## Strings -/

def isHexDigit (c : Char) : Bool := c.isDigit || ('a' ≤ c && c ≤ 'f') || ('A' ≤ c && c ≤ 'F')

def digitValue (c : Char) : Nat :=
  if c.isDigit then c.toNat - '0'.toNat
  else if 'a' ≤ c then c.toNat - 'a'.toNat + 10
  else c.toNat - 'A'.toNat + 10

/-- The number with these digits, which are digits of the base. -/
def numeral (base : Nat) (ds : List Char) : Nat := ds.foldl (fun n d => n * base + digitValue d) 0

/-- The same if it is at most `most`, and given up at the digit that takes it further. -/
def numeralUpTo (most base : Nat) (ds : List Char) : Option Nat :=
  let append (n : Nat) (d : Char) : Option Nat :=
    let next := n * base + digitValue d
    if next ≤ most then some next else none
  ds.foldlM append 0

/-- A character by its number in hexadecimal digits. -/
def numbered (digits : Nat) : Scan Char := do
  let n := numeral 16 (← between digits digits isHexDigit)
  if n.isValidChar then return Char.ofNat n else failure

/-- What follows a backslash. -/
def escape : Scan Char := do
  match ← satisfy fun _ => true with
  | 'b' => return '\x08'
  | 't' => return '\t'
  | 'n' => return '\n'
  | 'f' => return '\x0c'
  | 'r' => return '\r'
  | '\x22' => return '\x22'
  | '\\' => return '\\'
  | 'u' => numbered 4
  | 'U' => numbered 8
  | _ => failure

def escaped : Scan Char := do
  char '\\'
  escape

def basicChar : Scan Char :=
  satisfy (fun c => ! isControl c && c ≠ '\x22' && c ≠ '\\') <|> escaped

def basicString : Scan String := do
  char '\x22'
  let cs ← many basicChar
  char '\x22'
  return String.ofList cs

def literalChar : Scan Char := satisfy fun c => ! isControl c && c ≠ '\x27'

def literalString : Scan String := do
  char '\x27'
  let cs ← many literalChar
  char '\x27'
  return String.ofList cs

/-- A backslash at the end of a line takes the space after it away. -/
def joinedLines : Scan (List Char) := do
  char '\\'
  blanks
  newline
  let _ ← many ((do let _ ← satisfy isBlank) <|> newline)
  return []

/-- One or two quotes inside of a string that is closed by three. -/
def innerQuotes (quote : Char) : Scan (List Char) := do
  let quotes ← takeWhile (· = quote)
  if quotes.isEmpty || 3 ≤ quotes.length then failure else return quotes

/-- Three quotes that close a string.  One or two more before them belong to it. -/
def closingQuotes (quote : Char) : Scan (List Char) := do
  let quotes ← takeWhile (· = quote)
  if quotes.length < 3 || 5 < quotes.length then failure else return quotes.drop 3

/-- A string over several lines.  A line end right after the opening quotes is not part of it. -/
def longString (quote : Char) (piece : Scan (List Char)) : Scan String := do
  word (String.ofList [quote, quote, quote])
  let _ ← optional newline
  let pieces ← many (piece <|> (do newline; return ['\n']) <|> innerQuotes quote)
  let last ← closingQuotes quote
  return String.ofList (pieces.flatten ++ last)

def longBasicString : Scan String :=
  longString '\x22' (joinedLines <|> (do return [← basicChar]))

def longLiteralString : Scan String := longString '\x27' (do return [← literalChar])

def string : Scan String :=
  longBasicString <|> basicString <|> longLiteralString <|> literalString

/-! ## Keys -/

/-- No key has as many parts, and no value is nested as deep. -/
def depthLimit : Nat := 80

def bareKey : Scan String := do
  return String.ofList (← many1 (satisfy fun c => c.isAlphanum || c = '-' || c = '_'))

def simpleKey : Scan String := do
  blanks
  let key ← basicString <|> literalString <|> bareKey
  blanks
  return key

/-- The path and the last part of a dotted key. -/
def key : Scan (List String × String) := do
  let parts ← separated simpleKey (char '.')
  match parts.getLast? with
  | some last => if parts.length < depthLimit then return (parts.dropLast, last) else failure
  | none => failure

/-! ## Numbers -/

/-- Digits, with single underscores allowed between them. -/
def digits (isDigit : Char → Bool) : Scan (List Char) := do
  let first ← satisfy isDigit
  let rest ← many (satisfy isDigit <|> (do char '_'; satisfy isDigit))
  return first :: rest

def decimals : Scan (List Char) := digits Char.isDigit

/-- Whether there is a minus sign.  A plus sign may be written, too. -/
def sign : Scan Bool :=
  (do char '-'; return true) <|> (do char '+'; return false) <|> pure false

/-- Digits without a leading zero, but for zero itself. -/
def plainDigits : Scan (List Char) := do
  match ← peek with
  | some '0' => do
    char '0'
    return ['0']
  | _ => decimals

/-- Integers have 64 bits, so there is one more below zero than above. -/
def ofDigits (negative : Bool) (base : Nat) (ds : List Char) : Scan Node :=
  match numeralUpTo (if negative then Nat.pow 2 63 else Nat.pow 2 63 - 1) base ds with
  | some n => return .integer (if negative then -(n : Int) else n)
  | none => failure

def decimalInteger : Scan Node := do
  let negative ← sign
  ofDigits negative 10 (← plainDigits)

/-- An integer in another base, after its mark. -/
def markedInteger (mark : String) (base : Nat) (isDigit : Char → Bool) : Scan Node := do
  word mark
  ofDigits false base (← digits isDigit)

def integer : Scan Node :=
  markedInteger "0x" 16 isHexDigit <|>
  markedInteger "0o" 8 (fun c => '0' ≤ c && c ≤ '7') <|>
  markedInteger "0b" 2 (fun c => c = '0' || c = '1') <|>
  decimalInteger

/-- Whether a number with these digits, times that power of ten, is too large for a fraction in
double precision: it would be rounded up to `2 ^ 1024`.  The least such number is whole and has 309
digits, so of a number of that size no others count. -/
def overflows (ds : List Char) (exponent : Int) : Bool :=
  let ds := ds.dropWhile (· = '0')
  let size : Int := ds.length + exponent
  if ds.isEmpty || size < 309 then false
  else if 309 < size then true
  else Nat.pow 2 1024 - Nat.pow 2 970 ≤ numeral 10 ((ds ++ List.replicate 309 '0').take 309)

/-- The exponent of a fraction.  Digits are passed over once it is large enough to settle the size
of whatever it belongs to. -/
def exponent : Scan Int := do
  let _ ← satisfy fun c => c = 'e' || c = 'E'
  let negative ← sign
  let append (n : Nat) (d : Char) : Nat := if n < 0x10000 then n * 10 + digitValue d else n
  let n := (← decimals).foldl append 0
  return if negative then -(n : Int) else n

/-- A number with decimals or with an exponent. -/
def decimalFraction : Scan Node := do
  let negative ← sign
  let whole ← plainDigits
  let (part, power) ←
    (do char '.'; return (← decimals, (← optional exponent).getD 0)) <|>
    (do return ([], ← exponent))
  if ! negative && overflows (whole ++ part) (power - part.length) then failure
  else return .fraction

def namedFraction : Scan Node := do
  let _ ← sign
  word "inf" <|> word "nan"
  return .fraction

/-! ## Dates and times -/

/-- A number of exactly so many digits that lies between two others. -/
def bounded (width low high : Nat) : Scan Nat := do
  let n := numeral 10 (← between width width Char.isDigit)
  if low ≤ n ∧ n ≤ high then return n else failure

def isLeap (year : Nat) : Bool := year % 4 = 0 && (year % 100 ≠ 0 || year % 400 = 0)

def daysIn (year month : Nat) : Nat :=
  if month = 2 then if isLeap year then 29 else 28
  else if [4, 6, 9, 11].contains month then 30
  else 31

def date : Scan Unit := do
  let year ← bounded 4 0 9999
  char '-'
  let month ← bounded 2 1 12
  char '-'
  let _ ← bounded 2 1 (daysIn year month)

def time : Scan Unit := do
  let _ ← bounded 2 0 23
  char ':'
  let _ ← bounded 2 0 59
  char ':'
  let _ ← bounded 2 0 60
  let _ ← optional do
    char '.'
    many1 (satisfy Char.isDigit)

def offset : Scan Unit :=
  (do let _ ← satisfy fun c => c = 'Z' || c = 'z') <|>
  (do
    let _ ← satisfy fun c => c = '+' || c = '-'
    let _ ← bounded 2 0 23
    char ':'
    let _ ← bounded 2 0 59)

def moment : Scan Node := do
  (do
    date
    let _ ← optional do
      let _ ← satisfy fun c => c = 'T' || c = 't' || c = ' '
      time
      optional offset) <|> time
  return .moment

/-! ## Values -/

def truth : Scan Node :=
  (do word "true"; return .truth true) <|> (do word "false"; return .truth false)

/-- A value that holds no others. -/
def scalar : Scan Node :=
  (do return .text (← string)) <|> truth <|> moment <|> decimalFraction <|> namedFraction <|> integer

/-- The items of an array, with an optional comma after the last one. -/
def arrayOf (value : Scan Node) : Scan Node := do
  char '['
  let item : Scan Node := do
    space
    let found ← value
    space
    return found
  let items ← optional do
    let found ← separated item (char ',')
    let _ ← optional (char ',')
    return found
  space
  char ']'
  return .array (items.getD [])

/-- One entry: a key and its value. -/
def entryOf (value : Scan Node) : Scan ((List String × String) × Node) := do
  let found ← key
  char '='
  blanks
  let v ← value
  blanks
  return (found, v)

/-- The entries of a table between braces. -/
def bracesOf (value : Scan Node) : Scan Node := do
  char '\x7b'
  let entries ← optional (separated (entryOf value) (char ','))
  blanks
  char '\x7d'
  let add (table : Node) : (List String × String) × Node → Option Node
    | ((path, last), v) => table.put .dottedInBraces path last v
  match (entries.getD []).foldlM add (Node.empty .braces) with
  | some table => return table
  | none => failure

/-- A value in which others are nested at most `depth` deep. -/
def value : Nat → Scan Node
  | 0 => scalar
  | depth + 1 => scalar <|> arrayOf (value depth) <|> bracesOf (value depth)

end LineFrame.Toml
