/-!
# Socket addresses

Internet addresses with a port, as they are written and read: dotted IPv4, and IPv6 between
brackets with the longest run of two or more zero groups left out, the first of several.
-/

namespace LineFrame.Net

structure Ipv4 where
  a : Nat
  b : Nat
  c : Nat
  d : Nat
deriving DecidableEq, Repr, Inhabited

inductive SocketAddress where
  | v4 (ip : Ipv4) (port : Nat)
  /-- The eight groups of the address, its zone (none is zero) and the port. -/
  | v6 (groups : List Nat) (zone port : Nat)
deriving DecidableEq, Repr, Inhabited

/-! ## Writing -/

namespace Ipv4

def text (ip : Ipv4) : String := s!"{ip.a}.{ip.b}.{ip.c}.{ip.d}"

end Ipv4

/-- A group of an IPv6 address, in lower-case hexadecimal digits without leading zeros. -/
def groupText (n : Nat) : String := String.ofList (Nat.toDigits 16 n)

def groupsText (groups : List Nat) : String := ":".intercalate (groups.map groupText)

/-- The length of the run of zeros at each place. -/
def zeroRuns : List Nat → List Nat
  | [] => []
  | n :: rest =>
    let runs := zeroRuns rest
    (if n = 0 then runs.headD 0 + 1 else 0) :: runs

def ipv6Text (groups : List Nat) : String :=
  match groups with
  | [0, 0, 0, 0, 0, 0xffff, high, low] =>
    "::ffff:" ++ Ipv4.text ⟨high / 256, high % 256, low / 256, low % 256⟩
  | _ =>
    let runs := zeroRuns groups
    let longest := runs.foldl max 0
    if longest < 2 then groupsText groups
    else
      let start := runs.idxOf longest
      groupsText (groups.take start) ++ "::" ++ groupsText (groups.drop (start + longest))

namespace SocketAddress

def text : SocketAddress → String
  | v4 ip port => s!"{ip.text}:{port}"
  | v6 groups zone port =>
    let zone := if zone = 0 then "" else s!"%{zone}"
    s!"[{ipv6Text groups}{zone}]:{port}"

end SocketAddress

/-! ## Reading

Each reader takes what it reads off the front of a text. -/

/-- The value of a digit, if it is one in this base. -/
def digit? (base : Nat) (c : Char) : Option Nat :=
  let value :=
    if '0' ≤ c ∧ c ≤ '9' then c.toNat - '0'.toNat
    else if 'a' ≤ c ∧ c ≤ 'z' then c.toNat - 'a'.toNat + 10
    else if 'A' ≤ c ∧ c ≤ 'Z' then c.toNat - 'A'.toNat + 10
    else base
  if value < base then some value else none

/-- All digits at the front. -/
def takeDigits (base : Nat) (cs : List Char) : List Nat × List Char :=
  let found (c : Char) : Bool := (digit? base c).isSome
  ((cs.takeWhile found).filterMap (digit? base), cs.dropWhile found)

/-- Appends a digit to a number, unless that takes it to the bound. -/
def append? (base bound n d : Nat) : Option Nat :=
  if n * base + d < bound then some (n * base + d) else none

/-- A number of at most `width` digits (any number of them if that is `none`) that is below
`bound`. -/
def readNumber (base : Nat) (width : Option Nat) (bound : Nat) (cs : List Char) :
    Option (Nat × List Char) :=
  let (ds, rest) := takeDigits base cs
  if ds.isEmpty || width.any (· < ds.length) then none
  else (ds.foldlM (append? base bound) 0).map (·, rest)

def readChar (c : Char) : List Char → Option (List Char)
  | d :: rest => if c = d then some rest else none
  | [] => none

/-- A decimal number below 256 without leading zeros. -/
def readOctet (cs : List Char) : Option (Nat × List Char) :=
  match (takeDigits 10 cs).1 with
  | 0 :: _ :: _ => none
  | _ => readNumber 10 (some 3) 256 cs

def readIpv4 (cs : List Char) : Option (Ipv4 × List Char) := do
  let (a, cs) ← readOctet cs
  let cs ← readChar '.' cs
  let (b, cs) ← readOctet cs
  let cs ← readChar '.' cs
  let (c, cs) ← readOctet cs
  let cs ← readChar '.' cs
  let (d, cs) ← readOctet cs
  return (⟨a, b, c, d⟩, cs)

/-- Up to `limit` groups with colons between them, the last two of which may be written as an IPv4
address.  Says whether they were. -/
def readGroups (limit : Nat) (first : Bool) (cs : List Char) : List Nat × Bool × List Char :=
  match limit with
  | 0 => ([], false, cs)
  | limit + 1 =>
    match if first then some cs else readChar ':' cs with
    | none => ([], false, cs)
    | some next =>
      match if limit = 0 then none else readIpv4 next with
      | some (ip, rest) => ([ip.a * 256 + ip.b, ip.c * 256 + ip.d], true, rest)
      | none =>
        match readNumber 16 (some 4) 65536 next with
        | none => ([], false, cs)
        | some (group, rest) =>
          let (groups, dotted, rest) := readGroups limit false rest
          (group :: groups, dotted, rest)

def readIpv6 (cs : List Char) : Option (List Nat × List Char) :=
  match readGroups 8 true cs with
  | (head, dotted, cs) =>
    if head.length = 8 then some (head, cs)
    else if dotted then none
    else do
      let cs ← readChar ':' cs
      let cs ← readChar ':' cs
      let (tail, _, cs) := readGroups (7 - head.length) true cs
      return (head ++ List.replicate (8 - head.length - tail.length) 0 ++ tail, cs)

def readPort (cs : List Char) : Option (Nat × List Char) := do
  readNumber 10 none 65536 (← readChar ':' cs)

def readZone (cs : List Char) : Option (Nat × List Char) := do
  readNumber 10 none UInt32.size (← readChar '%' cs)

def readV4 (cs : List Char) : Option (SocketAddress × List Char) := do
  let (ip, cs) ← readIpv4 cs
  let (port, cs) ← readPort cs
  return (.v4 ip port, cs)

def readV6 (cs : List Char) : Option (SocketAddress × List Char) := do
  let cs ← readChar '[' cs
  let (groups, cs) ← readIpv6 cs
  let (zone, cs) := (readZone cs).getD (0, cs)
  let cs ← readChar ']' cs
  let (port, cs) ← readPort cs
  return (.v6 groups zone port, cs)

/-- The whole text as one value. -/
def whole {α : Type} (read : List Char → Option (α × List Char)) (s : String) : Option α :=
  match read s.toList with
  | some (value, []) => some value
  | _ => none

def Ipv4.parse? (s : String) : Option Ipv4 := whole readIpv4 s

def SocketAddress.parse? (s : String) : Option SocketAddress :=
  (whole readV4 s).or (whole readV6 s)

end LineFrame.Net
