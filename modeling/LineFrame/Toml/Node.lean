/-!
# Nodes of a TOML document

A document is a tree of tables.  Each table keeps its entries in the order in which they were
written, and remembers how it came to be, which decides whether it may be added to.

Main operation: `Node.within`, which follows a path of keys and changes the table at its end.
-/

namespace LineFrame.Toml

/-- How a table came to be. -/
inductive Origin where
  /-- It has a header of its own, or is the root. -/
  | header
  /-- It was only named on the way to another table's header. -/
  | implied
  /-- It was named by a dotted key. -/
  | dotted
  /-- It was written between braces. -/
  | braces
  /-- It was named by a dotted key between braces. -/
  | dottedInBraces
deriving DecidableEq, Repr, Inhabited

def Origin.isDotted : Origin → Bool
  | dotted | dottedInBraces => true
  | header | implied | braces => false

def Origin.inBraces : Origin → Bool
  | braces | dottedInBraces => true
  | header | implied | dotted => false

inductive Node where
  | text (s : String)
  | integer (n : Int)
  /-- A number that is no integer; its value is not kept. -/
  | fraction
  | truth (b : Bool)
  /-- A date, a time, or both; its value is not kept. -/
  | moment
  | array (items : List Node)
  | table (origin : Origin) (entries : List (String × Node))
  /-- The tables that share a header in double brackets, the last one first. -/
  | tables (items : List Node)
deriving Repr, Inhabited

abbrev Entries := List (String × Node)

/-- Gives a key another node, in its place. -/
def Entries.replace (entries : Entries) (key : String) (node : Node) : Entries :=
  entries.map fun entry => if entry.1 == key then (key, node) else entry

/-- Removes a key. -/
def Entries.erase (entries : Entries) (key : String) : Entries := entries.filter (·.1 != key)

/-- How a path is followed. -/
structure Trail where
  /-- What tables are that have to be made on the way. -/
  makes : Origin
  /-- Which tables may be gone through. -/
  passes : Origin → Bool

/-- The path of a header goes through every table that is not between braces. -/
def Trail.header : Trail := ⟨.implied, (! ·.inBraces)⟩

/-- A dotted key only goes through tables that have no header. -/
def Trail.dotted : Trail := ⟨.dotted, fun o => o = .implied ∨ o = .dotted⟩

/-- Between braces a dotted key only goes through tables made by dotted keys. -/
def Trail.dottedInBraces : Trail := ⟨.dottedInBraces, (· = .dottedInBraces)⟩

namespace Node

def empty (origin : Origin) : Node := .table origin []

/-- Follows a path of keys and changes the table at its end.  Where the path meets tables that share
a header, it goes on in the last one. -/
def within (trail : Trail) (change : Origin → Entries → Option Node) :
    List String → Node → Option Node
  | [], .table origin entries => change origin entries
  | key :: path, .table origin entries =>
    match entries.lookup key with
    | none => do
      let child ← within trail change path (empty trail.makes)
      return .table origin (entries ++ [(key, child)])
    | some (.table below found) =>
      if trail.passes below then do
        let child ← within trail change path (.table below found)
        return .table origin (Entries.replace entries key child)
      else none
    | some (.tables (last :: before)) => do
      let child ← within trail change path last
      return .table origin (Entries.replace entries key (.tables (child :: before)))
    | some _ => none
  | _, _ => none

/-- Adds an entry under a key, all but the last part of which is a path.  A table that a dotted key
adds to has to be made by one. -/
def put (root : Node) (trail : Trail) (path : List String) (key : String) (value : Node) :
    Option Node :=
  let change (origin : Origin) (entries : Entries) : Option Node :=
    if origin.isDotted == path.isEmpty || (entries.lookup key).isSome then none
    else some (.table origin (entries ++ [(key, value)]))
  root.within trail change path

/-- Starts a table with a header.  One that was only implied before is moved to the end. -/
def start (root : Node) (path : List String) (key : String) : Option Node :=
  let change (origin : Origin) (entries : Entries) : Option Node :=
    match entries.lookup key with
    | none => some (.table origin (entries ++ [(key, empty .header)]))
    | some (.table .implied found) =>
      some (.table origin (Entries.erase entries key ++ [(key, .table .header found)]))
    | some _ => none
  root.within .header change path

/-- Starts another one of the tables that share a header. -/
def startNext (root : Node) (path : List String) (key : String) : Option Node :=
  let change (origin : Origin) (entries : Entries) : Option Node :=
    match entries.lookup key with
    | none => some (.table origin (entries ++ [(key, .tables [empty .header])]))
    | some (.tables items) =>
      some (.table origin (Entries.replace entries key (.tables (empty .header :: items))))
    | some _ => none
  root.within .header change path

end Node

end LineFrame.Toml
