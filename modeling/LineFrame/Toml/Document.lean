import LineFrame.Toml.Value

/-!
# TOML documents

A document is read in two steps: its text gives statements, in order, and these build the tree.
-/

namespace LineFrame.Toml

open Scan

inductive Statement where
  /-- The header of a table. -/
  | header (path : List String) (key : String)
  /-- A header in double brackets. -/
  | nextHeader (path : List String) (key : String)
  /-- An entry of the table whose header came last. -/
  | entry (path : List String) (key : String) (value : Node)
deriving Repr, Inhabited

/-! ## From text to statements -/

/-- The end of a line, after a comment if there is one. -/
def lineEnd : Scan Unit := do
  blanks
  let _ ← optional comment
  newline <|> atEnd

def header : Scan Statement := do
  char '['
  let (path, last) ← key
  char ']'
  lineEnd
  return .header path last

def nextHeader : Scan Statement := do
  word "[["
  let (path, last) ← key
  word "]]"
  lineEnd
  return .nextHeader path last

def entry : Scan Statement := do
  let ((path, last), v) ← entryOf (value (depthLimit - 1))
  lineEnd
  return .entry path last v

/-- Lines without a statement. -/
def idle : Scan Unit := do
  let _ ← many (newline <|> (do let _ ← satisfy isBlank) <|> (do comment; newline <|> atEnd))

def statement : Scan Statement := do
  let found ← nextHeader <|> header <|> entry
  idle
  return found

def byteOrderMark : Char := '\ufeff'

/-- The statements of a whole document, which may begin with a byte order mark. -/
def document : Scan (List Statement) := do
  let _ ← optional (char byteOrderMark)
  idle
  let statements ← many statement
  atEnd
  return statements

/-! ## From statements to the tree -/

/-- The tree so far, and the path of the table whose header came last. -/
structure Draft where
  root : Node := .empty .header
  path : List String := []
deriving Repr, Inhabited

/-- An entry is put into the table whose header came last, by way of its own path. -/
def Draft.add (d : Draft) : Statement → Option Draft
  | .header path key => do
    return { root := ← d.root.start path key, path := path ++ [key] }
  | .nextHeader path key => do
    return { root := ← d.root.startNext path key, path := path ++ [key] }
  | .entry path key v => do
    let change (origin : Origin) (entries : Entries) : Option Node :=
      (Node.table origin entries).put .dotted path key v
    return { d with root := ← d.root.within .header change d.path }

/-- The root table of a document. -/
def parse? (s : String) : Option Node := do
  let (statements, _) ← document s.toList
  let draft ← statements.foldlM Draft.add {}
  return draft.root

end LineFrame.Toml
