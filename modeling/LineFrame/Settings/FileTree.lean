import LineFrame.Bytes

/-!
# Trees of files

What reading a path gives.  A path is walked name by name, from the root or from the working
directory, so of two faults in it the one further left decides.
-/

namespace LineFrame

/-- Why a path cannot be read. -/
inductive FileError where
  | nulInPath
  | nameTooLong
  | missing
  /-- A file stands where the path needs a directory. -/
  | notDirectory
  | isDirectory
  | notText
  /-- Any other reason, in the system's words. -/
  | other (cause : String)
deriving DecidableEq, Repr, Inhabited

def FileError.message : FileError → String
  | nulInPath => "file name contained an unexpected NUL byte"
  | nameTooLong => "File name too long (os error 36)"
  | missing => "No such file or directory (os error 2)"
  | notDirectory => "Not a directory (os error 20)"
  | isDirectory => "Is a directory (os error 21)"
  | notText => "stream did not contain valid UTF-8"
  | other cause => cause

inductive FileTree where
  | file (data : Bytes)
  | directory (entries : List (String × FileTree))

namespace FileTree

/-- The most bytes that a name may have. -/
def longestName : Nat := 255

/-- The most bytes that a path may have. -/
def longestPath : Nat := 4095

/-- What stands at a place, and the directories above it, the nearest one first. -/
structure Place where
  here : FileTree
  above : List FileTree := []

namespace Place

def root (p : Place) : Place := ⟨p.above.getLastD p.here, []⟩

/-- Only a directory leads on.  Nothing is above the root but the root. -/
def step (p : Place) (name : String) : Except FileError Place :=
  match p.here with
  | .file _ => .error .notDirectory
  | .directory entries =>
    if name == "" || name == "." then .ok p
    else if name == ".." then
      match p.above with
      | [] => .ok p
      | up :: above => .ok ⟨up, above⟩
    else if longestName < name.utf8ByteSize then .error .nameTooLong
    else
      match entries.lookup name with
      | some found => .ok ⟨found, p.here :: p.above⟩
      | none => .error .missing

def walk (p : Place) (path : String) : Except FileError Place :=
  let start := if path.toList.head? == some '/' then p.root else p
  (path.splitOn "/").foldlM step start

/-- The bytes of the file that a path leads to. -/
def read (p : Place) (path : String) : Except FileError Bytes :=
  if path.toList.contains '\x00' then .error .nulInPath
  else if longestPath < path.utf8ByteSize then .error .nameTooLong
  else if path.isEmpty then .error .missing
  else
    match p.walk path with
    | .error e => .error e
    | .ok ⟨.file data, _⟩ => .ok data
    | .ok ⟨.directory _, _⟩ => .error .isDirectory

end Place

end FileTree

end LineFrame
