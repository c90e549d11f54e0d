import LineFrame.Settings.Arguments
import LineFrame.Toml.Document

/-!
# Settings files

What a TOML document says about a server.  Keys that mean nothing here are passed over.  A section
is a table, or an array of its values in their order; what is left out of it has a default value,
which is why everything here is optional.
-/

namespace LineFrame.Settings

open Toml (Node)

structure File where
  listen : Option String := none
  runtime : Option Runtime := none
  workers : Option Nat := none
  disconnectCommand : Option String := none
  maxPayload : Option Nat := none
  maxConnections : Option Nat := none
  /-- In seconds, as are the next two but one. -/
  idleTimeout : Option Nat := none
  /-- In milliseconds. -/
  connectTimeout : Option Nat := none
  checkInterval : Option Nat := none
  cleanupInterval : Option Nat := none
  logLevel : Option String := none
deriving DecidableEq, Repr, Inhabited

namespace File

/-! ## Values -/

def text : Node → Option String
  | .text s => some s
  | _ => none

def natural : Node → Option Nat
  | .integer n => n.toNat?
  | _ => none

/-- A table or an array that holds nothing. -/
def isVoid : Node → Bool
  | .table _ entries => entries.isEmpty
  | .array items | .tables items => items.isEmpty
  | _ => false

/-- A runtime is a text, or a table that holds nothing but an empty table or array, of which it is
the key. -/
def runtimeOf : Node → Option Runtime
  | .text s => Runtime.parse? s
  | .table _ [(name, value)] => do
    let found ← Runtime.parse? name
    if isVoid value then return found else none
  | _ => none

/-! ## Sections -/

/-- The values of a section that is an array: `names` is their order, and the first `required` of
them have to be there. -/
def ofItems (names : List String) (required : Nat) (items : List Node) :
    Option (String → Option Node) :=
  if items.length < required then none else some fun name => (names.zip items).lookup name

/-- The values of a section by name.  A date counts as a section that says nothing. -/
def section? (names : List String) (required : Nat) : Node → Option (String → Option Node)
  | .table _ entries => some fun name => entries.lookup name
  | .array items => ofItems names required items
  | .tables items => ofItems names required items.reverse
  | .moment => some fun _ => none
  | _ => none

/-- A value that is read if it is there. -/
def given {α : Type} (read : Node → Option α) : Option Node → Option (Option α)
  | none => some none
  | some node => some <$> read node

def serverNames : List String :=
  ["listen", "runtime", "workers", "disconnect_command", "max_payload"]

def addServer (f : File) (node : Node) : Option File := do
  let value ← section? serverNames 3 node
  return { f with
    listen := ← given text (value "listen")
    runtime := ← given runtimeOf (value "runtime")
    workers := ← given natural (value "workers")
    disconnectCommand := ← given text (value "disconnect_command")
    maxPayload := ← given natural (value "max_payload") }

def poolNames : List String :=
  ["max_connections", "idle_timeout", "connect_timeout_ms", "check_interval", "cleanup_interval"]

def addPool (f : File) (node : Node) : Option File := do
  let value ← section? poolNames 0 node
  return { f with
    maxConnections := ← given natural (value "max_connections")
    idleTimeout := ← given natural (value "idle_timeout")
    connectTimeout := ← given natural (value "connect_timeout_ms")
    checkInterval := ← given natural (value "check_interval")
    cleanupInterval := ← given natural (value "cleanup_interval") }

def addLogging (f : File) (node : Node) : Option File := do
  let value ← section? ["level"] 0 node
  return { f with logLevel := ← given text (value "level") }

/-- Adds what a section of the root table says. -/
def addSection (f : File) (entry : String × Node) : Option File :=
  match entry.1 with
  | "server" => f.addServer entry.2
  | "pool" => f.addPool entry.2
  | "logging" => f.addLogging entry.2
  | _ => some f

/-- What a document says, if it is one and its values are of the right kinds. -/
def parse? (s : String) : Option File :=
  match Toml.parse? s with
  | some (.table _ entries) => entries.foldlM addSection {}
  | _ => none

end File

end LineFrame.Settings
