import LineFrame.Service.Basic
import LineFrame.Text.Literal
import LineFrame.Text.Utf8

/-!
# Recipes for handlers

Handlers put together from a small stock: fixed answers, echoes, faults of all kinds, and readers of
arguments.  They act on a `Journal`, in which lifecycle events, pulls of stream items and runs of the
fault handler are written down in order.
-/

namespace LineFrame

namespace Journal

inductive Entry where
  | event (e : Event)
  /-- The item of a stream with this index was run. -/
  | pulled (index : Nat)
  | faultHandled (command : String) (fault : Fault)
deriving DecidableEq, Repr, Inhabited

def Entry.text : Entry → String
  | event e => e.text
  | pulled index => s!"pull {index}"
  | faultHandled command fault => s!"error_handler {command} {fault.text}"

end Journal

/-- What has happened, the latest first. -/
abbrev Journal := List Journal.Entry

def Journal.texts (j : Journal) : List String := (j.map Entry.text).reverse

/-- What an argument is read as. -/
inductive Reading where
  | integer (low high : Int)
  | truth
  | character
  | fraction
  | ipv4
deriving DecidableEq, Repr, Inhabited

namespace Reading

/-- The text of the value that is read, or the fault of one that is refused.  A fraction is only
checked. -/
def run (r : Reading) (s : String) : Except Fault (List String) :=
  match r with
  | integer low high =>
    match Literal.integer low high s with
    | .ok n => .ok [toString n]
    | .error e => .error ⟨"ParseIntError", e.message⟩
  | truth =>
    match Literal.truth? s with
    | some b => .ok [toString b]
    | none => .error ⟨"ParseBoolError", "provided string was not \x60true\x60 or \x60false\x60"⟩
  | character =>
    match Literal.character s with
    | .ok c => .ok [c.toString]
    | .error e => .error ⟨"ParseCharError", e.message⟩
  | fraction =>
    match Literal.fraction s with
    | .ok () => .ok []
    | .error e => .error ⟨"ParseFloatError", e.message⟩
  | ipv4 =>
    match Net.Ipv4.parse? s with
    | some ip => .ok [ip.text]
    | none => .error ⟨"AddrParseError", "invalid IPv4 address syntax"⟩

end Reading

inductive Recipe where
  /-- Always the same response. -/
  | reply (response : Response)
  /-- The request itself, as a response. -/
  | echo
  /-- How many arguments there are, and how long the payload is. -/
  | measure
  | fail (fault : Fault)
  | panic (cause : Panic)
  /-- Reads the first argument. -/
  | read (reading : Reading)
  /-- Reads the payload as text. -/
  | readText

namespace Recipe

def run (recipe : Recipe) (request : Request) : Outcome Response :=
  match recipe with
  | reply response => .returned response
  | echo => .returned (.ofFrame request.toFrame)
  | measure =>
    let size := (request.payload.map fun data => toString data.length).getD "none"
    .returned { status := "LEN", args := [toString request.args.length, size, "."] }
  | fail fault => .faulted fault
  | panic cause => .panicked cause
  | read reading =>
    match request.args with
    | [] => .faulted ⟨"MissingArgument", "no argument"⟩
    | arg :: _ =>
      match reading.run arg with
      | .ok args => .returned { status := "OK", args }
      | .error fault => .faulted fault
  | readText =>
    let data := request.payload.getD []
    match Utf8Fault.find data, Text.decode? data with
    | some fault, _ => .faulted ⟨"FromUtf8Error", fault.message⟩
    | none, text => .returned { status := "OK", args := text.toList }

/-- A handler that follows the recipe and leaves the journal as it is. -/
def call (recipe : Recipe) (request : Request) : Call Journal Response :=
  fun j => (recipe.run request, j)

end Recipe

/-- A stream of responses to one request. -/
structure StreamRecipe where
  /-- Run when the stream is started; its response is not used. -/
  start : Option Recipe := none
  items : List Recipe := []
  /-- Whether the items are followed by one response for each argument and an end mark. -/
  withArgs : Bool := false

namespace StreamRecipe

def all (recipe : StreamRecipe) (request : Request) : List Recipe :=
  let values := request.args.map fun arg => Recipe.reply { status := "VALUE", args := [arg] }
  recipe.items ++ if recipe.withArgs then values ++ [.reply { status := "END" }] else []

/-- One item, which is written down as it is run. -/
def pull (request : Request) (item : Recipe) (index : Nat) : Call Journal Response :=
  fun j => (item.run request, .pulled index :: j)

def call (recipe : StreamRecipe) (request : Request) : Call Journal (List (Call Journal Response)) :=
  let items := (recipe.all request).mapIdx fun index item => pull request item index
  let started := match recipe.start with
    | some start => (start.run request).map fun _ => items
    | none => .returned items
  fun j => (started, j)

end StreamRecipe

/-- How a fault becomes a response. -/
inductive FaultRecipe where
  /-- A response that names the command and the fault. -/
  | serverError
  /-- A recipe for a request with the command's name alone. -/
  | follow (recipe : Recipe)

def FaultRecipe.call (recipe : FaultRecipe) (command : String) (fault : Fault) :
    Call Journal Response :=
  fun j =>
    let outcome := match recipe with
      | serverError =>
        .returned
          { status := "SERVER_ERROR", args := [command, fault.kind],
            payload := some (Text.encode fault.message) }
      | follow recipe => recipe.run { command }
    (outcome, .faultHandled command fault :: j)

/-- A service that writes its lifecycle events down. -/
def Service.journaled : Service Journal := { Service.empty with sink := fun e j => .event e :: j }

end LineFrame
