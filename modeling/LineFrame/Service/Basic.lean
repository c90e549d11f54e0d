import LineFrame.Event
import LineFrame.Message
import LineFrame.Service.Fault
import LineFrame.Wire.CommandLine
import LineFrame.Wire.Reader

/-!
# Services

What a server offers: its commands, each with what it expects after its line and a handler, and what
answers the lines that name none of them.

Handlers are arbitrary code that acts on a state `σ` of the application: a `Call` takes the state
and ends somehow, with the state after it.  The sink, which is told the lifecycle events, acts on
the same state, so the order of all that happens is visible in it.
-/

namespace LineFrame

/-- Handler code that is run on the state of the application. -/
abbrev Call (σ α : Type) := σ → Outcome α × σ

/-- Code that always returns the same. -/
def Call.pure {σ α : Type} (a : α) : Call σ α := fun s => (.returned a, s)

/-- A handler answers a request with one response, or with a stream of them whose items are run one
by one, each when it is wanted. -/
inductive Handler (σ : Type) where
  | single (run : Request → Call σ Response)
  | stream (run : Request → Call σ (List (Call σ Response)))

structure Registration (σ : Type) where
  expectation : Expectation
  handler : Handler σ

/-- What a request is answered with. -/
inductive Reply (σ : Type) where
  | single (response : Response)
  | stream (items : List (Call σ Response))

/-- The calls that give the responses, in order. -/
def Reply.items {σ : Type} : Reply σ → List (Call σ Response)
  | single response => [Call.pure response]
  | stream items => items

structure Service (σ : Type) where
  /-- The commands by their folded names, the last registered first. -/
  commands : List (String × Registration σ)
  /-- Answers commands that are not registered. -/
  fallback : Request → Call σ Response
  /-- Turns the fault of a command's handler into a response. -/
  faultHandler : Option (String → Fault → Call σ Response)
  disconnectCommand : String
  disconnectHandler : Request → Call σ Response
  /-- Is told the lifecycle events. -/
  sink : Event → σ → σ
  /-- The largest payload that a request may declare. -/
  maxPayload : Nat

namespace Service

variable {σ : Type}

/-- Names that fold to the same are the same command: ASCII letters lose their case. -/
def foldName (name : String) : String := String.ofList (name.toList.map Char.toUpper)

def defaultDisconnectCommand : String := "BYE"

/-- A service without commands. -/
def empty : Service σ where
  commands := []
  fallback request := .pure (.error "UnknownCommand" s!"unknown command {request.command}")
  faultHandler := none
  disconnectCommand := defaultDisconnectCommand
  disconnectHandler _ := .pure { status := defaultDisconnectCommand }
  sink _ s := s
  maxPayload := Reader.defaultLimit

/-- Registers a command, in place of an earlier one of the same folded name. -/
def register (svc : Service σ) (name : String) (entry : Registration σ) : Service σ :=
  let key := foldName name
  { svc with commands := (key, entry) :: svc.commands.filter (·.1 != key) }

/-- Registers a command that is answered with one response. -/
def command (svc : Service σ) (name : String) (expectation : Expectation)
    (run : Request → Call σ Response) : Service σ :=
  svc.register name ⟨expectation, .single run⟩

/-- Registers a command that is answered with a stream of responses. -/
def streaming (svc : Service σ) (name : String) (expectation : Expectation)
    (run : Request → Call σ (List (Call σ Response))) : Service σ :=
  svc.register name ⟨expectation, .stream run⟩

/-- Whether two names are the same but for the case of ASCII letters. -/
def eqIgnoringCase (a b : String) : Bool := a.toList.map Char.toLower == b.toList.map Char.toLower

def isDisconnect (svc : Service σ) (name : String) : Bool :=
  eqIgnoringCase name svc.disconnectCommand

/-- What answers a command that is not the disconnect command. -/
def lookup (svc : Service σ) (name : String) : Registration σ :=
  (svc.commands.lookup (foldName name)).getD ⟨.auto, .single svc.fallback⟩

/-- Commands are found under their names, whatever is made of the rest of them. -/
theorem lookup_map {α β : Type} (f : α → β) (commands : List (String × α)) (key : String) :
    (commands.map fun (name, entry) => (name, f entry)).lookup key =
      (commands.lookup key).map f := by
  induction commands with
  | nil => rfl
  | cons command commands ih =>
    rw [List.map_cons, List.lookup_cons, List.lookup_cons, ih]
    split <;> rfl

/-- What a line with this name expects after it. -/
def expectationFor (svc : Service σ) (name : String) : Expectation :=
  if svc.isDisconnect name then .never else (svc.lookup name).expectation

/-- The response for a fault of a command's handler.  The fault handler gives it, unless it fails
itself. -/
def errorResponse (svc : Service σ) (command : String) (fault : Fault) (s : σ) : Response × σ :=
  let standard := Response.error fault.kind fault.message
  match svc.faultHandler with
  | none => (standard, s)
  | some handle =>
    let (outcome, s) := handle command fault s
    match outcome.contain with
    | .ok response => (response, s)
    | .error _ => (standard, s)

/-- The response for a line that was refused. -/
def usageErrorResponse (svc : Service σ) (e : FrameError) (s : σ) : Response × σ :=
  svc.errorResponse "" (.ofFrameError e) s

/-- Runs a command's handler code.  A fault or a panic becomes a response. -/
def answer (svc : Service σ) (command : String) (call : Call σ Response) (s : σ) : Response × σ :=
  let (outcome, s) := call s
  match outcome.contain with
  | .ok response => (response, s)
  | .error fault => svc.errorResponse command fault s

def dispatch (svc : Service σ) (request : Request) (s : σ) : Reply σ × σ :=
  let command := request.command
  if svc.isDisconnect command then
    let (response, s) := svc.answer command (svc.disconnectHandler request) s
    (.single response, s)
  else
    match (svc.lookup command).handler with
    | .single run =>
      let (response, s) := svc.answer command (run request) s
      (.single response, s)
    | .stream run =>
      let (outcome, s) := run request s
      match outcome.contain with
      | .ok items => (.stream items, s)
      | .error fault =>
        let (response, s) := svc.errorResponse command fault s
        (.single response, s)

/-- The folded names of the commands, in order. -/
def names (svc : Service σ) : List String := (svc.commands.map (·.1)).mergeSort (! · > ·)

def describe (svc : Service σ) : String :=
  "CommandRegistry \x7b commands: " ++ Text.quoteList svc.names ++
    ", disconnect_command: " ++ Text.quote svc.disconnectCommand ++
    s!", max_payload: {svc.maxPayload} \x7d"

end Service

end LineFrame
