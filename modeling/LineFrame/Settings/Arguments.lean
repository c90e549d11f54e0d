import LineFrame.Text.Numeral

/-!
# Command-line arguments

Options are written `--name value`, `--name=value`, `-n value`, `-nvalue` or `-n=value`.  A value
that is an argument of its own may not begin with a dash, unless it is a single dash.  Each option
may be given once.

Arguments are read from left to right.  An option whose value may still follow stays open
(`Scanner.opened`) and is only looked at when the next option comes or the arguments end; so an
argument that makes no sense is reported before a bad value in front of it.
-/

namespace LineFrame

/-- How connections are served. -/
inductive Runtime where
  /-- One thread for each. -/
  | threaded
  /-- All on a few threads. -/
  | evented
deriving DecidableEq, Repr, Inhabited

def Runtime.parse? : String → Option Runtime
  | "threaded" => some .threaded
  | "evented" => some .evented
  | _ => none

/-- The values of the options that were given. -/
structure Arguments where
  config : Option String := none
  listen : Option String := none
  runtime : Option Runtime := none
  workers : Option Nat := none
  disconnectCommand : Option String := none
  maxPayload : Option Nat := none
  logLevel : Option String := none
deriving DecidableEq, Repr, Inhabited

namespace Arguments

/-- Why the arguments are not gone by. -/
inductive Stop where
  | help
  | version
  | unknownArgument
  /-- A value is missing, or is none of those allowed. -/
  | invalidValue
  /-- A value is not a number. -/
  | notANumber
  /-- An option was given twice. -/
  | repeated
  /-- A flag was given a value. -/
  | needlessValue
deriving DecidableEq, Repr, Inhabited

inductive Opt where
  | config
  | listen
  | runtime
  | workers
  | disconnectCommand
  | maxPayload
  | logLevel
deriving DecidableEq, Repr, Inhabited

inductive Switch where
  | takes (o : Opt)
  | help
  | version
deriving DecidableEq, Repr, Inhabited

def Switch.ofName? : String → Option Switch
  | "config" => some (.takes .config)
  | "listen" => some (.takes .listen)
  | "runtime" => some (.takes .runtime)
  | "workers" => some (.takes .workers)
  | "disconnect-command" => some (.takes .disconnectCommand)
  | "max-payload" => some (.takes .maxPayload)
  | "log-level" => some (.takes .logLevel)
  | "help" => some .help
  | "version" => some .version
  | _ => none

def Switch.ofLetter? : Char → Option Switch
  | 'c' => some (.takes .config)
  | 'l' => some (.takes .listen)
  | 'r' => some (.takes .runtime)
  | 'w' => some (.takes .workers)
  | 'h' => some .help
  | 'V' => some .version
  | _ => none

/-! ## Values -/

/-- Sets what was not set before. -/
def fresh {α : Type} (old : Option α) (new : Except Stop α) : Except Stop (Option α) :=
  match old with
  | some _ => .error .repeated
  | none => some <$> new

def number (value : String) : Except Stop Nat :=
  match Numeral.read? value with
  | some n => .ok n
  | none => .error .notANumber

def path (value : String) : Except Stop String :=
  if value.isEmpty then .error .invalidValue else .ok value

def runtimeOf (value : String) : Except Stop Runtime :=
  match Runtime.parse? value with
  | some r => .ok r
  | none => .error .invalidValue

/-- Sets an option.  That it was given before is found out before its value is looked at. -/
def set (a : Arguments) (o : Opt) (value : String) : Except Stop Arguments :=
  match o with
  | .config => do return { a with config := ← fresh a.config (path value) }
  | .listen => do return { a with listen := ← fresh a.listen (.ok value) }
  | .runtime => do return { a with runtime := ← fresh a.runtime (runtimeOf value) }
  | .workers => do return { a with workers := ← fresh a.workers (number value) }
  | .disconnectCommand => do
    return { a with disconnectCommand := ← fresh a.disconnectCommand (.ok value) }
  | .maxPayload => do return { a with maxPayload := ← fresh a.maxPayload (number value) }
  | .logLevel => do return { a with logLevel := ← fresh a.logLevel (.ok value) }

/-! ## Reading from left to right -/

/-- An option whose value may still follow, or has. -/
structure Opened where
  option : Opt
  value : Option String := none
deriving DecidableEq, Repr, Inhabited

structure Scanner where
  arguments : Arguments := {}
  opened : Option Opened := none
  /-- Whether a double dash was read, after which nothing is an option or its value. -/
  ended : Bool := false
deriving DecidableEq, Repr, Inhabited

namespace Scanner

/-- Looks at the option that is open. -/
def settle (s : Scanner) : Except Stop Scanner :=
  match s.opened with
  | none => .ok s
  | some ⟨_, none⟩ => .error .invalidValue
  | some ⟨option, some value⟩ => do
    return { s with arguments := ← s.arguments.set option value, opened := none }

/-- A switch that was found, with the value attached to it. -/
def switch (s : Scanner) (found : Switch) (attached : Option String) : Except Stop Scanner := do
  let s ← s.settle
  match found, attached with
  | .help, _ => .error .help
  | .version, _ => .error .version
  | .takes option, some value => do return { s with arguments := ← s.arguments.set option value }
  | .takes option, none => return { s with opened := some { option } }

/-- An argument that begins with two dashes. -/
def long (s : Scanner) (body : List Char) : Except Stop Scanner :=
  let name := String.ofList (body.takeWhile (· ≠ '='))
  let attached := (body.dropWhile (· ≠ '=')).tail?.map String.ofList
  match Switch.ofName? name, attached with
  | none, _ => .error .unknownArgument
  | some (.takes option), _ => s.switch (.takes option) attached
  | some _, some _ => .error .needlessValue
  | some flag, none => s.switch flag none

/-- An argument that begins with one dash.  What follows the letter of an option is its value; an
equals sign between them is left out. -/
def short (s : Scanner) : List Char → Except Stop Scanner
  | [] => .ok s
  | letter :: rest =>
    let attached := match rest with
      | [] => none
      | '=' :: value => some (String.ofList value)
      | value => some (String.ofList value)
    match Switch.ofLetter? letter with
    | none => .error .unknownArgument
    | some found => s.switch found attached

/-- An argument that is no option: the value of the open one, if it still lacks one. -/
def plain (s : Scanner) (argument : String) : Except Stop Scanner :=
  match s.opened with
  | some ⟨option, none⟩ => .ok { s with opened := some ⟨option, some argument⟩ }
  | _ => .error .unknownArgument

def step (s : Scanner) (argument : String) : Except Stop Scanner :=
  if s.ended then .error .unknownArgument
  else
    match argument.toList with
    | ['-', '-'] => .ok { s with ended := true }
    | '-' :: '-' :: body => s.long body
    | '-' :: letter :: rest => s.short (letter :: rest)
    | _ => s.plain argument

end Scanner

def parse (arguments : List String) : Except Stop Arguments := do
  let s ← arguments.foldlM Scanner.step {}
  return (← s.settle).arguments

end Arguments

end LineFrame
