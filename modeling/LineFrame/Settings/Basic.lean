import LineFrame.Bytes
import LineFrame.Net.Address
import LineFrame.Pool.Config
import LineFrame.Service.Basic
import LineFrame.Settings.File
import LineFrame.Settings.FileTree

/-!
# Settings

What a server goes by.  An argument comes before a settings file, and that before the default.
-/

namespace LineFrame

structure Settings where
  listen : Net.SocketAddress
  runtime : Runtime
  /-- How many threads serve connections; as many as there are processors if this is `none`. -/
  workers : Option Nat
  disconnectCommand : String
  maxPayload : Nat
  pool : Pool.Config
  logLevel : String
deriving DecidableEq, Repr, Inhabited

namespace Settings

/-- Why there are no settings. -/
inductive Error where
  | unreadable (path : String) (cause : FileError)
  /-- The file is no TOML document, or one of its values is of the wrong kind. -/
  | malformed (path : String)
  | invalidListen (address : String)
deriving DecidableEq, Repr, Inhabited

def Error.message : Error → String
  | unreadable path cause => s!"Failed to read config file '{path}': {cause.message}"
  | malformed path => s!"Failed to parse config file '{path}'"
  | invalidListen address =>
    s!"Invalid listen address '{address}': invalid socket address syntax"

def defaultListen : String := "127.0.0.1:11311"

def defaultLogLevel : String := "info"

/-- The settings of a pool. -/
def poolOf (f : File) : Pool.Config :=
  let standard : Pool.Config := {}
  { maxConnections := f.maxConnections.getD standard.maxConnections
    idleTimeout := (f.idleTimeout.map Duration.ofSecs).getD standard.idleTimeout
    connectTimeout := (f.connectTimeout.map Duration.ofMillis).getD standard.connectTimeout
    checkInterval := (f.checkInterval.map Duration.ofSecs).getD standard.checkInterval
    cleanupInterval := (f.cleanupInterval.map Duration.ofSecs).getD standard.cleanupInterval }

def merge (a : Arguments) (f : File) : Except Error Settings :=
  let address := (a.listen.or f.listen).getD defaultListen
  match Net.SocketAddress.parse? address with
  | none => .error (.invalidListen address)
  | some listen => .ok
    { listen
      runtime := (a.runtime.or f.runtime).getD .threaded
      workers := a.workers.or f.workers
      disconnectCommand :=
        (a.disconnectCommand.or f.disconnectCommand).getD Service.defaultDisconnectCommand
      maxPayload := (a.maxPayload.or f.maxPayload).getD Reader.defaultLimit
      pool := poolOf f
      logLevel := (a.logLevel.or f.logLevel).getD defaultLogLevel }

/-- What a file's bytes say. -/
def decodeFile (path : String) (bytes : Bytes) : Except Error File :=
  match Text.decode? bytes with
  | none => .error (.unreadable path .notText)
  | some text =>
    match File.parse? text with
    | none => .error (.malformed path)
    | some file => .ok file

/-- The settings by the arguments and by the file they name, if they name one.  `read` gives the
file's bytes, or the reason why it cannot be read. -/
def resolve (a : Arguments) (read : String → Except FileError Bytes) : Except Error Settings := do
  let file ← match a.config with
    | none => pure {}
    | some path =>
      match read path with
      | .error cause => .error (.unreadable path cause)
      | .ok bytes => decodeFile path bytes
  merge a file

end Settings

end LineFrame
