import LineFrame.Connection
import LineFrame.Service.Echo
import LineFrame.Settings.Basic

/-!
# The echo server's command line

Serves one connection over standard input and output, by the settings that the arguments and a
settings file give.  What is done is decided by `Arguments.parse`, `Settings.resolve` and
`Connection.next`; here it is only carried out.
-/

namespace LineFrame.Terminal

def usage : String :=
  "Usage: lineframe [--config FILE] [--listen ADDRESS] [--runtime threaded|evented] " ++
    "[--workers N] [--disconnect-command NAME] [--max-payload N] [--log-level LEVEL]"

/-- How many bytes are read from standard input at once. -/
def chunkSize : USize := 4096

/-- Does what the connection asks for until it is closed.  Says whether it was closed in order. -/
partial def serve (svc : Service Unit) (c : Connection Unit) : IO Bool := do
  let (action, c, _) := c.next svc ()
  match action with
  | .error e =>
    IO.eprintln e.message
    return false
  | .ok .close => return true
  | .ok (.send data) =>
    let out ← IO.getStdout
    out.write ⟨data.toArray⟩
    out.flush
    serve svc c
  | .ok .receive =>
    let chunk ← (← IO.getStdin).read chunkSize
    if chunk.isEmpty then return true
    serve svc { c with reader := c.reader.feed chunk.data.toList }

/-- The reason that the system gives. -/
def fileError : IO.Error → FileError
  | .noFileOrDirectory .. => .missing
  | .inappropriateType _ _ "not a directory" => .notDirectory
  | .inappropriateType _ _ "is a directory" => .isDirectory
  | .invalidArgument _ _ "name too long" => .nameTooLong
  | .invalidArgument _ _ "string contains NUL bytes" => .nulInPath
  | e => .other (toString e)

/-- A file's bytes, or the reason why it cannot be read. -/
def readFile (path : String) : IO (Except FileError Bytes) := do
  try
    return .ok (← IO.FS.readBinFile path).data.toList
  catch e =>
    return .error (fileError e)

def settings (a : Arguments) : IO (Except Settings.Error Settings) := do
  match a.config with
  | none => return Settings.resolve a fun _ => .ok []
  | some path =>
    let found ← readFile path
    return Settings.resolve a fun _ => found

def run (arguments : List String) : IO UInt32 := do
  match Arguments.parse arguments with
  | .error .help =>
    IO.println usage
    return 0
  | .error .version =>
    IO.println "lineframe"
    return 0
  | .error _ =>
    IO.eprintln usage
    return 2
  | .ok a =>
    match ← settings a with
    | .error e =>
      IO.eprintln e.message
      return 1
    | .ok s =>
      let svc := Service.echo s.disconnectCommand s.maxPayload
      let (c, _) := Connection.accept svc none ()
      return if ← serve svc c then 0 else 1

end LineFrame.Terminal

def main (arguments : List String) : IO UInt32 := LineFrame.Terminal.run arguments
