import LineFrame.Pool.Basic
import LineFrame.Transport.Link

/-!
# Dialers

A connector that follows a script: it says what each connect finds.
-/

namespace LineFrame

namespace Pool

/-- What a connect finds. -/
inductive Dial where
  | link (l : Link)
  | refused (e : IoError)
  | timedOut
deriving DecidableEq, Repr, Inhabited

structure Dialer where
  endpoint : String
  /-- What the next connects find. -/
  script : List Dial := []
  /-- What a connect finds when the script is used up. -/
  otherwise : Dial := .link {}
deriving DecidableEq, Repr, Inhabited

def Dial.outcome (timeout : Duration) : Dial → Except Error Link
  | link l => .ok l
  | refused e => .error (.connect e)
  | timedOut => .error (.timedOut timeout)

instance : Connector Dialer Link where
  connect timeout d :=
    match d.script with
    | [] => (d.otherwise.outcome timeout, d)
    | dial :: script => (dial.outcome timeout, { d with script })
  endpoint d := d.endpoint

end Pool

end LineFrame
