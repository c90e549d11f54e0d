import LineFrame.Connection
import LineFrame.Transport.Basic

/-!
# Serving a transport, waiting for every operation

Does what a connection asks for (`Connection.next`), one thing after the other, until it is closed
or something fails.  The connection is terminated however that ends.
-/

namespace LineFrame

/-- What ends the serving of a connection early. -/
inductive ServeError where
  | io (e : IoError)
  | frame (e : FrameError)
deriving DecidableEq, Repr, Inhabited

def ServeError.message : ServeError → String
  | io e => s!"I/O error: {e.message}"
  | frame e => s!"protocol error: {e.message}"

/-- How serving ended, and what it left. -/
structure Served (τ σ : Type) where
  result : Except ServeError Unit
  transport : τ
  connection : Connection σ
  state : σ

namespace Serve

variable {τ σ : Type} [Transport τ]

def blocking (svc : Service σ) (t : τ) (c : Connection σ) (s : σ) : Served τ σ :=
  match _h : c.next svc s with
  | (.error e, d, s) => ⟨.error (.frame e), t, d, s⟩
  | (.ok .close, d, s) => ⟨.ok (), t, d, s⟩
  | (.ok (.send data), d, s) =>
    match _hs : Transport.send data t with
    | (.ok (), u) => blocking svc u d s
    | (.error e, u) => ⟨.error (.io e), u, d.terminate, s⟩
  | (.ok .receive, d, s) =>
    match _hf : d.reader.fill t with
    | (.ok 0, reader, u) => ⟨.ok (), u, { d with reader }.peerClosed, s⟩
    | (.ok (_ + 1), reader, u) => blocking svc u { d with reader } s
    | (.error e, reader, u) =>
      if _he : e.isInterrupted then blocking svc u { d with reader } s
      else ⟨.error (.io e), u, { d with reader }.terminate, s⟩
termination_by (Transport.budget t, c.backlog)
decreasing_by
  · have shorter := (c.next_backlog svc _).1 data (by rw [_h])
    rw [_h] at shorter
    rcases Nat.lt_or_eq_of_le (Transport.send_le _hs) with less | same
    · exact .left _ _ less
    · rw [same]
      exact .right _ shorter
  · exact .left _ _ (Reader.fill_some _hf)
  · exact .left _ _ (Reader.fill_interrupted _hf _he)

end Serve

end LineFrame
