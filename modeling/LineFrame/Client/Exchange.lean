import LineFrame.Client.Error
import LineFrame.Message
import LineFrame.Pool.Socket

/-!
# Exchanges

One request and its answer on one socket: the request is sent, then frames are read until the
answer is complete.

Reading ends because what is left to read gets less: a response takes a byte off the reader's unread
bytes, and a reception takes something off the socket's budget.
-/

namespace LineFrame

namespace Client

variable {τ : Type} [Transport τ]

/-- What is left to read, in the order in which it is used up. -/
def left (r : Reader) (t : τ) : Nat × Nat := (Transport.budget t, r.unread.length)

/-- The next response.  An interrupted read fails like any other. -/
def readResponse (expect : String → Expectation) (r : Reader) (t : τ) :
    Except Error Response × Reader × τ :=
  match r.nextFrame expect with
  | (.error e, r) => (.error (.frame e), r, t)
  | (.ok (some frame), r) => (.ok (.ofFrame frame), r, t)
  | (.ok none, r) =>
    match _h : r.fill t with
    | (.error e, r, t) => (.error (.io e), r, t)
    | (.ok 0, r, t) => (.error .closed, r, t)
    | (.ok (_ + 1), r, t) => readResponse expect r t
termination_by Transport.budget t
decreasing_by exact Reader.fill_some _h

theorem readResponse_left {expect : String → Expectation} {r s : Reader} {t u : τ}
    {response : Response} (h : readResponse expect r t = (.ok response, s, u)) :
    Prod.Lex (· < ·) (· < ·) (left s u) (left r t) := by
  fun_induction readResponse expect r t with
  | case1 => simp at h
  | case2 r t frame r' hf =>
    simp only [Prod.mk.injEq] at h
    obtain ⟨-, rfl, rfl⟩ := h
    exact .right _ (Reader.nextFrame_lt hf (by simp))
  | case3 => simp at h
  | case4 => simp at h
  | case5 r t r' hf n r'' t' hfill ih =>
    have fewer := Reader.fill_some hfill
    have := ih h
    simp only [left, Prod.lex_def] at this ⊢
    omega

/-- Responses up to the terminator, after those in `before`, the last of which comes first.  One that
is not expected ends the answer, and is all that is given of it; since the rest is left unread, the
socket is disposed of. -/
def readAll (m : MultiRequest) (expect : String → Expectation) (before : List Response)
    (r : Reader) (s : Pool.Socket τ) : Except Error (List Response) × Reader × Pool.Socket τ :=
  match _h : readResponse expect r s with
  | (.error e, r, s) => (.error e, r, s)
  | (.ok response, r, s) =>
    if response.status = m.terminator then (.ok (response :: before).reverse, r, s)
    else if m.expects response.status then readAll m expect (response :: before) r s
    else (.ok [response], r, s.dispose)
termination_by left r s
decreasing_by exact readResponse_left _h

/-- Reads an answer from a socket. -/
abbrev Reading (τ α : Type) := Reader → Pool.Socket τ → Except Error α × Reader × Pool.Socket τ

/-- How much is received at once. -/
def bufferSize : Nat := 4 * 1024

/-- One attempt at a request, for which the reader is reset.  Unless it succeeds and leaves nothing
unread, the socket is disposed of. -/
def exchange {α : Type} (request : Request) (read : Reading τ α) (r : Reader) (s : Pool.Socket τ) :
    Except Error α × Reader × Pool.Socket τ :=
  let r := r.reset
  match Transport.send request.encode s with
  | (.error e, s) => (.error (.io e), r, s.dispose)
  | (.ok (), s) =>
    match read r s with
    | (.error e, r, s) => (.error e, r, s.dispose)
    | (.ok answer, r, s) => (.ok answer, r, if r.hasUnread then s.dispose else s)

end Client

end LineFrame
