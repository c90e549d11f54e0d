import LineFrame.Bytes
import LineFrame.Transport.IoError
import LineFrame.Wire.Reader

/-!
# Transports

A transport carries bytes both ways.  Reading gives at most as many bytes as asked for, and none
when the peer has closed.

Every transport comes with a `budget` that bounds how often it can go on giving: a read that gives
bytes and an operation that is interrupted take at least one off it.  It is what the loops over a
transport (`writeAll` here, a server's and a client's elsewhere) count down.
-/

namespace LineFrame

namespace Transport

/-- Whether a read is followed by another one: it gave bytes, or it was interrupted. -/
def goesOn : Except IoError Bytes → Bool
  | .ok chunk => !chunk.isEmpty
  | .error e => e.isInterrupted

/-- Whether a write has to be tried again. -/
def retried : Except IoError Nat → Bool
  | .ok _ => false
  | .error e => e.isInterrupted

end Transport

class Transport (τ : Type) where
  read : Nat → τ → Except IoError Bytes × τ
  /-- Takes some of the bytes, from the front, and says how many. -/
  write : Bytes → τ → Except IoError Nat × τ
  flush : τ → Except IoError Unit × τ
  /-- Whether the peer still appears to be there. -/
  connected : τ → Bool
  close : τ → τ
  budget : τ → Nat
  read_length : ∀ n t chunk, (read n t).1 = .ok chunk → chunk.length ≤ n
  read_budget : ∀ n t, budget (read n t).2 + (Transport.goesOn (read n t).1).toNat ≤ budget t
  write_budget : ∀ bs t, budget (write bs t).2 + (Transport.retried (write bs t).1).toNat ≤ budget t
  flush_budget : ∀ t, budget (flush t).2 ≤ budget t

namespace Transport

variable {τ : Type} [Transport τ]

theorem write_le {bs : Bytes} {t u : τ} {found : Except IoError Nat}
    (h : write bs t = (found, u)) : budget u ≤ budget t := by
  have := write_budget bs t
  simp only [h] at this
  omega

theorem write_lt {bs : Bytes} {t u : τ} {e : IoError} (h : write bs t = (.error e, u))
    (he : e.isInterrupted = true) : budget u < budget t := by
  have := write_budget bs t
  simp only [h, retried, he, Bool.toNat_true] at this
  omega

/-- Writes all of the bytes.  Goes on after a write that took only some of them, and after an
interrupted one. -/
def writeAll (bs : Bytes) (t : τ) : Except IoError Unit × τ :=
  match bs with
  | [] => (.ok (), t)
  | b :: rest =>
    match _h : write (b :: rest) t with
    | (.ok 0, u) => (.error .stalled, u)
    | (.ok (n + 1), u) => writeAll (rest.drop n) u
    | (.error e, u) =>
      if _he : e.isInterrupted then writeAll (b :: rest) u else (.error e, u)
termination_by (budget t, bs.length)
decreasing_by
  · have kept := write_le _h
    have : (rest.drop n).length ≤ rest.length := by simp
    simp only [Prod.lex_def, List.length_cons]
    omega
  · have spent := write_lt _h _he
    simp only [Prod.lex_def]
    omega

theorem writeAll_le (bs : Bytes) (t : τ) : budget (writeAll bs t).2 ≤ budget t := by
  fun_induction writeAll bs t with
  | case1 => exact Nat.le_refl _
  | case2 t b rest u h => exact write_le h
  | case3 t b rest n u h ih => exact Nat.le_trans ih (write_le h)
  | case4 t b rest e u h he ih => exact Nat.le_trans ih (write_le h)
  | case5 t b rest e u h he => exact write_le h

/-- Writes all of the bytes and flushes them. -/
def send (bs : Bytes) (t : τ) : Except IoError Unit × τ :=
  match writeAll bs t with
  | (.ok (), t) => flush t
  | (.error e, t) => (.error e, t)

theorem send_le {bs : Bytes} {t u : τ} {found : Except IoError Unit} (h : send bs t = (found, u)) :
    budget u ≤ budget t := by
  have written := writeAll_le bs t
  unfold send at h
  split at h
  · next v hv =>
    rw [hv] at written
    have flushed := flush_budget v
    rw [h] at flushed
    exact Nat.le_trans flushed written
  · next e v hv =>
    cases h
    rw [hv] at written
    exact written

end Transport

namespace Reader

variable {τ : Type} [Transport τ]

/-- Receives from a transport as much as there is space for, and says how many bytes came.  None
came when the peer has closed. -/
def fill (r : Reader) (t : τ) : Except IoError Nat × Reader × τ :=
  let r := { r with buffer := r.buffer.compact }
  match Transport.read r.space t with
  | (.ok chunk, t) => (.ok chunk.length, { r with buffer := r.buffer.commit chunk }, t)
  | (.error e, t) => (.error e, r, t)

theorem fill_some {r s : Reader} {t u : τ} {n : Nat} (h : r.fill t = (.ok (n + 1), s, u)) :
    Transport.budget u < Transport.budget t := by
  unfold fill at h
  dsimp only at h
  split at h
  · next chunk v hv =>
    simp only [Prod.mk.injEq, Except.ok.injEq] at h
    obtain ⟨hn, -, rfl⟩ := h
    have gave := Transport.read_budget ({ r with buffer := r.buffer.compact } : Reader).space t
    rw [hv] at gave
    cases chunk with
    | nil => simp at hn
    | cons b rest => exact gave
  · cases h

theorem fill_interrupted {r s : Reader} {t u : τ} {e : IoError} (h : r.fill t = (.error e, s, u))
    (he : e.isInterrupted = true) : Transport.budget u < Transport.budget t := by
  unfold fill at h
  dsimp only at h
  split at h
  · cases h
  · next v hv =>
    cases h
    have gave := Transport.read_budget ({ r with buffer := r.buffer.compact } : Reader).space t
    rw [hv] at gave
    simp only [Transport.goesOn, he, Bool.toNat_true] at gave
    exact gave

end Reader

end LineFrame
