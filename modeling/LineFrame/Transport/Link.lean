import LineFrame.Transport.Basic

/-!
# Scripted links

A link whose peer follows a script: what each read gives, how much a write takes, and which write
and which flush fail.  It keeps what was written to it.

Reading comes in two ways.  `Link.poll` may find that nothing has arrived yet, in which case it is
asked again; `Link.read` waits.
-/

namespace LineFrame

/-- What one read finds. -/
inductive Arrival where
  | bytes (data : Bytes)
  | failure (kind : IoError.Kind)
  /-- Nothing yet. -/
  | pending
deriving DecidableEq, Repr, Inhabited

/-- How much of the link's budget an arrival is worth. -/
def Arrival.worth : Arrival → Nat
  | bytes data => data.length + 1
  | _ => 1

/-- How much of it several arrivals are worth. -/
def Arrival.total : List Arrival → Nat
  | [] => 0
  | a :: rest => a.worth + total rest

/-- How writes are taken. -/
structure WriteScript where
  /-- The most that one write takes. -/
  most : Option Nat := none
  /-- How many more bytes are taken before a write fails, once, and how. -/
  failure : Option (Nat × IoError.Kind) := none
  /-- How the next flush fails. -/
  flushFailure : Option IoError.Kind := none
deriving DecidableEq, Repr, Inhabited

structure Link where
  arrivals : List Arrival := []
  writes : WriteScript := {}
  /-- What was written, last byte first. -/
  sent : Bytes := []
  /-- Whether the peer is there. -/
  up : Bool := true
  closed : Bool := false
deriving DecidableEq, Repr, Inhabited

namespace Link

def written (l : Link) : Bytes := l.sent.reverse

/-- Reads up to `n` bytes, unless nothing has arrived yet.  Of bytes that are too many the rest
stays in front. -/
def poll (n : Nat) (l : Link) : Option (Except IoError Bytes) × Link :=
  match l.arrivals with
  | [] => (some (.ok []), l)
  | .pending :: rest => (none, { l with arrivals := rest })
  | .failure kind :: rest => (some (.error (.plain kind)), { l with arrivals := rest })
  | .bytes data :: rest =>
    let left := data.drop n
    let arrivals := if left.isEmpty then rest else .bytes left :: rest
    (some (.ok (data.take n)), { l with arrivals })

/-- The bytes that a write takes: no more than it may, nor than are left before a failure. -/
def taken (l : Link) (bs : Bytes) : Bytes :=
  match l.writes.most, l.writes.failure with
  | none, none => bs
  | some most, none => bs.take most
  | none, some (left, _) => bs.take left
  | some most, some (left, _) => bs.take (min most left)

def write (bs : Bytes) (l : Link) : Except IoError Nat × Link :=
  match l.writes.failure with
  | some (0, kind) =>
    (.error (.plain kind), { l with writes := { l.writes with failure := none } })
  | failure =>
    let now := l.taken bs
    let failure := failure.map fun (left, kind) => (left - now.length, kind)
    (.ok now.length, { l with sent := now.reverse ++ l.sent, writes := { l.writes with failure } })

def flush (l : Link) : Except IoError Unit × Link :=
  match l.writes.flushFailure with
  | some kind =>
    (.error (.plain kind), { l with writes := { l.writes with flushFailure := none } })
  | none => (.ok (), l)

def connected (l : Link) : Bool := l.up && !l.closed

def close (l : Link) : Link := { l with closed := true }

/-- Puts another write script in place.  Its failure counts what was written before. -/
def rewire (l : Link) (writes : WriteScript) : Link :=
  let failure := writes.failure.map fun (at_, kind) => (at_ - l.sent.length, kind)
  { l with writes := { writes with failure } }

def budget (l : Link) : Nat :=
  Arrival.total l.arrivals + l.writes.failure.isSome.toNat

/-- What a read gives was worth as much, and its arrival one more. -/
theorem goesOn_take (n : Nat) (data : Bytes) :
    (Transport.goesOn (.ok (data.take n))).toNat ≤ data.length - (data.drop n).length := by
  cases data with
  | nil => simp [Transport.goesOn]
  | cons b rest =>
    cases n with
    | zero => simp [Transport.goesOn]
    | succ n =>
      simp only [Transport.goesOn, List.take_succ_cons, List.isEmpty_cons, Bool.not_false,
        Bool.toNat_true, List.length_cons, List.length_drop]
      omega

theorem poll_some_budget {n : Nat} {l m : Link} {found : Except IoError Bytes}
    (h : l.poll n = (some found, m)) : m.budget + (Transport.goesOn found).toNat ≤ l.budget := by
  unfold poll at h
  split at h
  · cases h
    simp [Transport.goesOn]
  · cases h
  · next kind rest hl =>
    obtain ⟨hf, rfl⟩ := Prod.mk.inj h
    have := Bool.toNat_le (Transport.goesOn found)
    simp only [budget, hl, Arrival.total, Arrival.worth]
    omega
  · next data rest hl =>
    obtain ⟨hf, rfl⟩ := Prod.mk.inj h
    have gives := goesOn_take n data
    have : (data.drop n).length ≤ data.length := by simp
    rw [← Option.some.inj hf]
    simp only [budget, hl, Arrival.total, Arrival.worth]
    split
    · omega
    · simp only [Arrival.total, Arrival.worth]
      omega

theorem poll_none_budget {n : Nat} {l m : Link} (h : l.poll n = (none, m)) :
    m.budget < l.budget := by
  unfold poll at h
  split at h
  · cases h
  · next rest hl =>
    obtain ⟨_, rfl⟩ := Prod.mk.inj h
    simp only [budget, hl, Arrival.total, Arrival.worth]
    omega
  · cases h
  · cases h

theorem total_dropWhile (as : List Arrival) (p : Arrival → Bool) :
    Arrival.total (as.dropWhile p) ≤ Arrival.total as := by
  induction as with
  | nil => simp
  | cons a as ih =>
    simp only [List.dropWhile_cons]
    split
    · simp only [Arrival.total]
      omega
    · exact Nat.le_refl _

/-- The link once nothing is pending. -/
def awaited (l : Link) : Link :=
  { l with arrivals := l.arrivals.dropWhile (· == Arrival.pending) }

theorem awaited_budget (l : Link) : l.awaited.budget ≤ l.budget :=
  Nat.add_le_add_right (total_dropWhile l.arrivals _) _

/-- Reads up to `n` bytes, waiting for them if nothing has arrived yet. -/
def read (n : Nat) (l : Link) : Except IoError Bytes × Link :=
  match l.awaited.poll n with
  | (some found, l) => (found, l)
  | (none, l) => (.ok [], l)

theorem read_budget (n : Nat) (l : Link) :
    (l.read n).2.budget + (Transport.goesOn (l.read n).1).toNat ≤ l.budget := by
  refine Nat.le_trans ?_ l.awaited_budget
  unfold read
  split
  · next h => exact poll_some_budget h
  · next h => simpa [Transport.goesOn] using Nat.le_of_lt (poll_none_budget h)

theorem poll_length {n : Nat} {l m : Link} {chunk : Bytes}
    (h : l.poll n = (some (.ok chunk), m)) : chunk.length ≤ n := by
  unfold poll at h
  split at h
  · cases h
    simp
  · cases h
  · cases h
  · cases h
    exact List.length_take_le _ _

instance : Transport Link where
  read := read
  write := write
  flush := flush
  connected := connected
  close := close
  budget := budget
  read_length n l chunk h := by
    unfold read at h
    split at h
    · next found m hp =>
      simp only at h
      exact poll_length (h ▸ hp)
    · cases h
      simp
  read_budget := read_budget
  write_budget bs l := by
    unfold write
    split
    · next kind h =>
      have := Bool.toNat_le (Transport.retried (.error (.plain kind)))
      simp only [budget, h, Option.isSome_some, Option.isSome_none, Bool.toNat_true,
        Bool.toNat_false]
      omega
    · simp [budget, Transport.retried]
  flush_budget l := by
    unfold flush
    split <;> simp [budget]

end Link

end LineFrame
