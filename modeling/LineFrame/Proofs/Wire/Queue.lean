import LineFrame.Proofs.Wire.Settled

/-!
# The buffer as a queue

All bytes that were taken into a reader's memory come out of it in the same order, each of them
once: those that were consumed come first, and the unread ones after them (`Passage`).  That the
bytes are moved to the front within the same memory does not harm them (`slide_eq`).  Neither does
what is written behind them, where the memory is lent out (`Memory.Lends`); it becomes unread when it
is taken, and until then it is as if it were not there.

`bytes_queue` says this of a reader that is used in any way, and how many bytes it takes.
-/

namespace LineFrame

namespace Buffer

namespace Memory

/-! ## Moving to the front -/

/-- The bytes once `n` of those from a place on are copied to the front, one after the other, each
over the byte that is there. -/
def slide (bytes : Bytes) (start : Nat) : Nat → Bytes
  | 0 => bytes
  | n + 1 =>
    let moved := slide bytes start n
    match moved[start + n]? with
    | some b => moved.set n b
    | none => moved

-- A byte that is still to be copied has not been written over: it is behind those that have been.
theorem getElem?_slide (bytes : Bytes) (start n i : Nat) (h : start + n ≤ bytes.length) :
    (slide bytes start n)[i]? = if i < n then bytes[start + i]? else bytes[i]? := by
  induction n generalizing i with
  | zero => rfl
  | succ n ih =>
    have hsource : (slide bytes start n)[start + n]? = some bytes[start + n] := by
      rw [ih _ (by omega), if_neg (by omega)]
      exact List.getElem?_eq_getElem _
    have hplace : (slide bytes start n)[n]? = some bytes[n] := by
      rw [ih _ (by omega), if_neg (Nat.lt_irrefl n)]
      exact List.getElem?_eq_getElem _
    rw [slide, hsource]
    dsimp only
    rw [List.getElem?_set]
    by_cases hi : n = i
    · subst hi
      rw [if_pos rfl, if_pos (List.getElem?_eq_some_iff.mp hplace).1, if_pos (Nat.lt_succ_self n)]
      exact (List.getElem?_eq_getElem _).symm
    · rw [if_neg hi, ih _ (by omega)]
      by_cases hlt : i < n
      · rw [if_pos hlt, if_pos (by omega)]
      · rw [if_neg hlt, if_neg (by omega)]

/-- **Copying one byte after the other comes to moving all of them at once.** -/
theorem slide_eq {bytes : Bytes} {start n : Nat} (h : start + n ≤ bytes.length) :
    slide bytes start n = (bytes.drop start).take n ++ bytes.drop n := by
  have hlength : ((bytes.drop start).take n).length = n := by
    rw [List.length_take, List.length_drop]
    omega
  apply List.ext_getElem?
  intro i
  rw [getElem?_slide bytes start n i h]
  by_cases hi : i < n
  · rw [if_pos hi, List.getElem?_append_left (by omega), List.getElem?_take_of_lt hi,
      List.getElem?_drop]
  · rw [if_neg hi, List.getElem?_append_right (by omega), List.getElem?_drop, hlength]
    congr 1
    omega

example : slide [1, 2, 3, 4, 5] 1 4 = [2, 3, 4, 5, 5] := rfl

/-- Moves the unread bytes to the front. -/
def front? (m : Memory) : Option Memory :=
  if m.position ≤ m.filled ∧ m.filled ≤ m.bytes.length then
    let kept := m.filled - m.position
    some ⟨slide m.bytes m.position kept, 0, kept⟩
  else none

theorem front?_eq (m : Memory) : m.front? = m.compact? := by
  rw [front?, compact?, unread?, slice?]
  by_cases h : m.position ≤ m.filled ∧ m.filled ≤ m.bytes.length
  · rw [if_pos h, if_pos h]
    have hunread : (m.bytes.take m.filled).drop m.position =
        (m.bytes.drop m.position).take (m.filled - m.position) := List.drop_take
    have hlength : ((m.bytes.drop m.position).take (m.filled - m.position)).length =
        m.filled - m.position := by
      rw [List.length_take, List.length_drop]
      omega
    dsimp only
    rw [slide_eq (by omega), hunread]
    show _ = some (Memory.mk (_ ++ m.bytes.drop (List.length _)) 0 _)
    rw [hlength]
  · rw [if_neg h, if_neg h]
    rfl

/-! ## Lending

The memory behind the unread bytes is lent out, and what is written to it is taken later, or in
parts, or never. -/

/-- How many bytes fit behind those that are there. -/
def spare (m : Memory) : Nat := m.bytes.length - m.filled

/-- Moves the unread bytes to the front, and lends out the memory behind them.  The borrower writes
these bytes to it, from its start on, and none of them counts yet. -/
def lend? (m : Memory) (written : Bytes) : Option Memory := do
  let m ← m.front?
  let lent ← m.commit? written
  some { lent with filled := m.filled }

-- The bytes between two places are those up to a place between them, and then those from there on.
theorem slice?_eq_append_iff {m : Memory} {start stop : Nat} {xs ys : Bytes} :
    m.slice? start stop = some (xs ++ ys) ↔
      m.slice? start (start + xs.length) = some xs ∧
        m.slice? (start + xs.length) stop = some ys := by
  have htake (h : start + xs.length ≤ stop) :
      ((m.bytes.take stop).drop start).take xs.length =
        (m.bytes.take (start + xs.length)).drop start := by
    rw [List.take_drop, List.take_take, Nat.min_eq_left h]
  rw [slice?_eq_some_iff, slice?_eq_some_iff, slice?_eq_some_iff]
  constructor
  · rintro ⟨⟨hstart, hstop⟩, h⟩
    have hlength : xs.length + ys.length = stop - start := by
      rw [← List.length_append, ← h, List.length_drop, List.length_take, Nat.min_eq_left hstop]
    refine ⟨⟨⟨by omega, by omega⟩, ?_⟩, ⟨by omega, hstop⟩, ?_⟩
    · rw [← htake (by omega), h, List.take_left]
    · rw [← List.drop_drop, h, List.drop_left]
  · rintro ⟨⟨-, hxs⟩, ⟨hbetween, hstop⟩, hys⟩
    refine ⟨⟨by omega, hstop⟩, ?_⟩
    rw [← List.take_append_drop xs.length ((m.bytes.take stop).drop start), htake hbetween, hxs,
      List.drop_drop, hys]

/-- The memory of a buffer, with these bytes written behind the unread ones. -/
structure Lends (m : Memory) (b : Buffer) (written : Bytes) : Prop extends m.Holds b where
  written : m.slice? m.filled (m.filled + written.length) = some written

section

variable {m : Memory} {b : Buffer} {written : Bytes}

theorem Holds.spare (h : m.Holds b) (hb : b.position = 0) : m.spare = b.space := by
  rw [Memory.spare, h.capacity, h.filled, Buffer.filled, hb, Nat.zero_add, Buffer.space]

theorem Holds.lends_nil (h : m.Holds b) : m.Lends b [] where
  toHolds := h
  written := by
    obtain ⟨⟨-, hstop⟩, -⟩ := slice?_eq_some_iff.mp h.unread
    refine slice?_eq_some_iff.mpr ⟨⟨Nat.le_refl _, hstop⟩, ?_⟩
    exact List.drop_take_self

-- What is lent out is behind the unread bytes, so writing to it leaves them alone.
theorem Holds.lend (h : m.Holds b) (hw : written.length ≤ b.space) :
    ∃ m', m.lend? written = some m' ∧ m'.Lends b.compact written := by
  obtain ⟨front, hfront, hholds⟩ := h.compact
  have hfits : b.compact.filled + written.length ≤ b.compact.capacity := by
    have hspace : written.length ≤ b.capacity - b.unread.length := hw
    have hroom := h.filled_le
    show 0 + b.unread.length + written.length ≤ b.capacity
    rw [Buffer.filled] at hroom
    omega
  obtain ⟨lent, hcommit, hlent⟩ := hholds.commit hfits
  have hlend : m.lend? written = some { lent with filled := front.filled } := by
    rw [lend?, front?_eq, hfront]
    show (do let lent ← front.commit? written; some { lent with filled := front.filled }) = _
    rw [hcommit]
    rfl
  have hend : lent.position + b.unread.length = front.filled := by
    rw [hlent.position, hholds.filled]
    rfl
  have hstop : lent.filled = front.filled + written.length := by
    rw [hlent.filled, hholds.filled, Buffer.filled, Buffer.filled, Buffer.unread_commit,
      List.length_append, ← Nat.add_assoc]
    rfl
  obtain ⟨hunread, hwritten⟩ := slice?_eq_append_iff.mp hlent.unread
  rw [Buffer.unread_compact, hend] at hunread hwritten
  rw [hstop] at hwritten
  refine ⟨_, hlend, ?_⟩
  exact { capacity := hlent.capacity, position := hlent.position, filled := hholds.filled
          unread := hunread, written := hwritten }

namespace Lends

variable {chunk rest : Bytes}

theorem front (h : m.Lends b (chunk ++ rest)) :
    m.slice? m.filled (m.filled + chunk.length) = some chunk :=
  (slice?_eq_append_iff.mp h.written).1

theorem take (h : m.Lends b (chunk ++ rest)) :
    { m with filled := m.filled + chunk.length }.Lends (b.commit chunk) rest := by
  have hend : m.position + b.unread.length = m.filled := by
    rw [h.position, h.filled]
    rfl
  have hfilled : m.filled + chunk.length = (b.commit chunk).filled := by
    rw [h.filled, Buffer.filled, Buffer.filled, Buffer.unread_commit, List.length_append,
      Nat.add_assoc]
    rfl
  obtain ⟨hchunk, hrest⟩ := slice?_eq_append_iff.mp h.written
  rw [List.length_append, ← Nat.add_assoc] at hrest
  have hunread := h.unread
  rw [unread?, ← hend] at hunread
  rw [← hend] at hchunk
  exact {
    capacity := h.capacity
    position := h.position
    filled := hfilled
    unread := by
      rw [← hend]
      exact slice?_eq_append_iff.mpr ⟨hunread, hchunk⟩
    written := hrest }

-- Bytes can be consumed while the memory behind them is lent out.
theorem consume (h : m.Lends b written) {n : Nat} (hn : n ≤ b.unread.length) :
    ∃ m', m.consume? n = some m' ∧ m'.Lends (b.consume n) written := by
  obtain ⟨m', hconsume, hholds⟩ := h.toHolds.consume hn
  refine ⟨m', hconsume, hholds, ?_⟩
  rw [consume?, h.unread] at hconsume
  cases (if_pos hn).symm.trans hconsume
  exact h.written

end Lends

end

end Memory

/-! ## What goes in and what comes out -/

/-- What is done with a memory. -/
inductive Access where
  /-- The memory behind the unread bytes is lent to somebody who writes these bytes to it. -/
  | lend (written : Bytes)
  /-- So many of the bytes behind the unread ones are taken, and become unread. -/
  | take (n : Nat)
  | consume (n : Nat)
  | clear
deriving DecidableEq, Repr

/-- A memory, and all bytes that were taken into it and consumed from it, in order. -/
structure Passage where
  memory : Memory
  accepted : Bytes := []
  consumed : Bytes := []
deriving DecidableEq, Repr

namespace Passage

/-- The passage after an access, if it reaches for places of the memory only. -/
def access? (p : Passage) : Access → Option Passage
  | .lend written => do some { p with memory := ← p.memory.lend? written }
  | .take n => do
    let stop := p.memory.filled + n
    let taken ← p.memory.slice? p.memory.filled stop
    some { p with memory := { p.memory with filled := stop }, accepted := p.accepted ++ taken }
  | .consume n => do
    let gone ← p.memory.slice? p.memory.position (p.memory.position + n)
    some { p with memory := ← p.memory.consume? n, consumed := p.consumed ++ gone }
  | .clear => do
    let gone ← p.memory.unread?
    some { p with memory := p.memory.clear, consumed := p.consumed ++ gone }

def run? (p : Passage) (accesses : List Access) : Option Passage := accesses.foldlM access? p

end Passage

namespace Motion

/-- How a motion is made.  Whoever brings bytes may write more than these to the memory that is lent
to it, as much as there is space for. -/
def accesses (b : Buffer) (excess : Bytes) : Motion → List Access
  | .consume n => [.consume n]
  | .receive chunk =>
    [.lend (chunk ++ excess.take (b.space - chunk.length)), .take chunk.length]
  | .clear => [.clear]

/-- The bytes that a motion brings. -/
def brought : Motion → Bytes
  | .receive chunk => chunk
  | _ => []

/-- The bytes that a motion takes away. -/
def removed (b : Buffer) : Motion → Bytes
  | .consume n => b.unread.take n
  | .receive _ => []
  | .clear => b.unread

/-- What is left behind the unread bytes of what was written there. -/
def leaves (b : Buffer) (written excess : Bytes) : Motion → Bytes
  | .consume _ => written
  | .receive chunk => excess.take (b.space - chunk.length)
  | .clear => []

end Motion

-- What is brought comes after the unread bytes, and what is removed was the first of them.
theorem unread_move (b : Buffer) (motion : Motion) :
    b.unread ++ motion.brought = motion.removed b ++ (b.move motion).unread := by
  cases motion with
  | consume n =>
    show b.unread ++ [] = b.unread.take n ++ b.unread.drop n
    rw [List.append_nil, List.take_append_drop]
  | receive chunk => rfl
  | clear => rfl

namespace Passage

variable {p : Passage} {b : Buffer} {written : Bytes}

theorem access?_take {chunk rest : Bytes} (h : p.memory.Lends b (chunk ++ rest)) :
    p.access? (.take chunk.length) = some { p with
      memory := { p.memory with filled := p.memory.filled + chunk.length }
      accepted := p.accepted ++ chunk } := by
  rw [access?, h.front]
  rfl

/-- **A motion that is allowed can be made**, and what it brings and removes passes through the
memory. -/
theorem run?_move (h : p.memory.Lends b written) {motion : Motion} (hm : b.Allows motion)
    (excess : Bytes) :
    ∃ q, p.run? (motion.accesses b excess) = some q ∧
      q.memory.Lends (b.move motion) (motion.leaves b written excess) ∧
      q.accepted = p.accepted ++ motion.brought ∧
      q.consumed = p.consumed ++ motion.removed b := by
  cases motion with
  | consume n =>
    have hn : (b.unread.take n).length = n := by
      rw [List.length_take]
      exact Nat.min_eq_left hm
    have hsplit : p.memory.unread? = some (b.unread.take n ++ b.unread.drop n) := by
      rw [List.take_append_drop]
      exact h.unread
    have hgone := (Memory.slice?_eq_append_iff.mp hsplit).1
    rw [hn] at hgone
    obtain ⟨m, hconsume, hlends⟩ := h.consume hm
    refine ⟨{ p with memory := m, consumed := p.consumed ++ b.unread.take n }, ?_, hlends,
      (List.append_nil _).symm, rfl⟩
    show p.access? (.consume n) >>= some = _
    rw [access?, hgone, hconsume]
    rfl
  | receive chunk =>
    have hw : (chunk ++ excess.take (b.space - chunk.length)).length ≤ b.space := by
      have hfits : chunk.length ≤ b.space := hm
      have htake := List.length_take_le (b.space - chunk.length) excess
      rw [List.length_append]
      omega
    obtain ⟨m, hlend, hlends⟩ := h.lend hw
    have htaken : ({ p with memory := m } : Passage).access? (.take chunk.length) = _ :=
      access?_take hlends
    refine ⟨⟨{ m with filled := m.filled + chunk.length }, p.accepted ++ chunk, p.consumed⟩, ?_,
      hlends.take, rfl, (List.append_nil _).symm⟩
    show (p.access? (.lend _) >>= fun p => p.access? (.take chunk.length) >>= some) = _
    rw [access?, hlend]
    show Passage.access? { p with memory := m } (.take chunk.length) >>= some = _
    rw [htaken]
    rfl
  | clear =>
    refine ⟨{ p with memory := p.memory.clear, consumed := p.consumed ++ b.unread }, ?_,
      h.clear.lends_nil, (List.append_nil _).symm, rfl⟩
    show p.access? .clear >>= some = _
    rw [access?, h.unread]
    rfl

end Passage

end Buffer

namespace Reader

/-! ## Uses -/

/-- What the owner of a reader does with it and with the memory that it lends out. -/
inductive Act : Type 1 where
  /-- Uses the reader.  Whoever brings bytes for it writes these too, behind those, as far as there
  is space. -/
  | use (u : Use) (excess : Bytes)
  /-- Has so many of the bytes taken that were written and are not taken yet. -/
  | commit (n : Nat)

/-- A reader and what was written to the memory that it has lent out, as far as that is not taken. -/
structure Loan where
  reader : Reader
  written : Bytes := []

namespace Loan

def step (x : Loan) : Act → Loan
  | .use u excess =>
    ⟨x.reader.use u, (u.motion x.reader).leaves x.reader.buffer x.written excess⟩
  | .commit n =>
    let buffer := x.reader.buffer.commit (x.written.take n)
    ⟨{ x.reader with buffer }, x.written.drop n⟩

def run (x : Loan) (acts : List Act) : Loan := acts.foldl step x

/-- The bytes that the reader is given. -/
def gets (x : Loan) : Act → Bytes
  | .use u _ => (u.motion x.reader).brought
  | .commit n => x.written.take n

/-- The bytes that are taken from the reader. -/
def loses (x : Loan) : Act → Bytes
  | .use u _ => (u.motion x.reader).removed x.reader.buffer
  | .commit _ => []

def accesses (x : Loan) : Act → List Buffer.Access
  | .use u excess => (u.motion x.reader).accesses x.reader.buffer excess
  | .commit n => [.take (x.written.take n).length]

/-- The bytes that are concerned by each of some acts, in order. -/
def along (f : Loan → Act → Bytes) (x : Loan) : List Act → Bytes
  | [] => []
  | act :: acts => f x act ++ along f (x.step act) acts

/-- What passes through the memory of the reader. -/
def passage? (p : Buffer.Passage) (x : Loan) : List Act → Option Buffer.Passage
  | [] => some p
  | act :: acts => do passage? (← p.run? (x.accesses act)) (x.step act) acts

variable {x : Loan}

-- What comes goes behind the unread bytes, and what goes was the first of them.
theorem unread_step (x : Loan) (act : Act) :
    x.reader.unread ++ x.gets act = x.loses act ++ (x.step act).reader.unread := by
  cases act with
  | use u excess =>
    show _ = _ ++ (x.reader.use u).buffer.unread
    rw [(x.reader.use_motion u).2]
    exact Buffer.unread_move x.reader.buffer (u.motion x.reader)
  | commit n => rfl

theorem capacity_step (x : Loan) (act : Act) :
    (x.step act).reader.buffer.capacity = x.reader.buffer.capacity := by
  cases act with
  | use u excess =>
    show (x.reader.use u).buffer.capacity = _
    rw [(x.reader.use_motion u).2, Buffer.capacity_move]
  | commit n => rfl

/-- **No act reaches for places that are not there**, and what the reader is given and loses in it
passes through its memory. -/
theorem run?_step {p : Buffer.Passage} (h : p.memory.Lends x.reader.buffer x.written) (act : Act) :
    ∃ q, p.run? (x.accesses act) = some q ∧
      q.memory.Lends (x.step act).reader.buffer (x.step act).written ∧
      q.accepted = p.accepted ++ x.gets act ∧ q.consumed = p.consumed ++ x.loses act := by
  cases act with
  | use u excess =>
    obtain ⟨hallows, hbuffer⟩ := x.reader.use_motion u
    obtain ⟨q, hrun, hlends, hpassed⟩ := Buffer.Passage.run?_move h hallows excess
    rw [← hbuffer] at hlends
    exact ⟨q, hrun, hlends, hpassed⟩
  | commit n =>
    rw [← List.take_append_drop n x.written] at h
    let memory := { p.memory with filled := p.memory.filled + (x.written.take n).length }
    refine ⟨⟨memory, p.accepted ++ x.written.take n, p.consumed⟩, ?_, h.take, rfl,
      (List.append_nil _).symm⟩
    show p.access? (.take (x.written.take n).length) >>= some = _
    rw [Buffer.Passage.access?_take h]
    rfl

theorem passage?_run {p : Buffer.Passage} (h : p.memory.Lends x.reader.buffer x.written)
    (acts : List Act) :
    ∃ q, passage? p x acts = some q ∧ q.memory.Holds (x.run acts).reader.buffer ∧
      q.accepted = p.accepted ++ along gets x acts ∧
      q.consumed = p.consumed ++ along loses x acts := by
  induction acts generalizing p x with
  | nil => exact ⟨p, rfl, h.toHolds, (List.append_nil _).symm, (List.append_nil _).symm⟩
  | cons act acts ih =>
    obtain ⟨q, hrun, hq, haccepted, hconsumed⟩ := run?_step h act
    obtain ⟨final, hpassage, hfinal, hgets, hloses⟩ := ih hq
    refine ⟨final, ?_, hfinal, ?_, ?_⟩
    · rw [passage?, hrun]
      exact hpassage
    · rw [hgets, haccepted, List.append_assoc]
      rfl
    · rw [hloses, hconsumed, List.append_assoc]
      rfl

-- The unread bytes and those that come are those that go and the unread ones that are left.
theorem unread_run (x : Loan) (acts : List Act) :
    x.reader.unread ++ along gets x acts = along loses x acts ++ (x.run acts).reader.unread := by
  induction acts generalizing x with
  | nil => exact List.append_nil _
  | cons act acts ih =>
    show _ ++ (x.gets act ++ along gets (x.step act) acts) =
      x.loses act ++ along loses (x.step act) acts ++ _
    rw [← List.append_assoc, unread_step, List.append_assoc, ih, List.append_assoc]
    rfl

theorem capacity_run (x : Loan) (acts : List Act) :
    (x.run acts).reader.buffer.capacity = x.reader.buffer.capacity := by
  induction acts generalizing x with
  | nil => rfl
  | cons act acts ih => exact (ih (x.step act)).trans (x.capacity_step act)

end Loan

theorem settle_receive_nil (r : Reader) : (r.use (.receive [])).settle = r.settle := by
  have hbuffer : (r.use (.receive [])).buffer = r.buffer.compact := by
    rw [(r.use_motion (.receive [])).2, Use.motion, ite_self]
    exact r.buffer.compact.commit_nil
  show { r with buffer := (r.use (.receive [])).buffer.compact } = r.settle
  rw [hbuffer]
  rfl

theorem use_fill {τ : Type} [Transport τ] (r : Reader) (source : τ) :
    (r.fill source).2.1 =
      r.use (.receive ((Transport.read r.space source).1.toOption.getD [])) := by
  obtain ⟨hfits, hfill⟩ := r.fill_receives source
  rw [hfill, use, if_pos hfits]

/-- **A reader's buffer is a queue of bounded length.**  However a reader was used, whatever was
written to the memory that it lent out, and whenever that was taken, if at all: the bytes in its
memory that are unread are those that it was given but for those that were taken from it, which came
before them, and all of them are as they were given.  A chunk is taken as far as there is space.
All of the memory but for as much as there are unread bytes is lent out, and if nothing is taken of
what is written there, as after a read that fails, this cannot be told from the reader's having not
been used at all. -/
theorem bytes_queue (capacity limit : Nat) (acts : List Act) :
    let start : Loan := { reader := .new capacity limit }
    let r := (start.run acts).reader
    let size := max capacity 1
    let room := size - r.unread.length
    (∃ p, Loan.passage? { memory := .blank size } start acts = some p ∧
      p.memory.bytes.length = size ∧ p.memory.unread? = some r.unread ∧
      p.accepted = Loan.along Loan.gets start acts ∧
      p.consumed = Loan.along Loan.loses start acts ∧ p.accepted = p.consumed ++ r.unread ∧
      ∀ written : Bytes, ∃ m, p.memory.lend? (written.take room) = some m ∧ m.spare = room ∧
        m.unread? = some r.unread) ∧
    r.unread.length ≤ size ∧
    (∀ chunk : Bytes, r.answer (.feed chunk) = min chunk.length room ∧
      (r.use (.feed chunk)).unread = r.unread ++ chunk.take (min chunk.length room)) ∧
    (∀ (τ : Type) [Transport τ] (source : τ), (r.fill source).2.1 =
      r.use (.receive ((Transport.read room source).1.toOption.getD []))) ∧
    ∀ later, let s := (r.use (.receive [])).after later
      s.look = (r.after later).look ∧ ∀ u, s.answer u = (r.after later).answer u := by
  intro start r size room
  have hblank : (Buffer.Memory.blank size).Lends start.reader.buffer start.written :=
    (Buffer.Memory.holds_blank capacity).lends_nil
  obtain ⟨p, hpassage, hp, haccepted, hconsumed⟩ :=
    Loan.passage?_run (p := { memory := .blank size }) hblank acts
  have hqueue : p.accepted = p.consumed ++ r.unread := by
    rw [haccepted, hconsumed]
    exact start.unread_run acts
  have hcapacity : r.buffer.capacity = size := start.capacity_run acts
  have hspace : r.space = room := by
    show r.buffer.capacity - r.unread.length = room
    rw [hcapacity]
  refine ⟨⟨p, hpassage, hp.capacity.trans hcapacity, hp.unread, haccepted, hconsumed, hqueue, ?_⟩,
    ?_, fun chunk => ⟨?_, ?_⟩, fun τ _ source => ?_, fun later => ?_⟩
  · intro written
    have hwritten : (written.take room).length ≤ r.buffer.space := by
      show _ ≤ r.space
      rw [hspace]
      exact List.length_take_le _ _
    obtain ⟨m, hlend, hm⟩ := hp.lend hwritten
    exact ⟨m, hlend, (hm.spare rfl).trans hspace, hm.unread⟩
  · have hfilled := hp.filled_le
    rw [← hcapacity]
    exact Nat.le_trans (Nat.le_add_left _ _) hfilled
  · show min chunk.length r.space = _
    rw [hspace]
  · show r.unread ++ chunk.take r.space = _
    rw [hspace, List.take_eq_take_min, Nat.min_comm]
  · rw [use_fill, hspace]
  · exact answer_after r.settle_receive_nil later

end Reader

end LineFrame
