import LineFrame.Proofs.Wire.Held
import LineFrame.Proofs.Wire.Reading

/-!
# Feeding a reader

The owner of a reader has some bytes to give to it.  It offers a piece of them whenever it likes, of
which the reader takes what it has space for, and it asks for frames whenever it likes.  In the end
it asks until nothing more is found.

What a reader is still going to find does not change with any of these moves (`step_prospect`).  So
neither the pieces, nor the times of asking, nor the size of the buffer matter.
-/

namespace LineFrame

namespace Reader

/-- Asks until nothing more is found, also after errors. -/
def exhaust (r : Reader) (expect : String → Expectation) : List Finding × Reader :=
  let s := (r.nextFrame expect).2
  match _h : Finding.of? (r.nextFrame expect).1 with
  | none => ([], s)
  | some found =>
    let (more, t) := s.exhaust expect
    (found :: more, t)
termination_by r.unread.length
decreasing_by
  have hfound : (r.nextFrame expect).1 ≠ .ok none := by
    intro hnone
    rw [hnone] at _h
    cases _h
  exact nextFrame_lt (Prod.eta _).symm hfound

end Reader

/-- What the owner of a reader does. -/
inductive Move where
  /-- Offers the next `n` bytes. -/
  | offer (n : Nat)
  /-- Asks for the next frame. -/
  | ask
deriving DecidableEq, Repr, Inhabited

structure Feeding where
  reader : Reader
  /-- The bytes that the reader has not taken yet. -/
  left : Bytes
  /-- What was found so far, in order. -/
  found : List Finding

namespace Feeding

/-- A new reader, to which these bytes are to be given. -/
def start (capacity limit : Nat) (bytes : Bytes) : Feeding := ⟨.new capacity limit, bytes, []⟩

variable (expect : String → Expectation)

def step (x : Feeding) : Move → Feeding
  | .offer n =>
    let piece := x.left.take n
    { x with reader := x.reader.feed piece, left := piece.drop x.reader.space ++ x.left.drop n }
  | .ask =>
    let (found, reader) := x.reader.nextFrame expect
    { x with reader, found := x.found ++ (Finding.of? found).toList }

def run (x : Feeding) (moves : List Move) : Feeding := moves.foldl (step expect) x

/-- Asks until nothing more is found. -/
def finish (x : Feeding) : Feeding :=
  let (more, reader) := x.reader.exhaust expect
  { x with reader, found := x.found ++ more }

/-- What has been found, and what will be once the reader has all of the bytes. -/
def prospect (x : Feeding) : List Finding × Held :=
  let (more, held) := x.reader.held.feed expect (x.reader.unread ++ x.left)
  (x.found ++ more, held)

variable {expect}

theorem prospect_eq (x : Feeding) :
    x.prospect expect =
      (x.found ++ (x.reader.held.feed expect (x.reader.unread ++ x.left)).1,
        (x.reader.held.feed expect (x.reader.unread ++ x.left)).2) := rfl

end Feeding

namespace Reader

variable {expect : String → Expectation}

-- A call that finds something leaves the rest of the unread bytes to be fed.
theorem feed_of_nextFrame {r s : Reader} {found : Except FrameError (Option Frame)}
    (hs : r.held.Sound) (h : r.nextFrame expect = (found, s)) (more : Bytes) :
    r.held.feed expect (r.unread ++ more) =
      ((Finding.of? found).toList ++ (s.held.feed expect (s.unread ++ more)).1,
        (s.held.feed expect (s.unread ++ more)).2) := by
  have hscan := scan_of_nextFrame hs h
  rw [Held.feed_append, Held.feed_append]
  cases hf : Finding.of? found with
  | none =>
    rw [hf] at hscan
    obtain ⟨hfeed, hnil⟩ := Held.feed_of_scan_none hscan
    rw [hfeed, hnil]
    rfl
  | some f =>
    rw [hf] at hscan
    rw [Held.feed_of_scan_some hscan]
    rfl

/-- **Asking until nothing more is found takes the held state past all unread bytes.** -/
theorem exhaust_eq_feed (expect : String → Expectation) {r : Reader} (hs : r.held.Sound) :
    (r.exhaust expect).1 = (r.held.feed expect r.unread).1 ∧
      (r.exhaust expect).2.held = (r.held.feed expect r.unread).2 ∧
      (r.exhaust expect).2.unread = [] := by
  fun_induction exhaust r expect with
  | case1 r s hnone =>
    have hcall : r.nextFrame expect = ((r.nextFrame expect).1, s) := rfl
    have hfeed := feed_of_nextFrame hs hcall []
    have hnil := r.nextFrame_spent expect (Finding.of?_injective hnone)
    rw [List.append_nil, hnone, hnil] at hfeed
    rw [hfeed]
    exact ⟨rfl, rfl, hnil⟩
  | case2 r s found hfound more t ht ih =>
    have hcall : r.nextFrame expect = ((r.nextFrame expect).1, s) := rfl
    have hfeed := feed_of_nextFrame hs hcall []
    rw [List.append_nil, List.append_nil, hfound] at hfeed
    obtain ⟨hmore, hheld, hnil⟩ := ih (nextFrame_sound hs hcall)
    rw [ht] at hmore hheld hnil
    rw [hfeed, ← hmore, ← hheld]
    exact ⟨rfl, rfl, hnil⟩

/-! ## Room -/

/-- How many unread bytes a reader can hold. -/
def capacity (r : Reader) : Nat := r.buffer.capacity

-- Reading frames leaves the buffer its capacity.
theorem capacity_of_nextFrame {r s : Reader} {found : Except FrameError (Option Frame)}
    (h : r.nextFrame expect = (found, s)) : s.capacity = r.capacity := by
  have hreads := r.nextFrame_reads expect
  rw [h] at hreads
  exact hreads.capacity_eq

-- A reader in which nothing more is found can take as much as it ever could.
theorem space_of_nextFrame {r s : Reader} (h : r.nextFrame expect = (.ok none, s)) :
    s.space = r.capacity := by
  have hcapacity := capacity_of_nextFrame h
  have hunread : s.buffer.unread = [] := unread_of_nextFrame h
  rw [← hcapacity, space, Buffer.space, hunread]
  rfl

/-- In step with the bytes, and with room for one of them at least. -/
def Ready (r : Reader) : Prop := r.held.Sound ∧ 0 < r.capacity

theorem nextFrame_ready {r s : Reader} {found : Except FrameError (Option Frame)} (hr : r.Ready)
    (h : r.nextFrame expect = (found, s)) : s.Ready :=
  ⟨nextFrame_sound hr.1 h, capacity_of_nextFrame h ▸ hr.2⟩

-- A piece that is offered goes from the bytes that are left to the unread ones, or stays.
theorem unread_feed_take (r : Reader) (left : Bytes) (n : Nat) :
    (r.feed (left.take n)).unread ++ ((left.take n).drop r.space ++ left.drop n) =
      r.unread ++ left := by
  have hpiece : (left.take n).take r.space ++ (left.take n).drop r.space = left.take n :=
    List.take_append_drop _ _
  rw [feed, unread, Buffer.unread_feed, List.append_assoc, ← List.append_assoc
    ((left.take n).take _), show r.buffer.space = r.space from rfl, hpiece,
    List.take_append_drop, unread]

end Reader

/-! ## Moves -/

namespace Feeding

variable {expect : String → Expectation}

theorem start_sound (capacity limit : Nat) (bytes : Bytes) :
    (start capacity limit bytes).reader.held.Sound := Held.fresh_sound limit

theorem step_sound (expect : String → Expectation) {x : Feeding} (hs : x.reader.held.Sound)
    (m : Move) :
    (x.step expect m).reader.held.Sound := by
  cases m with
  | offer n => exact hs
  | ask => exact Reader.nextFrame_sound hs rfl

/-- **No move changes what has been found and will be.** -/
theorem step_prospect {x : Feeding} (hs : x.reader.held.Sound) (m : Move) :
    (x.step expect m).prospect expect = x.prospect expect := by
  cases m with
  | offer n =>
    have hbytes : (x.step expect (.offer n)).reader.unread ++ (x.step expect (.offer n)).left =
        x.reader.unread ++ x.left := Reader.unread_feed_take _ _ _
    rw [prospect_eq, prospect_eq, hbytes]
    rfl
  | ask =>
    have hcall : x.reader.nextFrame expect =
        ((x.reader.nextFrame expect).1, (x.reader.nextFrame expect).2) := rfl
    rw [prospect_eq, prospect_eq, Reader.feed_of_nextFrame hs hcall]
    simp only [step, List.append_assoc]

theorem run_sound (expect : String → Expectation) {x : Feeding} (hs : x.reader.held.Sound)
    (moves : List Move) :
    (x.run expect moves).reader.held.Sound := by
  induction moves generalizing x with
  | nil => exact hs
  | cons m moves ih => exact ih (step_sound expect hs m)

theorem run_prospect {x : Feeding} (hs : x.reader.held.Sound) (moves : List Move) :
    (x.run expect moves).prospect expect = x.prospect expect := by
  induction moves generalizing x with
  | nil => rfl
  | cons m moves ih => exact (ih (step_sound expect hs m)).trans (step_prospect hs m)

-- Once the reader has all of the bytes, asking until nothing more is found fulfils the prospect.
theorem finish_prospect {x : Feeding} (hs : x.reader.held.Sound) (hl : x.left = []) :
    ((x.finish expect).found, (x.finish expect).reader.held) = x.prospect expect := by
  obtain ⟨hfound, hheld, -⟩ := Reader.exhaust_eq_feed expect hs
  rw [prospect_eq, hl, List.append_nil, ← hfound, ← hheld]
  rfl

-- However a new reader is fed, it comes to what feeding byte after byte comes to.
theorem finish_run {capacity limit : Nat} {bytes : Bytes} {moves : List Move}
    (hl : ((start capacity limit bytes).run expect moves).left = []) :
    let x := ((start capacity limit bytes).run expect moves).finish expect
    (x.found, x.reader.held) = (Held.fresh limit).feed expect bytes := by
  have hs := start_sound capacity limit bytes
  exact (finish_prospect (run_sound expect hs moves) hl).trans (run_prospect hs moves)

/-- **Chunks do not matter.**  Two readers that are given the same bytes, in whatever pieces, asked
at whatever times and with buffers of whatever sizes, find the same frames and errors in the same
order, and are left in the same partial state. -/
theorem feeding_independent (expect : String → Expectation) (limit : Nat) (bytes : Bytes)
    {capacity₁ capacity₂ : Nat} {moves₁ moves₂ : List Move}
    (h₁ : ((start capacity₁ limit bytes).run expect moves₁).left = [])
    (h₂ : ((start capacity₂ limit bytes).run expect moves₂).left = []) :
    let end₁ := ((start capacity₁ limit bytes).run expect moves₁).finish expect
    let end₂ := ((start capacity₂ limit bytes).run expect moves₂).finish expect
    end₁.found = end₂.found ∧ end₁.reader.held = end₂.reader.held :=
  Prod.mk.inj ((finish_run h₁).trans (finish_run h₂).symm)

-- A frame whose payload holds a terminator, then a line with a bare carriage return: byte by byte
-- through a buffer of one byte, and in one piece.
theorem feeding_independent_of_bytewise :
    let expect : String → Expectation := fun _ => .auto
    let bytes := Text.encode "PUT k 2\r\n\r\n\r\nPI\rNG\r\n"
    let slow := (start 1 8 bytes).run expect (List.replicate 22 [.offer 1, .ask]).flatten
    let fast := (start 64 8 bytes).run expect [.offer 22]
    (slow.left = [] ∧ fast.left = []) ∧
      (slow.finish expect).found = (fast.finish expect).found ∧
      (slow.finish expect).reader.held = (fast.finish expect).reader.held :=
  ⟨by decide +kernel, feeding_independent _ 8 _ (by decide +kernel) (by decide +kernel)⟩

end Feeding

end LineFrame
