import LineFrame.Proofs.Wire.Uses

/-!
# Where the unread bytes are

A reader whose unread bytes are moved to the front is the same reader to whoever uses it: nothing
that it finds or takes depends on their place.  So readers that differ in this place only cannot be
told apart, neither now nor after any further uses (`answer_after`).
-/

namespace LineFrame

namespace Reader

/-- The reader with its unread bytes at the front. -/
def settle (r : Reader) : Reader := { r with buffer := r.buffer.compact }

/-- The same was found, and the readers that are left differ in the place of their unread bytes
only. -/
def Agree {α : Type} (x y : α × Reader) : Prop := x.1 = y.1 ∧ x.2.settle = y.2.settle

theorem Agree.exists {α : Type} {x y : α × Reader} (h : Agree x y) :
    ∃ found s t, x = (found, s) ∧ y = (found, t) ∧ s.settle = t.settle :=
  ⟨x.1, x.2, y.2, rfl, Prod.ext h.1.symm rfl, h.2⟩

-- What does the same to a reader at the front does the same to two readers that settle to one.
theorem agree_of_settle {α : Type} {f : Reader → α × Reader} (hf : ∀ r, Agree (f r.settle) (f r))
    {r s : Reader} (h : r.settle = s.settle) : Agree (f r) (f s) := by
  have hr := hf r
  rw [h] at hr
  exact ⟨hr.1.symm.trans (hf s).1, hr.2.symm.trans (hf s).2⟩

variable (r : Reader)

theorem scanLine_settle : r.settle.scanLine.settle = r.scanLine.settle := by
  have hunread : r.settle.unread = r.unread := rfl
  unfold scanLine
  rw [hunread]
  dsimp only
  generalize r.unread.takeWhile (· ≠ Bytes.cr) = text
  have hrest (s : Reader) : ({ s.consume text.length with
      line := text.reverse ++ s.line } : Reader).unread = s.unread.drop text.length := rfl
  rw [hrest, hrest, hunread]
  split <;> rfl

theorem endLine_settle : Agree r.settle.endLine r.endLine := by
  have hunread : r.settle.unread = r.unread := rfl
  unfold endLine
  rw [hunread]
  split
  · exact ⟨rfl, rfl⟩
  · dsimp only
    split <;> exact ⟨rfl, rfl⟩

theorem nextLine_settle : Agree r.settle.nextLine r.nextLine := by
  have hscan : (if r.settle.pendingCr then r.settle else r.settle.scanLine).settle =
      (if r.pendingCr then r else r.scanLine).settle := by
    show (if r.pendingCr then r.settle else r.settle.scanLine).settle = _
    split
    · rfl
    · exact r.scanLine_settle
  unfold nextLine
  generalize (if r.settle.pendingCr then r.settle else r.settle.scanLine) = s at hscan
  generalize (if r.pendingCr then r else r.scanLine) = t at hscan
  have hcr : s.pendingCr = t.pendingCr := by
    show s.settle.pendingCr = t.settle.pendingCr
    rw [hscan]
  dsimp only
  rw [hcr]
  split
  · exact agree_of_settle endLine_settle hscan
  · exact ⟨rfl, hscan⟩

theorem beginPayload_settle (length : Nat) :
    Agree (r.settle.beginPayload length) (r.beginPayload length) := by
  have hlimit : r.settle.limit = r.limit := rfl
  unfold beginPayload
  rw [hlimit]
  split <;> exact ⟨rfl, rfl⟩

theorem endTrailer_settle (declared : Nat) :
    Agree (r.settle.endTrailer declared) (r.endTrailer declared) := by
  have hunread : r.settle.unread = r.unread := rfl
  unfold endTrailer
  rw [hunread]
  split
  · exact ⟨rfl, rfl⟩
  · dsimp only
    split <;> exact ⟨rfl, rfl⟩

theorem readTrailer_settle (declared : Nat) :
    Agree (r.settle.readTrailer declared) (r.readTrailer declared) := by
  have hunread : r.settle.unread = r.unread := rfl
  have hcr : r.settle.pendingCr = r.pendingCr := rfl
  unfold readTrailer
  rw [hunread, hcr]
  split
  · exact r.endTrailer_settle declared
  · split
    · exact ⟨rfl, rfl⟩
    · dsimp only
      split
      · exact agree_of_settle (f := (endTrailer · declared)) (endTrailer_settle · declared) rfl
      · split <;> exact ⟨rfl, rfl⟩

theorem nextPayload_settle : Agree r.settle.nextPayload r.nextPayload := by
  have hunread : r.settle.unread = r.unread := rfl
  have hphase : r.settle.phase = r.phase := rfl
  unfold nextPayload
  rw [hunread, hphase]
  split
  · exact ⟨rfl, rfl⟩
  · next declared remaining _ =>
    dsimp only
    split
    · exact ⟨rfl, rfl⟩
    · exact agree_of_settle (f := (readTrailer · declared)) (readTrailer_settle · declared) rfl
  · exact r.readTrailer_settle _

theorem finishFrame_settle : Agree r.settle.finishFrame r.finishFrame := by
  obtain ⟨found, s, t, hs, ht, hleft⟩ := r.nextPayload_settle.exists
  have hannounced : s.announced = t.announced := by
    show s.settle.announced = t.settle.announced
    rw [hleft]
  rw [finishFrame, finishFrame, hs, ht]
  cases found with
  | error e => exact ⟨rfl, hleft⟩
  | ok found =>
    cases found with
    | none => exact ⟨rfl, hleft⟩
    | some data =>
      dsimp only
      rw [hannounced]
      cases t.announced with
      | none => exact ⟨rfl, hleft⟩
      | some line => exact ⟨rfl, congrArg (fun r : Reader => { r with announced := none }) hleft⟩

theorem startFrame_settle (line : CommandLine) :
    Agree (r.settle.startFrame line) (r.startFrame line) := by
  rw [startFrame, startFrame]
  cases line.length with
  | none => exact ⟨rfl, rfl⟩
  | some n =>
    obtain ⟨found, s, t, hs, ht, hleft⟩ := (r.beginPayload_settle n).exists
    dsimp only
    rw [hs, ht]
    cases found with
    | error e => exact ⟨rfl, hleft⟩
    | ok _ =>
      have hannounced := congrArg (fun r : Reader => { r with announced := some line }) hleft
      exact agree_of_settle finishFrame_settle hannounced

theorem nextFrame_settle (expect : String → Expectation) :
    Agree (r.settle.nextFrame expect) (r.nextFrame expect) := by
  have hphase : r.settle.phase = r.phase := rfl
  rw [nextFrame, nextFrame, hphase]
  split
  · obtain ⟨found, s, t, hs, ht, hleft⟩ := r.nextLine_settle.exists
    rw [hs, ht]
    cases found with
    | error e => exact ⟨rfl, hleft⟩
    | ok found =>
      cases found with
      | none => exact ⟨rfl, hleft⟩
      | some tokens =>
        dsimp only
        cases (expectationOf expect tokens).resolve tokens with
        | error e => exact ⟨rfl, hleft⟩
        | ok line =>
          exact agree_of_settle (f := (startFrame · line)) (startFrame_settle · line) hleft
  · exact r.finishFrame_settle

/-! ## Answers -/

/-- What the owner of a reader gets to know by a use of it. -/
def Use.Answer : Use → Type
  | .feed _ => Nat
  | @Use.fill τ _ _ => Except IoError Nat × τ
  | .receive _ => Nat
  | .nextFrame _ => Except FrameError (Option Frame)
  | .nextLine => Except FrameError (Option (List String))
  | .beginPayload _ => Except FrameError Unit
  | .nextPayload => Except FrameError (Option Bytes)
  | .reset => Unit

/-- What can be seen of a reader without using it. -/
def look (r : Reader) : Bool × Bool × Bool × String :=
  (r.hasUnread, r.idle, r.readsPayload, r.describe)

/-- How many bytes were taken or can be taken, or what was found. -/
def answer (r : Reader) : (u : Use) → u.Answer
  | .feed chunk => (min chunk.length r.space : Nat)
  | @Use.fill _ _ source => ((r.fill source).1, (r.fill source).2.2)
  | .receive _ => r.space
  | .nextFrame expect => (r.nextFrame expect).1
  | .nextLine => r.nextLine.1
  | .beginPayload length => (r.beginPayload length).1
  | .nextPayload => r.nextPayload.1
  | .reset => ()

theorem answer_settle (u : Use) : r.settle.answer u = r.answer u := by
  cases u with
  | feed chunk => rfl
  | fill source => rfl
  | receive chunk => rfl
  | nextFrame expect => exact (r.nextFrame_settle expect).1
  | nextLine => exact r.nextLine_settle.1
  | beginPayload length => exact (r.beginPayload_settle length).1
  | nextPayload => exact r.nextPayload_settle.1
  | reset => rfl

theorem use_settle (u : Use) : (r.settle.use u).settle = (r.use u).settle := by
  cases u with
  | feed chunk => rfl
  | fill source => rfl
  | receive chunk => rfl
  | nextFrame expect => exact (r.nextFrame_settle expect).2
  | nextLine => exact r.nextLine_settle.2
  | beginPayload length => exact (r.beginPayload_settle length).2
  | nextPayload => exact r.nextPayload_settle.2
  | reset => rfl

variable {r} {s : Reader}

theorem look_congr (h : r.settle = s.settle) : r.look = s.look := by
  show r.settle.look = s.settle.look
  rw [h]

theorem use_congr (h : r.settle = s.settle) (u : Use) : (r.use u).settle = (s.use u).settle := by
  rw [← use_settle, h, use_settle]

theorem answer_congr (h : r.settle = s.settle) (u : Use) : r.answer u = s.answer u := by
  rw [← answer_settle, h, answer_settle]

theorem after_congr (h : r.settle = s.settle) (uses : List Use) :
    (r.after uses).settle = (s.after uses).settle := by
  induction uses generalizing r s with
  | nil => exact h
  | cons u uses ih => exact ih (use_congr h u)

/-- **Where the unread bytes are makes no difference**, however the readers are used from there
on. -/
theorem answer_after (h : r.settle = s.settle) (uses : List Use) :
    (r.after uses).look = (s.after uses).look ∧
      ∀ u, (r.after uses).answer u = (s.after uses).answer u :=
  ⟨look_congr (after_congr h uses), answer_congr (after_congr h uses)⟩

end Reader

end LineFrame
