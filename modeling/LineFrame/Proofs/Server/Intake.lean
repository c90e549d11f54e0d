import LineFrame.Proofs.Server.Conversation
import LineFrame.Proofs.Server.Pace

/-!
# What a connection takes in

The caller of a connection gives it bytes in whatever pieces and at whatever times, and of each piece
the reader takes what it has space for (`Usage.intake`).  The frames and refused lines that the
connection answers are those that all these bytes decode to, in order (`findings_prefix`).  Once it
asks for more bytes, none of them is missing (`findings_of_receive`), and a fatal error is the next
thing that they decode to (`findings_of_failed`).
-/

namespace LineFrame

variable {σ : Type}

/-- The frame or the refused line that a deed starts to answer. -/
def Deed.finding? : Deed σ → Option Finding
  | called request _ => some (.ok request.toFrame)
  | refused e => some (.error e)
  | _ => none

theorem Deed.filterMap_finding?_concat (ds : List (Deed σ)) (d : Deed σ) :
    (ds ++ [d]).filterMap finding? = ds.filterMap finding? ++ d.finding?.toList := by
  rw [List.filterMap_append]
  cases h : d.finding? <;> simp [h]

namespace Usage

/-- What has been found and answered, in order. -/
def findings (x : Usage σ) : List Finding := x.history.filterMap Deed.finding?

/-- The bytes that the reader takes when this is done. -/
def taken (x : Usage σ) : Use → Bytes
  | .give chunk => chunk.take x.connection.reader.space
  | _ => []

/-- The bytes that the reader takes in the course of these uses. -/
def intake (svc : Service σ) (x : Usage σ) : List Use → Bytes
  | [] => []
  | use :: uses => x.taken use ++ (x.step svc use).intake svc uses

end Usage

/-! ## Decoding -/

namespace Held

variable {expect : String → Expectation} {limit : Nat}

-- What bytes decode to goes on after findings that leave the stream in step.
theorem decodeAll_of_prefix {findings : List Finding} {bytes : Bytes}
    (hstep : ∀ f ∈ findings, f.fatal = false)
    (h : findings <+: ((fresh limit).feed expect bytes).1) :
    ∃ rest, Finding.decodeAll expect limit bytes =
        findings ++ Finding.decodeAll expect limit rest ∧
      ((fresh limit).feed expect bytes).1 = findings ++ ((fresh limit).feed expect rest).1 := by
  induction findings generalizing bytes with
  | nil => exact ⟨bytes, rfl, rfl⟩
  | cons f findings ih =>
    obtain ⟨hf, hstep⟩ := List.forall_mem_cons.mp hstep
    cases hdecode : Finding.decode expect limit bytes with
    | none =>
      rw [feed_of_decode_none hdecode, List.prefix_nil] at h
      cases h
    | some found =>
      obtain ⟨g, more⟩ := found
      obtain ⟨held, hfeed, hheld⟩ := feed_of_decode_some hdecode
      rw [hfeed, List.cons_prefix_cons] at h
      obtain ⟨rfl, h⟩ := h
      cases hheld hf
      obtain ⟨rest, hall, hrest⟩ := ih hstep h
      refine ⟨rest, ?_, ?_⟩
      · rw [Finding.decodeAll]
        split
        · next hnone => rw [hdecode] at hnone; cases hnone
        · next hsome =>
          rw [hdecode] at hsome
          cases hsome
          rw [if_neg (by simp [hf]), hall, List.cons_append]
      · rw [hfeed, hrest, List.cons_append]

theorem decodeAll_of_feed_nil {bytes : Bytes} (h : ((fresh limit).feed expect bytes).1 = []) :
    Finding.decodeAll expect limit bytes = [] := by
  rw [Finding.decodeAll]
  split
  · rfl
  · next hdecode =>
    obtain ⟨held, hfeed, -⟩ := feed_of_decode_some hdecode
    rw [hfeed] at h
    cases h

-- A fatal error is the last thing that bytes decode to.
theorem decodeAll_of_feed_fatal {bytes : Bytes} {f : Finding} {more : List Finding}
    (h : ((fresh limit).feed expect bytes).1 = f :: more) (hf : f.fatal = true) :
    Finding.decodeAll expect limit bytes = [f] := by
  rw [Finding.decodeAll]
  split
  · next hdecode =>
    rw [feed_of_decode_none hdecode] at h
    cases h
  · next hdecode =>
    obtain ⟨held, hfeed, -⟩ := feed_of_decode_some hdecode
    rw [hfeed] at h
    cases h
    rw [if_pos hf]

end Held

/-! ## Steps -/

namespace Scene

/-- What was done so far accounts for the bytes that were taken: what was found is what a reader
finds in them, as far as it has come, and none of them is lost before the connection is over. -/
structure Accounts (svc : Service σ) (bytes : Bytes) (ds : List (Deed σ)) (x : Scene σ) : Prop where
  sound : x.reader.held.Sound
  inStep : ∀ f ∈ ds.filterMap Deed.finding?, f.fatal = false
  found : ds.filterMap Deed.finding? <+:
    ((Held.fresh svc.maxPayload).feed svc.expectationFor bytes).1
  ahead : x.stage.phase ≠ .terminated →
    (Held.fresh svc.maxPayload).feed svc.expectationFor bytes =
      (ds.filterMap Deed.finding? ++ (x.reader.held.feed svc.expectationFor x.reader.unread).1,
        (x.reader.held.feed svc.expectationFor x.reader.unread).2)
  failed : ∀ e, .failed e ∈ ds → x.stage.phase = .terminated ∧ e.fatal = true ∧
    ds.filterMap Deed.finding? ++ [.error e] <+:
      ((Held.fresh svc.maxPayload).feed svc.expectationFor bytes).1

variable {svc : Service σ} {bytes : Bytes} {ds : List (Deed σ)} {x y : Scene σ} {d : Deed σ}

-- A deed that finds nothing leaves the account as it is.
theorem Accounts.of_quiet (h : x.Accounts svc bytes ds) (hfinding : d.finding? = none)
    (hfailed : ∀ e, d ≠ .failed e) (hreader : y.reader = x.reader)
    (hphase : x.stage.phase = .terminated → y.stage.phase = .terminated) :
    y.Accounts svc bytes (ds ++ [d]) := by
  have hsame : (ds ++ [d]).filterMap Deed.finding? = ds.filterMap Deed.finding? := by
    rw [Deed.filterMap_finding?_concat, hfinding]
    exact List.append_nil _
  refine ⟨hreader ▸ h.sound, hsame ▸ h.inStep, hsame ▸ h.found, fun hlive => ?_, fun e he => ?_⟩
  · rw [hsame, hreader]
    exact h.ahead (mt hphase hlive)
  · rcases List.mem_append.mp he with hmem | hmem
    · obtain ⟨hover, hfatal, hprefix⟩ := h.failed e hmem
      rw [hsame]
      exact ⟨hphase hover, hfatal, hprefix⟩
    · exact absurd (List.mem_singleton.mp hmem).symm (hfailed e)

-- A connection that is given up forgets the bytes that it has, and finds nothing any more.
theorem Accounts.of_over (h : x.Accounts svc bytes ds) (hfinding : d.finding? = none)
    (hfailed : ∀ e, d ≠ .failed e) (hover : y.stage.phase = .terminated)
    (hreader : y.reader = x.reader.reset) : y.Accounts svc bytes (ds ++ [d]) := by
  have hquiet : Accounts svc bytes (ds ++ [d]) ⟨y.stage, x.reader, y.state⟩ :=
    h.of_quiet hfinding hfailed rfl fun _ => hover
  refine ⟨?_, hquiet.inStep, hquiet.found, fun hlive => absurd hover hlive, hquiet.failed⟩
  rw [hreader]
  exact Held.fresh_sound _

-- Looking at bytes finds what is next in them.
theorem Accounts.of_nextFrame {left : Reader} {found : Except FrameError (Option Frame)}
    (h : x.Accounts svc bytes ds) (hphase : x.stage.phase ≠ .terminated)
    (hnext : x.reader.nextFrame svc.expectationFor = (found, left)) :
    (Held.fresh svc.maxPayload).feed svc.expectationFor bytes =
      (ds.filterMap Deed.finding? ++ (Finding.of? found).toList ++
          (left.held.feed svc.expectationFor left.unread).1,
        (left.held.feed svc.expectationFor left.unread).2) := by
  have hfeed := Reader.feed_of_nextFrame h.sound hnext []
  rw [List.append_nil, List.append_nil] at hfeed
  rw [h.ahead hphase, hfeed, List.append_assoc]

-- What is found is answered, unless the stream is out of step after it.
theorem Accounts.of_found {left : Reader} {found : Except FrameError (Option Frame)}
    (h : x.Accounts svc bytes ds) (hphase : x.stage.phase ≠ .terminated)
    (hnext : x.reader.nextFrame svc.expectationFor = (found, left))
    (hfinding : d.finding? = Finding.of? found) (hfailed : ∀ e, d ≠ .failed e)
    (hstep : ∀ f, Finding.of? found = some f → f.fatal = false) (hreader : y.reader = left) :
    y.Accounts svc bytes (ds ++ [d]) := by
  have hfeed := h.of_nextFrame hphase hnext
  have hmore := Deed.filterMap_finding?_concat ds d
  rw [hfinding] at hmore
  refine ⟨?_, fun f hf => ?_, ?_, fun _ => ?_, fun e he => ?_⟩
  · rw [hreader]
    exact Reader.nextFrame_sound h.sound hnext
  · rw [hmore] at hf
    rcases List.mem_append.mp hf with hf | hf
    · exact h.inStep f hf
    · exact hstep f (Option.mem_toList.mp hf)
  · rw [hmore, hfeed]
    exact List.prefix_append _ _
  · rw [hmore, hreader]
    exact hfeed
  · rcases List.mem_append.mp he with hmem | hmem
    · exact absurd (h.failed e hmem).1 hphase
    · exact absurd (List.mem_singleton.mp hmem).symm (hfailed e)

-- Bytes that are given come after those that were taken before.
theorem Accounts.of_given {phase : Connection.Phase σ} {reader : Reader} {s : σ}
    (h : Accounts svc bytes ds ⟨.waiting phase, reader, s⟩) (chunk : Bytes) :
    Accounts svc (bytes ++ chunk.take reader.space) (ds ++ [.given chunk])
      ⟨.waiting phase, reader.feed chunk, s⟩ := by
  have hsame : (ds ++ [Deed.given chunk]).filterMap Deed.finding? = ds.filterMap Deed.finding? :=
    (Deed.filterMap_finding?_concat ds _).trans (List.append_nil _)
  have hfeed : (Held.fresh svc.maxPayload).feed svc.expectationFor
      (bytes ++ chunk.take reader.space) = _ := Held.feed_append _ bytes _
  have hmore : ((Held.fresh svc.maxPayload).feed svc.expectationFor bytes).1 <+:
      ((Held.fresh svc.maxPayload).feed svc.expectationFor
        (bytes ++ chunk.take reader.space)).1 := by
    rw [hfeed]
    exact List.prefix_append _ _
  refine ⟨h.sound, hsame ▸ h.inStep, hsame ▸ h.found.trans hmore, fun hlive => ?_, fun e he => ?_⟩
  · have hunread : (reader.feed chunk).unread = reader.unread ++ chunk.take reader.space := rfl
    rw [hsame, hfeed, h.ahead hlive, hunread, Held.feed_append]
    exact congrArg (·, _) (List.append_assoc _ _ _)
  · have hmem : .failed e ∈ ds := by
      rcases List.mem_append.mp he with hmem | hmem
      · exact hmem
      · cases List.mem_singleton.mp hmem
    obtain ⟨hover, hfatal, hprefix⟩ := h.failed e hmem
    rw [hsame]
    exact ⟨hover, hfatal, hprefix.trans hmore⟩

/-- **A step accounts for the bytes that it looks at.** -/
theorem Accounts.step (h : x.Accounts svc bytes ds) (hstep : Step svc x d y)
    (hd : ∀ chunk, d ≠ .given chunk) : y.Accounts svc bytes (ds ++ [d]) := by
  have hlive : (Connection.Phase.awaiting : Connection.Phase σ) ≠ .terminated := nofun
  cases hstep with
  | given phase reader s chunk => exact absurd rfl (hd chunk)
  | asked phase reader s => exact h.of_quiet rfl nofun rfl id
  | hungUp phase reader s => exact h.of_over rfl nofun rfl rfl
  | stopped phase reader s => exact h.of_over rfl nofun rfl rfl
  | starved s hn => exact h.of_found hlive hn rfl nofun nofun rfl
  | called hn hs hr => exact h.of_found hlive hn rfl nofun (by rintro f ⟨⟩; rfl) rfl
  | refused hn he hr => exact h.of_found hlive hn rfl nofun (by rintro f ⟨⟩; exact he) rfl
  | @failed reader left e s hn he =>
    have hfeed := h.of_nextFrame hlive hn
    have hsame : (ds ++ [Deed.failed e]).filterMap Deed.finding? = ds.filterMap Deed.finding? :=
      (Deed.filterMap_finding?_concat ds _).trans (List.append_nil _)
    refine ⟨Held.fresh_sound _, hsame ▸ h.inStep, hsame ▸ h.found, fun hlive => absurd rfl hlive,
      fun e' he' => ?_⟩
    -- it is this failure, because the connection was not over before
    rcases List.mem_append.mp he' with hmem | hmem
    · exact absurd (h.failed e' hmem).1 hlive
    · cases List.mem_singleton.mp hmem
      rw [hsame, hfeed]
      exact ⟨rfl, he, List.prefix_append _ _⟩
  | pulled reader hp hr => exact h.of_quiet rfl nofun rfl nofun
  | completed reader s hp => exact h.of_quiet rfl nofun rfl nofun
  | returned found phase reader s => exact h.of_quiet rfl nofun rfl id
  | closed reader s => exact h.of_quiet rfl nofun rfl id

theorem Accounts.path {es : List (Deed σ)} (h : x.Accounts svc bytes ds) (hpath : Path svc x es y)
    (hes : ∀ d ∈ es, ∀ chunk, d ≠ .given chunk) : y.Accounts svc bytes (ds ++ es) :=
  hpath.keeps (P := Accounts svc bytes) h fun hd h hstep => h.step hstep (hes _ hd)

end Scene

namespace Connection

-- A connection does not give bytes to itself.
theorem ne_given_of_mem_deeds (svc : Service σ) (c : Connection σ) (s : σ) :
    ∀ d ∈ c.deeds svc s, ∀ chunk, d ≠ .given chunk := by
  have hturn (c : Connection σ) (s : σ) : ∀ d ∈ (c.turn svc s).deeds, ∀ chunk, d ≠ .given chunk := by
    unfold turn
    split
    · simp
    · split <;> simp
    · split
      · simp
      · simp
      · split <;> simp
  fun_induction deeds svc c s with
  | case1 c s found h => exact List.forall_mem_append.mpr ⟨hturn c s, by simp⟩
  | case2 c s h ih => exact List.forall_mem_append.mpr ⟨hturn c s, ih⟩

-- The last thing that it does is to tell its caller what to do.
theorem getLast?_deeds (svc : Service σ) (c : Connection σ) (s : σ) :
    (c.deeds svc s).getLast? = some (.returned (c.next svc s).1) := by
  fun_induction deeds svc c s with
  | case1 c s found h => rw [List.getLast?_concat, next_of_found h]
  | case2 c s h ih => rw [List.getLast?_append, ih, next_of_none h, Option.some_or]

end Connection

/-! ## Usages -/

namespace Usage

variable {svc : Service σ} {bytes : Bytes} {x : Usage σ}

theorem start_accounts (svc : Service σ) (peer : Option Net.SocketAddress) (s : σ) :
    (start svc peer s).scene.Accounts svc [] (start svc peer s).history :=
  ⟨Held.fresh_sound svc.maxPayload, nofun, List.prefix_rfl, fun _ => rfl, nofun⟩

/-- **A step of a usage accounts for the bytes that the reader takes in it.** -/
theorem step_accounts (h : x.scene.Accounts svc bytes x.history) (use : Use) :
    (x.step svc use).scene.Accounts svc (bytes ++ x.taken use) (x.step svc use).history := by
  have hnil : bytes ++ [] = bytes := List.append_nil bytes
  cases use with
  | give chunk => exact h.of_given chunk
  | ask =>
    show Scene.Accounts svc (bytes ++ []) _ _
    rw [hnil]
    refine h.path (.cons (.asked _ _ _) (x.connection.deeds_path svc x.state)) ?_
    exact List.forall_mem_cons.mpr ⟨nofun, x.connection.ne_given_of_mem_deeds svc x.state⟩
  | hangUp =>
    show Scene.Accounts svc (bytes ++ []) _ _
    rw [hnil]
    exact h.step (.hungUp _ _ _) nofun
  | stop =>
    show Scene.Accounts svc (bytes ++ []) _ _
    rw [hnil]
    exact h.step (.stopped _ _ _) nofun

/-- **A usage accounts for all bytes that the reader takes.** -/
theorem run_accounts (h : x.scene.Accounts svc bytes x.history) (uses : List Use) :
    (x.run svc uses).scene.Accounts svc (bytes ++ x.intake svc uses) (x.run svc uses).history := by
  induction uses generalizing x bytes with
  | nil =>
    show x.scene.Accounts svc (bytes ++ []) x.history
    rw [List.append_nil]
    exact h
  | cons use uses ih =>
    have hrun := ih (step_accounts h use)
    rw [List.append_assoc] at hrun
    exact hrun

theorem run_start_accounts (svc : Service σ) (peer : Option Net.SocketAddress) (s : σ)
    (uses : List Use) :
    ((start svc peer s).run svc uses).scene.Accounts svc ((start svc peer s).intake svc uses)
      ((start svc peer s).run svc uses).history :=
  run_accounts (start_accounts svc peer s) uses

/-- A connection that has just told its caller to receive has looked at all of its bytes. -/
structure Drained (x : Usage σ) : Prop where
  ready : x.connection.reader.Ready
  drained : x.history.getLast? = some (.returned (.ok .receive)) →
    x.connection.phase = .awaiting ∧ x.connection.unread = []

theorem start_drained (svc : Service σ) (peer : Option Net.SocketAddress) (s : σ) :
    (start svc peer s).Drained := ⟨Connection.accept_ready svc peer s, nofun⟩

theorem step_drained (h : x.Drained) (svc : Service σ) (use : Use) : (x.step svc use).Drained := by
  -- only an answer of the connection is the last thing done then
  have hother (d : Deed σ) (hd : d ≠ .returned (.ok .receive)) :
      (x.history ++ [d]).getLast? ≠ some (.returned (.ok .receive)) := by
    rw [List.getLast?_concat]
    exact mt Option.some.inj hd
  cases use with
  | give chunk => exact ⟨h.ready, fun hlast => absurd hlast (hother (.given chunk) nofun)⟩
  | ask =>
    refine ⟨Connection.next_ready h.ready svc x.state, fun hlast => ?_⟩
    have hdeeds : (x.history ++ .asked :: x.connection.deeds svc x.state).getLast? =
        some (.returned (x.connection.next svc x.state).1) := by
      rw [List.getLast?_append, List.getLast?_cons, Connection.getLast?_deeds]
      rfl
    have hfound : (x.connection.next svc x.state).1 = .ok .receive :=
      Deed.returned.inj (Option.some.inj (hdeeds.symm.trans hlast))
    obtain ⟨hphase, hunread, -⟩ := Connection.next_receive h.ready hfound
    exact ⟨hphase, hunread⟩
  | hangUp =>
    exact ⟨⟨Held.fresh_sound _, h.ready.2⟩, fun hlast => absurd hlast (hother .hungUp nofun)⟩
  | stop =>
    exact ⟨⟨Held.fresh_sound _, h.ready.2⟩, fun hlast => absurd hlast (hother .stopped nofun)⟩

theorem run_drained (h : x.Drained) (svc : Service σ) (uses : List Use) :
    (x.run svc uses).Drained := by
  induction uses generalizing x with
  | nil => exact h
  | cons use uses ih => exact ih (step_drained h svc use)

/-! ## What is found -/

section

variable (svc : Service σ) (peer : Option Net.SocketAddress) (s : σ) (uses : List Use)

/-- **Nothing is answered but what the bytes decode to**, and that in order. -/
theorem findings_prefix :
    ((start svc peer s).run svc uses).findings <+:
      Finding.decodeAll svc.expectationFor svc.maxPayload ((start svc peer s).intake svc uses) := by
  have h := run_start_accounts svc peer s uses
  obtain ⟨rest, hall, -⟩ := Held.decodeAll_of_prefix h.inStep h.found
  rw [hall]
  exact List.prefix_append _ _

variable {svc peer s uses}

/-- **Nothing is left out** when the connection asks for more bytes. -/
theorem findings_of_receive
    (hlast : ((start svc peer s).run svc uses).history.getLast? =
      some (.returned (.ok .receive))) :
    ((start svc peer s).run svc uses).findings =
      Finding.decodeAll svc.expectationFor svc.maxPayload ((start svc peer s).intake svc uses) := by
  have h := run_start_accounts svc peer s uses
  obtain ⟨hphase, hunread⟩ := (run_drained (start_drained svc peer s) svc uses).drained hlast
  have hlive : ((start svc peer s).run svc uses).scene.stage.phase ≠ .terminated := by
    show ((start svc peer s).run svc uses).connection.phase ≠ _
    rw [hphase]
    nofun
  have hfeed := congrArg Prod.fst (h.ahead hlive)
  have hnil : ((start svc peer s).run svc uses).scene.reader.unread = [] := hunread
  rw [hnil] at hfeed
  obtain ⟨rest, hall, hrest⟩ := Held.decodeAll_of_prefix h.inStep h.found
  have hnone : ((Held.fresh svc.maxPayload).feed svc.expectationFor rest).1 = [] :=
    List.append_cancel_left (hrest.symm.trans hfeed)
  rw [hall, Held.decodeAll_of_feed_nil hnone, List.append_nil]
  rfl

/-- A fatal error is found where the bytes have it, after all that comes before it. -/
theorem findings_of_failed {e : FrameError}
    (hfailed : .failed e ∈ ((start svc peer s).run svc uses).history) :
    ((start svc peer s).run svc uses).findings ++ [.error e] =
      Finding.decodeAll svc.expectationFor svc.maxPayload ((start svc peer s).intake svc uses) := by
  have h := run_start_accounts svc peer s uses
  obtain ⟨-, hfatal, more, hmore⟩ := h.failed e hfailed
  obtain ⟨rest, hall, hrest⟩ := Held.decodeAll_of_prefix h.inStep h.found
  have hnext : ((Held.fresh svc.maxPayload).feed svc.expectationFor rest).1 = .error e :: more := by
    rw [hrest, List.append_assoc] at hmore
    exact (List.append_cancel_left hmore).symm
  rw [hall, Held.decodeAll_of_feed_fatal hnext hfatal]
  rfl

end

end Usage

end LineFrame
