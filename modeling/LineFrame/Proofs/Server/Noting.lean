import LineFrame.Proofs.Server.Containment

/-!
# A service that takes notes

What a sink is told and which handlers run does not show in a connection.  `Service.noting` is the
same service with notes beside the state of the application: its sink notes every event that it is
told, and each of its handlers notes that it was called and with what request, and whose handler it
is (`Responder`).

A usage of such a service is the same usage with the notes added (`run_noting`), and these can be
read off the history: each deed adds its own (`Service.notes`).
-/

namespace LineFrame

variable {σ α : Type}

/-! ## Notes -/

/-- Who answers a request: the disconnect handler, the handler that is registered under a key, or
the default handler. -/
inductive Responder (σ : Type) where
  | disconnect
  | command (key : String) (entry : Registration σ)
  | fallback

/-- What is expected after the line of a request that is answered so. -/
def Responder.expectation : Responder σ → Expectation
  | disconnect => .never
  | command _ entry => entry.expectation
  | fallback => .auto

inductive Note (σ : Type) where
  /-- The sink is told this. -/
  | told (event : Event)
  /-- This responder's handler is called with this request. -/
  | handled (responder : Responder σ) (request : Request)

namespace Note

def event? : Note σ → Option Event
  | told event => some event
  | handled _ _ => none

def call? : Note σ → Option (Responder σ × Request)
  | told _ => none
  | handled responder request => some (responder, request)

end Note

namespace Call

/-- The same beside notes, which are left as they are. -/
def aside (call : Call σ α) : Call (σ × List (Note σ)) α := fun (s, notes) =>
  let (outcome, s) := call s
  (outcome, s, notes)

/-- The same beside notes, to which one is added. -/
def noting (note : Note σ) (call : Call σ α) : Call (σ × List (Note σ)) α := fun (s, notes) =>
  let (outcome, s) := call s
  (outcome, s, notes ++ [note])

end Call

def Handler.noting (responder : Responder σ) : Handler σ → Handler (σ × List (Note σ))
  | .single run => .single fun request => (run request).noting (.handled responder request)
  | .stream run => .stream fun request =>
    Call.noting (.handled responder request) fun s =>
      let (outcome, s) := run request s
      (outcome.map (List.map Call.aside), s)

/-- What is registered under a key, with its handler taking notes. -/
def Registration.noting (key : String) (entry : Registration σ) :
    Registration (σ × List (Note σ)) :=
  ⟨entry.expectation, entry.handler.noting (.command key entry)⟩

namespace Service

/-- The service that takes notes. -/
def noting (svc : Service σ) : Service (σ × List (Note σ)) where
  commands := svc.commands.map fun (key, entry) => (key, entry.noting key)
  fallback request := (svc.fallback request).noting (.handled .fallback request)
  faultHandler := svc.faultHandler.map fun handle command fault => (handle command fault).aside
  disconnectCommand := svc.disconnectCommand
  disconnectHandler request :=
    (svc.disconnectHandler request).noting (.handled .disconnect request)
  sink event := fun (s, notes) => (svc.sink event s, notes ++ [.told event])
  maxPayload := svc.maxPayload

/-- Who answers the requests of a command. -/
def responder (svc : Service σ) (name : String) : Responder σ :=
  if svc.isDisconnect name then .disconnect
  else
    match svc.commands.lookup (foldName name) with
    | some entry => .command (foldName name) entry
    | none => .fallback

/-- The notes that are taken of a deed. -/
def notes (svc : Service σ) : Deed σ → List (Note σ)
  | .called request _ =>
    [.told (.received request.command), .told (.dispatched request.command),
      .handled (svc.responder request.command) request]
  | .completed command => [.told (.completed command)]
  | _ => []

/-! ## Answers -/

-- An entry takes notes under its own key.
theorem lookup_map_keyed {β γ : Type} (f : String → β → γ) (commands : List (String × β))
    (key : String) :
    (commands.map fun (name, entry) => (name, f name entry)).lookup key =
      (commands.lookup key).map (f key) := by
  induction commands with
  | nil => rfl
  | cons command commands ih =>
    rw [List.map_cons, List.lookup_cons, List.lookup_cons, ih]
    split
    · next hkey => rw [← beq_iff_eq.mp hkey]; rfl
    · rfl

variable (svc : Service σ)

theorem isDisconnect_noting (name : String) :
    svc.noting.isDisconnect name = svc.isDisconnect name := rfl

/-- What a line expects is what its responder does. -/
theorem expectationFor_eq_responder (name : String) :
    svc.expectationFor name = (svc.responder name).expectation := by
  rw [expectationFor, responder, lookup]
  split
  · rfl
  · cases svc.commands.lookup (foldName name) with
    | none => rfl
    | some entry => rfl

theorem expectationFor_noting : svc.noting.expectationFor = svc.expectationFor := by
  funext name
  rw [expectationFor, expectationFor, isDisconnect_noting, lookup, lookup,
    show svc.noting.commands.lookup (foldName name) = _ from
      lookup_map_keyed Registration.noting svc.commands _]
  cases svc.commands.lookup (foldName name) with
  | none => rfl
  | some entry => rfl

theorem errorResponse_noting (command : String) (fault : Fault) (s : σ) (notes : List (Note σ)) :
    svc.noting.errorResponse command fault (s, notes) =
      ((svc.errorResponse command fault s).1, (svc.errorResponse command fault s).2, notes) := by
  unfold errorResponse
  cases hf : svc.faultHandler with
  | none =>
    rw [show svc.noting.faultHandler = none by rw [noting, hf]; rfl]
  | some handle =>
    rw [show svc.noting.faultHandler =
      some fun command fault => (handle command fault).aside by rw [noting, hf]; rfl]
    dsimp only [Call.aside]
    split <;> rfl

theorem usageErrorResponse_noting (e : FrameError) (s : σ) (notes : List (Note σ)) :
    svc.noting.usageErrorResponse e (s, notes) =
      ((svc.usageErrorResponse e s).1, (svc.usageErrorResponse e s).2, notes) :=
  svc.errorResponse_noting "" _ s notes

-- An item takes no notes, whatever it gives.
theorem answer_aside (command : String) (call : Call σ Response) (s : σ) (notes : List (Note σ)) :
    svc.noting.answer command call.aside (s, notes) =
      ((svc.answer command call s).1, (svc.answer command call s).2, notes) := by
  unfold answer
  dsimp only [Call.aside]
  split
  · rfl
  · exact svc.errorResponse_noting command _ _ _

-- A handler takes its note, also if it fails.
theorem answer_noting (command : String) (note : Note σ) (call : Call σ Response) (s : σ)
    (notes : List (Note σ)) :
    svc.noting.answer command (call.noting note) (s, notes) =
      ((svc.answer command call s).1, (svc.answer command call s).2, notes ++ [note]) :=
  svc.answer_aside command call s (notes ++ [note])

-- The one handler that runs is the responder's.
theorem dispatch_noting (request : Request) (s : σ) (notes : List (Note σ)) :
    let after := svc.noting.dispatch request (s, notes)
    after.1.items = (svc.dispatch request s).1.items.map Call.aside ∧
      after.2 = ((svc.dispatch request s).2,
        notes ++ [.handled (svc.responder request.command) request]) := by
  have hanswer (responder : Responder σ) := svc.answer_noting request.command
    (.handled responder request)
  unfold dispatch responder
  dsimp only
  rw [isDisconnect_noting]
  split
  · rw [show svc.noting.disconnectHandler request =
      (svc.disconnectHandler request).noting (.handled .disconnect request) from rfl, hanswer]
    exact ⟨rfl, rfl⟩
  · rw [lookup, show svc.noting.commands.lookup (foldName request.command) = _ from
      lookup_map_keyed Registration.noting svc.commands _, lookup]
    cases svc.commands.lookup (foldName request.command) with
    | none =>
      dsimp only [Option.map_none, Option.getD_none]
      rw [show svc.noting.fallback request =
        (svc.fallback request).noting (.handled .fallback request) from rfl, hanswer]
      exact ⟨rfl, rfl⟩
    | some entry =>
      obtain ⟨expectation, handler⟩ := entry
      cases handler with
      | single run =>
        dsimp only [Option.map_some, Option.getD_some, Registration.noting, Handler.noting]
        rw [hanswer]
        exact ⟨rfl, rfl⟩
      | stream run =>
        dsimp only [Option.map_some, Option.getD_some, Registration.noting, Handler.noting,
          Call.noting]
        cases (run request s).1 with
        | returned items => exact ⟨rfl, rfl⟩
        | faulted fault =>
          dsimp only [Outcome.map, Outcome.contain]
          rw [errorResponse_noting]
          exact ⟨rfl, rfl⟩
        | panicked cause =>
          dsimp only [Outcome.map, Outcome.contain]
          rw [errorResponse_noting]
          exact ⟨rfl, rfl⟩

end Service

/-! ## Turns -/

/-- The same answer beside notes. -/
def Outgoing.aside (o : Outgoing σ) : Outgoing (σ × List (Note σ)) :=
  ⟨o.command, o.disconnect, o.pending.map Call.aside⟩

def Connection.Phase.aside : Connection.Phase σ → Connection.Phase (σ × List (Note σ))
  | awaiting => .awaiting
  | sending out => .sending out.aside
  | terminated => .terminated

/-- The same connection beside notes. -/
def Connection.aside (c : Connection σ) : Connection (σ × List (Note σ)) :=
  ⟨c.reader, c.phase.aside, c.peer⟩

/-- The same deed beside notes. -/
def Deed.aside : Deed σ → Deed (σ × List (Note σ))
  | given chunk => .given chunk
  | asked => .asked
  | starved => .starved
  | called request items => .called request (items.map Call.aside)
  | refused e => .refused e
  | failed e => .failed e
  | pulled call intact => .pulled call.aside intact
  | completed command => .completed command
  | returned found => .returned found
  | hungUp => .hungUp
  | stopped => .stopped

namespace Connection

/-- The same turn beside notes, with what it adds to them. -/
def Turn.noting (svc : Service σ) (notes : List (Note σ)) (x : Turn σ) :
    Turn (σ × List (Note σ)) :=
  ⟨x.deeds.map Deed.aside, x.found, x.connection.aside,
    (x.state, notes ++ x.deeds.flatMap svc.notes)⟩

theorem aside_dispatch (svc : Service σ) (c : Connection σ) (frame : Frame) (s : σ)
    (notes : List (Note σ)) :
    c.aside.dispatch svc.noting frame (s, notes) =
      ((c.dispatch svc frame s).1.aside, (c.dispatch svc frame s).2,
        notes ++ svc.notes (.called (.ofFrame frame) [])) := by
  let t := svc.sink (.dispatched frame.name) (svc.sink (.received frame.name) s)
  let told : List (Note σ) := [.told (.received frame.name), .told (.dispatched frame.name)]
  obtain ⟨hitems, hstate⟩ := svc.dispatch_noting (.ofFrame frame) t (notes ++ told)
  have hsink : svc.noting.sink (.dispatched frame.name)
      (svc.noting.sink (.received frame.name) (s, notes)) = (t, notes ++ told) :=
    Prod.ext rfl (List.append_assoc notes _ _)
  rw [dispatch, hsink]
  dsimp only
  rw [hitems, hstate, List.append_assoc]
  rfl

theorem aside_refuse (svc : Service σ) (c : Connection σ) (e : FrameError) (s : σ)
    (notes : List (Note σ)) :
    c.aside.refuse svc.noting e (s, notes) =
      ((c.refuse svc e s).1.aside, (c.refuse svc e s).2, notes) := by
  rw [refuse, svc.usageErrorResponse_noting]
  rfl

/-- **A turn of a service that takes notes is the same**, and adds the notes of its deeds. -/
theorem turn_noting (svc : Service σ) (c : Connection σ) (s : σ) (notes : List (Note σ)) :
    c.aside.turn svc.noting (s, notes) = (c.turn svc s).noting svc notes := by
  obtain ⟨reader, phase, peer⟩ := c
  cases phase with
  | terminated => exact congrArg (Turn.mk _ _ _) (Prod.ext rfl (List.append_nil notes).symm)
  | sending out =>
    obtain ⟨command, disconnect, pending⟩ := out
    cases pending with
    | nil => cases disconnect <;> rfl
    | cons call rest =>
      let out : Outgoing σ := ⟨command, disconnect, call :: rest⟩
      have hphase : (Connection.mk reader (.sending out) peer).phase = .sending out := rfl
      have haside : (Connection.mk reader (.sending out) peer).aside.phase = .sending out.aside := rfl
      have hpending : out.aside.pending = call.aside :: rest.map Call.aside := rfl
      rw [turn_of_pending hphase rfl, turn_of_pending haside hpending,
        show out.aside.command = command from rfl, svc.answer_aside, Turn.noting]
      dsimp only
      rw [List.flatMap_singleton, show svc.notes (.pulled call _) = [] from rfl, List.append_nil,
        show (call.aside (s, notes)).1 = (call s).1 from rfl]
      cases (call s).1.contain.isOk with
      | true => rfl
      | false => rfl
  | awaiting =>
    have hnone {d : Deed σ} (hd : svc.notes d = []) : notes ++ [d].flatMap svc.notes = notes := by
      rw [List.flatMap_singleton, hd, List.append_nil]
    unfold turn Turn.noting
    dsimp only [aside, Phase.aside]
    rw [svc.expectationFor_noting]
    split
    · rw [hnone rfl]
      rfl
    · next frame left h =>
      have hdispatch := aside_dispatch svc ⟨left, .awaiting, peer⟩ frame s notes
      dsimp only [aside, Phase.aside] at hdispatch
      rw [hdispatch, List.flatMap_singleton]
      rfl
    · next e left h =>
      have hrefuse := aside_refuse svc ⟨left, .awaiting, peer⟩ e s notes
      dsimp only [aside, Phase.aside] at hrefuse
      split
      · rw [hnone rfl]
        rfl
      · rw [hrefuse, hnone rfl]
        rfl

-- So is all that a connection does until it tells its caller what to do.
theorem next_noting (svc : Service σ) (c : Connection σ) (s : σ) (notes : List (Note σ)) :
    c.aside.next svc.noting (s, notes) =
        ((c.next svc s).1, (c.next svc s).2.1.aside, (c.next svc s).2.2,
          notes ++ (c.deeds svc s).flatMap svc.notes) ∧
      c.aside.deeds svc.noting (s, notes) = (c.deeds svc s).map Deed.aside := by
  fun_induction deeds svc c s generalizing notes with
  | case1 c s found h =>
    have hturn := turn_noting svc c s notes
    have hfound : (c.aside.turn svc.noting (s, notes)).found = some found := by
      rw [hturn]
      exact h
    rw [next_of_found h, next_of_found hfound, deeds_of_found hfound, hturn, List.flatMap_append,
      List.map_append, List.flatMap_singleton, show svc.notes (.returned found) = [] from rfl,
      List.append_nil]
    exact ⟨rfl, rfl⟩
  | case2 c s h ih =>
    have hturn := turn_noting svc c s notes
    have hnone : (c.aside.turn svc.noting (s, notes)).found = none := by
      rw [hturn]
      exact h
    obtain ⟨hnext, hdeeds⟩ := ih (notes ++ (c.turn svc s).deeds.flatMap svc.notes)
    rw [next_of_none h, next_of_none hnone, deeds_of_none hnone, hturn, List.flatMap_append,
      List.map_append, ← List.append_assoc]
    exact ⟨hnext, congrArg ((c.turn svc s).deeds.map Deed.aside ++ ·) hdeeds⟩

end Connection

/-! ## Usages -/

namespace Usage

/-- The same usage beside notes: those that were there before it, and what its deeds added. -/
def noting (svc : Service σ) (notes : List (Note σ)) (x : Usage σ) : Usage (σ × List (Note σ)) :=
  ⟨x.connection.aside, (x.state, notes ++ x.history.flatMap svc.notes), x.history.map Deed.aside⟩

theorem step_noting (svc : Service σ) (notes : List (Note σ)) (x : Usage σ) (use : Use) :
    (x.noting svc notes).step svc.noting use = (x.step svc use).noting svc notes := by
  have happend (connection : Connection σ) (state : σ) (ds : List (Deed σ)) :
      noting svc notes ⟨connection, state, x.history ++ ds⟩ =
        ⟨connection.aside, (state, notes ++ x.history.flatMap svc.notes ++ ds.flatMap svc.notes),
          x.history.map Deed.aside ++ ds.map Deed.aside⟩ := by
    rw [noting, List.flatMap_append, List.map_append, List.append_assoc]
  -- what the caller does adds no notes
  have hquiet (connection : Connection σ) (d : Deed σ) (hd : svc.notes d = []) :
      noting svc notes ⟨connection, x.state, x.history ++ [d]⟩ =
        ⟨connection.aside, (x.state, notes ++ x.history.flatMap svc.notes),
          x.history.map Deed.aside ++ [d.aside]⟩ := by
    rw [happend, List.flatMap_singleton, hd, List.append_nil]
    rfl
  cases use with
  | give chunk => exact (hquiet (x.give chunk).connection (.given chunk) rfl).symm
  | ask =>
    obtain ⟨hnext, hdeeds⟩ :=
      x.connection.next_noting svc x.state (notes ++ x.history.flatMap svc.notes)
    show Usage.ask svc.noting (x.noting svc notes) = noting svc notes ⟨_, _, _ ++ .asked :: _⟩
    rw [happend, Usage.ask]
    dsimp only [noting]
    rw [hnext, hdeeds]
    rfl
  | hangUp => exact (hquiet x.hangUp.connection .hungUp rfl).symm
  | stop => exact (hquiet x.stop.connection .stopped rfl).symm

/-- **A service that takes notes is used in the same way**, and each deed adds its notes. -/
theorem run_noting (svc : Service σ) (notes : List (Note σ)) (x : Usage σ) (uses : List Use) :
    (x.noting svc notes).run svc.noting uses = (x.run svc uses).noting svc notes := by
  induction uses generalizing x with
  | nil => rfl
  | cons use uses ih =>
    show ((x.noting svc notes).step svc.noting use).run svc.noting uses = _
    rw [step_noting]
    exact ih _

theorem run_start_noting (svc : Service σ) (peer : Option Net.SocketAddress) (s : σ)
    (uses : List Use) :
    (start svc.noting peer (s, [])).run svc.noting uses =
      ((start svc peer s).run svc uses).noting svc [.told (.opened peer)] :=
  run_noting svc [.told (.opened peer)] (start svc peer s) uses

-- The caller sees no difference.
theorem shown_noting (svc : Service σ) (notes : List (Note σ)) (x : Usage σ) :
    (x.noting svc notes).shown = x.shown := by
  have hshown : Deed.shown? ∘ Deed.aside = Deed.shown? (σ := σ) := by
    funext d
    cases d <;> rfl
  rw [shown, shown, noting, List.filterMap_map, hshown]

end Usage

end LineFrame
