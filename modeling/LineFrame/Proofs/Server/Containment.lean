import LineFrame.Proofs.Server.Turns

/-!
# Faults are contained

A service whose handler code may fail is used in the same way as one whose handler code never fails,
but gives the error response itself where the first one failed (`Service.contained`).  A caller sees
no difference between the two (`faults_contained`), whatever it does with the connection, nor do the
handlers that are called later.
-/

namespace LineFrame

variable {σ : Type}

namespace Deed

/-- What is seen of a deed: a request that a handler is called with, or what the caller is told. -/
def shown? : Deed σ → Option (Request ⊕ Except FrameError Action)
  | called request _ => some (.inl request)
  | returned found => some (.inr found)
  | _ => none

end Deed

/-- The requests that handlers are called with and what the caller is told, in order. -/
def Usage.shown (x : Usage σ) : List (Request ⊕ Except FrameError Action) :=
  x.history.filterMap Deed.shown?

namespace Service

/-- Handler code that returns the error response where it would fail. -/
def shield (svc : Service σ) (command : String) (call : Call σ Response) : Call σ Response :=
  fun s =>
    let (response, s) := svc.answer command call s
    (.returned response, s)

/-- The items of an answer, up to the first one that would fail if they are run from a state on.
This one returns the error response. -/
def shieldAll (svc : Service σ) (command : String) :
    List (Call σ Response) → σ → List (Call σ Response)
  | [], _ => []
  | call :: rest, s =>
    svc.shield command call ::
      if (call s).1.contain.isOk then svc.shieldAll command rest (call s).2 else []

end Service

/-- The handler that returns what its command is answered with where it would fail. -/
def Handler.contained (svc : Service σ) : Handler σ → Handler σ
  | .single run => .single fun request => svc.shield request.command (run request)
  | .stream run => .stream fun request s =>
    let (outcome, s) := run request s
    match outcome.contain with
    | .ok items => (.returned (svc.shieldAll request.command items s), s)
    | .error fault =>
      let (response, s) := svc.errorResponse request.command fault s
      (.returned [.pure response], s)

def Registration.contained (svc : Service σ) (entry : Registration σ) : Registration σ :=
  ⟨entry.expectation, entry.handler.contained svc⟩

/-- The items return, if they are run in order from a state on. -/
def Returning : List (Call σ Response) → σ → Prop
  | [], _ => True
  | call :: rest, s => (∃ response, (call s).1 = .returned response) ∧ Returning rest (call s).2

/-- Neither the handler nor the items of its answers fail. -/
def Handler.Unfailing : Handler σ → Prop
  | .single run => ∀ request s, ∃ response, (run request s).1 = .returned response
  | .stream run => ∀ request s, ∃ items, (run request s).1 = .returned items ∧
    Returning items (run request s).2

namespace Service

/-- The service whose handler code returns error responses where it would fail. -/
def contained (svc : Service σ) : Service σ :=
  { svc with
    commands := svc.commands.map fun (key, entry) => (key, entry.contained svc)
    fallback request := svc.shield request.command (svc.fallback request)
    disconnectHandler request := svc.shield request.command (svc.disconnectHandler request) }

/-- No handler code that answers commands fails. -/
structure Unfailing (svc : Service σ) : Prop where
  commands : ∀ entry ∈ svc.commands, entry.2.handler.Unfailing
  fallback : (Handler.single svc.fallback).Unfailing
  disconnect : (Handler.single svc.disconnectHandler).Unfailing

-- Handler code that does not fail leaves its own state.
theorem answer_of_intact {svc : Service σ} {call : Call σ Response} {s : σ}
    (h : (call s).1.contain.isOk = true) (command : String) :
    (svc.answer command call s).2 = (call s).2 := by
  rw [answer]
  dsimp only
  cases hc : (call s).1.contain with
  | ok response => rfl
  | error fault =>
    rw [hc] at h
    cases h

theorem returning_shieldAll (svc : Service σ) (command : String) (items : List (Call σ Response))
    (s : σ) : Returning (svc.shieldAll command items s) s := by
  induction items generalizing s with
  | nil => trivial
  | cons call rest ih =>
    refine ⟨⟨_, rfl⟩, ?_⟩
    show Returning (if _ then _ else _) (svc.answer command call s).2
    split
    · next hok =>
      rw [answer_of_intact hok]
      exact ih _
    · trivial

theorem unfailing_handler (svc : Service σ) (h : Handler σ) : (h.contained svc).Unfailing := by
  cases h with
  | single run => exact fun request s => ⟨_, rfl⟩
  | stream run =>
    intro request s
    dsimp only [Handler.contained]
    cases (run request s).1.contain with
    | ok items => exact ⟨_, rfl, svc.returning_shieldAll _ _ _⟩
    | error fault => exact ⟨_, rfl, ⟨_, rfl⟩, trivial⟩

theorem unfailing_contained (svc : Service σ) : svc.contained.Unfailing where
  commands entry hentry := by
    obtain ⟨original, -, rfl⟩ := List.mem_map.mp hentry
    exact svc.unfailing_handler _
  fallback _ _ := ⟨_, rfl⟩
  disconnect _ _ := ⟨_, rfl⟩

/-! ## Answers -/

theorem answer_shield (svc : Service σ) (command : String) (call : Call σ Response) (s : σ) :
    svc.contained.answer command (svc.shield command call) s = svc.answer command call s := rfl

theorem lookup_contained (svc : Service σ) (name : String) :
    svc.contained.lookup name = (svc.lookup name).contained svc := by
  rw [lookup, show svc.contained.commands.lookup (foldName name) = _ from
    lookup_map (Registration.contained svc) svc.commands _, lookup]
  cases svc.commands.lookup (foldName name) with
  | none => rfl
  | some entry => rfl

theorem expectationFor_contained (svc : Service σ) :
    svc.contained.expectationFor = svc.expectationFor := by
  funext name
  rw [expectationFor, expectationFor, lookup_contained]
  rfl

/-- A request is answered with the shielded items of what it is answered with without a shield. -/
theorem dispatch_contained (svc : Service σ) (request : Request) (s : σ) :
    (svc.contained.dispatch request s).2 = (svc.dispatch request s).2 ∧
      (svc.contained.dispatch request s).1.items =
        svc.shieldAll request.command (svc.dispatch request s).1.items
          (svc.dispatch request s).2 := by
  unfold dispatch
  dsimp only
  rw [lookup_contained, show svc.contained.isDisconnect = svc.isDisconnect from rfl]
  split
  · exact ⟨rfl, rfl⟩
  · cases hh : (svc.lookup request.command).handler with
    | single run =>
      rw [Registration.contained, hh]
      exact ⟨rfl, rfl⟩
    | stream run =>
      rw [Registration.contained, hh]
      dsimp only [Handler.contained]
      cases (run request s).1.contain with
      | ok items => exact ⟨rfl, rfl⟩
      | error fault => exact ⟨rfl, rfl⟩

end Service

/-! ## Turns -/

namespace Connection

/-- The connection with the items that are left shielded, as they are run from a state on. -/
def contained (svc : Service σ) (s : σ) (c : Connection σ) : Connection σ :=
  { c with phase :=
      match c.phase with
      | .sending out =>
        .sending { out with pending := svc.shieldAll out.command out.pending s }
      | phase => phase }

theorem contained_of_not_sending {c : Connection σ} (h : c.isSending = false) (svc : Service σ)
    (s : σ) : c.contained svc s = c := by
  obtain ⟨reader, phase, peer⟩ := c
  cases phase with
  | sending out => cases h
  | awaiting => rfl
  | terminated => rfl

theorem state_contained (svc : Service σ) (c : Connection σ) (s : σ) :
    (c.contained svc s).state = c.state := by
  obtain ⟨reader, phase, peer⟩ := c
  cases phase <;> rfl

-- What is left of an answer after an item that was shielded.
theorem advance_contained (svc : Service σ) (o : Outgoing σ) (call : Call σ Response)
    (rest : List (Call σ Response)) (s : σ) :
    let left := o.advance rest (call s).1.contain.isOk
    (if (call s).1.contain.isOk then svc.shieldAll o.command rest (call s).2 else []) =
      svc.shieldAll left.command left.pending (svc.answer o.command call s).2 := by
  cases h : (call s).1.contain.isOk with
  | true =>
    rw [Service.answer_of_intact h]
    rfl
  | false => rfl

theorem dispatch_contained (svc : Service σ) (c : Connection σ) (frame : Frame) (s : σ) :
    c.dispatch svc.contained frame s =
      ((c.dispatch svc frame s).1.contained svc (c.dispatch svc frame s).2,
        (c.dispatch svc frame s).2) := by
  have hsink : svc.contained.sink = svc.sink := rfl
  have hdisconnect : svc.contained.isDisconnect = svc.isDisconnect := rfl
  rw [dispatch, dispatch, hsink, hdisconnect]
  generalize svc.sink (.dispatched frame.name) (svc.sink (.received frame.name) s) = t
  obtain ⟨hstate, hitems⟩ := svc.dispatch_contained (.ofFrame frame) t
  dsimp only
  rw [hstate, hitems]
  rfl

/-- What the turn of a contained service has to be, in terms of the turn of the service. -/
structure Contains (svc : Service σ) (x y : Turn σ) : Prop where
  found : y.found = x.found
  state : y.state = x.state
  connection : y.connection = x.connection.contained svc x.state
  shown : y.deeds.filterMap Deed.shown? = x.deeds.filterMap Deed.shown?

/-- **A turn of a contained service is seen to be the same**, and leaves the items that are left
shielded. -/
theorem turn_contained (svc : Service σ) (c : Connection σ) (s : σ) :
    Contains svc (c.turn svc s) ((c.contained svc s).turn svc.contained s) := by
  obtain ⟨reader, phase, peer⟩ := c
  cases phase with
  | terminated => exact ⟨rfl, rfl, rfl, rfl⟩
  | sending out =>
    obtain ⟨command, disconnect, pending⟩ := out
    cases pending with
    | nil => cases disconnect <;> exact ⟨rfl, rfl, rfl, rfl⟩
    | cons call rest =>
      have hleft := advance_contained svc ⟨command, disconnect, call :: rest⟩ call rest s
      have hanswer := svc.answer_shield command call s
      rw [turn_of_pending rfl rfl, turn_of_pending rfl rfl]
      refine ⟨?_, ?_, ?_, rfl⟩
      · rw [hanswer]
      · rw [hanswer]
      · exact congrArg (fun pending =>
          Connection.mk reader (.sending ⟨command, disconnect, pending⟩) peer) hleft
  | awaiting =>
    rw [contained_of_not_sending rfl]
    unfold turn
    dsimp only
    rw [Service.expectationFor_contained]
    split
    · exact ⟨rfl, rfl, rfl, rfl⟩
    · next frame reader' hf =>
      rw [Connection.dispatch_contained]
      generalize Connection.dispatch svc _ frame s = step
      exact ⟨rfl, rfl, rfl, rfl⟩
    · next e reader' hf =>
      split <;> exact ⟨rfl, rfl, rfl, rfl⟩

-- So is all that a connection does until it tells its caller what to do.
theorem next_contained (svc : Service σ) (c : Connection σ) (s : σ) :
    (c.contained svc s).next svc.contained s =
        ((c.next svc s).1, (c.next svc s).2.1.contained svc (c.next svc s).2.2,
          (c.next svc s).2.2) ∧
      ((c.contained svc s).deeds svc.contained s).filterMap Deed.shown? =
        (c.deeds svc s).filterMap Deed.shown? := by
  fun_induction deeds svc c s with
  | case1 c s found h =>
    have hturn := turn_contained svc c s
    have hfound := hturn.found.trans h
    rw [next_of_found h, next_of_found hfound, deeds_of_found hfound, hturn.connection,
      hturn.state, List.filterMap_append, List.filterMap_append, hturn.shown]
    exact ⟨rfl, rfl⟩
  | case2 c s h ih =>
    have hturn := turn_contained svc c s
    have hnone := hturn.found.trans h
    rw [next_of_none h, next_of_none hnone, deeds_of_none hnone, hturn.connection, hturn.state,
      List.filterMap_append, List.filterMap_append, hturn.shown, ih.2]
    exact ⟨ih.1, rfl⟩

end Connection

/-! ## Usages -/

namespace Usage

/-- What the usage of a contained service has to be, in terms of the usage of the service. -/
structure Contains (svc : Service σ) (x y : Usage σ) : Prop where
  state : y.state = x.state
  connection : y.connection = x.connection.contained svc x.state
  shown : y.shown = x.shown

theorem contains_step {svc : Service σ} {x y : Usage σ} (h : Contains svc x y) (use : Use) :
    Contains svc (x.step svc use) (y.step svc.contained use) := by
  obtain ⟨c, s, history⟩ := x
  obtain ⟨d, t, history'⟩ := y
  obtain ⟨hstate, hconnection, hshown⟩ := h
  cases hstate
  cases hconnection
  have happend {more more' : List (Deed σ)}
      (hmore : more'.filterMap Deed.shown? = more.filterMap Deed.shown?) :
      (history' ++ more').filterMap Deed.shown? = (history ++ more).filterMap Deed.shown? := by
    rw [List.filterMap_append, List.filterMap_append, hmore]
    exact congrArg (· ++ _) hshown
  cases use with
  | give chunk => exact ⟨rfl, rfl, happend rfl⟩
  | ask =>
    obtain ⟨hnext, hdeeds⟩ := c.next_contained svc s
    refine ⟨?_, ?_, happend hdeeds⟩
    · show ((c.contained svc s).next svc.contained s).2.2 = _
      rw [hnext]
      rfl
    · show ((c.contained svc s).next svc.contained s).2.1 = _
      rw [hnext]
      rfl
  | hangUp => exact ⟨rfl, rfl, happend rfl⟩
  | stop => exact ⟨rfl, rfl, happend rfl⟩

theorem contains_run {svc : Service σ} {x y : Usage σ} (h : Contains svc x y) (uses : List Use) :
    Contains svc (x.run svc uses) (y.run svc.contained uses) := by
  induction uses generalizing x y with
  | nil => exact h
  | cons use uses ih => exact ih (contains_step h use)

end Usage

namespace Service

/-- Every fault is answered: by the fault handler if there is one and it returns, and otherwise with
the kind and the message of just this fault. -/
def AnswersFaults (svc : Service σ) : Prop :=
  ∀ command fault s,
    (∃ handle response, svc.faultHandler = some handle ∧
      (handle command fault s).1 = .returned response ∧
      (svc.errorResponse command fault s).1 = response) ∨
    ((∀ handle, svc.faultHandler = some handle →
      ∀ response, (handle command fault s).1 ≠ .returned response) ∧
      (svc.errorResponse command fault s).1 =
        ⟨"ERROR", [fault.kind], some (Text.encode fault.message)⟩)

theorem answersFaults (svc : Service σ) : svc.AnswersFaults := by
  intro command fault s
  unfold errorResponse
  cases svc.faultHandler with
  | none => exact .inr ⟨nofun, rfl⟩
  | some handle =>
    dsimp only
    cases h : (handle command fault s).1 with
    | returned response => exact .inl ⟨handle, response, rfl, h, rfl⟩
    | faulted nested =>
      refine .inr ⟨?_, rfl⟩
      rintro _ ⟨⟩ response
      rw [h]
      nofun
    | panicked cause =>
      refine .inr ⟨?_, rfl⟩
      rintro _ ⟨⟩ response
      rw [h]
      nofun

end Service

/-- **Faults are contained.**  Let error responses be returned where handler code of a service would
fail, so that none of it does.  Whatever is done with a connection, the same is sent, the same
requests are handed to handlers, and the session ends in the same way; the same is left of it, too.
A failing fault handler does not change the error response. -/
theorem Usage.faults_contained (svc : Service σ) (peer : Option Net.SocketAddress) (s : σ)
    (uses : List Use) :
    let x := (start svc peer s).run svc uses
    let y := (start svc.contained peer s).run svc.contained uses
    svc.contained.Unfailing ∧
      (y.shown = x.shown ∧ y.state = x.state ∧ y.connection.state = x.connection.state ∧
        y.connection.reader = x.connection.reader) ∧
      svc.AnswersFaults := by
  intro x y
  have hstart : Contains svc (start svc peer s) (start svc.contained peer s) := ⟨rfl, rfl, rfl⟩
  have hrun : Contains svc x y := contains_run hstart uses
  refine ⟨svc.unfailing_contained, ⟨hrun.shown, hrun.state, ?_, ?_⟩, svc.answersFaults⟩
  · rw [hrun.connection]
    exact x.connection.state_contained svc x.state
  · rw [hrun.connection]
    rfl

end LineFrame
