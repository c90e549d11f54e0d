import LineFrame.Proofs.Server.Framing

/-!
# Which command a name stands for

Commands are registered one after the other, under names whose ASCII letters have no case.  A name
stands for the disconnect command, or else for what was registered last under the same name, or for
nothing (`names_resolved`).  What a line expects after it and who answers it are decided alike, and
nothing that is registered under other names matters.
-/

namespace LineFrame

/-! ## Letters -/

/-- The same character, or the two cases of one ASCII letter. -/
def SameLetter (c d : Char) : Prop :=
  c = d ∨ c.isUpper ∧ d.toNat = c.toNat + 32 ∨ d.isUpper ∧ c.toNat = d.toNat + 32

theorem isUpper_iff (c : Char) : c.isUpper = true ↔ 65 ≤ c.toNat ∧ c.toNat ≤ 90 := by
  rw [Char.isUpper, decide_eq_true_iff]
  rfl

theorem toNat_toLower (c : Char) :
    c.toLower.toNat = if c.isUpper then c.toNat + 32 else c.toNat := by
  by_cases hc : c.isUpper = true
  · have hrange := (isUpper_iff c).mp hc
    rw [Char.toLower_eq_of_isUpper hc, if_pos hc, Char.toNat_ofNat, if_pos (.inl (by omega))]
  · rw [Char.toLower_eq_of_not_isUpper hc, if_neg hc]

theorem toLower_eq_iff (c d : Char) : c.toLower = d.toLower ↔ SameLetter c d := by
  simp only [SameLetter, ← Char.toNat_inj, toNat_toLower, isUpper_iff]
  split <;> split <;> omega

variable {σ : Type}

namespace Service

theorem sameName_iff (a b : String) :
    SameName a b ↔ List.Forall₂ SameLetter a.toList b.toList := by
  simp only [SameName, toLower_eq_iff]

instance (a b : String) : Decidable (SameName a b) := decidable_of_iff _ (foldName_eq_iff a b)

/-! ## Registering -/

/-- Registers a command, by the operation for its kind of handler. -/
def enrol (svc : Service σ) : String × Registration σ → Service σ
  | (name, ⟨expectation, .single run⟩) => svc.command name expectation run
  | (name, ⟨expectation, .stream run⟩) => svc.streaming name expectation run

/-- Registers commands, one after the other. -/
def enrolAll (svc : Service σ) (entries : List (String × Registration σ)) : Service σ :=
  entries.foldl enrol svc

/-- The service with the commands of these registrations, made one after the other. -/
def offering (base : Service σ) (entries : List (String × Registration σ)) : Service σ :=
  { base with commands := [] }.enrolAll entries

/-- What is registered under names that are the same as this one, in order. -/
def registrationsOf (entries : List (String × Registration σ)) (name : String) :
    List (Registration σ) :=
  (entries.filter fun entry => SameName entry.1 name).map (·.2)

theorem enrol_eq (svc : Service σ) (entry : String × Registration σ) :
    svc.enrol entry = svc.register entry.1 entry.2 := by
  obtain ⟨name, expectation, handler⟩ := entry
  cases handler <;> rfl

theorem offering_concat (base : Service σ) (entries : List (String × Registration σ))
    (last : String × Registration σ) :
    base.offering (entries ++ [last]) = (base.offering entries).register last.1 last.2 := by
  rw [offering, enrolAll, List.foldl_append, List.foldl_cons, List.foldl_nil, enrol_eq]
  rfl

-- Registering changes the table of commands, and nothing else of a service.
theorem offering_eq (base : Service σ) (entries : List (String × Registration σ)) :
    base.offering entries = { base with commands := (base.offering entries).commands } := by
  induction entries using List.reverseRecOn with
  | nil => rfl
  | append_singleton entries last ih =>
    rw [offering_concat, ih]
    rfl

-- A new entry takes the place of an old one, and the others are found as before.
theorem lookup_register (svc : Service σ) (name key : String) (entry : Registration σ) :
    (svc.register name entry).commands.lookup key =
      if key = foldName name then some entry else svc.commands.lookup key := by
  have hothers (hkey : key ≠ foldName name) (commands : List (String × Registration σ)) :
      (commands.filter (·.1 != foldName name)).lookup key = commands.lookup key := by
    induction commands with
    | nil => rfl
    | cons command commands ih =>
      by_cases hname : command.1 = foldName name
      · have hne : (key == command.1) = false := by simpa [hname] using hkey
        rw [List.filter_cons_of_neg (by simpa using hname), List.lookup_cons, ih, hne]
      · rw [List.filter_cons_of_pos (by simpa using hname), List.lookup_cons, List.lookup_cons, ih]
  show ((foldName name, entry) :: _).lookup key = _
  rw [List.lookup_cons]
  by_cases hkey : key = foldName name
  · rw [if_pos hkey, beq_iff_eq.mpr hkey]
  · rw [if_neg hkey, beq_eq_false_iff_ne.mpr hkey]
    exact hothers hkey _

/-- **What was registered last under a name is what is found under it.** -/
theorem lookup_offering (base : Service σ) (entries : List (String × Registration σ))
    (name : String) :
    (base.offering entries).commands.lookup (foldName name) =
      (registrationsOf entries name).getLast? := by
  induction entries using List.reverseRecOn with
  | nil => rfl
  | append_singleton entries last ih =>
    rw [offering_concat, lookup_register, ih, registrationsOf, registrationsOf, List.filter_append,
      List.map_append]
    by_cases hname : SameName last.1 name
    · have hfold : foldName name = foldName last.1 := ((foldName_eq_iff _ _).mpr hname).symm
      simp [hname, hfold]
    · have hfold : foldName name ≠ foldName last.1 := fun h =>
        hname ((foldName_eq_iff _ _).mp h.symm)
      simp [hname, hfold]

/-! ## Answering -/

/-- What a handler returns is its reply, and what it fails with is answered with an error
response. -/
def concluded {α : Type} (svc : Service σ) (command : String) (reply : α → Reply σ) :
    Outcome α × σ → Reply σ × σ
  | (.returned found, s) => (reply found, s)
  | (.faulted fault, s) =>
    let (response, s) := svc.errorResponse command fault s
    (.single response, s)
  | (.panicked cause, s) =>
    let (response, s) := svc.errorResponse command (.ofPanic cause) s
    (.single response, s)

/-- The reply that a request is given by who answers it. -/
def respond (svc : Service σ) (responder : Responder σ) (request : Request) (s : σ) : Reply σ × σ :=
  match responder with
  | .disconnect => svc.concluded request.command .single (svc.disconnectHandler request s)
  | .fallback => svc.concluded request.command .single (svc.fallback request s)
  | .command _ ⟨_, .single run⟩ => svc.concluded request.command .single (run request s)
  | .command _ ⟨_, .stream run⟩ => svc.concluded request.command .stream (run request s)

theorem answer_concluded (svc : Service σ) (command : String) (call : Call σ Response) (s : σ) :
    (Reply.single (svc.answer command call s).1, (svc.answer command call s).2) =
      svc.concluded command .single (call s) := by
  rw [answer]
  rcases call s with ⟨_ | _ | _, t⟩ <;> rfl

theorem dispatch_eq_respond (svc : Service σ) (request : Request) (s : σ) :
    svc.dispatch request s = svc.respond (svc.responder request.command) request s := by
  rw [dispatch, responder]
  dsimp only
  split
  · exact svc.answer_concluded request.command _ s
  · rw [lookup]
    cases svc.commands.lookup (foldName request.command) with
    | none => exact svc.answer_concluded request.command _ s
    | some entry =>
      obtain ⟨expectation, handler⟩ := entry
      cases handler with
      | single run => exact svc.answer_concluded request.command _ s
      | stream run =>
        dsimp only [Option.getD, respond]
        rcases run request s with ⟨_ | _ | _, t⟩ <;> rfl

/-- Who answers a name, given what was registered before anybody asks. -/
def answerer (base : Service σ) (entries : List (String × Registration σ)) (name : String) :
    Responder σ :=
  if SameName name base.disconnectCommand then .disconnect
  else
    match (registrationsOf entries name).getLast? with
    | some entry => .command (foldName name) entry
    | none => .fallback

theorem isDisconnect_offering (base : Service σ) (entries : List (String × Registration σ))
    (name : String) :
    (base.offering entries).isDisconnect name = true ↔ SameName name base.disconnectCommand := by
  rw [isDisconnect_iff, offering_eq]

theorem responder_offering (base : Service σ) (entries : List (String × Registration σ))
    (name : String) : (base.offering entries).responder name = base.answerer entries name := by
  have hdisconnect := base.isDisconnect_offering entries name
  rw [responder, answerer, lookup_offering]
  by_cases hname : SameName name base.disconnectCommand
  · rw [if_pos hname, if_pos (hdisconnect.mpr hname)]
  · have hother : ¬ (base.offering entries).isDisconnect name = true := fun h =>
      hname (hdisconnect.mp h)
    exact (if_neg hother).trans (if_neg hname).symm

theorem expectationFor_offering (base : Service σ) (entries : List (String × Registration σ))
    (name : String) :
    (base.offering entries).expectationFor name = (base.answerer entries name).expectation := by
  rw [expectationFor_eq_responder, responder_offering]

theorem dispatch_offering (base : Service σ) (entries : List (String × Registration σ))
    (request : Request) (s : σ) :
    (base.offering entries).dispatch request s =
      base.respond (base.answerer entries request.command) request s := by
  rw [dispatch_eq_respond, responder_offering, offering_eq]
  rfl

/-- Two services that treat a name alike. -/
structure Agree (svc svc' : Service σ) (name : String) : Prop where
  disconnect : svc.isDisconnect name = svc'.isDisconnect name
  expectation : svc.expectationFor name = svc'.expectationFor name
  dispatch : ∀ request s, request.command = name →
    svc.dispatch request s = svc'.dispatch request s

-- Nothing else matters for a name but what is registered under it.
theorem agree_of_registrationsOf (base : Service σ)
    {entries entries' : List (String × Registration σ)} {name : String}
    (h : registrationsOf entries name = registrationsOf entries' name) :
    Agree (base.offering entries) (base.offering entries') name := by
  have hanswerer : base.answerer entries name = base.answerer entries' name := by
    rw [answerer, answerer, h]
  exact {
    disconnect := by
      rw [Bool.eq_iff_iff, isDisconnect_offering, isDisconnect_offering]
    expectation := by
      rw [expectationFor_offering, expectationFor_offering, hanswerer]
    dispatch := by
      intro request s hrequest
      subst hrequest
      rw [dispatch_offering, dispatch_offering, hanswerer] }

theorem registrationsOf_insert {entry : String × Registration σ} {name : String}
    (h : ¬ SameName entry.1 name) (before later : List (String × Registration σ)) :
    registrationsOf (before ++ entry :: later) name = registrationsOf (before ++ later) name := by
  rw [registrationsOf, registrationsOf, List.filter_append, List.filter_append,
    List.filter_cons_of_neg (by simpa using h)]

theorem registrationsOf_swap {entry entry' : String × Registration σ}
    (h : ¬ SameName entry.1 entry'.1) (before later : List (String × Registration σ))
    (name : String) :
    registrationsOf (before ++ entry :: entry' :: later) name =
      registrationsOf (before ++ entry' :: entry :: later) name := by
  have hapart : ¬ (SameName entry.1 name ∧ SameName entry'.1 name) := by
    simp only [← foldName_eq_iff] at *
    exact fun hboth => h (hboth.1.trans hboth.2.symm)
  by_cases hentry : SameName entry.1 name
  · have hother : ¬ SameName entry'.1 name := fun hname => hapart ⟨hentry, hname⟩
    simp [registrationsOf, hentry, hother]
  · simp [registrationsOf, List.filter_cons, hentry]

/-- **Names are resolved by what was registered last under them.**  Two names are the same if they
are so character by character, where the two cases of an ASCII letter count as one and any other
character counts as itself only.  A name that is the same as the disconnect command stands for that.
Any other stands for what was registered last under the same name, with a single response or a
stream of them, or for the fallback, after whose line a length is optional; what is expected after a
line and who answers it are decided alike.  A registration makes no difference to other names,
wherever it stands among the rest, and registrations under different names may be made in any
order. -/
theorem names_resolved (base : Service σ) (entries : List (String × Registration σ)) :
    (∀ a b, SameName a b ↔ List.Forall₂ SameLetter a.toList b.toList) ∧
    (∀ c d, SameLetter c d → 128 ≤ c.toNat ∨ 128 ≤ d.toNat → c = d) ∧
    (∀ name, (base.offering entries).isDisconnect name = true ↔
      SameName name base.disconnectCommand) ∧
    (∀ name, (base.offering entries).expectationFor name =
      (base.answerer entries name).expectation) ∧
    (∀ request s, (base.offering entries).dispatch request s =
      base.respond (base.answerer entries request.command) request s) ∧
    (∀ before entry later name, entries = before ++ entry :: later → ¬ SameName entry.1 name →
      Agree (base.offering entries) (base.offering (before ++ later)) name) ∧
    (∀ entries', (∀ name, registrationsOf entries' name = registrationsOf entries name) →
      ∀ name, Agree (base.offering entries') (base.offering entries) name) := by
  refine ⟨sameName_iff, ?_, base.isDisconnect_offering entries,
    base.expectationFor_offering entries, base.dispatch_offering entries, ?_, ?_⟩
  · intro c d h hwide
    simp only [SameLetter, isUpper_iff, ← Char.toNat_inj] at *
    omega
  · intro before entry later name hentries hname
    subst hentries
    exact base.agree_of_registrationsOf (registrationsOf_insert hname before later)
  · intro entries' h name
    exact base.agree_of_registrationsOf (h name)

-- A letter that is not an ASCII one has its case, so the second registration is of another command.
theorem names_resolved_of_rebound :
    let pong (status : String) : Registration Unit :=
      ⟨.always, .single fun _ => .pure { status }⟩
    let first := ("ping", ⟨.never, .stream fun _ => .pure []⟩)
    let other := ("pÏng", pong "OTHER")
    let again := ("PING", pong "PONG")
    let svc := (Service.empty (σ := Unit)).offering [first, other, again]
    svc.isDisconnect "bye" = true ∧ svc.expectationFor "Ping" = .always ∧
      ¬ SameName "pÏng" "pïng" ∧ svc.expectationFor "pïng" = .auto ∧
      Agree svc (Service.empty.offering [first, again]) "Ping" ∧
      Agree (Service.empty.offering [other, first, again]) svc "Ping" := by
  intro pong first other again svc
  obtain ⟨hsame, -, hdisconnect, hexpectation, -, hinsert, horder⟩ :=
    names_resolved Service.empty [first, other, again]
  refine ⟨(hdisconnect "bye").mpr (by decide), ?_, by decide, ?_, ?_, ?_⟩
  · rw [hexpectation]
    decide +kernel
  · rw [hexpectation]
    decide +kernel
  · exact hinsert [first] other [again] "Ping" rfl (by decide)
  · exact horder [other, first, again] (registrationsOf_swap (by decide) [] [again]) "Ping"

end Service

end LineFrame
