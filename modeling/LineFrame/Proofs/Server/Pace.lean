import LineFrame.Proofs.Server.Turns

/-!
# The pace of answers

The items of an answer are run one by one, each when the caller comes back for the next response.
The steps of a connection and its caller (`Scene.Step`) say what each deed needs and what it does to
the reader and to the state; the history of every usage is a path of such steps (`run_path`).  What
can be said of all paths is said of histories then (`Deed.Lazy`): how often the items of an answer
have been run when a response is handed out, and what comes between two of these times.
-/

namespace LineFrame

variable {σ : Type}

/-! ## Steps -/

/-- Whose turn it is. -/
inductive Stage (σ : Type) where
  /-- The caller's. -/
  | waiting (phase : Connection.Phase σ)
  /-- The connection's. -/
  | working (phase : Connection.Phase σ)
  /-- The connection's, and it is about to tell the caller what to do. -/
  | returning (found : Except FrameError Action) (phase : Connection.Phase σ)

def Stage.phase : Stage σ → Connection.Phase σ
  | waiting phase | working phase | returning _ phase => phase

structure Scene (σ : Type) where
  stage : Stage σ
  reader : Reader
  state : σ

namespace Scene

/-- What a deed leads to.  Only at the start of an answer bytes are looked at, and only then a
command's handler is called. -/
inductive Step (svc : Service σ) : Scene σ → Deed σ → Scene σ → Prop
  | given (phase : Connection.Phase σ) (reader : Reader) (s : σ) (chunk : Bytes) :
      Step svc ⟨.waiting phase, reader, s⟩ (.given chunk) ⟨.waiting phase, reader.feed chunk, s⟩
  | asked (phase : Connection.Phase σ) (reader : Reader) (s : σ) :
      Step svc ⟨.waiting phase, reader, s⟩ .asked ⟨.working phase, reader, s⟩
  | hungUp (phase : Connection.Phase σ) (reader : Reader) (s : σ) :
      Step svc ⟨.waiting phase, reader, s⟩ .hungUp ⟨.waiting .terminated, reader.reset, s⟩
  | stopped (phase : Connection.Phase σ) (reader : Reader) (s : σ) :
      Step svc ⟨.waiting phase, reader, s⟩ .stopped ⟨.waiting .terminated, reader.reset, s⟩
  | starved {reader left : Reader} (s : σ)
      (h : reader.nextFrame svc.expectationFor = (.ok none, left)) :
      Step svc ⟨.working .awaiting, reader, s⟩ .starved
        ⟨.returning (.ok .receive) .awaiting, left, s⟩
  | called {reader left : Reader} {frame : Frame} {s t u : σ} {reply : Reply σ}
      (h : reader.nextFrame svc.expectationFor = (.ok (some frame), left))
      (hs : svc.sink (.dispatched frame.name) (svc.sink (.received frame.name) s) = t)
      (hr : svc.dispatch (.ofFrame frame) t = (reply, u)) :
      Step svc ⟨.working .awaiting, reader, s⟩ (.called (.ofFrame frame) reply.items)
        ⟨.working (.sending ⟨frame.name, svc.isDisconnect frame.name, reply.items⟩), left, u⟩
  | refused {reader left : Reader} {e : FrameError} {s t : σ} {response : Response}
      (h : reader.nextFrame svc.expectationFor = (.error e, left)) (he : e.fatal = false)
      (hr : svc.usageErrorResponse e s = (response, t)) :
      Step svc ⟨.working .awaiting, reader, s⟩ (.refused e)
        ⟨.working (.sending ⟨"", false, [.pure response]⟩), left, t⟩
  | failed {reader left : Reader} {e : FrameError} (s : σ)
      (h : reader.nextFrame svc.expectationFor = (.error e, left)) (he : e.fatal = true) :
      Step svc ⟨.working .awaiting, reader, s⟩ (.failed e)
        ⟨.returning (.error e) .terminated, left.reset, s⟩
  | pulled {out : Outgoing σ} {call : Call σ Response} {rest : List (Call σ Response)} {s t : σ}
      {response : Response} (reader : Reader) (hp : out.pending = call :: rest)
      (hr : svc.answer out.command call s = (response, t)) :
      Step svc ⟨.working (.sending out), reader, s⟩ (.pulled call (call s).1.contain.isOk)
        ⟨.returning (.ok (.send response.encode))
          (.sending (out.advance rest (call s).1.contain.isOk)), reader, t⟩
  | completed {out : Outgoing σ} (reader : Reader) (s : σ) (hp : out.pending = []) :
      Step svc ⟨.working (.sending out), reader, s⟩ (.completed out.command)
        ⟨.working (if out.disconnect then .terminated else .awaiting), reader,
          svc.sink (.completed out.command) s⟩
  | returned (found : Except FrameError Action) (phase : Connection.Phase σ) (reader : Reader)
      (s : σ) :
      Step svc ⟨.returning found phase, reader, s⟩ (.returned found) ⟨.waiting phase, reader, s⟩
  | closed (reader : Reader) (s : σ) :
      Step svc ⟨.working .terminated, reader, s⟩ (.returned (.ok .close))
        ⟨.waiting .terminated, reader, s⟩

/-- What a history leads to. -/
inductive Path (svc : Service σ) : Scene σ → List (Deed σ) → Scene σ → Prop
  | nil (x : Scene σ) : Path svc x [] x
  | cons {x y z : Scene σ} {d : Deed σ} {ds : List (Deed σ)} (hstep : Step svc x d y)
      (hrest : Path svc y ds z) : Path svc x (d :: ds) z

variable {svc : Service σ}

theorem Path.single {x y : Scene σ} {d : Deed σ} (h : Step svc x d y) : Path svc x [d] y :=
  .cons h (.nil y)

theorem Path.append {x y z : Scene σ} {ds es : List (Deed σ)} (hds : Path svc x ds y)
    (hes : Path svc y es z) : Path svc x (ds ++ es) z := by
  induction hds with
  | nil => exact hes
  | cons hstep _ ih => exact .cons hstep (ih hes)

theorem Path.split {x z : Scene σ} {ds es : List (Deed σ)} (h : Path svc x (ds ++ es) z) :
    ∃ y, Path svc x ds y ∧ Path svc y es z := by
  induction ds generalizing x with
  | nil => exact ⟨x, .nil x, h⟩
  | cons d ds ih =>
    cases h with
    | cons hstep hrest =>
      obtain ⟨y, hds, hes⟩ := ih hrest
      exact ⟨y, .cons hstep hds, hes⟩

/-- What every step of a path keeps, with its deed added to those before it, the whole path keeps. -/
theorem Path.keeps {P : List (Deed σ) → Scene σ → Prop} {x z : Scene σ} {ds es : List (Deed σ)}
    (hpath : Path svc x es z) (h : P ds x)
    (hstep : ∀ {ds x d y}, d ∈ es → P ds x → Step svc x d y → P (ds ++ [d]) y) :
    P (ds ++ es) z := by
  induction hpath generalizing ds with
  | nil =>
    rw [List.append_nil]
    exact h
  | @cons x y z d es hfirst _ ih =>
    have hrest := ih (hstep List.mem_cons_self h hfirst) fun hd => hstep (List.mem_cons_of_mem d hd)
    rw [List.append_assoc] at hrest
    exact hrest

end Scene

/-! ## Usages are paths -/

namespace Connection

open Scene (Path Step)

/-- The connection and the state, when it is somebody's turn. -/
def scene (turn : Phase σ → Stage σ) (c : Connection σ) (s : σ) : Scene σ :=
  ⟨turn c.phase, c.reader, s⟩

theorem turn_path (svc : Service σ) (c : Connection σ) (s : σ) :
    match (c.turn svc s).found with
    | none =>
      Path svc (c.scene .working s) (c.turn svc s).deeds
        ((c.turn svc s).connection.scene .working (c.turn svc s).state)
    | some found =>
      Path svc (c.scene .working s) ((c.turn svc s).deeds ++ [.returned found])
        ((c.turn svc s).connection.scene .waiting (c.turn svc s).state) := by
  obtain ⟨reader, phase, peer⟩ := c
  cases phase with
  | terminated => exact .single (.closed reader s)
  | sending out =>
    unfold turn
    dsimp only
    cases hp : out.pending with
    | nil => exact .single (.completed reader s hp)
    | cons call rest => exact .cons (.pulled reader hp rfl) (.single (.returned _ _ reader _))
  | awaiting =>
    unfold turn
    dsimp only
    cases hn : reader.nextFrame svc.expectationFor with
    | mk found left =>
      cases found with
      | ok found =>
        cases found with
        | none => exact .cons (.starved s hn) (.single (.returned _ _ left s))
        | some frame => exact .single (.called hn rfl rfl)
      | error e =>
        cases he : e.fatal with
        | true =>
          simp only [he, if_true]
          exact .cons (.failed s hn he) (.single (.returned _ _ _ s))
        | false =>
          simp only [he, Bool.false_eq_true, if_false]
          exact .single (.refused hn he rfl)

theorem deeds_path (svc : Service σ) (c : Connection σ) (s : σ) :
    Path svc (c.scene .working s) (c.deeds svc s)
      ((c.next svc s).2.1.scene .waiting (c.next svc s).2.2) := by
  fun_induction deeds svc c s with
  | case1 c s found h =>
    have hturn := turn_path svc c s
    rw [h] at hturn
    rw [next_of_found h]
    exact hturn
  | case2 c s h ih =>
    have hturn := turn_path svc c s
    rw [h] at hturn
    rw [next_of_none h]
    exact hturn.append ih

end Connection

namespace Usage

open Scene (Path)

/-- The caller's turn, with what there is after a usage. -/
def scene (x : Usage σ) : Scene σ := x.connection.scene .waiting x.state

theorem step_path {svc : Service σ} {a : Scene σ} {x : Usage σ}
    (h : Path svc a x.history x.scene) (use : Use) :
    Path svc a (x.step svc use).history (x.step svc use).scene := by
  cases use with
  | give chunk => exact h.append (.single (.given _ _ _ chunk))
  | ask => exact h.append (.cons (.asked _ _ _) (x.connection.deeds_path svc x.state))
  | hangUp => exact h.append (.single (.hungUp _ _ _))
  | stop => exact h.append (.single (.stopped _ _ _))

/-- **The history of a usage is a path of steps.** -/
theorem run_path {svc : Service σ} {a : Scene σ} {x : Usage σ}
    (h : Path svc a x.history x.scene) (uses : List Use) :
    Path svc a (x.run svc uses).history (x.run svc uses).scene := by
  induction uses generalizing x with
  | nil => exact h
  | cons use uses ih => exact ih (step_path h use)

end Usage

/-! ## Histories -/

namespace Deed

/-- Another answer starts. -/
def starts : Deed σ → Bool
  | called _ _ | refused _ => true
  | _ => false

/-- The item that is run. -/
def item? : Deed σ → Option (Call σ Response)
  | pulled call _ => some call
  | _ => none

/-- A response is handed out. -/
def hands : Deed σ → Bool
  | returned (.ok (.send _)) => true
  | _ => false

/-- The connection is given up. -/
def ends : Deed σ → Bool
  | failed _ | hungUp | stopped => true
  | _ => false

end Deed

/-- How many responses there are that the caller has not been told of. -/
def Stage.untold : Stage σ → Nat
  | returning (.ok (.send _)) _ => 1
  | _ => 0

/-- Whether an answer is being sent. -/
def Stage.isSending (stage : Stage σ) : Bool :=
  match stage.phase with
  | .sending _ => true
  | _ => false

namespace Scene

open Deed (item? hands)

variable {svc : Service σ} {x y z : Scene σ} {d : Deed σ} {ds : List (Deed σ)}

/-! ### Counting -/

/-- How far an answer with these items has come with these deeds. -/
structure Progress (items : List (Call σ Response)) (ds : List (Deed σ)) (stage : Stage σ) :
    Prop where
  le : ds.countP hands + stage.untold ≤ items.length
  pulled : ds.filterMap item? = items.take (ds.countP hands + stage.untold)
  left : ∀ out, stage.phase = .sending out →
    out.pending = items.drop (ds.countP hands + stage.untold) ∨ out.pending = []

theorem Progress.of_quiet {items : List (Call σ Response)} {stage stage' : Stage σ}
    (h : Progress items ds stage) (hitem : d.item? = none) (hhands : d.hands = false)
    (huntold : stage'.untold = stage.untold)
    (hphase : ∀ out, stage'.phase = .sending out → stage.phase = .sending out) :
    Progress items (ds ++ [d]) stage' := by
  have hcount : (ds ++ [d]).countP hands = ds.countP hands := by simp [hhands]
  have hfilter : (ds ++ [d]).filterMap item? = ds.filterMap item? := by simp [hitem]
  constructor
  · rw [hcount, huntold]
    exact h.le
  · rw [hcount, hfilter, huntold]
    exact h.pulled
  · intro out hout
    rw [hcount, huntold]
    exact h.left out (hphase out hout)

theorem Progress.step {items : List (Call σ Response)} (h : Progress items ds x.stage)
    (hstep : Step svc x d y) (hd : d.starts = false) : Progress items (ds ++ [d]) y.stage := by
  cases hstep with
  | given phase reader s chunk => exact h.of_quiet rfl rfl rfl fun _ hout => hout
  | asked phase reader s => exact h.of_quiet rfl rfl rfl fun _ hout => hout
  | hungUp phase reader s => exact h.of_quiet rfl rfl rfl nofun
  | stopped phase reader s => exact h.of_quiet rfl rfl rfl nofun
  | starved s hn => exact h.of_quiet rfl rfl rfl nofun
  | called hn hs hr => cases hd
  | refused hn he hr => cases hd
  | failed s hn he => exact h.of_quiet rfl rfl rfl nofun
  | completed reader s hp =>
    refine h.of_quiet rfl rfl rfl ?_
    intro out hout
    simp only [Stage.phase] at hout
    split at hout <;> cases hout
  | closed reader s => exact h.of_quiet rfl rfl rfl nofun
  | returned found phase reader s =>
    match found with
    | .error e => exact h.of_quiet rfl rfl rfl fun _ hout => hout
    | .ok .receive => exact h.of_quiet rfl rfl rfl fun _ hout => hout
    | .ok .close => exact h.of_quiet rfl rfl rfl fun _ hout => hout
    | .ok (.send data) =>
      -- the response that the caller was not told of is handed out
      have hcount : (ds ++ [Deed.returned (.ok (.send data))]).countP hands =
          ds.countP hands + 1 := by simp [hands]
      have hfilter : (ds ++ [Deed.returned (.ok (.send data))]).filterMap item? =
          ds.filterMap item? := by simp [item?]
      constructor
      · rw [hcount]
        exact h.le
      · rw [hcount, hfilter]
        exact h.pulled
      · rw [hcount]
        exact h.left
  | @pulled out call rest s t response reader hp hr =>
    have hcount : (ds ++ [Deed.pulled call (call s).1.contain.isOk]).countP hands =
        ds.countP hands := by simp [hands]
    have hfilter : (ds ++ [Deed.pulled call (call s).1.contain.isOk]).filterMap item? =
        ds.filterMap item? ++ [call] := by simp [item?]
    have hdrop : items.drop (ds.countP hands) = call :: rest := by
      rcases h.left out rfl with hleft | hleft
      · exact (hp.symm.trans hleft).symm
      · rw [hleft] at hp
        cases hp
    have htake : items.take (ds.countP hands + 1) = items.take (ds.countP hands) ++ [call] := by
      rw [List.take_add, hdrop]
      rfl
    constructor
    · have hlength := congrArg List.length hdrop
      rw [List.length_drop, List.length_cons] at hlength
      show (ds ++ [_]).countP hands + 1 ≤ _
      rw [hcount]
      omega
    · show _ = items.take ((ds ++ [_]).countP hands + 1)
      rw [hcount, hfilter, htake, h.pulled]
      rfl
    · rintro _ ⟨⟩
      show (if _ then rest else []) = items.drop ((ds ++ [_]).countP hands + 1) ∨
        (if _ then rest else []) = []
      rw [hcount, ← List.drop_drop, hdrop]
      split
      · exact .inl rfl
      · exact .inr rfl

theorem Progress.path {items : List (Call σ Response)} {es : List (Deed σ)}
    (h : Progress items ds x.stage) (hpath : Path svc x es y)
    (hes : ∀ d ∈ es, d.starts = false) : Progress items (ds ++ es) y.stage := by
  induction hpath generalizing ds with
  | nil =>
    rw [List.append_nil]
    exact h
  | cons hstep hrest ih =>
    obtain ⟨hd, hes⟩ := List.forall_mem_cons.mp hes
    have hprogress := ih (h.step hstep hd) hes
    rw [List.append_assoc] at hprogress
    exact hprogress

-- At the start of an answer none of its items has been run.
theorem Progress.start {request : Request} {items : List (Call σ Response)}
    (hstep : Step svc x (.called request items) y) : Progress items [] y.stage := by
  cases hstep with
  | called hn hs hr =>
    refine ⟨Nat.zero_le _, rfl, ?_⟩
    rintro _ ⟨⟩
    exact .inl rfl

/-! ### Coming back -/

-- While no answer is being sent, no item is run.
theorem idle_step (h : x.stage.isSending = false) (hstep : Step svc x d y)
    (hd : d.starts = false) : y.stage.isSending = false ∧ d.item?.isNone := by
  cases hstep with
  | given phase reader s chunk => exact ⟨h, rfl⟩
  | asked phase reader s => exact ⟨h, rfl⟩
  | called hn hs hr => cases hd
  | refused hn he hr => cases hd
  | pulled reader hp hr => cases h
  | completed reader s hp => cases h
  | returned found phase reader s => exact ⟨h, rfl⟩
  | _ => exact ⟨rfl, rfl⟩

theorem idle_path (h : x.stage.isSending = false) (hpath : Path svc x ds y)
    (hds : ∀ d ∈ ds, d.starts = false) : y.stage.isSending = false := by
  induction hpath with
  | nil => exact h
  | cons hstep hrest ih =>
    obtain ⟨hd, hds⟩ := List.forall_mem_cons.mp hds
    exact ih (idle_step h hstep hd).1 hds

theorem idle_not_pulled {call : Call σ Response} {intact : Bool} (h : x.stage.isSending = false)
    (hpath : Path svc x ds y) (hds : ∀ d ∈ ds, d.starts = false) :
    ¬ Step svc y (.pulled call intact) z := by
  intro hstep
  have hy := idle_path h hpath hds
  cases hstep
  cases hy

-- Of an answer that is being sent, the next item is run, if there is one.
theorem resumes {out : Outgoing σ} {call : Call σ Response} {intact : Bool}
    (h : x.stage = .working (.sending out)) (hpath : Path svc x ds y)
    (hds : ∀ d ∈ ds, d.starts = false ∧ d.item?.isNone)
    (hstep : Step svc y (.pulled call intact) z) : ds = [] ∧ out.pending ≠ [] := by
  cases hpath with
  | nil =>
    cases hstep with
    | pulled reader hp hr =>
      cases h
      exact ⟨rfl, by rw [hp]; nofun⟩
  | cons hfirst hrest =>
    obtain ⟨hd, hmore⟩ := List.forall_mem_cons.mp hds
    cases hfirst with
    | pulled reader hp hr => cases hd.2
    | completed reader s hp =>
      refine absurd hstep (idle_not_pulled ?_ hrest fun e he => (hmore e he).1)
      show Stage.isSending (.working (if _ then _ else _)) = false
      split <;> rfl
    | _ => cases h

-- The caller may give bytes before it comes back for it.
theorem waits {out : Outgoing σ} {call : Call σ Response} {intact : Bool}
    (h : x.stage = .waiting (.sending out)) (hpath : Path svc x ds y)
    (hds : ∀ d ∈ ds, d.starts = false ∧ d.item?.isNone)
    (hstep : Step svc y (.pulled call intact) z) :
    out.pending ≠ [] ∧ ∃ chunks : List Bytes, ds = chunks.map .given ++ [.asked] := by
  induction hpath with
  | nil =>
    cases hstep
    cases h
  | cons hfirst hrest ih =>
    obtain ⟨hd, hmore⟩ := List.forall_mem_cons.mp hds
    have hidle := fun e he => (hmore e he).1
    cases hfirst with
    | given phase reader s chunk =>
      obtain ⟨hne, chunks, hchunks⟩ := ih h hmore hstep
      exact ⟨hne, chunk :: chunks, by rw [hchunks]; rfl⟩
    | asked phase reader s =>
      cases h
      obtain ⟨hnil, hne⟩ := resumes rfl hrest hmore hstep
      exact ⟨hne, [], by rw [hnil]; rfl⟩
    | hungUp phase reader s => exact absurd hstep (idle_not_pulled rfl hrest hidle)
    | stopped phase reader s => exact absurd hstep (idle_not_pulled rfl hrest hidle)
    | _ => cases h

-- A connection that is over stays so.
theorem gone_step (h : x.stage.phase = .terminated) (hstep : Step svc x d y) :
    y.stage.phase = .terminated ∧ d.starts = false ∧ d.item?.isNone := by
  cases hstep with
  | given phase reader s chunk => exact ⟨h, rfl, rfl⟩
  | asked phase reader s => exact ⟨h, rfl, rfl⟩
  | returned found phase reader s => exact ⟨h, rfl, rfl⟩
  | hungUp phase reader s => exact ⟨rfl, rfl, rfl⟩
  | stopped phase reader s => exact ⟨rfl, rfl, rfl⟩
  | closed reader s => exact ⟨rfl, rfl, rfl⟩
  | _ => cases h

theorem phase_of_ends (hstep : Step svc x d y) (hd : d.ends = true) :
    y.stage.phase = .terminated := by
  cases hstep with
  | failed s hn he => rfl
  | hungUp phase reader s => rfl
  | stopped phase reader s => rfl
  | _ => cases hd

/-! ### Paths -/

end Scene

end LineFrame
