import Mathlib.Data.List.Basic
import LineFrame.Proofs.Server.Intake
import LineFrame.Proofs.Server.Noting

/-!
# The events of a connection

A sink is told that a connection is opened, and in the end that it is closed.  In between it is told
of one answer after the other, in the order of the input: that a command was received and dispatched
and, once its responses have been handed out and the caller has come back, that it is completed.  Of
a refused line it is told only that it is completed, under the empty name (`lifecycle_events`).

Each event belongs to a deed (`Deed.events`), so it is the histories of usages that are looked at:
which answers have been completed and which one may be open (`Scene.Recounts`), where the caller is
(`Scene.Attends`), and how far the answer has come that is being sent (`Scene.Answering`).
-/

namespace LineFrame

variable {σ : Type}

namespace Finding

/-- The name that the sink is told. -/
def command : Finding → String
  | .ok frame => frame.name
  | .error _ => ""

/-- What the sink is told when the answer starts. -/
def begun : Finding → List Event
  | .ok frame => [.received frame.name, .dispatched frame.name]
  | .error _ => []

/-- What the sink is told of an answer in all. -/
def events (f : Finding) : List Event := f.begun ++ [.completed f.command]

end Finding

namespace Deed

/-- What the sink is told of a deed. -/
def events : Deed σ → List Event
  | called request _ => [.received request.command, .dispatched request.command]
  | completed command => [.completed command]
  | _ => []

/-- The caller has been handed a response and has not come back since. -/
def Handed (ds : List (Deed σ)) : Prop :=
  ∃ (before : List (Deed σ)) (data : Bytes) (chunks : List Bytes),
    ds = before ++ returned (.ok (.send data)) :: chunks.map given

/-- The caller ended the connection when it had been handed a response, without coming back. -/
def CutShort (ds : List (Deed σ)) : Prop :=
  ∃ (before : List (Deed σ)) (d : Deed σ) (after : List (Deed σ)),
    ds = before ++ d :: after ∧ Handed before ∧ (d = hungUp ∨ d = stopped)

/-- How an answer ends that is started by this deed, has these deeds after it, and is completed under
this name. -/
structure Finishes (start : Deed σ) (since : List (Deed σ)) (command : String) : Prop where
  named : start.finding?.map Finding.command = some command
  /-- No other answer is started before. -/
  alone : ∀ d ∈ since, d.starts = false
  /-- All items of a command's answer have been run, or one has failed. -/
  whole : ∀ request items, start = called request items →
    since.filterMap item? = items ∨ ∃ call, pulled call false ∈ since
  /-- The answer to a refused line is one response. -/
  single : ∀ e, start = refused e → (since.filterMap item?).length = 1
  /-- The response of every item that was run has been handed out. -/
  handed : since.countP hands = (since.filterMap item?).length
  /-- The caller has come back after the last response, if there was any. -/
  back : since = [] ∨ ∃ earlier, since = earlier ++ [asked] ∧ Handed earlier

/-- Answers are completed when they are due. -/
def Punctual (history : List (Deed σ)) : Prop :=
  ∀ before command after, history = before ++ completed command :: after →
    ∃ earlier start since, before = earlier ++ start :: since ∧ Finishes start since command

theorem not_handed_nil : ¬ Handed ([] : List (Deed σ)) := by
  rintro ⟨before, data, chunks, h⟩
  simp at h

theorem not_cutShort_nil : ¬ CutShort ([] : List (Deed σ)) := by
  rintro ⟨before, d, after, h, -⟩
  simp at h

-- Only bytes may be given while the caller is away.
theorem handed_concat (ds : List (Deed σ)) (d : Deed σ) :
    Handed (ds ++ [d]) ↔
      (∃ data, d = returned (.ok (.send data))) ∨ (∃ chunk, d = given chunk) ∧ Handed ds := by
  constructor
  · rintro ⟨before, data, chunks, h⟩
    rcases List.eq_nil_or_concat' chunks with rfl | ⟨chunks, chunk, rfl⟩
    · obtain ⟨-, hd⟩ := List.append_inj' h rfl
      exact .inl ⟨data, List.cons.inj hd |>.1⟩
    · rw [List.map_append, ← List.cons_append, ← List.append_assoc] at h
      obtain ⟨hds, hd⟩ := List.append_inj' h rfl
      exact .inr ⟨⟨chunk, List.cons.inj hd |>.1⟩, before, data, chunks, hds⟩
  · rintro (⟨data, rfl⟩ | ⟨⟨chunk, rfl⟩, before, data, chunks, rfl⟩)
    · exact ⟨ds, data, [], rfl⟩
    · exact ⟨before, data, chunks ++ [chunk], by simp⟩

theorem cutShort_concat (ds : List (Deed σ)) (d : Deed σ) :
    CutShort (ds ++ [d]) ↔ CutShort ds ∨ Handed ds ∧ (d = hungUp ∨ d = stopped) := by
  constructor
  · rintro ⟨before, e, after, h, hbefore, he⟩
    rcases List.eq_nil_or_concat' after with rfl | ⟨after, last, rfl⟩
    · obtain ⟨rfl, hd⟩ := List.append_inj' h rfl
      cases hd
      exact .inr ⟨hbefore, he⟩
    · rw [← List.cons_append, ← List.append_assoc] at h
      obtain ⟨rfl, -⟩ := List.append_inj' h rfl
      exact .inl ⟨before, e, after, rfl, hbefore, he⟩
  · rintro (⟨before, e, after, rfl, hbefore, he⟩ | ⟨hds, hd⟩)
    · exact ⟨before, e, after ++ [d], by simp, hbefore, he⟩
    · exact ⟨ds, d, [], rfl, hds, hd⟩

end Deed

namespace Scene

open Deed (Handed CutShort Finishes Punctual hands item? handed_concat cutShort_concat)

variable {svc : Service σ} {x y : Scene σ} {d : Deed σ} {ds : List (Deed σ)}

/-! ## The caller -/

/-- Where the caller is while an answer is sent, as far as these deeds show. -/
structure Attends (ds : List (Deed σ)) (stage : Stage σ) : Prop where
  handed : Handed ds ↔ ∃ out, stage = .waiting (.sending out)
  sends : ∀ found phase, stage = .returning found phase →
    ((∃ data, found = .ok (.send data)) ↔ ∃ out, phase = .sending out)
  ended : CutShort ds → stage.phase = .terminated

theorem attends_nil {stage : Stage σ} (hwaiting : ∀ out, stage ≠ .waiting (.sending out))
    (hreturning : ∀ found phase, stage ≠ .returning found phase) : Attends [] stage where
  handed := ⟨fun h => absurd h Deed.not_handed_nil, fun ⟨out, h⟩ => absurd h (hwaiting out)⟩
  sends found phase h := absurd h (hreturning found phase)
  ended h := absurd h Deed.not_cutShort_nil

theorem Attends.step (h : Attends ds x.stage) (hstep : Step svc x d y) :
    Attends (ds ++ [d]) y.stage where
  handed := by
    rw [handed_concat, h.handed]
    cases hstep with
    | given phase reader s chunk => simp
    | returned found phase reader s => simpa using h.sends found phase rfl
    | _ => simp
  sends := by
    cases hstep with
    | _ => simp
  ended hcut := by
    rcases (cutShort_concat ds d).mp hcut with hcut | ⟨-, hd⟩
    · exact (gone_step (h.ended hcut) hstep).1
    · exact phase_of_ends hstep (by rcases hd with rfl | rfl <;> rfl)

theorem Attends.path {es : List (Deed σ)} (h : Attends ds x.stage) (hpath : Path svc x es y) :
    Attends (ds ++ es) y.stage :=
  hpath.keeps (P := fun ds x => Attends ds x.stage) h fun _ => Attends.step

/-! ## What has been answered -/

/-- The answers that are completed after these deeds, and the one that is not. -/
structure Recounts (answered : List Finding) (open? : Option Finding) (ds : List (Deed σ))
    (stage : Stage σ) : Prop where
  findings : ds.filterMap Deed.finding? = answered ++ open?.toList
  events : ds.flatMap Deed.events =
    answered.flatMap Finding.events ++ open?.toList.flatMap Finding.begun
  sending : ∀ out, stage.phase = .sending out → open?.map Finding.command = some out.command
  awaiting : stage.phase = .awaiting → open? = none
  ended : stage.phase = .terminated → (open?.isSome ↔ CutShort ds)

section

variable {answered : List Finding} {open? : Option Finding}

-- A deed of which the sink is not told changes nothing, if the phase stays what it is.
theorem Recounts.of_quiet (h : Recounts answered open? ds x.stage) (hfinding : d.finding? = none)
    (hevents : d.events = [])
    (hsending : ∀ out, y.stage.phase = .sending out →
      ∃ out', x.stage.phase = .sending out' ∧ out'.command = out.command)
    (hawaiting : y.stage.phase = .awaiting → x.stage.phase = .awaiting)
    (hended : y.stage.phase = .terminated → (open?.isSome ↔ CutShort (ds ++ [d]))) :
    Recounts answered open? (ds ++ [d]) y.stage where
  findings := by
    rw [Deed.filterMap_finding?_concat, hfinding, h.findings]
    exact List.append_nil _
  events := by
    rw [List.flatMap_append, List.flatMap_singleton, hevents, List.append_nil]
    exact h.events
  sending out hout := by
    obtain ⟨out', hout', hcommand⟩ := hsending out hout
    rw [← hcommand]
    exact h.sending out' hout'
  awaiting hphase := h.awaiting (hawaiting hphase)
  ended := hended

-- The answer that is being sent stays open when the connection is ended, and no other does.
theorem Recounts.of_ends (h : Recounts answered open? ds x.stage) (ha : Attends ds x.stage)
    {phase : Connection.Phase σ} (hstage : x.stage = .waiting phase)
    (hd : d = .hungUp ∨ d = .stopped) : open?.isSome ↔ CutShort (ds ++ [d]) := by
  have hhanded := ha.handed
  have hended := ha.ended
  rw [hstage] at hhanded hended
  rw [cutShort_concat, and_iff_left hd, hhanded]
  cases phase with
  | awaiting =>
    have hnone := h.awaiting (by rw [hstage]; rfl)
    rw [hnone]
    exact ⟨nofun, fun hcut => by rcases hcut with hcut | ⟨out, hout⟩ <;> [cases hended hcut; cases hout]⟩
  | sending out =>
    have hsome := h.sending out (by rw [hstage]; rfl)
    exact ⟨fun _ => .inr ⟨out, rfl⟩, fun _ => by cases open? <;> [cases hsome; rfl]⟩
  | terminated =>
    rw [h.ended (by rw [hstage]; rfl)]
    exact ⟨.inl, fun hcut => by rcases hcut with hcut | ⟨out, hout⟩ <;> [exact hcut; cases hout]⟩

-- An answer that starts is open, when none was.
theorem Recounts.of_starts (h : Recounts answered none ds x.stage) {f : Finding}
    {out : Outgoing σ} (hfinding : d.finding? = some f) (hevents : d.events = f.begun)
    (hphase : y.stage.phase = .sending out) (hcommand : f.command = out.command) :
    Recounts answered (some f) (ds ++ [d]) y.stage where
  findings := by
    rw [Deed.filterMap_finding?_concat, h.findings, hfinding, Option.toList_none, List.append_nil]
  events := by
    rw [List.flatMap_append, h.events, List.flatMap_singleton, hevents, Option.toList_none,
      List.flatMap_nil, List.append_nil, Option.toList_some, List.flatMap_singleton]
  sending out' hout' := by
    cases hphase.symm.trans hout'
    exact congrArg some hcommand
  awaiting hawaiting := by cases hphase.symm.trans hawaiting
  ended hended := by cases hphase.symm.trans hended

theorem Recounts.step (h : Recounts answered open? ds x.stage) (ha : Attends ds x.stage)
    (hstep : Step svc x d y) :
    ∃ answered open?, Recounts answered open? (ds ++ [d]) y.stage := by
  -- where the connection is not ended, nothing is cut short that was not before
  have hcut (hd : ¬ (d = .hungUp ∨ d = .stopped)) : CutShort (ds ++ [d]) ↔ CutShort ds := by
    rw [cutShort_concat]
    exact or_iff_left fun hlast => hd hlast.2
  have hlive (hphase : x.stage.phase ≠ .terminated) :
      (none : Option Finding).isSome ↔ CutShort ds :=
    iff_of_false Bool.false_ne_true fun h => hphase (ha.ended h)
  have hsame (hfinding : d.finding? = none) (hevents : d.events = [])
      (hd : ¬ (d = .hungUp ∨ d = .stopped)) (hphase : y.stage.phase = x.stage.phase) :
      ∃ answered open?, Recounts answered open? (ds ++ [d]) y.stage := by
    refine ⟨_, _, h.of_quiet hfinding hevents ?_ ?_ ?_⟩
    · rw [hphase]
      exact fun out hout => ⟨out, hout, rfl⟩
    · rw [hphase]
      exact id
    · rw [hphase, hcut hd]
      exact h.ended
  cases hstep with
  | given phase reader s chunk => exact hsame rfl rfl (by simp) rfl
  | asked phase reader s => exact hsame rfl rfl (by simp) rfl
  | returned found phase reader s => exact hsame rfl rfl (by simp) rfl
  | closed reader s => exact hsame rfl rfl (by simp) rfl
  | starved s hn => exact hsame rfl rfl (by simp) rfl
  | hungUp phase reader s =>
    exact ⟨_, _, h.of_quiet rfl rfl nofun nofun fun _ => h.of_ends ha rfl (.inl rfl)⟩
  | stopped phase reader s =>
    exact ⟨_, _, h.of_quiet rfl rfl nofun nofun fun _ => h.of_ends ha rfl (.inr rfl)⟩
  | failed s hn he =>
    have hnone := h.awaiting rfl
    refine ⟨_, _, h.of_quiet rfl rfl nofun nofun fun _ => ?_⟩
    rw [hcut (by simp), hnone]
    exact hlive (by rintro ⟨⟩)
  | pulled reader hp hr =>
    exact ⟨_, _, h.of_quiet rfl rfl (by rintro _ ⟨⟩; exact ⟨_, rfl, rfl⟩) nofun nofun⟩
  | @called reader left frame s t u reply hn hs hr =>
    have hnone := h.awaiting rfl
    subst hnone
    exact ⟨answered, some (.ok frame), h.of_starts rfl rfl rfl rfl⟩
  | @refused reader left e s t response hn he hr =>
    have hnone := h.awaiting rfl
    subst hnone
    exact ⟨answered, some (.error e), h.of_starts rfl rfl rfl rfl⟩
  | @completed out reader s hp =>
    obtain ⟨f, rfl, hcommand⟩ := Option.map_eq_some_iff.mp (h.sending out rfl)
    refine ⟨answered ++ [f], none, ?_, ?_, ?_, fun _ => rfl, fun _ => ?_⟩
    · rw [Deed.filterMap_finding?_concat, h.findings]
      rfl
    · rw [List.flatMap_append, h.events, List.flatMap_append, ← hcommand]
      simp [Deed.events, Finding.events]
    · intro out' hout'
      simp only [Stage.phase] at hout'
      split at hout' <;> cases hout'
    · rw [hcut (by simp)]
      exact hlive (by rintro ⟨⟩)

theorem Recounts.path {es : List (Deed σ)} (h : Recounts answered open? ds x.stage)
    (ha : Attends ds x.stage) (hpath : Path svc x es y) :
    ∃ answered open?, Recounts answered open? (ds ++ es) y.stage := by
  let P (ds : List (Deed σ)) (x : Scene σ) : Prop :=
    Attends ds x.stage ∧ ∃ answered open?, Recounts answered open? ds x.stage
  have hkept : P (ds ++ es) y := by
    refine hpath.keeps ⟨ha, answered, open?, h⟩ ?_
    rintro ds x d y - ⟨ha, answered, open?, h⟩ hstep
    exact ⟨ha.step hstep, h.step ha hstep⟩
  exact hkept.2

end

/-! ## Answers -/

/-- How far the answer has come that this deed started, with these items, and of which `out` is left
after these deeds. -/
structure Answering (start : Deed σ) (items : List (Call σ Response)) (since : List (Deed σ))
    (stage : Stage σ) (out : Outgoing σ) : Prop where
  named : start.finding?.map Finding.command = some out.command
  owed : ∀ request given, start = .called request given → items = given
  single : ∀ e, start = .refused e → items.length = 1
  alone : ∀ d ∈ since, d.starts = false
  progress : Progress items since stage
  rest : out.pending = items.drop (since.filterMap item?).length ∨ ∃ call, .pulled call false ∈ since
  attends : Attends since stage
  back : (∃ phase, stage = .working phase) →
    since = [] ∨ ∃ earlier, since = earlier ++ [.asked] ∧ Handed earlier

-- An answer goes on with whatever is done before it is completed or given up.
theorem Answering.step {start : Deed σ} {items : List (Call σ Response)} {since : List (Deed σ)}
    {out out' : Outgoing σ} (h : Answering start items since x.stage out)
    (hphase : x.stage.phase = .sending out) (hstep : Step svc x d y) (hd : d.starts = false)
    (hphase' : y.stage.phase = .sending out') :
    Answering start items (since ++ [d]) y.stage out' := by
  have halone : ∀ e ∈ since ++ [d], e.starts = false :=
    List.forall_mem_append.mpr ⟨h.alone, List.forall_mem_singleton.mpr hd⟩
  have hprogress := h.progress.step hstep hd
  have hattends := h.attends.step hstep
  -- what the caller does leaves the answer as it is
  have hquiet (hitem : d.item? = none) : out.pending =
      items.drop ((since ++ [d]).filterMap item?).length ∨ ∃ call, .pulled call false ∈ since ++ [d] := by
    have hsame : (since ++ [d]).filterMap item? = since.filterMap item? := by simp [hitem]
    rw [hsame]
    exact h.rest.imp_right fun ⟨call, hcall⟩ => ⟨call, List.mem_append_left _ hcall⟩
  cases hstep with
  | given phase reader s chunk =>
    cases hphase.symm.trans hphase'
    exact ⟨h.named, h.owed, h.single, halone, hprogress, hquiet rfl, hattends, nofun⟩
  | asked phase reader s =>
    cases hphase.symm.trans hphase'
    have hphase : phase = .sending out := hphase
    refine ⟨h.named, h.owed, h.single, halone, hprogress, hquiet rfl, hattends, fun _ => ?_⟩
    exact .inr ⟨since, rfl, h.attends.handed.mpr ⟨out, by rw [hphase]⟩⟩
  | returned found phase reader s =>
    cases hphase.symm.trans hphase'
    exact ⟨h.named, h.owed, h.single, halone, hprogress, hquiet rfl, hattends, nofun⟩
  | @pulled out'' call rest s t response reader hp hr =>
    cases hphase
    cases hphase'
    refine ⟨h.named, h.owed, h.single, halone, hprogress, ?_, hattends, nofun⟩
    have hitems : (since ++ [Deed.pulled call (call s).1.contain.isOk]).filterMap item? =
        since.filterMap item? ++ [call] := by
      simp [item?]
    cases hok : (call s).1.contain.isOk with
    | false => exact .inr ⟨call, by simp⟩
    | true =>
      rcases h.rest with hrest | ⟨failed, hfailed⟩
      · left
        rw [hok] at hitems
        rw [hitems, List.length_append, ← List.drop_drop, ← hrest, hp]
        rfl
      · exact .inr ⟨failed, List.mem_append_left _ hfailed⟩
  | completed reader s hp =>
    simp only [Stage.phase] at hphase'
    split at hphase' <;> cases hphase'
  | called hn hs hr => cases hd
  | refused hn he hr => cases hd
  | _ => cases hphase'

/-- Whatever answer is being sent, it was started by one of the deeds. -/
def Midway (ds : List (Deed σ)) (stage : Stage σ) : Prop :=
  ∀ out, stage.phase = .sending out → ∃ earlier start since items,
    ds = earlier ++ start :: since ∧ Answering start items since stage out

theorem Midway.step (h : Midway ds x.stage) (hstep : Step svc x d y) :
    Midway (ds ++ [d]) y.stage := by
  cases hd : d.starts with
  | true =>
    cases hstep with
    | @called reader left frame s t u reply hn hs hr =>
      rintro out ⟨⟩
      refine ⟨ds, _, [], reply.items, rfl, rfl, ?_, nofun, nofun,
        .start (.called hn hs hr), .inl rfl, attends_nil nofun nofun, fun _ => .inl rfl⟩
      rintro request given ⟨⟩
      rfl
    | @refused reader left e s t response hn he hr =>
      rintro out ⟨⟩
      refine ⟨ds, _, [], [.pure response], rfl, rfl, nofun, fun _ _ => rfl, nofun,
        ⟨Nat.zero_le _, rfl, ?_⟩, .inl rfl, attends_nil nofun nofun, fun _ => .inl rfl⟩
      rintro _ ⟨⟩
      exact .inl rfl
    | _ => cases hd
  | false =>
    intro out' hphase'
    have hphase : ∃ out, x.stage.phase = .sending out := by
      cases hstep with
      | given phase reader s chunk => exact ⟨_, hphase'⟩
      | asked phase reader s => exact ⟨_, hphase'⟩
      | returned found phase reader s => exact ⟨_, hphase'⟩
      | pulled reader hp hr => exact ⟨_, rfl⟩
      | completed reader s hp => exact ⟨_, rfl⟩
      | called hn hs hr => cases hd
      | refused hn he hr => cases hd
      | _ => cases hphase'
    obtain ⟨out, hphase⟩ := hphase
    obtain ⟨earlier, start, since, items, rfl, hanswering⟩ := h out hphase
    exact ⟨earlier, start, since ++ [d], items, by simp,
      hanswering.step hphase hstep hd hphase'⟩

theorem Midway.path {es : List (Deed σ)} (h : Midway ds x.stage) (hpath : Path svc x es y) :
    Midway (ds ++ es) y.stage :=
  hpath.keeps (P := fun ds x => Midway ds x.stage) h fun _ => Midway.step

-- An answer of which nothing is left has been handed out in full.
theorem Answering.finishes {start : Deed σ} {items : List (Call σ Response)}
    {since : List (Deed σ)} {out : Outgoing σ}
    (h : Answering start items since (.working (.sending out)) out) (hp : out.pending = []) :
    Finishes start since out.command := by
  obtain ⟨hle, hpulled, -⟩ := h.progress
  have hlength : (since.filterMap item?).length = since.countP hands := by
    rw [hpulled, List.length_take]
    exact Nat.min_eq_left hle
  -- all has been run, unless something has failed
  have hall : since.filterMap item? = items ∨ ∃ call, .pulled call false ∈ since := by
    rcases h.rest with hrest | hfailed
    · left
      rw [hp] at hrest
      have hended : items.length ≤ (since.filterMap item?).length :=
        List.drop_eq_nil_iff.mp hrest.symm
      rw [hlength] at hended
      rw [hpulled]
      exact List.take_of_length_le hended
    · exact .inr hfailed
  refine ⟨h.named, h.alone, ?_, ?_, hlength.symm, h.back ⟨_, rfl⟩⟩
  · rintro request given rfl
    rw [← h.owed request given rfl]
    exact hall
  · rintro e rfl
    have hone := h.single e rfl
    rcases hall with hall | ⟨call, hcall⟩
    · rw [hall, hone]
    · have hpos : 0 < (since.filterMap item?).length :=
        List.length_pos_of_mem (List.mem_filterMap.mpr ⟨_, hcall, rfl⟩)
      have hmost : since.countP hands ≤ items.length := hle
      omega

/-- **What leads on from a connection that sends nothing is punctual.** -/
theorem Path.punctual (h : Midway [] x.stage) (hpath : Path svc x ds y) : Punctual ds := by
  rintro before command after rfl
  obtain ⟨z, hbefore, hrest⟩ := hpath.split
  cases hrest with
  | cons hcompleted hrest =>
    have hmidway := h.path hbefore
    cases hcompleted with
    | completed reader s hp =>
      obtain ⟨earlier, start, since, items, heq, hanswering⟩ := hmidway _ rfl
      exact ⟨earlier, start, since, heq, hanswering.finishes hp⟩

-- When it is the caller's turn, an answer is open just if the caller did not come back for it.
theorem Recounts.isSome_iff {answered : List Finding} {open? : Option Finding}
    {phase : Connection.Phase σ} (h : Recounts answered open? ds x.stage)
    (ha : Attends ds x.stage) (hstage : x.stage = .waiting phase) :
    open?.isSome ↔ Handed ds ∨ CutShort ds := by
  have hhanded := ha.handed
  have hended := ha.ended
  rw [hstage] at hhanded hended
  cases phase with
  | awaiting =>
    have hnone := h.awaiting (by rw [hstage]; rfl)
    rw [hnone, hhanded]
    refine ⟨nofun, fun hopen => ?_⟩
    rcases hopen with ⟨out, hout⟩ | hcut
    · cases hout
    · cases hended hcut
  | sending out =>
    have hsome := h.sending out (by rw [hstage]; rfl)
    obtain ⟨f, rfl, -⟩ := Option.map_eq_some_iff.mp hsome
    exact ⟨fun _ => .inl (hhanded.mpr ⟨out, rfl⟩), fun _ => rfl⟩
  | terminated =>
    rw [h.ended (by rw [hstage]; rfl), hhanded]
    exact (or_iff_right fun ⟨out, hout⟩ => by cases hout).symm

end Scene

/-! ## Usages -/

namespace Connection

theorem next_peer (svc : Service σ) (c : Connection σ) (s : σ) :
    (c.next svc s).2.1.peer = c.peer := by
  fun_induction next svc c s with
  | case1 | case2 | case4 | case6 => rfl
  | case3 c s out hp out' t hpull step ih => exact ih
  | case5 c s hp frame reader h step ih => exact ih
  | case7 c s hp e reader h he step ih => exact ih

end Connection

namespace Usage

theorem run_peer (svc : Service σ) (x : Usage σ) (uses : List Use) :
    (x.run svc uses).connection.peer = x.connection.peer := by
  have hstep (x : Usage σ) (use : Use) : (x.step svc use).connection.peer = x.connection.peer := by
    cases use with
    | ask => exact x.connection.next_peer svc x.state
    | give | hangUp | stop => rfl
  induction uses generalizing x with
  | nil => rfl
  | cons use uses ih => exact (ih _).trans (hstep x use)

/-- What the sink is told of a connection to this peer that had this history, in which these findings
were answered and one may still be, out of all that its bytes decode to. -/
structure Lifecycle (peer : Option Net.SocketAddress) (history : List (Deed σ))
    (decoded answered : List Finding) (open? : Option Finding) (events : List Event) : Prop where
  /-- Opened first, closed last, and one answer after the other in between.  Only the last one may
  lack its completion. -/
  grammar : events = .opened peer ::
    (answered.flatMap Finding.events ++ open?.toList.flatMap Finding.begun) ++ [.closed peer]
  /-- The sink is told when these things are done. -/
  timely : events = .opened peer :: history.flatMap Deed.events ++ [.closed peer]
  /-- Nothing is answered but what was found, and that in the order of the input. -/
  ordered : answered ++ open?.toList <+: decoded
  /-- The sink is told nothing of fatal errors. -/
  inStep : ∀ f ∈ answered ++ open?.toList, f.fatal = false
  /-- No frame and no refused line is left out when the connection asks for more. -/
  entire : history.getLast? = some (.returned (.ok .receive)) →
    answered ++ open?.toList = decoded
  /-- Nor is any left out before a fatal error. -/
  failed : ∀ e, .failed e ∈ history → answered ++ open?.toList ++ [.error e] = decoded
  /-- A completion is lacking just if the caller did not come back after a response: it is still
  away, or it ended the connection. -/
  lacking : open?.isSome ↔ Deed.Handed history ∨ Deed.CutShort history
  /-- Every completion comes when all responses have been handed out and the caller has come back. -/
  punctual : Deed.Punctual history

theorem events_of_notes (svc : Service σ) (ds : List (Deed σ)) :
    (ds.flatMap svc.notes).filterMap Note.event? = ds.flatMap Deed.events := by
  rw [List.filterMap_flatMap]
  congr 1
  funext d
  cases d <;> rfl

/-- **The events of a connection form a grammar.**  Whatever a service offers, whatever bytes a
connection is given and however it is driven until it is let go, its sink is told of its life as
`Lifecycle` has it. -/
theorem lifecycle_events (svc : Service σ) (peer : Option Net.SocketAddress) (s : σ)
    (uses : List Use) :
    let x := (start svc peer s).run svc uses
    let y := (start svc.noting peer (s, [])).run svc.noting uses
    let decoded := Finding.decodeAll svc.expectationFor svc.maxPayload
      ((start svc peer s).intake svc uses)
    let events := (y.connection.release svc.noting y.state).2.filterMap Note.event?
    (y.shown = x.shown ∧ y.state.1 = x.state) ∧
      ∃ answered open?, Lifecycle peer x.history decoded answered open? events := by
  intro x y decoded events
  have hy : y = x.noting svc [.told (.opened peer)] := run_start_noting svc peer s uses
  have hpeer : x.connection.peer = peer := run_peer svc _ uses
  have hpath : Scene.Path svc (start svc peer s).scene x.history x.scene :=
    run_path (.nil _) uses
  have hnil : Scene.Attends [] (start svc peer s).scene.stage := Scene.attends_nil nofun nofun
  have hattends : Scene.Attends x.history x.scene.stage := hnil.path hpath
  have hmidway : Scene.Midway [] (start svc peer s).scene.stage := by
    rintro out ⟨⟩
  have hstart : Scene.Recounts [] none [] (start svc peer s).scene.stage :=
    ⟨rfl, rfl, nofun, fun _ => rfl, nofun⟩
  obtain ⟨answered, open?, hrecounts⟩ :
      ∃ answered open?, Scene.Recounts answered open? x.history x.scene.stage :=
    hstart.path hnil hpath
  have hevents : events = .opened peer :: x.history.flatMap Deed.events ++ [.closed peer] := by
    show List.filterMap Note.event? (y.state.2 ++ [.told (.closed y.connection.peer)]) = _
    rw [List.filterMap_append, hy, show (x.noting svc _).connection.peer = x.connection.peer from rfl,
      hpeer]
    show List.filterMap Note.event? ([.told (.opened peer)] ++ x.history.flatMap svc.notes) ++ _ = _
    rw [List.filterMap_append, events_of_notes]
    rfl
  have hfindings : answered ++ open?.toList = x.findings := hrecounts.findings.symm
  have haccounts := run_start_accounts svc peer s uses
  refine ⟨?_, answered, open?, ?_, hevents, ?_, ?_, ?_, ?_, ?_, ?_⟩
  · rw [hy]
    exact ⟨shown_noting svc _ x, rfl⟩
  · rw [hevents, hrecounts.events]
  · rw [hfindings]
    exact findings_prefix svc peer s uses
  · rw [hfindings]
    exact haccounts.inStep
  · intro hlast
    rw [hfindings]
    exact findings_of_receive hlast
  · intro e he
    rw [hfindings]
    exact findings_of_failed he
  · exact hrecounts.isSome_iff hattends rfl
  · exact hpath.punctual hmidway

end Usage

end LineFrame
