import Mathlib
import LineFrame.Proofs.Server.Intake
import LineFrame.Proofs.Server.Noting
import LineFrame.Proofs.Wire.Grammar

/-!
# Framing and dispatch

What follows a line is decided by the policy of its command, while the line is read; which handler
runs is looked up again, once the payload is there.  The two agree: each request that a handler is
called with stands in the input as the policy of just this handler's registration has it
(`Request.Framed`), and the letter case of the command makes no difference to either
(`requests_framed`).
-/

namespace LineFrame

variable {σ : Type}

/-! ## Blocks -/

/-- A request is what stands in a block of the input, given the policy of its command: a line with
this text, whose tokens after the command are these, and the payload that it declares, if any. -/
structure Request.Framed (policy : Expectation) (limit : Nat) (request : Request) (block : Bytes)
    (text : String) (tokens : List String) : Prop where
  line : Text.tokens text = request.command :: tokens
  command : CommandLine.IsToken request.command
  args : ∀ arg ∈ request.args, CommandLine.IsToken arg
  never : policy = .never → request.payload = none
  always : policy = .always → request.payload.isSome
  /-- The last token after the command decides. -/
  auto : policy = .auto →
    (request.payload.isSome ↔ ∃ rest n, CommandLine.Announces tokens rest n)
  /-- Without a payload all tokens are arguments, and the block is the line. -/
  bare : request.payload = none →
    request.args = tokens ∧ block = Text.encode text ++ Bytes.crlf
  /-- The length of a payload is no argument, and the payload comes after the line. -/
  loaded : ∀ data, request.payload = some data →
    data.length ≤ limit ∧ CommandLine.Announces tokens request.args data.length ∧
      block = Text.encode text ++ Bytes.crlf ++ data ++ Bytes.crlf

namespace Reader.Finds

variable {expect : String → Expectation} {limit : Nat} {bytes : Bytes} {n : Nat} {left : Held}

theorem isToken_of_tokens {text name : String} {args : List String}
    (hcr : Bytes.cr ∉ Text.encode text) (htokens : Text.tokens text = name :: args) :
    CommandLine.IsToken name ∧ ∀ arg ∈ args, CommandLine.IsToken arg := by
  have hall := CommandLine.isToken_of_tokenize (CommandLine.tokenize_encode_eq text) hcr
  rw [htokens] at hall
  exact List.forall_mem_cons.mp hall

-- A frame stands in the bytes that are taken for it, and nothing is held after it.
theorem framed {f : Frame} (h : Finds expect limit bytes (.ok (some f)) n left) :
    left = .fresh limit ∧ ∃ text tokens,
      (Request.ofFrame f).Framed (expect f.name) limit (bytes.take n) text tokens := by
  cases h with
  | @taken line rest command _ n' _ hcr hline hrest =>
    have htake : (line ++ Bytes.crlf ++ rest).take (line.length + 2 + n') =
        line ++ Bytes.crlf ++ rest.take n' := by
      rw [List.take_append, List.take_of_length_le (by simp [Bytes.crlf])]
      simp [Bytes.crlf]
    rw [htake]
    cases hrest with
    | bare hlength =>
      cases hline with
      | @bare text name args htokens he =>
        obtain ⟨hname, hargs⟩ := isToken_of_tokens hcr htokens
        refine ⟨rfl, text, args, htokens, hname, hargs, fun _ => rfl, fun halways => ?_,
          fun hauto => ⟨fun hsome => ?_, ?_⟩, fun _ => ⟨rfl, List.append_nil _⟩,
          fun data hdata => ?_⟩
        · rcases he with he | ⟨he, -⟩ <;> cases he.symm.trans halways
        · cases hsome
        · rintro ⟨rest, n, hlast⟩
          rcases he with he | ⟨-, hnot⟩
          · cases he.symm.trans hauto
          · exact absurd hlast (hnot rest n)
        · cases hdata
      | announcing htokens he hlast => cases hlength
    | @complete data tail hlength hl =>
      cases hline with
      | bare htokens he => cases hlength
      | @announcing text name args rest n htokens he hlast =>
        cases hlength
        obtain ⟨hname, hargs⟩ := isToken_of_tokens hcr htokens
        have htail : (data ++ Bytes.crlf ++ tail).take (data.length + 2) = data ++ Bytes.crlf :=
          List.take_left' List.length_append
        refine ⟨rfl, text, args, htokens, hname, fun arg harg => hargs arg ?_,
          fun hnever => absurd hnever he, fun _ => rfl, fun _ => ⟨fun _ => ⟨rest, _, hlast⟩,
          fun _ => rfl⟩, fun hnone => ?_, fun payload hpayload => ?_⟩
        · obtain ⟨token, rfl, -⟩ := hlast
          exact List.mem_append_left _ harg
        · cases hnone
        · cases hpayload
          exact ⟨hl, hlast, by rw [htail, ← List.append_assoc]⟩

-- After a refused line nothing is held either.
theorem left_of_error {e : FrameError} (h : Finds expect limit bytes (.error e) n left)
    (he : e.fatal = false) : left = .fresh limit := by
  cases h with
  | bareReturn => cases he
  | refused => rfl
  | taken hcr hline hrest =>
    cases hrest with
    | tooLarge => cases he
    | overrun => cases he
    | bareFeed => cases he
    | bareReturn => cases he

end Reader.Finds

namespace Held

/-- A block of the input is where this was found: where a frame stands, or a line that was
refused. -/
def Block (expect : String → Expectation) (limit : Nat) (f : Finding) (block : Bytes) : Prop :=
  ∀ frame, f = .ok frame → ∃ text tokens,
    (Request.ofFrame frame).Framed (expect frame.name) limit block text tokens

-- What is found first, while the stream stays in step, stands in the first block of the bytes.
theorem block_of_feed {expect : String → Expectation} {limit : Nat} {bytes : Bytes} {f : Finding}
    {more : List Finding} (h : ((fresh limit).feed expect bytes).1 = f :: more)
    (hstep : f.fatal = false) :
    ∃ block rest, bytes = block ++ rest ∧ Block expect limit f block ∧
      ((fresh limit).feed expect rest).1 = more := by
  obtain ⟨found, n, left, hfinds⟩ := Reader.Finds.exists_of_bytes expect limit bytes
  have hscan := hfinds.scan_eq
  have hfeed {g : Finding} (hg : Finding.of? found = some g) (hleft : left = fresh limit) :
      f = g ∧ ((fresh limit).feed expect (bytes.drop n)).1 = more := by
    rw [hg, hleft] at hscan
    rw [feed_of_scan_some hscan] at h
    exact ⟨(List.cons.inj h).1.symm, (List.cons.inj h).2⟩
  have hsplit := (List.take_append_drop n bytes).symm
  match found with
  | .ok none =>
    rw [(feed_of_scan_none hscan).1] at h
    cases h
  | .ok (some frame) =>
    obtain ⟨hleft, hframed⟩ := hfinds.framed
    obtain ⟨rfl, hrest⟩ := hfeed rfl hleft
    refine ⟨_, _, hsplit, ?_, hrest⟩
    rintro _ ⟨⟩
    exact hframed
  | .error e =>
    have hfirst : f = .error e := by
      rw [feed_of_scan_some hscan] at h
      exact (List.cons.inj h).1.symm
    subst hfirst
    obtain ⟨-, hrest⟩ := hfeed rfl (hfinds.left_of_error hstep)
    exact ⟨_, _, hsplit, nofun, hrest⟩

-- The blocks of what is found follow each other.
theorem blocks_of_prefix {expect : String → Expectation} {limit : Nat} {findings : List Finding}
    {bytes : Bytes} (hstep : ∀ f ∈ findings, f.fatal = false)
    (h : findings <+: ((fresh limit).feed expect bytes).1) :
    ∃ blocks : List (Bytes × Finding), blocks.map Prod.snd = findings ∧
      (blocks.map Prod.fst).flatten <+: bytes ∧ ∀ b ∈ blocks, Block expect limit b.2 b.1 := by
  induction findings generalizing bytes with
  | nil => exact ⟨[], rfl, List.nil_prefix, nofun⟩
  | cons f findings ih =>
    obtain ⟨hf, hstep⟩ := List.forall_mem_cons.mp hstep
    obtain ⟨more, hmore⟩ := h
    obtain ⟨block, rest, rfl, hblock, hrest⟩ := block_of_feed hmore.symm hf
    have hmore : findings <+: ((fresh limit).feed expect rest).1 := ⟨more, hrest.symm⟩
    obtain ⟨blocks, rfl, hprefix, hblocks⟩ := ih hstep hmore
    exact ⟨(block, f) :: blocks, rfl, (List.prefix_append_right_inj block).mpr hprefix,
      List.forall_mem_cons.mpr ⟨hblock, hblocks⟩⟩

end Held

/-! ## Names -/

namespace Service

/-- Two names that are the same but for the case of ASCII letters. -/
def SameName (a b : String) : Prop :=
  List.Forall₂ (fun c d : Char => c.toLower = d.toLower) a.toList b.toList

theorem foldName_eq_iff (a b : String) : foldName a = foldName b ↔ SameName a b := by
  have hchar (c d : Char) : c.toUpper = d.toUpper ↔ c.toLower = d.toLower := by
    constructor
    · intro h
      rw [← Char.toLower_toUpper_eq_toLower c, h, Char.toLower_toUpper_eq_toLower]
    · intro h
      rw [← Char.toUpper_toLower_eq_toUpper c, h, Char.toUpper_toLower_eq_toUpper]
  rw [foldName, foldName, String.ofList_inj, ← List.forall₂_eq_eq_eq, List.forall₂_map_left_iff,
    List.forall₂_map_right_iff, SameName]
  simp only [hchar]

-- The disconnect command is told by another comparison, which comes to the same.
theorem isDisconnect_iff (svc : Service σ) (name : String) :
    svc.isDisconnect name = true ↔ SameName name svc.disconnectCommand := by
  rw [isDisconnect, eqIgnoringCase, beq_iff_eq, ← List.forall₂_eq_eq_eq, List.forall₂_map_left_iff,
    List.forall₂_map_right_iff, SameName]

theorem responder_eq_disconnect_iff (svc : Service σ) (name : String) :
    svc.responder name = .disconnect ↔ SameName name svc.disconnectCommand := by
  rw [← isDisconnect_iff, responder]
  constructor
  · intro h
    by_contra hname
    rw [if_neg hname] at h
    split at h <;> cases h
  · intro hname
    rw [if_pos hname]

theorem responder_congr (svc : Service σ) {a b : String} (h : SameName a b) :
    svc.responder a = svc.responder b := by
  have hfold := (foldName_eq_iff a b).mpr h
  have hdisconnect : svc.isDisconnect a = svc.isDisconnect b := by
    rw [Bool.eq_iff_iff, isDisconnect_iff, isDisconnect_iff, ← foldName_eq_iff, ← foldName_eq_iff,
      hfold]
  rw [responder, responder, hdisconnect, hfold]

/-- Who answers what was found, and with what request. -/
def call? (svc : Service σ) : Finding → Option (Responder σ × Request)
  | .ok frame => some (svc.responder frame.name, .ofFrame frame)
  | .error _ => none

-- The calls that are noted are those of what was found.
theorem calls_of_notes (svc : Service σ) (ds : List (Deed σ)) :
    (ds.flatMap svc.notes).filterMap Note.call? =
      (ds.filterMap Deed.finding?).filterMap svc.call? := by
  induction ds with
  | nil => rfl
  | cons d ds ih =>
    rw [List.flatMap_cons, List.filterMap_append, ih]
    cases d with
    | called request items => rfl
    | _ => rfl

end Service

namespace Usage

/-- **Framing and dispatch agree.**  Whatever a service offers, and however a connection is given its
input and asked, the input that it takes starts with blocks, in order and with nothing in between:
frames and refused lines.  The handlers that are called, each with its request, are those of the
frames.  The command and the arguments of each request can stand on a line, and its payload is no
longer than allowed and is what the block declares.  What there is of a payload is decided by the
policy of the very registration whose handler is called, which is also the one that the reader was
told for the line; and it does not depend on the letter case of the command. -/
theorem requests_framed (svc : Service σ) (peer : Option Net.SocketAddress) (s : σ)
    (uses : List Use) :
    let x := (start svc peer s).run svc uses
    let y := (start svc.noting peer (s, [])).run svc.noting uses
    (y.shown = x.shown ∧ y.state.1 = x.state) ∧
      (∃ blocks : List (Bytes × Option (Responder σ × Request)),
        (blocks.map Prod.fst).flatten <+: (start svc peer s).intake svc uses ∧
        y.state.2.filterMap Note.call? = blocks.filterMap Prod.snd ∧
        ∀ block responder request, (block, some (responder, request)) ∈ blocks →
          responder = svc.responder request.command ∧
          svc.expectationFor request.command = responder.expectation ∧
          ∃ text tokens, request.Framed responder.expectation svc.maxPayload block text tokens) ∧
      (∀ name, svc.responder name = .disconnect ↔
        Service.SameName name svc.disconnectCommand) ∧
      ∀ name name', Service.SameName name name' → svc.responder name = svc.responder name' := by
  intro x y
  have hy : y = x.noting svc [.told (.opened peer)] := run_start_noting svc peer s uses
  refine ⟨?_, ?_, svc.responder_eq_disconnect_iff, fun _ _ => svc.responder_congr⟩
  · rw [hy]
    exact ⟨shown_noting svc _ x, rfl⟩
  · have haccounts := run_start_accounts svc peer s uses
    obtain ⟨blocks, hfindings, hprefix, hblocks⟩ :=
      Held.blocks_of_prefix haccounts.inStep haccounts.found
    refine ⟨blocks.map fun b => (b.1, svc.call? b.2), ?_, ?_, ?_⟩
    · rw [List.map_map]
      exact hprefix
    · have hnotes : y.state.2.filterMap Note.call? =
          (x.history.filterMap Deed.finding?).filterMap svc.call? := by
        rw [hy]
        exact svc.calls_of_notes x.history
      rw [hnotes, ← hfindings, List.filterMap_map, List.filterMap_map]
      rfl
    · intro block responder request hmem
      obtain ⟨⟨bytes, f⟩, hb, heq⟩ := List.mem_map.mp hmem
      cases f with
      | error e => cases heq
      | ok frame =>
        cases heq
        have hframed := hblocks _ hb frame rfl
        rw [svc.expectationFor_eq_responder] at hframed
        exact ⟨rfl, svc.expectationFor_eq_responder frame.name, hframed⟩

end Usage

end LineFrame
