import LineFrame.Proofs.Wire.Decode
import LineFrame.Proofs.Wire.Feeding
import LineFrame.Proofs.Wire.Tokens

/-!
# What survives the wire

Frames are encoded one after the other and given to a reader.  `decodes_iff_transmissible` says
exactly which frames it gives back: those whose tokens can stand on a line, and whose payload, or
lack of one, is what the reader takes the end of the line to announce (`Frame.Transmissible`).
-/

namespace LineFrame

namespace Numeral

/-- A numeral of a 64 bit word: digits, after one plus sign at most. -/
def IsLength (token : String) : Prop :=
  ∃ digits : List Char, (token.toList = digits ∨ token.toList = '+' :: digits) ∧
    digits ≠ [] ∧ (∀ c ∈ digits, c.isDigit) ∧ Nat.ofDigitChars 10 digits 0 < UInt64.size

/-- A numeral of a 64 bit word, and its value: digits, after one plus sign at most. -/
def Denotes (token : String) (n : Nat) : Prop :=
  ∃ digits : List Char, (token.toList = digits ∨ token.toList = '+' :: digits) ∧
    digits ≠ [] ∧ (∀ c ∈ digits, c.isDigit) ∧ Nat.ofDigitChars 10 digits 0 = n ∧ n < UInt64.size

theorem unsigned_digits {cs : List Char} (h : ∀ c ∈ cs, c.isDigit) : unsigned cs = cs := by
  unfold unsigned
  split
  · exact absurd (h '+' List.mem_cons_self) (by decide)
  · rfl

theorem unsigned_cases (cs : List Char) : cs = unsigned cs ∨ cs = '+' :: unsigned cs := by
  unfold unsigned
  split
  · exact .inr rfl
  · exact .inl rfl

theorem digits?_eq_some_iff (cs : List Char) (n : Nat) :
    digits? cs = some n ↔
      cs ≠ [] ∧ (∀ c ∈ cs, c.isDigit) ∧ Nat.ofDigitChars 10 cs 0 = n ∧ n < UInt64.size := by
  rw [digits?_eq, ← List.all_eq_true]
  split
  · next h =>
    rw [Option.some.injEq]
    constructor
    · rintro rfl
      exact ⟨h.1, h.2.1, rfl, h.2.2⟩
    · rintro ⟨-, -, hn, -⟩
      exact hn
  · next h =>
    constructor
    · nofun
    · rintro ⟨hne, hdigit, rfl, hbound⟩
      exact absurd ⟨hne, hdigit, hbound⟩ h

theorem read?_eq_some_iff (token : String) (n : Nat) : read? token = some n ↔ Denotes token n := by
  rw [read?, digits?_eq_some_iff]
  constructor
  · intro h
    exact ⟨unsigned token.toList, unsigned_cases _, h⟩
  · rintro ⟨digits, hsign, h⟩
    have hunsigned : unsigned token.toList = digits := by
      rcases hsign with hplain | hplus
      · rw [hplain, unsigned_digits h.2.1]
      · rw [hplus]
        rfl
    rwa [hunsigned]

theorem isSome_read?_iff (token : String) : (read? token).isSome ↔ IsLength token := by
  rw [Option.isSome_iff_exists]
  constructor
  · rintro ⟨n, hread⟩
    obtain ⟨digits, hsign, hne, hdigit, rfl, hbound⟩ := (read?_eq_some_iff token n).mp hread
    exact ⟨digits, hsign, hne, hdigit, hbound⟩
  · rintro ⟨digits, hsign, hne, hdigit, hbound⟩
    exact ⟨_, (read?_eq_some_iff token _).mpr ⟨digits, hsign, hne, hdigit, rfl, hbound⟩⟩

theorem read?_write_eq (n : Nat) : read? (write n) = if n < bound then some n else none := by
  split
  · next h => exact read?_write h
  · next h =>
    have hvalue : Nat.ofDigitChars 10 (Nat.toDigits 10 n) 0 = n := Nat.ofDigitChars_ten_toDigits
    rw [read?, write, Nat.repr_eq_ofList_toDigits, String.toList_ofList, unsigned_toDigits,
      digits?_eq, hvalue]
    exact if_neg fun hall => h hall.2.2

theorem isToken_write (n : Nat) : CommandLine.IsToken (write n) := by
  have hdigit : ∀ c ∈ Nat.toDigits 10 n, c.isDigit := fun c hc =>
    Nat.isDigit_of_mem_toDigits (by decide) (by decide) hc
  have hne : Nat.toDigits 10 n ≠ [] := Nat.toDigits_ne_nil
  rw [CommandLine.IsToken, write, Nat.repr_eq_ofList_toDigits, String.toList_ofList]
  refine ⟨fun h => hne (String.ofList_eq_empty_iff.mp h), fun h => ?_, fun h => ?_⟩
  · exact absurd (hdigit _ h) (by decide)
  · exact absurd (hdigit _ h) (by decide)

end Numeral

namespace Expectation

theorem splitLength_eq_none_iff (args : List String) :
    splitLength args = none ↔
      ∀ arg, args.getLast? = some arg → ¬ Numeral.IsLength arg := by
  rw [splitLength]
  cases hlast : args.getLast? with
  | none => exact iff_of_true rfl nofun
  | some arg =>
    simp only [Option.bind_some, Option.some.injEq, forall_eq', ← Numeral.isSome_read?_iff]
    cases Numeral.read? arg with
    | none => exact iff_of_true rfl nofun
    | some n => exact iff_of_false nofun fun h => h rfl

theorem splitLength_append_write (args : List String) (n : Nat) :
    splitLength (args ++ [Numeral.write n]) =
      if n < Numeral.bound then some (args, n) else none := by
  by_cases hn : n < Numeral.bound
  · simp [splitLength, Numeral.read?_write_eq, hn]
  · simp [splitLength, Numeral.read?_write_eq, hn]

-- What a line is taken for: all of its tokens, or all but a length at its end.
theorem resolve_eq_ok_iff {e : Expectation} {name : String} {args : List String}
    {line : CommandLine} :
    e.resolve (name :: args) = .ok line ↔
      (line = ⟨name, args, none⟩ ∧ (e = .never ∨ e = .auto ∧ splitLength args = none)) ∨
        ∃ rest n, line = ⟨name, rest, some n⟩ ∧ (e = .auto ∨ e = .always) ∧
          splitLength args = some (rest, n) := by
  cases hsplit : splitLength args with
  | none => cases e <;> simp [resolve, hsplit, eq_comm]
  | some split => cases e <;> simp [resolve, hsplit, eq_comm, Prod.ext_iff]

-- A command line is made of the tokens of its line.
theorem mem_of_resolve {e : Expectation} {tokens : List String} {line : CommandLine}
    (h : e.resolve tokens = .ok line) :
    line.name ∈ tokens ∧ ∀ arg ∈ line.args, arg ∈ tokens := by
  cases tokens with
  | nil => cases h
  | cons name args =>
    have hargs : ∀ arg ∈ args, arg ∈ name :: args := fun arg harg => List.mem_cons_of_mem name harg
    rcases resolve_eq_ok_iff.mp h with ⟨rfl, -⟩ | ⟨rest, n, rfl, -, hsplit⟩
    · exact ⟨List.mem_cons_self, hargs⟩
    · refine ⟨List.mem_cons_self, fun arg harg => hargs arg ?_⟩
      rw [splitLength] at hsplit
      split at hsplit
      · cases hsplit
        exact (List.dropLast_sublist args).subset harg
      · cases hsplit

end Expectation

namespace Finding

-- A line of tokens is read back, whatever follows it.
theorem decode_line (expect : String → Expectation) (limit : Nat) {tokens : List String}
    (h : ∀ t ∈ tokens, CommandLine.IsToken t) (rest : Bytes) :
    decode expect limit (Text.encode (" ".intercalate tokens) ++ Bytes.crlf ++ rest) =
      match (Reader.expectationOf expect tokens).resolve tokens with
      | .error e => some (.error e, rest)
      | .ok line => decodeBody limit line rest := by
  have hcr : ∀ b ∈ Text.encode (" ".intercalate tokens), decide (b ≠ Bytes.cr) = true := by
    intro b hb
    have hne : b ≠ Bytes.cr := by
      rintro rfl
      exact CommandLine.cr_not_mem_encode h hb
    simpa using hne
  have hdrop : (Text.encode (" ".intercalate tokens) ++ (Bytes.crlf ++ rest)).dropWhile
      (· ≠ Bytes.cr) = Bytes.cr :: Bytes.lf :: rest := by
    rw [List.dropWhile_append_of_pos hcr]
    rfl
  have htake : (Text.encode (" ".intercalate tokens) ++ (Bytes.crlf ++ rest)).takeWhile
      (· ≠ Bytes.cr) = Text.encode (" ".intercalate tokens) := by
    rw [List.takeWhile_append_of_pos hcr]
    exact List.append_nil _
  have hparse : CommandLine.parse expect (Text.encode (" ".intercalate tokens)) =
      (Reader.expectationOf expect tokens).resolve tokens := by
    unfold CommandLine.parse
    rw [CommandLine.tokenize_encode h]
  rw [decode, List.append_assoc, hdrop, htake, hparse]
  exact if_pos rfl

-- A frame that follows its line has the payload that the line announces.
theorem eq_of_decodeBody {limit : Nat} {line : CommandLine} {bs rest : Bytes} {f : Frame}
    (h : decodeBody limit line bs = some (.ok f, rest)) :
    f = ⟨line.name, line.args, line.length.map (bs.take ·)⟩ ∧
      ∀ n, line.length = some n → n ≤ limit := by
  rw [decodeBody] at h
  split at h
  · next hlen =>
    cases h
    rw [hlen]
    exact ⟨rfl, nofun⟩
  · next n hlen =>
    split at h
    · cases h
    · next hlim =>
      rw [hlen]
      refine ⟨?_, fun m hm => ?_⟩
      · generalize bs.drop n = tail at h
        unfold decodeTrailer at h
        split at h
        · cases h
        · split at h
          · split at h
            · cases h
            · split at h
              · cases h
                rfl
              · cases h
          · split at h <;> cases h
      · cases hm
        omega

-- The tokens of a decoded frame can stand on a line.
theorem isToken_of_decode {expect : String → Expectation} {limit : Nat} {bs rest : Bytes}
    {f : Frame} (h : decode expect limit bs = some (.ok f, rest)) :
    CommandLine.IsToken f.name ∧ ∀ arg ∈ f.args, CommandLine.IsToken arg := by
  rw [decode] at h
  split at h
  · cases h
  · cases h
  · split at h
    · rw [CommandLine.parse] at h
      cases htok : CommandLine.tokenize (bs.takeWhile (· ≠ Bytes.cr)) with
      | error e => rw [htok] at h; cases h
      | ok tokens =>
        have hcr : Bytes.cr ∉ bs.takeWhile (· ≠ Bytes.cr) := fun hmem => by
          simpa using List.all_eq_true.mp List.all_takeWhile _ hmem
        have hall := CommandLine.isToken_of_tokenize htok hcr
        rw [htok] at h
        dsimp only at h
        cases hres : (Reader.expectationOf expect tokens).resolve tokens with
        | error e => rw [hres] at h; cases h
        | ok line =>
          rw [hres] at h
          obtain ⟨hline, hrest⟩ := Expectation.mem_of_resolve hres
          rw [(eq_of_decodeBody h).1]
          exact ⟨hall _ hline, fun arg harg => hall arg (hrest arg harg)⟩
    · cases h

end Finding

namespace Frame

/-- What comes back from the wire as it was sent, where commands expect what `expect` says and
payloads may have up to `limit` bytes. -/
def Transmissible (expect : String → Expectation) (limit : Nat) (f : Frame) : Prop :=
  (CommandLine.IsToken f.name ∧ ∀ arg ∈ f.args, CommandLine.IsToken arg) ∧
    match f.payload with
    | some data =>
      (expect f.name = .auto ∨ expect f.name = .always) ∧ data.length ≤ limit
    | none =>
      expect f.name = .never ∨
        expect f.name = .auto ∧ ∀ arg, f.args.getLast? = some arg → ¬ Numeral.IsLength arg

theorem tokens_of_none {f : Frame} (h : f.payload = none) : f.tokens = f.name :: f.args := by
  rw [tokens, h]
  exact List.append_nil _

theorem tokens_of_some {f : Frame} {data : Bytes} (h : f.payload = some data) :
    f.tokens = f.name :: (f.args ++ [Numeral.write data.length]) := by
  rw [tokens, h]
  rfl

theorem isToken_of_mem_tokens {f : Frame}
    (h : CommandLine.IsToken f.name ∧ ∀ arg ∈ f.args, CommandLine.IsToken arg) :
    ∀ t ∈ f.tokens, CommandLine.IsToken t := by
  intro t ht
  rw [tokens, List.mem_append, List.mem_cons] at ht
  rcases ht with (rfl | ht) | ht
  · exact h.1
  · exact h.2 t ht
  · obtain ⟨data, -, rfl⟩ := Option.map_eq_some_iff.mp (Option.mem_toList.mp ht)
    exact Numeral.isToken_write _

-- What a frame of tokens is read back as depends on what its command expects of its tokens.
theorem decode_encode_eq (expect : String → Expectation) (limit : Nat) {f : Frame}
    (h : CommandLine.IsToken f.name ∧ ∀ arg ∈ f.args, CommandLine.IsToken arg) (rest : Bytes) :
    Finding.decode expect limit (f.encode ++ rest) =
      match (expect f.name).resolve f.tokens with
      | .error e => some (.error e, f.body ++ rest)
      | .ok line => Finding.decodeBody limit line (f.body ++ rest) := by
  rw [encode, List.append_assoc]
  exact Finding.decode_line expect limit (isToken_of_mem_tokens h) (f.body ++ rest)

-- A transmissible frame is read back from its bytes.
theorem decode_encode {expect : String → Expectation} {limit : Nat} (hl : limit < Numeral.bound)
    {f : Frame} (h : f.Transmissible expect limit) (rest : Bytes) :
    Finding.decode expect limit (f.encode ++ rest) = some (.ok f, rest) := by
  obtain ⟨htokens, hpayload⟩ := h
  rw [decode_encode_eq expect limit htokens]
  cases hp : f.payload with
  | none =>
    rw [hp] at hpayload
    have hresolve : (expect f.name).resolve f.tokens = .ok ⟨f.name, f.args, none⟩ := by
      rw [tokens_of_none hp, Expectation.resolve_eq_ok_iff, Expectation.splitLength_eq_none_iff]
      exact .inl ⟨rfl, hpayload⟩
    rw [hresolve, body, hp]
    show some (Except.ok (Frame.mk f.name f.args none), rest) = _
    rw [← hp]
  | some data =>
    rw [hp] at hpayload
    obtain ⟨hexpect, hlen⟩ := hpayload
    have hresolve : (expect f.name).resolve f.tokens = .ok ⟨f.name, f.args, some data.length⟩ := by
      rw [tokens_of_some hp, Expectation.resolve_eq_ok_iff, Expectation.splitLength_append_write,
        if_pos (by omega)]
      exact .inr ⟨f.args, data.length, rfl, hexpect, rfl⟩
    have hbody : f.body ++ rest = data ++ (Bytes.crlf ++ rest) := by
      rw [body, hp]
      exact List.append_assoc _ _ _
    rw [hresolve, hbody]
    show Finding.decodeBody limit ⟨f.name, f.args, some data.length⟩ _ = _
    rw [Finding.decodeBody]
    dsimp only
    rw [if_neg (by omega), List.take_left, List.drop_left, ← hp]
    rfl

-- Only a transmissible frame is read back as it was.
theorem transmissible_of_decode {expect : String → Expectation} {limit : Nat}
    {f : Frame} {rest more : Bytes}
    (h : Finding.decode expect limit (f.encode ++ rest) = some (.ok f, more)) :
    f.Transmissible expect limit := by
  have htokens := Finding.isToken_of_decode h
  refine ⟨htokens, ?_⟩
  rw [decode_encode_eq expect limit htokens] at h
  cases hres : (expect f.name).resolve f.tokens with
  | error e => rw [hres] at h; cases h
  | ok line =>
    rw [hres] at h
    obtain ⟨hframe, hlimit⟩ := Finding.eq_of_decodeBody h
    have hpayload : f.payload = line.length.map ((f.body ++ rest).take ·) :=
      congrArg Frame.payload hframe
    cases hp : f.payload with
    | none =>
      rw [hp] at hpayload
      rw [tokens_of_none hp] at hres
      rcases Expectation.resolve_eq_ok_iff.mp hres with ⟨rfl, hexpect⟩ | ⟨args, n, rfl, -, -⟩
      · rw [Expectation.splitLength_eq_none_iff] at hexpect
        exact hexpect
      · cases hpayload
    | some data =>
      rw [hp] at hpayload
      rw [tokens_of_some hp] at hres
      rcases Expectation.resolve_eq_ok_iff.mp hres with ⟨rfl, -⟩ | ⟨args, n, rfl, hexpect, hsplit⟩
      · cases hpayload
      · -- the announced length is the one that was written at the end of the line
        rw [Expectation.splitLength_append_write] at hsplit
        split at hsplit
        · cases hsplit
          exact ⟨hexpect, hlimit _ rfl⟩
        · cases hsplit

theorem encodeAll_cons (f : Frame) (frames : List Frame) :
    encodeAll (f :: frames) = f.encode ++ encodeAll frames := List.flatMap_cons

-- Feeding goes on afresh after a frame that is read back.
theorem feed_encodeAll_cons {expect : String → Expectation} {limit : Nat}
    (hl : limit < Numeral.bound) {f : Frame} (hf : f.Transmissible expect limit)
    (frames : List Frame) :
    (Held.fresh limit).feed expect (encodeAll (f :: frames)) =
      (.ok f :: ((Held.fresh limit).feed expect (encodeAll frames)).1,
        ((Held.fresh limit).feed expect (encodeAll frames)).2) := by
  obtain ⟨g, hfeed, hg⟩ := Held.feed_of_decode_some (decode_encode hl hf (encodeAll frames))
  rw [encodeAll_cons, hfeed, hg rfl]

-- Transmissible frames are found one after the other, and nothing is held after them.
theorem feed_encodeAll {expect : String → Expectation} {limit : Nat} (hl : limit < Numeral.bound)
    {frames : List Frame} (h : ∀ f ∈ frames, f.Transmissible expect limit) :
    (Held.fresh limit).feed expect (encodeAll frames) = (frames.map .ok, .fresh limit) := by
  induction frames with
  | nil => rfl
  | cons f frames ih =>
    obtain ⟨hf, hframes⟩ := List.forall_mem_cons.mp h
    rw [feed_encodeAll_cons hl hf, ih hframes]
    rfl

-- Only transmissible frames are found in their bytes.
theorem transmissible_of_feed {expect : String → Expectation} {limit : Nat}
    (hl : limit < Numeral.bound) {frames : List Frame}
    (h : ((Held.fresh limit).feed expect (encodeAll frames)).1 = frames.map .ok) :
    ∀ f ∈ frames, f.Transmissible expect limit := by
  induction frames with
  | nil => nofun
  | cons f frames ih =>
    have hf : f.Transmissible expect limit := by
      rw [encodeAll_cons] at h
      cases hd : Finding.decode expect limit (f.encode ++ encodeAll frames) with
      | none =>
        rw [Held.feed_of_decode_none hd] at h
        cases h
      | some first =>
        obtain ⟨found, more⟩ := first
        obtain ⟨g, hfeed, -⟩ := Held.feed_of_decode_some hd
        rw [hfeed] at h
        have hfound : found = .ok f := (List.cons.inj h).1
        rw [hfound] at hd
        exact transmissible_of_decode hd
    rw [feed_encodeAll_cons hl hf] at h
    exact List.forall_mem_cons.mpr ⟨hf, ih (List.cons.inj h).2⟩

end Frame

theorem Reader.idle_of_fresh {r : Reader} {limit : Nat} (hheld : r.held = .fresh limit)
    (hunread : r.unread = []) : r.idle = true := by
  rw [held, Held.fresh, Held.mk.injEq] at hheld
  obtain ⟨-, hline, hcr, hphase, -⟩ := hheld
  rw [idle, hasUnread, hline, hcr, hphase, hunread]
  rfl

namespace Feeding

/-- **The frames that survive the wire.**  A reader that is given the bytes of some frames, in
whatever pieces and with a buffer of whatever size, finds exactly these frames and is idle after
them, if and only if each of them is transmissible.  The limit is a number of 64 bits, as lengths
are. -/
theorem decodes_iff_transmissible (expect : String → Expectation) {limit : Nat}
    (hl : limit < Numeral.bound) (frames : List Frame) {capacity : Nat} {moves : List Move}
    (h : ((start capacity limit (Frame.encodeAll frames)).run expect moves).left = []) :
    let last := ((start capacity limit (Frame.encodeAll frames)).run expect moves).finish expect
    (last.found = frames.map .ok ∧ last.reader.idle = true) ↔
      ∀ f ∈ frames, f.Transmissible expect limit := by
  intro last
  have hlast : (last.found, last.reader.held) =
      (Held.fresh limit).feed expect (Frame.encodeAll frames) := finish_run h
  constructor
  · rintro ⟨hfound, -⟩
    apply Frame.transmissible_of_feed hl
    rw [← hlast, hfound]
  · intro hframes
    rw [Frame.feed_encodeAll hl hframes] at hlast
    obtain ⟨hfound, hheld⟩ := Prod.mk.inj hlast
    have hsound := run_sound expect (start_sound capacity limit (Frame.encodeAll frames)) moves
    have hunread : last.reader.unread = [] := (Reader.exhaust_eq_feed expect hsound).2.2
    exact ⟨hfound, Reader.idle_of_fresh hheld hunread⟩

-- A payload that is itself a line, and an argument that is no numeral, where nothing is expected
-- of commands but what their line says.
theorem decodes_iff_transmissible_of_auto :
    let expect : String → Expectation := fun _ => .auto
    let frames : List Frame := [⟨"PUT", ["k"], some Bytes.crlf⟩, ⟨"GET", ["k", "+"], none⟩]
    let moves : List Move := List.replicate 40 (.offer 1) ++ [.ask, .offer 9]
    let last := ((start 32 8 (Frame.encodeAll frames)).run expect moves).finish expect
    (8 < Numeral.bound ∧ ((start 32 8 (Frame.encodeAll frames)).run expect moves).left = []) ∧
      ((last.found = frames.map .ok ∧ last.reader.idle = true) ↔
        ∀ f ∈ frames, f.Transmissible expect 8) :=
  ⟨⟨by decide, by decide +kernel⟩,
    decodes_iff_transmissible _ (by decide) _ (by decide +kernel)⟩

end Feeding

end LineFrame
