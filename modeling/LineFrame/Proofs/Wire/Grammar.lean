import Mathlib
import LineFrame.Proofs.Wire.RoundTrip

/-!
# The grammar of frames

What a reader at the start of a line finds in the bytes that it holds, said without the reader
(`Reader.Finds`): one case for each outcome, with how many bytes it takes and what is held after it.
`finds_iff_nextFrame` says that a call finds just that.

Tokens are said by splitting at blanks (`Text.tokens`), lengths by the value of their digits
(`Numeral.Denotes`), and lines by what their command expects (`CommandLine.Reads`).
-/

namespace LineFrame

/-! ## Lines -/

namespace Text

/-- What stands between blanks, where that is not empty. -/
def pieces (cs : List Char) : List (List Char) := (cs.splitOn ' ').filter (· ≠ [])

/-- The tokens of a text. -/
def tokens (text : String) : List String := (pieces text.toList).map String.ofList

theorem pieces_cons_blank (cs : List Char) : pieces (' ' :: cs) = pieces cs := by
  have hsplit : (' ' :: cs).splitOn ' ' = [] :: cs.splitOn ' ' :=
    List.splitOn_append_cons_self_of_not_mem List.not_mem_nil cs
  rw [pieces, hsplit, List.filter_cons_of_neg (by simp), pieces]

theorem pieces_dropWhile (cs : List Char) : pieces (cs.dropWhile (· = ' ')) = pieces cs := by
  induction cs with
  | nil => rfl
  | cons c cs ih =>
    by_cases hc : c = ' '
    · subst hc
      rw [List.dropWhile_cons_of_pos (by decide), ih, pieces_cons_blank]
    · rw [List.dropWhile_cons_of_neg (by simpa using hc)]

-- The first piece of what starts with one.
theorem pieces_append {w rest : List Char} (hw : w ≠ []) (hb : ' ' ∉ w)
    (hr : rest = [] ∨ ∃ more, rest = ' ' :: more) : pieces (w ++ rest) = w :: pieces rest := by
  rcases hr with rfl | ⟨more, rfl⟩
  · rw [List.append_nil, pieces, List.splitOn_eq_singleton hb,
      List.filter_cons_of_pos (by simpa using hw)]
    rfl
  · rw [pieces, List.splitOn_append_cons_self_of_not_mem hb,
      List.filter_cons_of_pos (by simpa using hw), pieces_cons_blank, pieces]

end Text

namespace CommandLine

/-- The last argument is the numeral of a length. -/
def Announces (args rest : List String) (n : Nat) : Prop :=
  ∃ token, args = rest ++ [token] ∧ Numeral.Denotes token n

/-- What a line is read as, given what commands expect after it. -/
inductive Reads (expect : String → Expectation) : Bytes → Except FrameError CommandLine → Prop
  | garbled {line : Bytes} (h : ∀ text, line ≠ Text.encode text) :
      Reads expect line (.error .invalidUtf8)
  | blank {text : String} (h : Text.tokens text = []) :
      Reads expect (Text.encode text) (.error .emptyCommand)
  | unannounced {text name : String} {args : List String} (h : Text.tokens text = name :: args)
      (he : expect name = .always) (hlast : ∀ rest n, ¬ Announces args rest n) :
      Reads expect (Text.encode text)
        (.error (.invalidCommand s!"{name} requires a trailing data length"))
  | bare {text name : String} {args : List String} (h : Text.tokens text = name :: args)
      (he : expect name = .never ∨
        expect name = .auto ∧ ∀ rest n, ¬ Announces args rest n) :
      Reads expect (Text.encode text) (.ok ⟨name, args, none⟩)
  | announcing {text name : String} {args rest : List String} {n : Nat}
      (h : Text.tokens text = name :: args) (he : expect name ≠ .never)
      (hlast : Announces args rest n) :
      Reads expect (Text.encode text) (.ok ⟨name, rest, some n⟩)

theorem words_eq_pieces (cs : List Char) : words cs = Text.pieces cs := by
  fun_induction words cs with
  | case1 cs h =>
    rw [← Text.pieces_dropWhile, h]
    rfl
  | case2 cs c rest h ih =>
    have hc : c ≠ ' ' := by
      have hhead := List.head?_dropWhile_not (· = ' ') cs
      rw [h] at hhead
      simpa using hhead
    have hb : ' ' ∉ c :: rest.takeWhile (· ≠ ' ') := by
      rintro hmem
      rcases List.mem_cons.mp hmem with heq | hmem
      · exact hc heq.symm
      · simpa using List.all_eq_true.mp List.all_takeWhile _ hmem
    have hstop : rest.dropWhile (· ≠ ' ') = [] ∨
        ∃ more, rest.dropWhile (· ≠ ' ') = ' ' :: more := by
      have hhead := List.head?_dropWhile_not (· ≠ ' ') rest
      cases hdrop : rest.dropWhile (· ≠ ' ') with
      | nil => exact .inl rfl
      | cons d more =>
        rw [hdrop] at hhead
        exact .inr ⟨more, by rw [show d = ' ' by simpa using hhead]⟩
    rw [ih, ← Text.pieces_append (List.cons_ne_nil _ _) hb hstop, List.cons_append,
      List.takeWhile_append_dropWhile, ← h, Text.pieces_dropWhile]

theorem tokenize_encode_eq (text : String) :
    tokenize (Text.encode text) = .ok (Text.tokens text) := by
  rw [tokenize, Text.decode?_encode]
  dsimp only
  rw [words_eq_pieces]
  rfl

theorem splitLength_eq_some_iff (args rest : List String) (n : Nat) :
    Expectation.splitLength args = some (rest, n) ↔ Announces args rest n := by
  rw [Expectation.splitLength]
  constructor
  · intro h
    split at h
    · next m hm =>
      obtain ⟨token, hlast, hread⟩ := Option.bind_eq_some_iff.mp hm
      obtain ⟨init, rfl⟩ := List.getLast?_eq_some_iff.mp hlast
      rw [List.dropLast_concat] at h
      cases h
      exact ⟨token, rfl, (Numeral.read?_eq_some_iff _ _).mp hread⟩
    · cases h
  · rintro ⟨token, rfl, hdenotes⟩
    rw [List.getLast?_concat, Option.bind_some, (Numeral.read?_eq_some_iff _ _).mpr hdenotes,
      List.dropLast_concat]

theorem splitLength_eq_none_iff_not_announces (args : List String) :
    Expectation.splitLength args = none ↔ ∀ rest n, ¬ Announces args rest n := by
  rw [Option.eq_none_iff_forall_ne_some]
  constructor
  · intro h rest n hlast
    exact h _ ((splitLength_eq_some_iff args rest n).mpr hlast)
  · rintro h ⟨rest, n⟩ hsplit
    exact h rest n ((splitLength_eq_some_iff args rest n).mp hsplit)

theorem parse_of_reads {expect : String → Expectation} {line : Bytes}
    {found : Except FrameError CommandLine} (h : Reads expect line found) :
    parse expect line = found := by
  cases h with
  | garbled h =>
    have hdecode : Text.decode? line = none := by
      rw [Option.eq_none_iff_forall_ne_some]
      intro text htext
      exact h text (Text.decode?_eq_some_iff.mp htext)
    rw [parse, tokenize, hdecode]
  | blank h =>
    rw [parse, tokenize_encode_eq, h]
    rfl
  | unannounced h he hlast =>
    rw [← splitLength_eq_none_iff_not_announces] at hlast
    rw [parse, tokenize_encode_eq, h]
    simp only [Reader.expectationOf, Expectation.resolve, he, hlast]
  | bare h he =>
    rw [parse, tokenize_encode_eq, h]
    refine Expectation.resolve_eq_ok_iff.mpr (.inl ⟨rfl, ?_⟩)
    rw [splitLength_eq_none_iff_not_announces]
    exact he
  | @announcing text name _ _ _ h he hlast =>
    rw [parse, tokenize_encode_eq, h]
    refine Expectation.resolve_eq_ok_iff.mpr
      (.inr ⟨_, _, rfl, ?_, (splitLength_eq_some_iff _ _ _).mpr hlast⟩)
    rw [Reader.expectationOf]
    cases hexpect : expect name with
    | auto => exact .inl rfl
    | always => exact .inr rfl
    | never => exact absurd hexpect he

theorem exists_reads (expect : String → Expectation) (line : Bytes) :
    ∃ found, Reads expect line found := by
  by_cases htext : ∃ text, line = Text.encode text
  · obtain ⟨text, rfl⟩ := htext
    cases htokens : Text.tokens text with
    | nil => exact ⟨_, .blank htokens⟩
    | cons name args =>
      by_cases hlast : ∃ rest n, Announces args rest n
      · obtain ⟨rest, n, hlast⟩ := hlast
        by_cases he : expect name = .never
        · exact ⟨_, .bare htokens (.inl he)⟩
        · exact ⟨_, .announcing htokens he hlast⟩
      · have hlast : ∀ rest n, ¬ Announces args rest n := fun rest n h => hlast ⟨rest, n, h⟩
        cases he : expect name with
        | auto => exact ⟨_, .bare htokens (.inr ⟨he, hlast⟩)⟩
        | always => exact ⟨_, .unannounced htokens he hlast⟩
        | never => exact ⟨_, .bare htokens (.inl he)⟩
  · exact ⟨_, .garbled fun text h => htext ⟨text, h⟩⟩

/-- A line is read as what its tokens and its command's expectation say, and as nothing else. -/
theorem reads_iff (expect : String → Expectation) (line : Bytes)
    (found : Except FrameError CommandLine) :
    Reads expect line found ↔ parse expect line = found := by
  refine ⟨parse_of_reads, ?_⟩
  rintro rfl
  obtain ⟨found, hreads⟩ := exists_reads expect line
  rw [parse_of_reads hreads]
  exact hreads

/-! ## Payloads -/

/-- What is found in the bytes after a line, how many of them are taken for that, and what is held
then. -/
inductive Opens (limit : Nat) (line : CommandLine) :
    Bytes → Except FrameError (Option Frame) → Nat → Held → Prop
  | bare {rest : Bytes} (h : line.length = none) :
      Opens limit line rest (.ok (some ⟨line.name, line.args, none⟩)) 0 (.fresh limit)
  | tooLarge {rest : Bytes} {n : Nat} (h : line.length = some n) (hl : limit < n) :
      Opens limit line rest (.error (.payloadTooLarge n limit)) 0 (.fresh limit)
  | short {part : Bytes} {n : Nat} (h : line.length = some n) (hl : n ≤ limit)
      (hpart : part.length < n) :
      Opens limit line part (.ok none) part.length
        ⟨limit, [], false, .payload n (n - part.length), some line, part.reverse⟩
  | unended {data : Bytes} (h : line.length = some data.length) (hl : data.length ≤ limit) :
      Opens limit line data (.ok none) data.length
        ⟨limit, [], false, .trailer data.length, some line, data.reverse⟩
  | ending {data : Bytes} (h : line.length = some data.length) (hl : data.length ≤ limit) :
      Opens limit line (data ++ [Bytes.cr]) (.ok none) (data.length + 1)
        ⟨limit, [], true, .trailer data.length, some line, data.reverse⟩
  | complete {data rest : Bytes} (h : line.length = some data.length) (hl : data.length ≤ limit) :
      Opens limit line (data ++ Bytes.crlf ++ rest)
        (.ok (some ⟨line.name, line.args, some data⟩)) (data.length + 2) (.fresh limit)
  | overrun {data rest : Bytes} {b : UInt8} (h : line.length = some data.length)
      (hl : data.length ≤ limit) (hcr : b ≠ Bytes.cr) (hlf : b ≠ Bytes.lf) :
      Opens limit line (data ++ b :: rest) (.error (.payloadOverrun data.length)) (data.length + 1)
        ⟨limit, [], false, .trailer data.length, some line, data.reverse⟩
  | bareFeed {data rest : Bytes} (h : line.length = some data.length) (hl : data.length ≤ limit) :
      Opens limit line (data ++ Bytes.lf :: rest) (.error .dataTerminatorMissing) (data.length + 1)
        ⟨limit, [], false, .trailer data.length, some line, data.reverse⟩
  | bareReturn {data rest : Bytes} {b : UInt8} (h : line.length = some data.length)
      (hl : data.length ≤ limit) (hlf : b ≠ Bytes.lf) :
      Opens limit line (data ++ Bytes.cr :: b :: rest) (.error .dataTerminatorMissing)
        (data.length + 2)
        ⟨limit, [], false, .trailer data.length, some line, data.reverse⟩

end CommandLine

namespace Reader

/-- **The grammar of frames.**  What a reader at the start of a line finds in the bytes that it has
(a frame, an error, or nothing if the bytes end before either), how many of them it takes for that,
and what it holds then. -/
inductive Finds (expect : String → Expectation) (limit : Nat) :
    Bytes → Except FrameError (Option Frame) → Nat → Held → Prop
  | unended {line : Bytes} (hcr : Bytes.cr ∉ line) :
      Finds expect limit line (.ok none) line.length
        { Held.fresh limit with line := line.reverse }
  | ending {line : Bytes} (hcr : Bytes.cr ∉ line) :
      Finds expect limit (line ++ [Bytes.cr]) (.ok none) (line.length + 1)
        { Held.fresh limit with line := line.reverse, pendingCr := true }
  | bareReturn {line rest : Bytes} {b : UInt8} (hcr : Bytes.cr ∉ line) (hlf : b ≠ Bytes.lf) :
      Finds expect limit (line ++ Bytes.cr :: b :: rest) (.error .incompleteCommandTerminator)
        (line.length + 2) { Held.fresh limit with line := line.reverse }
  | refused {line rest : Bytes} {e : FrameError} (hcr : Bytes.cr ∉ line)
      (hline : CommandLine.Reads expect line (.error e)) :
      Finds expect limit (line ++ Bytes.crlf ++ rest) (.error e) (line.length + 2) (.fresh limit)
  | taken {line rest : Bytes} {command : CommandLine} {found : Except FrameError (Option Frame)}
      {n : Nat} {left : Held} (hcr : Bytes.cr ∉ line)
      (hline : CommandLine.Reads expect line (.ok command))
      (hrest : command.Opens limit rest found n left) :
      Finds expect limit (line ++ Bytes.crlf ++ rest) found (line.length + 2 + n) left

end Reader

namespace CommandLine.Opens

variable {limit : Nat} {line : CommandLine}

theorem taken_le {rest : Bytes} {found : Except FrameError (Option Frame)} {n : Nat} {left : Held}
    (h : line.Opens limit rest found n left) : n ≤ rest.length := by
  cases h <;> simp [Bytes.crlf]

/-- There is something to find in whatever follows a line. -/
theorem exists_of_bytes (limit : Nat) (line : CommandLine) (rest : Bytes) :
    ∃ found n left, line.Opens limit rest found n left := by
  cases hlength : line.length with
  | none => exact ⟨_, _, _, .bare hlength⟩
  | some n =>
    by_cases hlimit : limit < n
    · exact ⟨_, _, _, .tooLarge hlength hlimit⟩
    · rw [Nat.not_lt] at hlimit
      by_cases hshort : rest.length < n
      · exact ⟨_, _, _, .short hlength hlimit hshort⟩
      · -- the payload is all there: what matters is the byte after it, and perhaps one more
        obtain ⟨data, tail, rfl, rfl⟩ : ∃ data tail, rest = data ++ tail ∧ data.length = n :=
          ⟨rest.take n, rest.drop n, (List.take_append_drop n rest).symm, by
            rw [List.length_take]; omega⟩
        cases tail with
        | nil =>
          rw [List.append_nil]
          exact ⟨_, _, _, .unended hlength hlimit⟩
        | cons b tail =>
          by_cases hcr : b = Bytes.cr
          · subst hcr
            cases tail with
            | nil => exact ⟨_, _, _, .ending hlength hlimit⟩
            | cons c tail =>
              by_cases hlf : c = Bytes.lf
              · subst hlf
                have hcomplete : line.Opens limit (data ++ Bytes.crlf ++ tail) _ _ _ :=
                  complete hlength hlimit
                rw [List.append_assoc] at hcomplete
                exact ⟨_, _, _, hcomplete⟩
              · exact ⟨_, _, _, .bareReturn hlength hlimit hlf⟩
          · by_cases hlf : b = Bytes.lf
            · subst hlf
              exact ⟨_, _, _, .bareFeed hlength hlimit⟩
            · exact ⟨_, _, _, .overrun hlength hlimit hcr hlf⟩

-- Once a payload is complete, it is the reader that awaits its terminator that goes on.
theorem scan_start_data (expect : String → Expectation) {data : Bytes}
    (h : line.length = some data.length) (hl : data.length ≤ limit) (tail : Bytes) :
    (match (Held.fresh limit).start line with
      | (none, g) => g.scan expect (data ++ tail)
      | (some found, g) => (some found, g, data ++ tail)) =
      Held.scan expect ⟨limit, [], false, .trailer data.length, some line, data.reverse⟩ tail := by
  rw [Held.start, h]
  dsimp only
  rw [if_neg (show ¬ (Held.fresh limit).limit < data.length from Nat.not_lt.mpr hl)]
  cases data with
  | nil => rfl
  | cons b bs =>
    show Held.scan expect
      ⟨limit, [], false, .payload (bs.length + 1) (bs.length + 1), some line, []⟩ _ = _
    rw [Held.scan_payload rfl, if_neg (by simp)]
    have htake : (b :: bs ++ tail).take (bs.length + 1) = b :: bs :=
      List.take_left' (List.length_cons ..)
    have hdrop : (b :: bs ++ tail).drop (bs.length + 1) = tail :=
      List.drop_left' (List.length_cons ..)
    rw [htake, hdrop, List.append_nil, List.length_cons]

theorem scan_eq (expect : String → Expectation) {rest : Bytes}
    {found : Except FrameError (Option Frame)} {n : Nat} {left : Held}
    (h : line.Opens limit rest found n left) :
    (match (Held.fresh limit).start line with
      | (none, g) => g.scan expect rest
      | (some found, g) => (some found, g, rest)) = (Finding.of? found, left, rest.drop n) := by
  cases h with
  | bare h =>
    rw [Held.start, h]
    rfl
  | tooLarge h hl =>
    rw [Held.start, h]
    dsimp only
    rw [if_pos (show (Held.fresh limit).limit < _ from hl)]
    rfl
  | @short part n h hl hpart =>
    obtain ⟨m, rfl⟩ : ∃ m, n = m + 1 := ⟨n - 1, by omega⟩
    rw [Held.start, h]
    dsimp only
    rw [if_neg (show ¬ (Held.fresh limit).limit < m + 1 from Nat.not_lt.mpr hl)]
    show Held.scan expect ⟨limit, [], false, .payload (m + 1) (m + 1), some line, []⟩ rest = _
    rw [Held.scan_payload rfl, if_pos hpart, List.drop_length, List.append_nil]
    rfl
  | unended h hl =>
    have hscan := scan_start_data expect h hl []
    rw [List.append_nil] at hscan
    rw [hscan, List.drop_length]
    rfl
  | @ending data h hl =>
    have hdrop : (data ++ [Bytes.cr]).drop (data.length + 1) = [] := by simp
    rw [scan_start_data expect h hl, hdrop]
    rfl
  | @complete data tail h hl =>
    have hdrop : (data ++ (Bytes.crlf ++ tail)).drop (data.length + 2) = tail := by
      simp [Bytes.crlf]
    rw [List.append_assoc, scan_start_data expect h hl, hdrop]
    simp [Held.scan, Held.push, Held.endPayload, Bytes.crlf, Finding.of?, Held.fresh]
  | @overrun data tail b h hl hcr hlf =>
    have hdrop : (data ++ b :: tail).drop (data.length + 1) = tail := by simp
    rw [scan_start_data expect h hl, hdrop]
    simp [Held.scan, Held.push, Finding.of?, hcr, hlf]
  | @bareFeed data tail h hl =>
    have hdrop : (data ++ Bytes.lf :: tail).drop (data.length + 1) = tail := by simp
    rw [scan_start_data expect h hl, hdrop]
    rfl
  | @bareReturn data tail b h hl hlf =>
    have hdrop : (data ++ Bytes.cr :: b :: tail).drop (data.length + 2) = tail := by simp
    rw [scan_start_data expect h hl, hdrop]
    simp [Held.scan, Held.push, Finding.of?, hlf]

end CommandLine.Opens

namespace Reader.Finds

variable {expect : String → Expectation} {limit : Nat}

theorem taken_le {bytes : Bytes} {found : Except FrameError (Option Frame)} {n : Nat} {left : Held}
    (h : Finds expect limit bytes found n left) : n ≤ bytes.length := by
  cases h with
  | taken hcr hline hrest =>
    have hle := hrest.taken_le
    simp only [List.length_append, Bytes.crlf, List.length_cons, List.length_nil]
    omega
  | _ => simp [Bytes.crlf]

/-- There is something to find in whatever bytes there are. -/
theorem exists_of_bytes (expect : String → Expectation) (limit : Nat) (bytes : Bytes) :
    ∃ found n left, Finds expect limit bytes found n left := by
  by_cases hmem : Bytes.cr ∈ bytes
  · -- the line ends at the first carriage return
    obtain ⟨line, rest, rfl, hcr⟩ := List.eq_append_cons_of_mem hmem
    cases rest with
    | nil => exact ⟨_, _, _, .ending hcr⟩
    | cons b rest =>
      by_cases hlf : b = Bytes.lf
      · subst hlf
        rw [show line ++ Bytes.cr :: Bytes.lf :: rest = line ++ Bytes.crlf ++ rest by
          rw [List.append_assoc]; rfl]
        obtain ⟨read, hread⟩ := CommandLine.exists_reads expect line
        cases read with
        | error e => exact ⟨_, _, _, .refused hcr hread⟩
        | ok command =>
          obtain ⟨found, n, left, hrest⟩ := CommandLine.Opens.exists_of_bytes limit command rest
          exact ⟨_, _, _, .taken hcr hread hrest⟩
      · exact ⟨_, _, _, .bareReturn hcr hlf⟩
  · exact ⟨_, _, _, .unended hmem⟩

theorem ne_cr_of_not_mem {line : Bytes} (hcr : Bytes.cr ∉ line) :
    ∀ b ∈ line, decide (b ≠ Bytes.cr) = true := by
  intro b hb
  have hne : b ≠ Bytes.cr := by
    rintro rfl
    exact hcr hb
  simpa using hne

-- From the carriage return on, it is what the line is read as that decides.
theorem scan_return (expect : String → Expectation) (limit : Nat) {line : Bytes}
    (hcr : Bytes.cr ∉ line) (rest : Bytes) :
    (Held.fresh limit).scan expect (line ++ Bytes.cr :: rest) =
      Held.scan expect { Held.fresh limit with line := line.reverse, pendingCr := true } rest := by
  have hall := ne_cr_of_not_mem hcr
  rw [Held.scan_line rfl rfl, List.dropWhile_append_of_pos hall, List.takeWhile_append_of_pos hall]
  simp [Held.fresh]

theorem scan_terminated (expect : String → Expectation) (limit : Nat) {line : Bytes}
    (hcr : Bytes.cr ∉ line) (rest : Bytes) :
    (Held.fresh limit).scan expect (line ++ Bytes.crlf ++ rest) =
      match CommandLine.parse expect line with
      | .error e => (some (.error e), Held.fresh limit, rest)
      | .ok command =>
        match (Held.fresh limit).start command with
        | (none, g) => g.scan expect rest
        | (some found, g) => (some found, g, rest) := by
  have hpush (h : Held) (hp : h.phase = .line) (hc : h.pendingCr = true) :
      h.push expect Bytes.lf = h.endLine expect := by
    rw [Held.push, hp]
    simp [hc]
  rw [List.append_assoc, show Bytes.crlf ++ rest = Bytes.cr :: Bytes.lf :: rest from rfl,
    scan_return expect limit hcr, Held.scan, hpush _ rfl rfl, Held.endLine_eq]
  dsimp only
  rw [List.reverse_reverse]
  cases CommandLine.parse expect line with
  | error e => rfl
  | ok command => rfl

theorem scan_eq {bytes : Bytes} {found : Except FrameError (Option Frame)} {n : Nat} {left : Held}
    (h : Finds expect limit bytes found n left) :
    (Held.fresh limit).scan expect bytes = (Finding.of? found, left, bytes.drop n) := by
  cases h with
  | unended hcr =>
    have hdrop : bytes.dropWhile (· ≠ Bytes.cr) = [] := by
      have hall : (bytes ++ []).dropWhile (· ≠ Bytes.cr) = [] :=
        List.dropWhile_append_of_pos (ne_cr_of_not_mem hcr)
      rwa [List.append_nil] at hall
    rw [Held.scan_line rfl rfl, hdrop, List.drop_length]
    simp [Held.fresh, Finding.of?]
  | @ending line hcr =>
    have hdrop : (line ++ [Bytes.cr]).drop (line.length + 1) = [] := by simp
    rw [scan_return expect limit hcr, hdrop]
    rfl
  | @bareReturn line rest b hcr hlf =>
    have hdrop : (line ++ Bytes.cr :: b :: rest).drop (line.length + 2) = rest := by simp
    rw [scan_return expect limit hcr, hdrop]
    simp [Held.scan, Held.push, Held.fresh, Finding.of?, hlf]
  | @refused line rest e hcr hline =>
    have hdrop : (line ++ Bytes.crlf ++ rest).drop (line.length + 2) = rest :=
      List.drop_left' List.length_append
    rw [scan_terminated expect limit hcr, CommandLine.parse_of_reads hline, hdrop]
    rfl
  | @taken line rest command _ n _ hcr hline hrest =>
    have hdrop : (line ++ Bytes.crlf ++ rest).drop (line.length + 2 + n) = rest.drop n := by
      rw [← List.drop_drop]
      exact congrArg (List.drop n) (List.drop_left' List.length_append)
    rw [scan_terminated expect limit hcr, CommandLine.parse_of_reads hline, hdrop]
    exact hrest.scan_eq expect

end Reader.Finds

namespace Reader

theorem unread_feed_new {capacity : Nat} (limit : Nat) {bytes : Bytes}
    (h : bytes.length ≤ capacity) : ((new capacity limit).feed bytes).unread = bytes := by
  have hspace : bytes.length ≤ (new capacity limit).buffer.space := by
    show bytes.length ≤ max capacity 1 - 0
    omega
  rw [feed, unread, Buffer.unread_feed, List.take_of_length_le hspace]
  rfl

/-- **A reader accepts the grammar of frames, and tells every failure at its byte.**  A new reader
whose buffer holds some bytes finds in them what the grammar says and nothing else, takes just the
bytes that the grammar says, and is left with just what the grammar says. -/
theorem finds_iff_nextFrame (expect : String → Expectation) {capacity : Nat} (limit : Nat)
    {bytes : Bytes} (h : bytes.length ≤ capacity) (found : Except FrameError (Option Frame))
    (n : Nat) (left : Held) :
    let after := ((new capacity limit).feed bytes).nextFrame expect
    Finds expect limit bytes found n left ↔
      after.1 = found ∧ n ≤ bytes.length ∧ after.2.unread = bytes.drop n ∧ after.2.held = left := by
  intro after
  have hsound : ((new capacity limit).feed bytes).held.Sound := Held.fresh_sound limit
  have hscan : seen after = _ := nextFrame_eq_scan hsound
  rw [unread_feed_new limit h] at hscan
  have hseen {found : Except FrameError (Option Frame)} {n : Nat} {left : Held}
      (hfinds : Finds expect limit bytes found n left) :
      after.1 = found ∧ n ≤ bytes.length ∧ after.2.unread = bytes.drop n ∧
        after.2.held = left := by
    have heq : seen after = (Finding.of? found, left, bytes.drop n) := hscan.trans hfinds.scan_eq
    obtain ⟨hfound, hrest⟩ := Prod.mk.inj heq
    obtain ⟨hheld, hunread⟩ := Prod.mk.inj hrest
    exact ⟨Finding.of?_injective hfound, hfinds.taken_le, hunread, hheld⟩
  refine ⟨hseen, ?_⟩
  rintro ⟨hfound, hle, hunread, hheld⟩
  obtain ⟨found', n', left', hfinds⟩ := Finds.exists_of_bytes expect limit bytes
  obtain ⟨hfound', hle', hunread', hheld'⟩ := hseen hfinds
  have hn : n' = n := by
    have hlength := congrArg List.length (hunread'.symm.trans hunread)
    rw [List.length_drop, List.length_drop] at hlength
    omega
  rw [← hfound, ← hheld, ← hn, hfound', hheld']
  exact hfinds

-- A payload of two bytes with two more behind it: the first of these is the byte in error.
theorem finds_iff_nextFrame_of_overrun :
    let expect : String → Expectation := fun _ => .auto
    let bytes := Text.encode "PUT k 2\r\nabcd"
    let left : Held :=
      ⟨8, [], false, .trailer 2, some ⟨"PUT", ["k"], some 2⟩, (Text.encode "ab").reverse⟩
    bytes.length ≤ 64 ∧ Finds expect 8 bytes (.error (.payloadOverrun 2)) 12 left := by
  intro expect bytes left
  have hroom : bytes.length ≤ 64 := by decide +kernel
  exact ⟨hroom, (finds_iff_nextFrame expect 8 hroom _ _ left).mpr
    ⟨by cbv, by decide +kernel, by cbv, by cbv⟩⟩

end Reader

end LineFrame
