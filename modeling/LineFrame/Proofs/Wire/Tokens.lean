import LineFrame.Wire.CommandLine

/-!
# Tokens of a line

A line of tokens that are separated by single blanks is split into just these tokens
(`tokenize_encode`), as long as no token is empty or holds a blank.  Conversely every line without
carriage return is split into such tokens (`isToken_of_tokenize`), whatever blanks it has.
-/

namespace LineFrame

namespace Text

theorem encode_eq_flatMap (s : String) : encode s = s.toList.flatMap String.utf8EncodeChar := by
  rw [encode, ← String.utf8Encode_toList, List.utf8Encode]
  simp

-- A character of more than one byte has no carriage return among them.
theorem cr_mem_utf8EncodeChar (c : Char) : Bytes.cr ∈ String.utf8EncodeChar c ↔ c = '\r' := by
  have hbyte (n : Nat) : Bytes.cr = UInt8.ofNat n ↔ n % 256 = 13 := by
    rw [← UInt8.toNat_inj, UInt8.toNat_ofNat']
    exact eq_comm
  have hchar : c = '\r' ↔ c.val.toNat = 13 := by
    rw [Char.ext_iff, ← UInt32.toNat_inj]
    rfl
  rw [hchar, String.utf8EncodeChar]
  split
  · rw [List.mem_singleton, hbyte]
    omega
  -- of a longer encoding every byte is at least 128
  · split
    · simp only [List.mem_cons, hbyte, List.not_mem_nil, or_false]
      omega
    · split <;> simp only [List.mem_cons, hbyte, List.not_mem_nil, or_false] <;> omega

-- The bytes of a text have a carriage return just where the text has one.
theorem cr_mem_encode (s : String) : Bytes.cr ∈ encode s ↔ '\r' ∈ s.toList := by
  rw [encode_eq_flatMap, List.mem_flatMap]
  constructor
  · rintro ⟨c, hc, hb⟩
    rw [(cr_mem_utf8EncodeChar c).mp hb] at hc
    exact hc
  · intro h
    exact ⟨'\r', h, (cr_mem_utf8EncodeChar _).mpr rfl⟩

end Text

namespace CommandLine

/-- What a line can carry as one token. -/
def IsToken (t : String) : Prop := t ≠ "" ∧ ' ' ∉ t.toList ∧ '\r' ∉ t.toList

instance (t : String) : Decidable (IsToken t) := inferInstanceAs (Decidable (_ ∧ _))

-- The first word of what starts with one.
theorem words_append {w rest : List Char} (hw : w ≠ []) (hb : ' ' ∉ w)
    (hr : rest = [] ∨ ∃ more, rest = ' ' :: more) : words (w ++ rest) = w :: words rest := by
  obtain ⟨c, w, rfl⟩ := List.exists_cons_of_ne_nil hw
  have hc : c ≠ ' ' := fun h => hb (h ▸ List.mem_cons_self)
  have hdrop : (c :: w ++ rest).dropWhile (· = ' ') = c :: (w ++ rest) :=
    List.dropWhile_cons_of_neg (by simpa using hc)
  have hall : ∀ d ∈ w, decide (d ≠ ' ') = true := by
    intro d hd
    have hd' : d ≠ ' ' := by
      rintro rfl
      exact hb (List.mem_cons_of_mem c hd)
    simpa using hd'
  have hstop : rest.takeWhile (· ≠ ' ') = [] ∧ rest.dropWhile (· ≠ ' ') = rest := by
    rcases hr with rfl | ⟨more, rfl⟩
    · exact ⟨rfl, rfl⟩
    · exact ⟨rfl, rfl⟩
  -- the word ends where `rest` starts, because `rest` is empty or starts with a blank
  rw [words]
  split
  · next h => rw [hdrop] at h; cases h
  · next d tail h =>
    rw [hdrop] at h
    cases h
    rw [List.takeWhile_append_of_pos hall, List.dropWhile_append_of_pos hall, hstop.1, hstop.2,
      List.append_nil]

theorem words_cons_blank (cs : List Char) : words (' ' :: cs) = words cs := by
  rw [words, words, List.dropWhile_cons_of_pos (by decide)]

theorem words_intercalate {ws : List (List Char)} (h : ∀ w ∈ ws, w ≠ [] ∧ ' ' ∉ w) :
    words ([' '].intercalate ws) = ws := by
  induction ws with
  | nil => rw [List.intercalate_nil, words]; rfl
  | cons w ws ih =>
    obtain ⟨hw, hb⟩ := h w List.mem_cons_self
    have htail := ih fun v hv => h v (List.mem_cons_of_mem w hv)
    -- only a word that is not the last one is followed by a blank
    cases ws with
    | nil =>
      have h : words (w ++ []) = w :: words [] := words_append hw hb (.inl rfl)
      rw [List.append_nil] at h
      rw [List.intercalate_singleton, h, words]
      rfl
    | cons v ws =>
      rw [List.intercalate_cons_cons, List.append_assoc, List.singleton_append,
        words_append hw hb (.inr ⟨_, rfl⟩), words_cons_blank, htail]

-- Words are not empty, have no blank, and consist of characters of the line.
theorem of_mem_words {cs w : List Char} (hw : w ∈ words cs) :
    w ≠ [] ∧ ' ' ∉ w ∧ ∀ c ∈ w, c ∈ cs := by
  fun_induction words cs with
  | case1 cs h => cases hw
  | case2 cs c rest h ih =>
    have hsub : ∀ d ∈ c :: rest, d ∈ cs := fun d hd =>
      (List.dropWhile_suffix _).subset (h ▸ hd)
    have hc : c ≠ ' ' := by
      have hhead := List.head?_dropWhile_not (· = ' ') cs
      rw [h] at hhead
      simpa using hhead
    rcases List.mem_cons.mp hw with rfl | hw
    · refine ⟨nofun, ?_, ?_⟩
      · rintro hmem
        rcases List.mem_cons.mp hmem with heq | hmem
        · exact hc heq.symm
        · simpa using List.all_eq_true.mp List.all_takeWhile _ hmem
      · intro d hd
        rcases List.mem_cons.mp hd with rfl | hd
        · exact hsub d List.mem_cons_self
        · exact hsub d (List.mem_cons_of_mem c ((List.takeWhile_prefix _).subset hd))
    · obtain ⟨hne, hblank, hin⟩ := ih hw
      exact ⟨hne, hblank, fun d hd =>
        hsub d (List.mem_cons_of_mem c ((List.dropWhile_suffix _).subset (hin d hd)))⟩

/-- **Tokens separated by single blanks are read back.** -/
theorem tokenize_encode {tokens : List String} (h : ∀ t ∈ tokens, IsToken t) :
    tokenize (Text.encode (" ".intercalate tokens)) = .ok tokens := by
  have hwords : words ([' '].intercalate (tokens.map String.toList)) =
      tokens.map String.toList := by
    apply words_intercalate
    intro w hw
    obtain ⟨t, ht, rfl⟩ := List.mem_map.mp hw
    obtain ⟨hne, hblank, -⟩ := h t ht
    exact ⟨fun hnil => hne (String.toList_eq_nil_iff.mp hnil), hblank⟩
  rw [tokenize, Text.decode?_encode]
  show Except.ok ((words (" ".intercalate tokens).toList).map String.ofList) = .ok tokens
  rw [String.toList_intercalate, show " ".toList = [' '] from rfl, hwords, List.map_map,
    show String.ofList ∘ String.toList = id from funext fun _ => String.ofList_toList, List.map_id]

theorem of_mem_intercalate {c : Char} {ws : List (List Char)} (h : c ∈ [' '].intercalate ws) :
    c = ' ' ∨ ∃ w ∈ ws, c ∈ w := by
  induction ws with
  | nil => cases h
  | cons w ws ih =>
    cases ws with
    | nil => exact .inr ⟨w, List.mem_cons_self, by rwa [List.intercalate_singleton] at h⟩
    | cons v ws =>
      rw [List.intercalate_cons_cons, List.mem_append, List.mem_append, List.mem_singleton] at h
      rcases h with (h | h) | h
      · exact .inr ⟨w, List.mem_cons_self, h⟩
      · exact .inl h
      · rcases ih h with h | ⟨u, hu, h⟩
        · exact .inl h
        · exact .inr ⟨u, List.mem_cons_of_mem w hu, h⟩

-- The encoded tokens have no carriage return.
theorem cr_not_mem_encode {tokens : List String} (h : ∀ t ∈ tokens, IsToken t) :
    Bytes.cr ∉ Text.encode (" ".intercalate tokens) := by
  rw [Text.cr_mem_encode, String.toList_intercalate]
  intro hmem
  rcases of_mem_intercalate hmem with hblank | ⟨w, hw, hc⟩
  · cases hblank
  · obtain ⟨t, ht, rfl⟩ := List.mem_map.mp hw
    exact (h t ht).2.2 hc

/-- **A line without carriage return is split into tokens.** -/
theorem isToken_of_tokenize {line : Bytes} {tokens : List String} (h : tokenize line = .ok tokens)
    (hcr : Bytes.cr ∉ line) : ∀ t ∈ tokens, IsToken t := by
  rw [tokenize] at h
  split at h
  · next text hdec =>
    cases h
    intro t ht
    obtain ⟨w, hw, rfl⟩ := List.mem_map.mp ht
    obtain ⟨hne, hblank, hin⟩ := of_mem_words hw
    rw [← Text.encode_of_decode? hdec, Text.cr_mem_encode] at hcr
    rw [IsToken, String.toList_ofList]
    refine ⟨?_, hblank, fun hmem => hcr (hin _ hmem)⟩
    intro hempty
    exact hne (by simpa using hempty)
  · cases h

end CommandLine

end LineFrame
