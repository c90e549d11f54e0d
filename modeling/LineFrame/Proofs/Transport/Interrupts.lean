import LineFrame.Proofs.Serve.Script

/-!
# Interrupts on scripted links

A link without the interrupts among its arrivals (`Link.calm`) is read as the link itself is, as long
as no read is interrupted.  A link that goes on after its arrivals with an interrupt
(`Link.interrupted`) is read as the link itself is, up to where this one finds its peer gone.
-/

namespace LineFrame

/-- How an interrupted read of a link fails. -/
abbrev IoError.interruption : IoError := .plain .interrupted

/-! ## Without interrupts -/

namespace Link

/-- The link without the interrupts among its arrivals. -/
def calm (l : Link) : Link :=
  { l with arrivals := l.arrivals.filter (· != .failure .interrupted) }

theorem awaited_calm {l : Link} (h : l.awaited.arrivals.head? ≠ some (.failure .interrupted)) :
    l.calm.awaited = l.awaited.calm := by
  obtain ⟨arrivals, writes, sent, up, closed⟩ := l
  simp only [awaited, calm] at h ⊢
  congr 1
  induction arrivals with
  | nil => rfl
  | cons a rest ih =>
    cases a with
    | pending => exact ih h
    | bytes data => rfl
    | failure kind =>
      have hkind : kind ≠ .interrupted := fun hk => h (by rw [hk]; rfl)
      simp [hkind]

theorem poll_calm {n : Nat} {l : Link} (h : l.arrivals.head? ≠ some (.failure .interrupted)) :
    l.calm.poll n = ((l.poll n).1, (l.poll n).2.calm) := by
  obtain ⟨_ | ⟨a, rest⟩, writes, sent, up, closed⟩ := l
  · rfl
  · cases a with
    | pending => rfl
    | bytes data =>
      simp only [poll, calm]
      by_cases hleft : (data.drop n).isEmpty = true <;> simp [hleft]
    | failure kind =>
      have hkind : kind ≠ .interrupted := fun hk => h (by rw [hk]; rfl)
      simp [poll, calm, hkind]

-- A read that is not interrupted meets no interrupt.
theorem throughBut_calm : Transport.ThroughBut (· = .interruption) calm where
  toSendsThrough := sendsThrough_arrivals _
  read {n l found m} h hfound := by
    have hread : l.read n = (found, m) := h
    have hhead : l.awaited.arrivals.head? ≠ some (.failure .interrupted) := by
      intro hhead
      obtain ⟨rest, hrest⟩ := List.head?_eq_some_iff.1 hhead
      have hpoll := l.poll_awaited n
      rw [poll, hrest, hread] at hpoll
      cases hpoll
      exact hfound _ rfl rfl
    have hcalm := l.calm.poll_awaited n
    rw [awaited_calm hhead, poll_calm hhead, l.poll_awaited n, hread] at hcalm
    obtain ⟨hsame, hafter⟩ := Prod.mk.inj hcalm
    exact Prod.ext (Option.some.inj hsame).symm hafter.symm

/-- No interrupt is among the arrivals. -/
def Undisturbed (l : Link) : Prop := .failure .interrupted ∉ l.arrivals

theorem calm_undisturbed (l : Link) : l.calm.Undisturbed := by
  simp [Undisturbed, calm]

theorem read_undisturbed (n : Nat) (l : Link) (hl : l.Undisturbed) :
    (l.read n).2.Undisturbed ∧ ∀ e, (l.read n).1 = .error e → e ≠ .interruption := by
  have hpoll (m : Link) (hm : m.Undisturbed) :
      (m.poll n).2.Undisturbed ∧ (m.poll n).1 ≠ some (.error .interruption) := by
    obtain ⟨_ | ⟨a, rest⟩, writes, sent, up, closed⟩ := m
    · exact ⟨hm, by rintro ⟨⟩⟩
    · simp only [Undisturbed, List.mem_cons, not_or] at hm
      cases a with
      | pending => exact ⟨hm.2, by rintro ⟨⟩⟩
      | bytes data =>
        refine ⟨?_, by rintro ⟨⟩⟩
        simp only [Undisturbed, poll]
        split
        · exact hm.2
        · simp [hm.2]
      | failure kind =>
        refine ⟨hm.2, fun h => hm.1 ?_⟩
        cases h
        rfl
  have hread := hpoll l.awaited fun h => hl ((List.dropWhile_suffix _).subset h)
  rw [l.poll_awaited n] at hread
  exact ⟨hread.1, fun e he hint => hread.2 (congrArg some (he.trans (congrArg _ hint)))⟩

/-- The link when an interrupt follows its arrivals, and then these. -/
def interrupted (later : List Arrival) (l : Link) : Link :=
  { l with arrivals := l.arrivals ++ .failure .interrupted :: later }

/-- The peer does not close among the arrivals. -/
def Unclosed (l : Link) : Prop := .bytes [] ∉ l.arrivals

theorem awaited_interrupted (later : List Arrival) (l : Link) :
    (l.interrupted later).awaited = l.awaited.interrupted later := by
  obtain ⟨arrivals, writes, sent, up, closed⟩ := l
  simp only [awaited, interrupted]
  congr 1
  rw [List.dropWhile_append]
  split
  · next hnone =>
    rw [List.isEmpty_iff] at hnone
    rw [hnone]
    rfl
  · rfl

theorem poll_interrupted {n : Nat} (hn : 0 < n) (later : List Arrival) {l m : Link}
    {found : Except IoError Bytes} (hl : l.Unclosed) (h : l.poll n = (some found, m)) :
    (found = .ok [] → (l.interrupted later).poll n =
        (some (.error .interruption), { m with arrivals := later })) ∧
      (found ≠ .ok [] →
        (l.interrupted later).poll n = (some found, m.interrupted later) ∧ m.Unclosed) := by
  obtain ⟨_ | ⟨a, rest⟩, writes, sent, up, closed⟩ := l
  · cases h
    exact ⟨fun _ => rfl, fun hne => absurd rfl hne⟩
  · rw [Unclosed, List.mem_cons, not_or] at hl
    cases a with
    | pending => cases h
    | failure kind =>
      cases h
      exact ⟨nofun, fun _ => ⟨rfl, hl.2⟩⟩
    | bytes data =>
      cases h
      have hdata : data ≠ [] := fun hnil => hl.1 (by rw [hnil])
      have htake : data.take n ≠ [] := by
        rw [Ne, List.take_eq_nil_iff, not_or]
        exact ⟨Nat.pos_iff_ne_zero.1 hn, hdata⟩
      refine ⟨fun hnil => absurd (Except.ok.inj hnil) htake, fun _ => ?_⟩
      simp only [poll, interrupted, Unclosed, List.cons_append]
      cases hleft : data.drop n with
      | nil => exact ⟨rfl, hl.2⟩
      | cons b left => exact ⟨rfl, by simpa using hl.2⟩

-- Where the link would find that its peer has closed it finds the interrupt.
theorem read_interrupted {n : Nat} (hn : 0 < n) (later : List Arrival) {l : Link}
    (hl : l.Unclosed) :
    ((l.read n).1 = .ok [] → ((l.interrupted later).read n).1 = .error .interruption) ∧
      ((l.read n).1 ≠ .ok [] →
        (l.interrupted later).read n = ((l.read n).1, (l.read n).2.interrupted later) ∧
          (l.read n).2.Unclosed) := by
  have hawaited : l.awaited.Unclosed := fun h => hl ((List.dropWhile_suffix _).subset h)
  obtain ⟨hend, hgoes⟩ := poll_interrupted hn later hawaited (l.poll_awaited n)
  have hread := (l.interrupted later).poll_awaited n
  rw [awaited_interrupted] at hread
  constructor
  · intro hnil
    rw [hend hnil] at hread
    exact (Option.some.inj (Prod.mk.inj hread).1).symm
  · intro hne
    obtain ⟨hpoll, hunclosed⟩ := hgoes hne
    rw [hpoll] at hread
    obtain ⟨hfound, hafter⟩ := Prod.mk.inj hread
    exact ⟨Prod.ext (Option.some.inj hfound).symm hafter.symm, hunclosed⟩

theorem read_written (bytes : Bytes) (n : Nat) (l : Link) (hl : l.written = bytes) :
    (l.read n).2.written = bytes := by
  have hpoll (m : Link) : (m.poll n).2.written = m.written := by
    rw [poll]
    split <;> rfl
  have hread := hpoll l.awaited
  rw [l.poll_awaited n] at hread
  exact hread.trans hl

end Link

end LineFrame
