import LineFrame.Proofs.Client.Wiretap
import LineFrame.Proofs.Server.Pace
import LineFrame.Serve.Blocking

/-!
# Serving, pass by pass

The loop that serves a transport while waiting for every operation is taken apart into its passes
(`Serve.pass`).  Each of them asks the connection once, and the history of how the connection is
used is kept along with the passes.  A pass is followed by another one only if what the connection
handed out was written and flushed, so that is so whenever the connection is asked
(`blocking_paced`).
-/

namespace LineFrame

variable {σ τ : Type}

namespace Deed

/-- The bytes that are handed out. -/
def bytes : Deed σ → Bytes
  | returned (.ok (.send data)) => data
  | _ => []

/-- All bytes that are handed out. -/
def out (history : List (Deed σ)) : Bytes := history.flatMap bytes

/-- The connection does this by itself. -/
def own : Deed σ → Bool
  | starved | called _ _ | refused _ | failed _ | pulled _ _ | completed _ => true
  | _ => false

theorem out_append (xs ys : List (Deed σ)) : out (xs ++ ys) = out xs ++ out ys :=
  List.flatMap_append

theorem out_own {ds : List (Deed σ)} (h : ∀ d ∈ ds, d.own = true) : out ds = [] := by
  rw [out, List.flatMap_eq_nil_iff]
  intro d hd
  have hown := h d hd
  cases d <;> first | rfl | cases hown

end Deed

/-! ## Asking -/

namespace Connection

theorem turn_own (svc : Service σ) (c : Connection σ) (s : σ) :
    ∀ d ∈ (c.turn svc s).deeds, d.own = true := by
  unfold turn
  split
  · nofun
  · split <;> simp [Deed.own]
  · split
    · simp [Deed.own]
    · simp [Deed.own]
    · split <;> simp [Deed.own]

-- What a connection does by itself before it tells its caller what to do.
theorem deeds_own (svc : Service σ) (c : Connection σ) (s : σ) :
    ∃ ds, c.deeds svc s = ds ++ [.returned (c.next svc s).1] ∧ ∀ d ∈ ds, d.own = true := by
  fun_induction deeds svc c s with
  | case1 c s found h =>
    rw [next_of_found h]
    exact ⟨_, rfl, turn_own svc c s⟩
  | case2 c s h ih =>
    obtain ⟨ds, hds, hown⟩ := ih
    rw [next_of_none h, hds]
    refine ⟨(c.turn svc s).deeds ++ ds, by rw [List.append_assoc], ?_⟩
    intro d hd
    rcases List.mem_append.mp hd with hd | hd
    · exact turn_own svc c s d hd
    · exact hown d hd

theorem out_deeds (svc : Service σ) (c : Connection σ) (s : σ) :
    Deed.out (c.deeds svc s) = Deed.bytes (.returned (c.next svc s).1 : Deed σ) := by
  obtain ⟨ds, hds, hown⟩ := c.deeds_own svc s
  rw [hds, Deed.out_append, Deed.out_own hown]
  exact List.append_nil _

end Connection

namespace Usage

/-- Whenever the connection was asked, what had been done before was `fine`. -/
def AskedWhen (fine : List (Deed σ) → Prop) (history : List (Deed σ)) : Prop :=
  ∀ before, before ++ [.asked] <+: history → fine before

variable {fine : List (Deed σ) → Prop} {history more : List (Deed σ)}

theorem AskedWhen.concat {d : Deed σ} (h : AskedWhen fine history)
    (hd : d = .asked → fine history) : AskedWhen fine (history ++ [d]) := by
  intro before hprefix
  rcases List.prefix_concat_iff.mp hprefix with heq | hearlier
  · obtain ⟨rfl, hlast⟩ := List.append_inj' heq rfl
    cases hlast
    exact hd rfl
  · exact h before hearlier

theorem AskedWhen.append (h : AskedWhen fine history) (hmore : ∀ d ∈ more, d ≠ .asked) :
    AskedWhen fine (history ++ more) := by
  induction more generalizing history with
  | nil =>
    rw [List.append_nil]
    exact h
  | cons d more ih =>
    obtain ⟨hd, hmore⟩ := List.forall_mem_cons.mp hmore
    rw [List.append_cons]
    exact ih (h.concat fun hasked => absurd hasked hd) hmore

-- Without asking, nothing is handed out.
theorem run_quiet (svc : Service σ) (x : Usage σ) {uses : List Use} (h : .ask ∉ uses) :
    ∃ more, (x.run svc uses).history = x.history ++ more ∧
      (∀ d ∈ more, d ≠ .asked) ∧ Deed.out more = [] := by
  induction uses generalizing x with
  | nil => exact ⟨[], (List.append_nil _).symm, nofun, rfl⟩
  | cons use uses ih =>
    obtain ⟨huse, huses⟩ := not_or.mp fun hor => h (List.mem_cons.mpr hor)
    obtain ⟨more, hmore, hasked, hout⟩ := ih (x.step svc use) huses
    have hfirst {d : Deed σ} (hhistory : (x.step svc use).history = x.history ++ [d])
        (hd : d ≠ .asked) (hbytes : d.bytes = []) :
        ∃ more, (x.run svc (use :: uses)).history = x.history ++ more ∧
          (∀ d ∈ more, d ≠ .asked) ∧ Deed.out more = [] := by
      refine ⟨d :: more, ?_, List.forall_mem_cons.mpr ⟨hd, hasked⟩, ?_⟩
      · show ((x.step svc use).run svc uses).history = _
        rw [hmore, hhistory, List.append_assoc, List.singleton_append]
      · show d.bytes ++ Deed.out more = []
        rw [hbytes, hout]
        rfl
    cases use with
    | give chunk => exact hfirst rfl nofun rfl
    | ask => exact absurd rfl huse
    | hangUp => exact hfirst rfl nofun rfl
    | stop => exact hfirst rfl nofun rfl

-- Of all that is done when a connection is asked, only the first deed is the asking.
theorem deeds_ne_asked (svc : Service σ) (c : Connection σ) (s : σ) :
    ∀ d ∈ c.deeds svc s, d ≠ .asked := by
  obtain ⟨ds, hds, hown⟩ := c.deeds_own svc s
  rw [hds]
  intro d hd
  rcases List.mem_append.mp hd with hd | hd
  · rintro rfl
    cases hown _ hd
  · rw [List.mem_singleton.mp hd]
    nofun

theorem AskedWhen.ask {x : Usage σ} (svc : Service σ) (h : AskedWhen fine x.history)
    (hfine : fine x.history) : AskedWhen fine (x.ask svc).history := by
  have hasked : AskedWhen fine (x.history ++ [.asked]) := h.concat fun _ => hfine
  have hdeeds := hasked.append (deeds_ne_asked svc x.connection x.state)
  rw [← List.append_cons] at hdeeds
  exact hdeeds

theorem AskedWhen.run_quiet {x : Usage σ} (svc : Service σ) (h : AskedWhen fine x.history)
    {uses : List Use} (huses : .ask ∉ uses) : AskedWhen fine (x.run svc uses).history := by
  obtain ⟨more, hmore, hasked, -⟩ := Usage.run_quiet svc x huses
  rw [hmore]
  exact h.append hasked

theorem out_ask (svc : Service σ) (x : Usage σ) :
    Deed.out (x.ask svc).history = Deed.out x.history ++
      Deed.bytes (.returned (x.connection.next svc x.state).1 : Deed σ) := by
  show Deed.out (x.history ++ ([.asked] ++ x.connection.deeds svc x.state)) = _
  rw [Deed.out_append, Deed.out_append, Connection.out_deeds]
  rfl

theorem out_run_quiet (svc : Service σ) (x : Usage σ) {uses : List Use} (h : .ask ∉ uses) :
    Deed.out (x.run svc uses).history = Deed.out x.history := by
  obtain ⟨more, hmore, -, hout⟩ := x.run_quiet svc h
  rw [hmore, Deed.out_append, hout, List.append_nil]

theorem run_append (svc : Service σ) (x : Usage σ) (uses more : List Use) :
    x.run svc (uses ++ more) = (x.run svc uses).run svc more := List.foldl_append

end Usage

namespace Serve

/-! ## Passes -/

/-- The loop when the connection is going to be asked, and how it is used by then. -/
structure Head (τ σ : Type) where
  transport : τ
  usage : Usage σ

/-- How one pass of the loop ends: with another one, or for good. -/
inductive Pass (τ σ : Type) where
  | again (head : Head τ σ)
  | done (result : Except ServeError Unit) (head : Head τ σ)

def Head.served (x : Head τ σ) (result : Except ServeError Unit) : Served τ σ :=
  ⟨result, x.transport, x.usage.connection, x.usage.state⟩

variable [Transport τ]

/-- Does what the connection asked for. -/
def act (t : τ) (x : Usage σ) : Except FrameError Action → Pass τ σ
  | .error e => .done (.error (.frame e)) ⟨t, x⟩
  | .ok .close => .done (.ok ()) ⟨t, x⟩
  | .ok (.send data) =>
    match Transport.send data t with
    | (.ok (), u) => .again ⟨u, x⟩
    | (.error e, u) => .done (.error (.io e)) ⟨u, x.stop⟩
  | .ok .receive =>
    match Transport.read x.connection.reader.space t with
    | (.ok [], u) => .done (.ok ()) ⟨u, (x.give []).hangUp⟩
    | (.ok (b :: chunk), u) => .again ⟨u, x.give (b :: chunk)⟩
    | (.error e, u) =>
      if e.isInterrupted then .again ⟨u, x.give []⟩
      else .done (.error (.io e)) ⟨u, (x.give []).stop⟩

/-- Asks the connection what to do, and does it. -/
def pass (svc : Service σ) (x : Head τ σ) : Pass τ σ :=
  act x.transport (x.usage.ask svc) (x.usage.connection.next svc x.usage.state).1

/-- What the loop comes to, pass after pass. -/
inductive Reached (svc : Service σ) (x : Head τ σ) : Head τ σ → Prop
  | start : Reached svc x x
  | again {y z : Head τ σ} (h : Reached svc x y) (hp : pass svc y = .again z) : Reached svc x z

theorem Reached.before {svc : Service σ} {x y z : Head τ σ} (hp : pass svc x = .again y)
    (h : Reached svc y z) : Reached svc x z := by
  induction h with
  | start => exact .again .start hp
  | again _ hp' ih => exact .again ih hp'

section

variable {svc : Service σ} {t u : τ} {c d : Connection σ} {s s' : σ}
  {found : Except FrameError Action}

theorem pass_eq (hn : c.next svc s = (found, d, s')) (t : τ) (history : List (Deed σ)) :
    pass svc ⟨t, c, s, history⟩ =
      act t ⟨d, s', history ++ .asked :: c.deeds svc s⟩ found := by
  unfold pass Usage.ask
  rw [hn]

/-- **The loop is its passes**, one after the other until the last one. -/
theorem blocking_passes (svc : Service σ) (t : τ) (c : Connection σ) (s : σ)
    (history : List (Deed σ)) :
    ∃ y result z, Reached svc ⟨t, c, s, history⟩ y ∧ pass svc y = .done result z ∧
      blocking svc t c s = z.served result := by
  fun_induction blocking svc t c s generalizing history with
  | case1 t c s e d s' hn =>
    exact ⟨_, .error (.frame e), ⟨t, d, s', _⟩, .start, pass_eq hn t history, rfl⟩
  | case2 t c s d s' hn =>
    exact ⟨_, .ok (), ⟨t, d, s', _⟩, .start, pass_eq hn t history, rfl⟩
  | case3 t c s data d s' hn u hsend ih =>
    obtain ⟨y, result, z, hy, hz⟩ := ih (history ++ .asked :: c.deeds svc s)
    have hpass := pass_eq hn t history
    rw [act, hsend] at hpass
    exact ⟨y, result, z, hy.before hpass, hz⟩
  | case4 t c s data d s' hn e u hsend =>
    have hpass := pass_eq hn t history
    rw [act, hsend] at hpass
    exact ⟨_, .error (.io e), ⟨u, d.terminate, s', _⟩, .start, hpass, rfl⟩
  | case5 t c s d s' hn reader u hfill =>
    obtain ⟨chunk, hread, hlength, rfl⟩ := Reader.fill_feeds hfill
    have hpass := pass_eq hn t history
    rw [act, hread, List.length_eq_zero_iff.mp hlength.symm] at hpass
    rw [List.length_eq_zero_iff.mp hlength.symm]
    exact ⟨_, .ok (), ⟨u, _, s', _⟩, .start, hpass, rfl⟩
  | case6 t c s d s' hn n reader u hfill ih =>
    obtain ⟨chunk, hread, hlength, rfl⟩ := Reader.fill_feeds hfill
    obtain ⟨b, chunk, rfl⟩ := List.exists_cons_of_length_eq_add_one hlength.symm
    obtain ⟨y, result, z, hy, hz⟩ :=
      ih (history ++ .asked :: c.deeds svc s ++ [.given (b :: chunk)])
    have hpass := pass_eq hn t history
    rw [act, hread] at hpass
    exact ⟨y, result, z, hy.before hpass, hz⟩
  | case7 t c s d s' hn e reader u hfill he ih =>
    obtain ⟨hread, rfl⟩ := Reader.fill_feeds_nil hfill
    obtain ⟨y, result, z, hy, hz⟩ := ih (history ++ .asked :: c.deeds svc s ++ [.given []])
    have hpass := pass_eq hn t history
    rw [act, hread] at hpass
    dsimp only at hpass
    rw [if_pos he] at hpass
    exact ⟨y, result, z, hy.before hpass, hz⟩
  | case8 t c s d s' hn e reader u hfill he =>
    obtain ⟨hread, rfl⟩ := Reader.fill_feeds_nil hfill
    have hpass := pass_eq hn t history
    rw [act, hread] at hpass
    dsimp only at hpass
    rw [if_neg he] at hpass
    exact ⟨_, .error (.io e), ⟨u, _, s', _⟩, .start, hpass, rfl⟩

/-- The loop after a pass. -/
def Pass.head : Pass τ σ → Head τ σ
  | again head | done _ head => head

-- What the loop does with the connection before it asks again.
theorem act_uses (svc : Service σ) (t : τ) (x : Usage σ) (found : Except FrameError Action) :
    ∃ uses, .ask ∉ uses ∧ (act t x found).head.usage = x.run svc uses := by
  unfold act
  split
  · exact ⟨[], nofun, rfl⟩
  · exact ⟨[], nofun, rfl⟩
  · split
    · exact ⟨[], nofun, rfl⟩
    · exact ⟨[.stop], by simp, rfl⟩
  · split
    · exact ⟨[.give [], .hangUp], by simp, rfl⟩
    · next b chunk u hread => exact ⟨[.give (b :: chunk)], by simp, rfl⟩
    · split
      · exact ⟨[.give []], by simp, rfl⟩
      · exact ⟨[.give [], .stop], by simp, rfl⟩

-- In one pass the connection is asked once.
theorem pass_uses (svc : Service σ) (x : Head τ σ) :
    ∃ uses, .ask ∉ uses ∧ (pass svc x).head.usage = (x.usage.ask svc).run svc uses :=
  act_uses svc _ _ _

/-- All that was handed out has been written and flushed. -/
def Head.Settled (x : Head (Wiretap τ) σ) : Prop :=
  x.transport.written = Deed.out x.usage.history ∧ x.transport.flushed = Deed.out x.usage.history

-- Another pass is made only if what was handed out could be sent.
theorem act_sends {w : Wiretap τ} {x : Usage σ} {y : Head (Wiretap τ) σ}
    (hw : w.flushed = w.written) (h : act w x found = .again y) :
    y.transport.written = w.written ++ Deed.bytes (.returned found : Deed σ) ∧
      y.transport.flushed = y.transport.written := by
  -- reading writes nothing
  have hreads {n : Nat} {found : Except IoError Bytes} {v : Wiretap τ}
      (hread : Transport.read n w = (found, v)) :
      v.written = w.written ++ [] ∧ v.flushed = v.written := by
    cases hread
    exact ⟨(List.append_nil _).symm, hw⟩
  unfold act at h
  split at h
  · cases h
  · cases h
  · split at h
    · next hsend =>
      cases h
      exact Wiretap.send_ok hsend
    · cases h
  · split at h
    · cases h
    · next hread =>
      cases h
      exact hreads hread
    · next hread =>
      split at h
      · cases h
        exact hreads hread
      · cases h

theorem Head.Settled.again {x y : Head (Wiretap τ) σ} (hx : x.Settled)
    (hp : pass svc x = .again y) : y.Settled := by
  obtain ⟨hwritten, hflushed⟩ := hx
  obtain ⟨hmore, hsent⟩ := act_sends (hflushed.trans hwritten.symm) hp
  obtain ⟨uses, hquiet, huses⟩ := pass_uses svc x
  rw [hp] at huses
  have hout : Deed.out y.usage.history = y.transport.written := by
    rw [show y.usage = _ from huses, Usage.out_run_quiet svc _ hquiet, Usage.out_ask, hmore,
      hwritten]
  exact ⟨hout.symm, hsent.trans hout.symm⟩

end

end Serve

end LineFrame
