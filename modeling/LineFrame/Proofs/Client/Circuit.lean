import LineFrame.Pool.Basic
import LineFrame.Proofs.Server.Conversation

/-!
# Circuits

A transport at whose other end a server's connection is.  What the client writes reaches the server
in pieces, and the server's answers reach the client in pieces.  How large the pieces are, and what
the server does in between, is laid down by a schedule; it is arbitrary, but that a read waits until
there is something to give, and that no read or write fails.

What a circuit owes to its client (`Circuit.Owes`) is told by what the server's conversation comes
to, whatever is written next.
-/

namespace LineFrame

variable {σ : Type}

namespace Conversation

/-! ## Bytes that are given later -/

/-- The same when these bytes are to be given to the connection, too. -/
def given (x : Conversation σ) (bytes : Bytes) : Conversation σ :=
  { x with left := x.left ++ bytes }

theorem given_nil (x : Conversation σ) : x.given [] = x := by
  rw [given, List.append_nil]

theorem given_given (x : Conversation σ) (xs ys : Bytes) :
    (x.given xs).given ys = x.given (xs ++ ys) := by
  rw [given, given, given, List.append_assoc]

theorem ask_given (svc : Service σ) (x : Conversation σ) (more : Bytes) :
    (x.given more).ask svc = (x.ask svc).given more := by
  unfold ask given
  dsimp only
  split <;> rfl

theorem offer_given (svc : Service σ) (x : Conversation σ) (n : Nat) (more : Bytes) :
    ((x.offer n).given more).prospect svc = (x.given more).prospect svc := by
  have hbytes : (x.offer n).connection.reader.unread ++ ((x.offer n).left ++ more) =
      x.connection.reader.unread ++ (x.left ++ more) := by
    rw [← List.append_assoc, ← List.append_assoc]
    exact congrArg (· ++ more) (Reader.unread_feed_take _ _ _)
  have howed : (x.offer n).connection.owed svc ((x.offer n).left ++ more) x.state =
      x.connection.owed svc (x.left ++ more) x.state := by
    unfold Connection.owed
    rw [hbytes]
    rfl
  cases he : x.ending with
  | none =>
    have hoffered : ((x.offer n).given more).ending = none := he
    have hgiven : (x.given more).ending = none := he
    rw [prospect_of_none svc hoffered, prospect_of_none svc hgiven]
    exact congrArg (Transcript.after x.sent) howed
  | some e =>
    have hoffered : ((x.offer n).given more).ending.isSome := Option.isSome_of_eq_some he
    have hgiven : (x.given more).ending.isSome := Option.isSome_of_eq_some he
    rw [prospect_of_some svc hoffered, prospect_of_some svc hgiven]
    rfl

-- Whatever is given later, no move changes what the session comes to.
theorem run_given {x : Conversation σ} (hr : x.connection.reader.Ready) (svc : Service σ)
    (moves : List Move) (more : Bytes) :
    ((x.run svc moves).given more).prospect svc = (x.given more).prospect svc := by
  induction moves generalizing x with
  | nil => rfl
  | cons m moves ih =>
    refine (ih (step_ready hr svc m)).trans ?_
    unfold step
    split
    · rfl
    · exact offer_given svc x _ more
    · next he =>
      rw [← ask_given]
      exact ask_prospect (x := x.given more) hr svc he

/-! ## What was sent -/

theorem sent_step (svc : Service σ) (x : Conversation σ) (m : Move) :
    x.sent <+: (x.step svc m).sent := by
  unfold step
  split
  · exact List.prefix_rfl
  · exact List.prefix_rfl
  · unfold ask
    split
    · exact List.prefix_rfl
    · exact List.prefix_append _ _
    · exact List.prefix_rfl
    · exact List.prefix_rfl

theorem sent_run (svc : Service σ) (x : Conversation σ) (moves : List Move) :
    x.sent <+: (x.run svc moves).sent := by
  induction moves generalizing x with
  | nil => exact List.prefix_rfl
  | cons m moves ih => exact (sent_step svc x m).trans (ih (x.step svc m))

theorem sent_prospect (svc : Service σ) (x : Conversation σ) :
    x.sent <+: (x.prospect svc).sent := by
  unfold prospect
  split
  · exact List.prefix_rfl
  · exact List.prefix_append _ _

theorem run_ask (svc : Service σ) {x : Conversation σ} (he : ¬ x.ending.isSome = true)
    (moves : List Move) : x.run svc (.ask :: moves) = (x.ask svc).run svc moves := by
  have hnone : x.ending = none := by simpa using he
  have hstep : x.step svc .ask = x.ask svc := by unfold step; rw [hnone]
  exact congrArg (run svc · moves) hstep

theorem run_offer (svc : Service σ) {x : Conversation σ} (he : x.ending = none) (n : Nat)
    (moves : List Move) : x.run svc (.offer n :: moves) = (x.offer n).run svc moves := by
  have hstep : x.step svc (.offer n) = x.offer n := by unfold step; rw [he]
  exact congrArg (run svc · moves) hstep

-- The end of a conversation is reached by moves.
theorem exists_run_eq_finish (svc : Service σ) (x : Conversation σ) :
    ∃ moves, x.finish svc = x.run svc moves := by
  fun_induction finish svc x with
  | case1 x he => exact ⟨[], rfl⟩
  | case2 x he y data h ih =>
    obtain ⟨moves, hmoves⟩ := ih
    exact ⟨.ask :: moves, hmoves.trans (run_ask svc he moves).symm⟩
  | case3 x he y h z hl ih =>
    obtain ⟨moves, hmoves⟩ := ih
    have hy : y.ending = none := (ask_of_receive h).trans (by simpa using he)
    refine ⟨.ask :: .offer y.left.length :: moves, hmoves.trans ?_⟩
    rw [run_ask svc he, run_offer svc hy]
  | case4 x he y h z hl => exact ⟨[.ask], (run_ask svc he []).symm⟩
  | case5 x he y h => exact ⟨[.ask], (run_ask svc he []).symm⟩
  | case6 x he y e h => exact ⟨[.ask], (run_ask svc he []).symm⟩

end Conversation

/-! ## Transports with a server at the other end -/

/-- How one read or write of the client goes. -/
structure Passage where
  /-- What the server does before. -/
  moves : List Move := []
  /-- How many bytes go through at most.  One does in any case. -/
  most : Nat
deriving DecidableEq, Repr, Inhabited

structure Circuit (σ : Type) where
  service : Service σ
  /-- The server's side. -/
  peer : Conversation σ
  /-- How many of the bytes that the server has sent were read. -/
  taken : Nat := 0
  /-- How the next reads go.  There are no others. -/
  reads : List Passage
  /-- How the next writes go.  Later ones take everything. -/
  writes : List Passage
  closed : Bool := false

namespace Circuit

/-- The bytes that the server has sent and the client has not read. -/
def unread (x : Circuit σ) : Bytes := x.peer.sent.drop x.taken

/-- The server makes these moves. -/
def proceed (x : Circuit σ) (moves : List Move) : Circuit σ :=
  { x with peer := x.peer.run x.service moves }

/-- If there is nothing to read, the server does all that it has to do. -/
def await (x : Circuit σ) : Circuit σ :=
  if x.unread = [] then { x with peer := x.peer.finish x.service } else x

def read (n : Nat) (x : Circuit σ) : Except IoError Bytes × Circuit σ :=
  match x.reads with
  | [] => (.ok [], x)
  | passage :: reads =>
    let y := (x.proceed passage.moves).await
    let chunk := y.unread.take (min n (max passage.most 1))
    (.ok chunk, { y with taken := y.taken + chunk.length, reads })

def write (bs : Bytes) (x : Circuit σ) : Except IoError Nat × Circuit σ :=
  let passage := x.writes.headD { most := bs.length }
  let piece := bs.take (max passage.most 1)
  let y := x.proceed passage.moves
  (.ok piece.length, { y with peer := y.peer.given piece, writes := x.writes.tail })

theorem read_length {n : Nat} {x : Circuit σ} {chunk : Bytes} (h : (x.read n).1 = .ok chunk) :
    chunk.length ≤ n := by
  unfold read at h
  split at h
  · cases h
    exact Nat.zero_le n
  · cases h
    exact Nat.le_trans (List.length_take_le _ _) (Nat.min_le_left _ _)

theorem read_budget (n : Nat) (x : Circuit σ) :
    (x.read n).2.reads.length + (Transport.goesOn (x.read n).1).toNat ≤ x.reads.length := by
  unfold read
  split
  · next h => simp [h, Transport.goesOn]
  · next h =>
    rw [h]
    exact Nat.add_le_add_left (Bool.toNat_le _) _

instance : Transport (Circuit σ) where
  read := read
  write := write
  flush x := (.ok (), x)
  connected x := !x.closed && x.peer.ending.isNone
  close x := { x with closed := true }
  budget x := x.reads.length
  read_length _ _ _ h := read_length h
  read_budget := read_budget
  write_budget _ _ := Nat.le_refl _
  flush_budget _ := Nat.le_refl _

/-- The bytes that the client has not read, of all that the server is going to send for what was
written. -/
def due (x : Circuit σ) : Bytes := (x.peer.prospect x.service).sent.drop x.taken

/-! ## What is owed to the client -/

/-- The client is going to read the bytes in `due`, and then what the server sends according to
`later`, which says what the session comes to once more bytes were written. -/
structure Owes (x : Circuit σ) (due : Bytes) (later : Bytes → Transcript σ) : Prop where
  opened : x.closed = false
  ready : x.peer.connection.reader.Ready
  taken : x.taken ≤ x.peer.sent.length
  prospect : ∀ more, (x.peer.given more).prospect x.service =
    (later more).after (x.peer.sent.take x.taken ++ due)

section

variable {x : Circuit σ} {due : Bytes} {later : Bytes → Transcript σ}

-- Bytes that are sent whatever is written are due.
theorem Owes.shift {bytes : Bytes} (h : x.Owes due fun more => (later more).after bytes) :
    x.Owes (due ++ bytes) later where
  opened := h.opened
  ready := h.ready
  taken := h.taken
  prospect := by
    intro more
    rw [h.prospect, Transcript.after_after, List.append_assoc]

theorem Owes.proceed (h : x.Owes due later) (moves : List Move) :
    (x.proceed moves).Owes due later := by
  have hsent := Conversation.sent_run x.service x.peer moves
  have htaken : (x.proceed moves).peer.sent.take x.taken = x.peer.sent.take x.taken := by
    obtain ⟨more, hmore⟩ := hsent
    show (x.peer.run x.service moves).sent.take x.taken = _
    rw [← hmore, List.take_append_of_le_length h.taken]
  exact {
    opened := h.opened
    ready := (Conversation.run_prospect h.ready x.service moves).1
    taken := Nat.le_trans h.taken hsent.length_le
    prospect := by
      intro more
      show ((x.peer.run x.service moves).given more).prospect x.service =
        (later more).after ((x.proceed moves).peer.sent.take x.taken ++ due)
      rw [Conversation.run_given h.ready, h.prospect, htaken] }

theorem Owes.await (h : x.Owes due later) : x.await.Owes due later := by
  unfold Circuit.await
  split
  · obtain ⟨moves, hmoves⟩ := Conversation.exists_run_eq_finish x.service x.peer
    rw [hmoves]
    exact h.proceed moves
  · exact h

-- What a quiet server is going to send in all, if nothing more is written.
theorem Owes.sent (h : x.Owes due later) (hquiet : (later []).sent = []) :
    (x.peer.prospect x.service).sent = x.peer.sent.take x.taken ++ due := by
  have hprospect := h.prospect []
  rw [Conversation.given_nil] at hprospect
  rw [hprospect, Transcript.after, hquiet, List.append_nil]

theorem Owes.due_eq (h : x.Owes due later) (hquiet : (later []).sent = []) : x.due = due := by
  have hlength : (x.peer.sent.take x.taken).length = x.taken := List.length_take_of_le h.taken
  rw [Circuit.due, h.sent hquiet, List.drop_left' hlength]

-- What was sent and not read is due.
theorem Owes.unread (h : x.Owes due later) (hquiet : (later []).sent = []) :
    x.unread <+: due := by
  have hsent := Conversation.sent_prospect x.service x.peer
  rw [h.sent hquiet] at hsent
  rw [← List.prefix_append_right_inj (x.peer.sent.take x.taken), Circuit.unread,
    List.take_append_drop]
  exact hsent

-- If anything is due, there is something to read once the server has done all.
theorem Owes.unread_await (h : x.Owes due later) (hquiet : (later []).sent = [])
    (hdue : due ≠ []) : x.await.unread ≠ [] := by
  unfold Circuit.await
  split
  · have hfinish := congrArg Transcript.sent (Conversation.finish_prospect h.ready x.service)
    rw [h.sent hquiet] at hfinish
    have hlength : (x.peer.sent.take x.taken).length = x.taken :=
      List.length_take_of_le h.taken
    show ((x.peer.finish x.service).sent).drop x.taken ≠ []
    rw [show (x.peer.finish x.service).sent = _ from hfinish, List.drop_left' hlength]
    exact hdue
  · next hunread => exact hunread

-- Bytes that are read are due no more.
theorem Owes.take {chunk more : Bytes} (h : x.Owes (chunk ++ more) later)
    (hchunk : chunk <+: x.unread) (reads : List Passage) :
    Owes { x with taken := x.taken + chunk.length, reads } more later := by
  have hle : chunk.length ≤ x.peer.sent.length - x.taken := by
    rw [← List.length_drop]
    exact hchunk.length_le
  have htaken : x.peer.sent.take (x.taken + chunk.length) =
      x.peer.sent.take x.taken ++ chunk := by
    rw [List.take_add]
    exact congrArg (x.peer.sent.take x.taken ++ ·) (List.prefix_iff_eq_take.1 hchunk).symm
  have hall := h.taken
  exact {
    opened := h.opened
    ready := h.ready
    taken := by
      show x.taken + chunk.length ≤ x.peer.sent.length
      omega
    prospect := by
      intro later'
      show (x.peer.given later').prospect x.service =
        (later later').after (x.peer.sent.take (x.taken + chunk.length) ++ more)
      rw [htaken, List.append_assoc]
      exact h.prospect later' }

theorem service_await (x : Circuit σ) : x.await.service = x.service := by
  unfold Circuit.await
  split <;> rfl

/-- **A read gives some of what is due.** -/
theorem Owes.read (h : x.Owes due later) (hquiet : (later []).sent = []) (hdue : due ≠ [])
    (hreads : x.reads ≠ []) {n : Nat} (hn : 0 < n) :
    ∃ chunk y more, x.read n = (.ok chunk, y) ∧ chunk ≠ [] ∧ due = chunk ++ more ∧
      y.Owes more later ∧ y.service = x.service ∧ x.reads.length = y.reads.length + 1 := by
  obtain ⟨passage, reads, hcons⟩ := List.exists_cons_of_ne_nil hreads
  have hp := h.proceed passage.moves
  let y := (x.proceed passage.moves).await
  let chunk := y.unread.take (min n (max passage.most 1))
  have hy : y.Owes due later := hp.await
  have hchunk : chunk <+: y.unread := List.take_prefix _ _
  obtain ⟨more, hmore⟩ := hchunk.trans (hy.unread hquiet)
  have hsome : chunk ≠ [] := by
    have hunread : y.unread ≠ [] := hp.unread_await hquiet hdue
    have hpos : min n (max passage.most 1) ≠ 0 := by omega
    simp [chunk, List.take_eq_nil_iff, hunread, hpos]
  refine ⟨chunk, { y with taken := y.taken + chunk.length, reads }, more, ?_, hsome, hmore.symm,
    ?_, service_await _, ?_⟩
  · rw [Circuit.read, hcons]
  · rw [← hmore] at hy
    exact hy.take hchunk reads
  · rw [hcons]
    rfl

/-- **A write takes some of the bytes**, after which the rest is still to come. -/
theorem Owes.write (h : x.Owes due later) (b : UInt8) (bs : Bytes) :
    ∃ n y, x.write (b :: bs) = (.ok (n + 1), y) ∧
      y.Owes due (fun more => later ((b :: bs).take (n + 1) ++ more)) ∧ y.service = x.service ∧
      y.reads = x.reads := by
  let passage := x.writes.headD { most := (b :: bs).length }
  let piece := (b :: bs).take (max passage.most 1)
  let y := x.proceed passage.moves
  have hy : y.Owes due later := h.proceed passage.moves
  have hpos : 0 < piece.length := by
    rw [List.length_take, List.length_cons]
    omega
  have htake : (b :: bs).take (piece.length - 1 + 1) = piece := by
    rw [Nat.sub_add_cancel hpos]
    exact (List.prefix_iff_eq_take.1 (List.take_prefix _ _)).symm
  refine ⟨piece.length - 1, { y with peer := y.peer.given piece, writes := x.writes.tail }, ?_, ?_,
    rfl, rfl⟩
  · rw [Nat.sub_add_cancel hpos]
    rfl
  · rw [htake]
    exact {
      opened := hy.opened
      ready := hy.ready
      taken := hy.taken
      prospect := by
        intro more
        show ((y.peer.given piece).given more).prospect y.service = _
        rw [Conversation.given_given]
        exact hy.prospect (piece ++ more) }

end

end Circuit

end LineFrame
