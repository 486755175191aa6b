import ArmControl.Socket.Basic

/-! # Receiving

The client takes one event at a time, and looks at the sockets only when it has none.  `looks` is
what it would be told if it did nothing else than look: each time first the fault that the look ends
with, if it does, and then the events that it has found.  `receiveEach` takes one event after the
other.

Receiving conserves what the looks tell: the answers are what waited already, what the looks told
and then the end of the stream as often as it is asked for, up to the events that wait still
(`receiveEach_receives`).  Timeouts are left out of the answers, since they tell nothing. -/

namespace ArmControl

/-- What the client is told when it asks for an event. -/
abbrev Answer := Except LinkError Incoming

namespace Answer

/-- Nothing has come in time. -/
def isTimeout : Answer → Bool
  | .error .timeout => true
  | _ => false

/-- The answers without the timeouts. -/
def untimed (answers : List Answer) : List Answer := answers.filter fun a => !a.isTimeout

theorem untimed_append (a b : List Answer) : untimed (a ++ b) = untimed a ++ untimed b :=
  List.filter_append a b

theorem untimed_error {err : LinkError} (h : err ≠ .timeout) :
    untimed [.error err] = [.error err] := by
  cases err with
  | timeout => exact absurd rfl h
  | io | closed | invalidAddress | invalidFrame | noPeer => rfl

theorem mem_untimed {answers : List Answer} {a : Answer} :
    a ∈ untimed answers ↔ a ∈ answers ∧ a.isTimeout = false := by
  simp only [untimed, List.mem_filter, Bool.not_eq_true']

end Answer

namespace Sockets

variable {s s' s₁ s₂ : Sockets} {w : Wake} {wakes left : List Wake} {answers : List Answer}

/-! ### Looking -/

/-- The client can still receive. -/
def IsOpen (s : Sockets) : Prop := s.closed = false ∧ s.shutdown = false

/-- The sockets without the events that wait. -/
def emptied (s : Sockets) : Sockets := { s with pending := [] }

theorem emptied_of_pending (h : s.pending = []) : s.emptied = s := by
  unfold emptied
  rw [← h]

/-- What a look tells: the fault that it ends with, and the events that it has found. -/
def told (result : Except LinkError Unit) (found : List Incoming) : List Answer :=
  match result with
  | .error err => .error err :: found.map .ok
  | .ok () => found.map .ok

/-- What one look after the other tells. -/
def looks : List Wake → Sockets → List Answer × Sockets
  | [], s => ([], s)
  | w :: later, s =>
    let (result, s) := s.look w
    let (answers, s') := looks later s.emptied
    (told result s.pending ++ answers, s')

theorem looks_append (a b : List Wake) (s : Sockets) : s.looks (a ++ b) =
    ((s.looks a).1 ++ ((s.looks a).2.looks b).1, ((s.looks a).2.looks b).2) := by
  induction a generalizing s with
  | nil => rfl
  | cons w a ih =>
      simp only [List.cons_append, looks, ih, List.append_assoc]

/-- Something that the client did with the sockets has neither waited too long, nor closed them, nor
written. -/
structure Harmless (s : Sockets) (r : Except LinkError Unit × Sockets) : Prop where
  ne_timeout : r.1 ≠ .error .timeout
  isOpen : s.IsOpen → r.2.IsOpen
  written : r.2.written = s.written

theorem harmless_ok (s : Sockets) : Harmless s (.ok (), s) := ⟨nofun, id, rfl⟩

theorem Harmless.trans {r : Except LinkError Unit} {r' : Except LinkError Unit × Sockets}
    (h : Harmless s (r, s₁)) (h' : Harmless s₁ r') : Harmless s r' :=
  ⟨h'.ne_timeout, fun hs => h'.isOpen (h.isOpen hs), h'.written.trans h.written⟩

theorem harmless_readStream (reads : List StreamRead) (s : Sockets) :
    Harmless s (s.readStream reads) := by
  fun_induction readStream reads s with
  | case1 | case4 | case5 | case6 => exact ⟨nofun, id, rfl⟩
  | case2 _ _ _ ih => exact ⟨ih.ne_timeout, ih.isOpen, ih.written⟩
  | case3 _ _ ih => exact ih

theorem harmless_queueFrames (s : Sockets) : Harmless s s.queueFrames := by
  unfold queueFrames
  dsimp only
  split <;> exact ⟨nofun, id, rfl⟩

theorem harmless_drain (reads : List StreamRead) (s : Sockets) : Harmless s (s.drain reads) := by
  unfold drain
  split
  · exact harmless_ok s
  · have hread := harmless_readStream reads s
    generalize s.readStream reads = r at hread ⊢
    obtain ⟨_ | _, s₁⟩ := r
    · exact hread
    · exact hread.trans (harmless_queueFrames s₁)

theorem harmless_drainDatagrams (reads : List DatagramRead) (s : Sockets) :
    Harmless s (s.drainDatagrams reads) := by
  fun_induction drainDatagrams reads s with
  | case1 | case4 => exact ⟨nofun, id, rfl⟩
  | case2 _ _ _ _ ih => exact ⟨ih.ne_timeout, ih.isOpen, ih.written⟩
  | case3 _ _ ih => exact ih

theorem harmless_look (w : Wake) (s : Sockets) : Harmless s (s.look w) := by
  cases w with
  | failed text => exact ⟨nofun, id, rfl⟩
  | news stream datagrams =>
      have hstream : Harmless s (stream.elim (.ok (), s) fun reads => s.drain reads) := by
        cases stream with
        | none => exact harmless_ok s
        | some reads => exact harmless_drain reads s
      unfold look
      dsimp only
      generalize stream.elim (.ok (), s) (fun reads => s.drain reads) = r at hstream ⊢
      obtain ⟨_ | _, s₁⟩ := r
      · exact hstream
      · exact hstream.trans (harmless_drainDatagrams datagrams s₁)

/-! ### Receiving -/

/-- What the client was answered is what waited and what the looks told, and then that the stream
has ended, as often as it has asked again. -/
structure Receives (s : Sockets) (looked : List Wake) (answers : List Answer) (again : Nat)
    (s' : Sockets) : Prop where
  conserved : Answer.untimed answers ++ s'.pending.map .ok =
    s.pending.map .ok ++ (s.emptied.looks looked).1 ++ List.replicate again (.ok .closed)
  emptied : s'.emptied = (s.emptied.looks looked).2
  isOpen : s'.IsOpen
  /-- The end is told only when nothing waits. -/
  atEnd : 0 < again → s'.pending = [] ∧ s'.farClosed = true
  /-- The sockets are not looked at behind the end. -/
  noLook : s.farClosed = true → looked = []

namespace Receives

variable {a b : List Wake} {m n : Nat} {x y : List Answer}

theorem refl (h : s.IsOpen) : Receives s [] [] 0 s where
  conserved := by simp [Answer.untimed, looks]
  emptied := rfl
  isOpen := h
  atEnd := nofun
  noLook _ := rfl

/-- What has ended stays ended. -/
theorem farClosed (h : Receives s a x m s₁) (hend : s.farClosed = true) : s₁.farClosed = true := by
  have hsame := h.emptied
  rw [h.noLook hend] at hsame
  exact (congrArg Sockets.farClosed hsame : s₁.emptied.farClosed = s.emptied.farClosed).trans hend

theorem append (h₁ : Receives s a x m s₁) (h₂ : Receives s₁ b y n s₂) :
    Receives s (a ++ b) (x ++ y) (m + n) s₂ where
  conserved := by
    rw [Answer.untimed_append, List.append_assoc, h₂.conserved, looks_append, ← h₁.emptied]
    rcases Nat.eq_zero_or_pos m with rfl | hm
    · have hfirst := h₁.conserved
      simp only [List.replicate_zero, List.append_nil] at hfirst
      simp only [Nat.zero_add, ← List.append_assoc, hfirst]
    · -- after the end nothing waits and nothing more is looked at
      obtain ⟨hpending, hend⟩ := h₁.atEnd hm
      have hfirst := h₁.conserved
      rw [hpending, List.map_nil, List.append_nil] at hfirst
      simp only [h₂.noLook hend, hpending, hfirst, looks, List.map_nil, List.nil_append,
        List.append_nil, List.append_assoc, List.replicate_append_replicate]
  emptied := by rw [looks_append, ← h₁.emptied, h₂.emptied]
  isOpen := h₂.isOpen
  atEnd h := by
    rcases Nat.eq_zero_or_pos n with rfl | hn
    · obtain ⟨hpending, hend⟩ := h₁.atEnd h
      have hsecond := h₂.conserved
      simp only [h₂.noLook hend, hpending, looks, List.map_nil, List.append_nil,
        List.replicate_zero, List.append_eq_nil_iff, List.map_eq_nil_iff] at hsecond
      exact ⟨hsecond.2, h₂.farClosed hend⟩
    · exact h₂.atEnd hn
  noLook h := by rw [h₁.noLook h, h₂.noLook (h₁.farClosed h), List.append_nil]

end Receives

/-- The answer to a question is an event that waits; if none does, the sockets are looked at until
there is something to tell, unless they have ended. -/
theorem receive_receives (h : s.IsOpen) (wakes : List Wake) :
    ∃ looked again, wakes = looked ++ (s.receive wakes).2.2 ∧
      Receives s looked [(s.receive wakes).1] again (s.receive wakes).2.1 := by
  fun_induction receive wakes s with
  | case1 wakes s hclosed =>
      rw [h.1, h.2] at hclosed
      cases hclosed
  | case2 wakes s hclosed event rest hpending =>
      refine ⟨[], 0, rfl, ?_, rfl, h, nofun, fun _ => rfl⟩
      simp [hpending, Answer.untimed, Answer.isTimeout, looks]
  | case3 wakes s hclosed hpending hend =>
      refine ⟨[], 1, rfl, ?_, rfl, h, fun _ => ⟨hpending, hend⟩, fun _ => rfl⟩
      simp [hpending, Answer.untimed, Answer.isTimeout, looks]
  | case4 s hclosed hpending hend =>
      refine ⟨[], 0, rfl, ?_, rfl, h, nofun, fun _ => rfl⟩
      simp [hpending, Answer.untimed, Answer.isTimeout, looks]
  | case5 s hclosed hpending hend w later err s₁ hlook =>
      have hharmless := harmless_look w s
      rw [hlook] at hharmless
      have herr : err ≠ .timeout := fun htimeout => hharmless.ne_timeout (congrArg _ htimeout)
      have hlooks : s.emptied.looks [w] = (told (.error err) s₁.pending, s₁.emptied) := by
        simp only [emptied_of_pending hpending, looks, hlook, List.append_nil]
      refine ⟨[w], 0, rfl, ?_, by rw [hlooks], hharmless.isOpen h, nofun, fun h => absurd h hend⟩
      rw [hlooks, hpending, Answer.untimed_error herr]
      simp [told]
  | case6 s hclosed hpending hend w later s₁ hlook ih =>
      have hopen := (harmless_look w s).isOpen h
      rw [hlook] at hopen
      obtain ⟨looked, again, hwakes, hreceives⟩ := ih hopen
      have hlooks : s.emptied.looks (w :: looked) =
          (s₁.pending.map .ok ++ (s₁.emptied.looks looked).1, (s₁.emptied.looks looked).2) := by
        simp only [emptied_of_pending hpending, looks, hlook, told]
      refine ⟨w :: looked, again, congrArg (w :: ·) hwakes, ?_, by rw [hlooks, hreceives.emptied],
        hreceives.isOpen, hreceives.atEnd, fun h => absurd h hend⟩
      rw [hlooks, hpending, hreceives.conserved]
      rfl

/-- The client writes nothing while it receives. -/
theorem receive_written (wakes : List Wake) (s : Sockets) :
    (s.receive wakes).2.1.written = s.written := by
  fun_induction receive wakes s with
  | case1 | case2 | case3 | case4 => rfl
  | case5 s _ _ _ w _ _ s₁ hlook =>
      have hwritten := (harmless_look w s).written
      rwa [hlook] at hwritten
  | case6 s _ _ _ w _ s₁ hlook ih =>
      have hwritten := (harmless_look w s).written
      rw [hlook] at hwritten
      exact ih.trans hwritten

/-- Asks for events again and again.  For each question it is given what wakes the client until that
is answered or the time is over; a waking that is not needed is left for the next question. -/
def receiveEach : List (List Wake) → List Wake → Sockets → List Answer × Sockets × List Wake
  | [], left, s => ([], s, left)
  | wakes :: later, left, s =>
    let (answer, s, left) := s.receive (left ++ wakes)
    let (answers, s, left) := receiveEach later left s
    (answer :: answers, s, left)

theorem receiveEach_receives (h : s.IsOpen) (calls : List (List Wake)) (left : List Wake) :
    ∃ looked again, left ++ calls.flatten = looked ++ (s.receiveEach calls left).2.2 ∧
      Receives s looked (s.receiveEach calls left).1 again (s.receiveEach calls left).2.1 := by
  induction calls generalizing left s with
  | nil => exact ⟨[], 0, by simp [receiveEach], .refl h⟩
  | cons wakes later ih =>
      obtain ⟨a, m, ha, hfirst⟩ := receive_receives h (left ++ wakes)
      obtain ⟨b, n, hb, hrest⟩ := ih hfirst.isOpen (s.receive (left ++ wakes)).2.2
      refine ⟨a ++ b, m + n, ?_, hfirst.append hrest⟩
      rw [List.flatten_cons, ← List.append_assoc, ha, List.append_assoc, hb, ← List.append_assoc]
      rfl

/-! ### Behind the end -/

theorem receive_of_pending (h : s.IsOpen) {event : Incoming} {rest : List Incoming}
    (hpending : s.pending = event :: rest) (wakes : List Wake) :
    s.receive wakes = (.ok event, { s with pending := rest }, wakes) := by
  rw [receive.eq_def]
  simp only [h.1, h.2, hpending, Bool.or_self, Bool.false_eq_true, if_false]

theorem receive_of_farClosed (h : s.IsOpen) (hpending : s.pending = [])
    (hend : s.farClosed = true) (wakes : List Wake) :
    s.receive wakes = (.ok .closed, s, wakes) := by
  rw [receive.eq_def]
  simp only [h.1, h.2, hpending, hend, Bool.or_self, Bool.false_eq_true, if_false, if_true]

/-- Once the stream has ended, what waits is handed out, and then that it has ended, for ever.  The
sockets are not looked at again. -/
theorem receiveEach_of_farClosed (h : s.IsOpen) (hend : s.farClosed = true)
    (calls : List (List Wake)) (left : List Wake) :
    (s.receiveEach calls left).1 = (s.pending.map Except.ok).take calls.length ++
        List.replicate (calls.length - s.pending.length) (.ok .closed) ∧
      (s.receiveEach calls left).2.2 = left ++ calls.flatten := by
  induction calls generalizing left s with
  | nil => simp [receiveEach]
  | cons wakes later ih =>
      rw [List.flatten_cons, ← List.append_assoc]
      rcases hpending : s.pending with _ | ⟨event, rest⟩
      · obtain ⟨hanswers, hleft⟩ := ih h hend (left ++ wakes)
        simp only [receiveEach, receive_of_farClosed h hpending hend, hanswers, hpending,
          List.map_nil, List.take_nil, List.nil_append, List.length_nil, List.length_cons,
          Nat.sub_zero, List.replicate_succ]
        exact ⟨trivial, hleft⟩
      · obtain ⟨hanswers, hleft⟩ := ih (s := { s with pending := rest }) h hend (left ++ wakes)
        simp only [receiveEach, receive_of_pending h hpending, hanswers, List.map_cons,
          List.length_cons, List.take_succ_cons, List.cons_append, Nat.add_sub_add_right]
        exact ⟨trivial, hleft⟩

end Sockets
end ArmControl
