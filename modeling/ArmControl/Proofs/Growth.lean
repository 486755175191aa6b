import ArmControl.Proofs.Path

/-! # What is written along a path

Along a path the journal only grows, and what it tells to have been taken is just what was taken at
the moments of the path (`Path.passage`).  So every entry that a session has written was written in
one of its turns (`exists_turn`). -/

namespace ArmControl

/-- What was taken off the queue. -/
def Entry.taken? : Entry → Option Incoming
  | taken event => some event
  | _ => none

namespace Journal

/-- What was taken off the queue, in order. -/
def taken (j : Journal) : List Incoming := j.filterMap Entry.taken?

@[simp] theorem taken_append (a b : Journal) : taken (a ++ b) = a.taken ++ b.taken := by
  simp [taken]

end Journal

/-! ### The link -/

namespace Link

/-- A refused request is noted alone; one that is sent is followed by what the far end says. -/
theorem sendRequest_journal (l : Link) (frame : Bytes) :
    ∃ entry said, (l.sendRequest frame).2.journal = l.journal ++ entry :: said ∧
      entry.attempt? = some frame ∧ Journal.Silent said ∧ Journal.taken (entry :: said) = [] := by
  unfold sendRequest
  split
  · exact ⟨.requestRefused frame, [], rfl, rfl, Journal.silent_nil, rfl⟩
  · refine ⟨.request frame, [.queued (l.farEnd.onRequest frame).1], ?_, rfl, ⟨rfl, rfl⟩, rfl⟩
    simp [queue, note]

theorem witness_taken {l : Link} {hs : List Happening} {j : Journal}
    (h : (l.witness hs).journal = l.journal ++ j) : j.taken = [] := by
  induction hs generalizing l j with
  | nil =>
      have hnil : j = [] := by simpa using h
      rw [hnil]
      rfl
  | cons happening rest ih =>
      change ((l.happen happening).witness rest).journal = _ at h
      cases happening with
      | say cues =>
          obtain ⟨i, hi, -⟩ := (l.happen (.say cues)).witness_journal rest
          have htaken := ih hi
          rw [hi] at h
          have hj : j = .queued (l.farEnd.playAll cues).1 :: i := by
            simpa [happen, queue] using h.symm
          rw [hj]
          exact htaken
      | rescript triggers entries => exact ih h

/-- Receiving writes one entry, which tells what was taken off the queue. -/
theorem receive_entry (l : Link) :
    ∃ entry : Entry, l.receive.2.journal = l.journal ++ [entry] ∧
      entry.taken? = if l.closed || l.shutdown then none else l.pending.head? := by
  unfold receive
  split
  · exact ⟨.cut, rfl, rfl⟩
  · cases hpending : l.pending with
    | nil =>
        simp only
        split
        · exact ⟨.drained, rfl, rfl⟩
        · exact ⟨.idle, rfl, rfl⟩
    | cons event rest => exact ⟨.taken event, rfl, rfl⟩

end Link

namespace Engine

variable {e e₀ e' : Engine} {ms : List Moment}

/-! ### Paths -/

/-- A request is the first thing that is written when it is sent. -/
theorem passage_send_first (request : Request) (e : Engine) :
    ∃ entry said, Passage e (entry :: said) { e with session := (e.session.send request).2 } ∧
      entry.attempt? = some (request.encode e.session.nextId) ∧ Journal.Silent said ∧
      Journal.taken (entry :: said) = [] := by
  obtain ⟨j, hpassage, -⟩ := passage_send request e
  obtain ⟨entry, said, hjournal, hattempt, hsilent, htaken⟩ :=
    e.link.sendRequest_journal (request.encode e.session.nextId)
  have hlink : (e.session.send request).2.link =
      (e.link.sendRequest (request.encode e.session.nextId)).2 := by
    unfold Session.send
    simp only
    split <;> (rename_i h; exact (congrArg Prod.snd h).symm)
  rw [← hlink] at hjournal
  obtain rfl := List.append_cancel_left (hpassage.journal.symm.trans hjournal)
  exact ⟨entry, said, hpassage, hattempt, hsilent, htaken⟩

/-- An act takes nothing. -/
theorem Act.passage (h : Act e e') : ∃ j, Passage e j e' ∧ j.taken = [] := by
  cases h with
  | motion m => exact ⟨[], (Passage.refl e).withMotion m, rfl⟩
  | look => exact ⟨[], (Passage.refl e).look, rfl⟩
  | controller mode => exact ⟨[], (Passage.refl e).setController mode, rfl⟩
  | send request =>
      obtain ⟨entry, said, hpassage, -, -, htaken⟩ := passage_send_first request e
      exact ⟨_, hpassage, htaken⟩
  | command motion torques =>
      rcases e.sendCommand_cases motion torques with ⟨-, hsend⟩ |
        ⟨s, c, -, -, ⟨-, e₁, hsend, -, hpassage⟩ | ⟨-, e₁, said, hsend, -, hpassage⟩⟩
      · exact ⟨[], by rw [hsend]; exact .refl e, rfl⟩
      · exact ⟨_, by rw [hsend]; exact hpassage, rfl⟩
      · exact ⟨_, by rw [hsend]; exact hpassage, rfl⟩
  | happen happenings =>
      obtain ⟨j, hpassage, -⟩ := e.passage_witness happenings
      exact ⟨j, hpassage, Link.witness_taken hpassage.journal⟩

theorem received_link (e : Engine) : e.received.link = e.link.receive.2 := by
  rcases hr : e.link.receive with ⟨err | incoming, link⟩ <;> simp only [received, hr]
  · exact starve_link e err link
  · exact (e.withLink link).intake_link incoming

/-- A receipt writes one entry, which tells what was taken off the queue. -/
theorem receives_received (e : Engine) (awaited : Option (FrameKind × UInt32)) :
    ∃ entry, Receives e entry e.received ∧ entry.taken? = Moment.event? ⟨e, awaited⟩ := by
  have hreceives : ∃ entry, Receives e entry e.received := by
    rcases hr : e.link.receive with ⟨err | incoming, link⟩ <;> simp only [received, hr]
    · obtain ⟨entry, hreceives, -⟩ := receives_starve hr
      exact ⟨entry, hreceives⟩
    · obtain ⟨entry, hreceives, -⟩ := receives_intake hr (Prod.eta _).symm
      exact ⟨entry, hreceives⟩
  obtain ⟨entry, hreceives⟩ := hreceives
  obtain ⟨entry', hjournal, htaken⟩ := e.link.receive_entry
  rw [← received_link] at hjournal
  have heq := List.append_cancel_left (hreceives.passage.journal.symm.trans hjournal)
  obtain rfl := List.singleton_inj.1 heq
  exact ⟨entry, hreceives, htaken⟩

/-- Along a path the journal grows, and it tells what was taken at the moments of the path. -/
theorem Path.passage (h : Path e ms e') :
    ∃ j, Passage e j e' ∧ j.taken = ms.filterMap Moment.event? := by
  induction h with
  | refl e => exact ⟨[], .refl e, rfl⟩
  | act hact _ ih =>
      obtain ⟨i, hpassage₁, htaken₁⟩ := hact.passage
      obtain ⟨j, hpassage₂, htaken₂⟩ := ih
      refine ⟨i ++ j, hpassage₁.trans hpassage₂, ?_⟩
      rw [Journal.taken_append, htaken₁, htaken₂]
      rfl
  | take awaited _ ih =>
      obtain ⟨entry, hreceives, htaken₁⟩ := receives_received _ awaited
      obtain ⟨j, hpassage₂, htaken₂⟩ := ih
      refine ⟨[entry] ++ j, hreceives.passage.trans hpassage₂, ?_⟩
      rw [Journal.taken_append, htaken₂, List.filterMap_cons, ← htaken₁, Journal.taken,
        List.filterMap_cons]
      cases entry.taken? <;> rfl

/-! ### Turns -/

theorem turn_passage (t : Turn) (e : Engine) : ∃ j, Passage e j (e.turn t) := by
  obtain ⟨j, hpassage, -⟩ := (path_turn t e).passage
  exact ⟨j, hpassage⟩

theorem after_passage (turns : List Turn) (e : Engine) : ∃ j, Passage e j (e.after turns) := by
  obtain ⟨j, hpassage, -⟩ := (path_after turns e).passage
  exact ⟨j, hpassage⟩

/-- An entry that was written on the way from `e` by `e₁` to `e'` was written before `e₁`, or
afterwards. -/
theorem Passage.split {e e₁ e' : Engine} {i j k l : Journal} {entry : Entry}
    (h : Passage e (k ++ entry :: l) e') (h₁ : Passage e i e₁) (h₂ : Passage e₁ j e') :
    (∃ m, i = k ++ entry :: m) ∨ ∃ m, k = i ++ m ∧ j = m ++ entry :: l := by
  have heq : i ++ j = k ++ entry :: l :=
    List.append_cancel_left ((h₁.trans h₂).journal.symm.trans h.journal)
  rcases List.append_eq_append_iff.1 heq with ⟨m, hk, hj⟩ | ⟨m, hi, hrest⟩
  · exact .inr ⟨m, hk, hj⟩
  · cases m with
    | nil =>
        rw [List.append_nil] at hi
        exact .inr ⟨[], by rw [List.append_nil, hi], hrest.symm⟩
    | cons entry' m =>
        obtain ⟨rfl, rfl⟩ := List.cons.inj hrest
        exact .inl ⟨m, hi⟩

/-- Every entry was written in some turn: `i` is what had passed before that turn, and `k` what
passed in the turn before the entry was written. -/
theorem exists_turn {turns : List Turn} {a b : Journal} {entry : Entry}
    (h : (e₀.after turns).link.journal = e₀.link.journal ++ (a ++ entry :: b)) :
    ∃ before t later i k l, turns = before ++ t :: later ∧ a = i ++ k ∧
      (e₀.after before).link.journal = e₀.link.journal ++ i ∧
      Passage (e₀.after before) (k ++ entry :: l) ((e₀.after before).turn t) := by
  induction turns using List.reverseRecOn generalizing b with
  | nil => simp [after] at h
  | append_singleton turns t ih =>
      obtain ⟨i, hbefore⟩ := after_passage turns e₀
      obtain ⟨j, hturn⟩ := turn_passage t (e₀.after turns)
      obtain ⟨j', hall⟩ := after_passage (turns ++ [t]) e₀
      obtain rfl := List.append_cancel_left (hall.journal.symm.trans h)
      rw [after_concat] at hall
      rcases hall.split hbefore hturn with ⟨m, rfl⟩ | ⟨m, rfl, rfl⟩
      · obtain ⟨before, t', later, i', k, l, rfl, hi, hi', hturn'⟩ := ih hbefore.journal
        exact ⟨before, t', later ++ [t], i', k, l, by simp, hi, hi', hturn'⟩
      · exact ⟨turns, t, [], i, m, b, rfl, rfl, hbefore.journal, hturn⟩

end Engine
end ArmControl
