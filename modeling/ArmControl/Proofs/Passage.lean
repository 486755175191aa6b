import ArmControl.Proofs.Journal

/-! # From one moment of an engine to another

`Passage e j e'` says that the engine `e` has become `e'` while the stretch `j` of the journal was
written: the last state is the last one that `j` brought, and every request that was tried has used
up one id.  Passages follow one another (`Passage.trans`).

The steps of the engine that touch the link are passages: sending a request (`passage_send`),
sending a command (`sendCommand_cases`), receiving (`receives_intake`), and what happens
meanwhile (`passage_witness`). -/

namespace ArmControl

/-! ### The journal of a link -/

namespace Link

theorem receive_journal {l l' : Link} {event : Incoming} (h : l.receive = (.ok event, l')) :
    l'.journal = l.journal ++ [.taken event] ∨
      (event = .closed ∧ l'.journal = l.journal ++ [.drained]) := by
  unfold receive at h
  split at h
  · simp at h
  · split at h
    · simp only [Prod.mk.injEq, Except.ok.injEq] at h
      obtain ⟨rfl, rfl⟩ := h
      exact .inl rfl
    · split at h
      · simp only [Prod.mk.injEq, Except.ok.injEq] at h
        obtain ⟨rfl, rfl⟩ := h
        exact .inr ⟨rfl, rfl⟩
      · simp at h

theorem receive_journal_of_error {l l' : Link} {err : LinkError}
    (h : l.receive = (.error err, l')) :
    l'.journal = l.journal ++ [.cut] ∨ l'.journal = l.journal ++ [.idle] := by
  unfold receive at h
  split at h
  · simp only [Prod.mk.injEq] at h
    exact .inl (h.2 ▸ rfl)
  · split at h
    · simp at h
    · split at h
      · simp at h
      · simp only [Prod.mk.injEq] at h
        exact .inr (h.2 ▸ rfl)

/-- What happens by itself is written down as something the far end said, or not at all. -/
theorem witness_journal (l : Link) (hs : List Happening) :
    ∃ j : Journal, (l.witness hs).journal = l.journal ++ j ∧ j.Silent ∧ j.events = [] := by
  induction hs generalizing l with
  | nil => exact ⟨[], by simp, Journal.silent_nil, rfl⟩
  | cons h rest ih =>
      obtain ⟨j, hj, hsilent, hevents⟩ := ih (l.happen h)
      have hrest : l.witness (h :: rest) = (l.happen h).witness rest := rfl
      cases h with
      | say cues =>
          refine ⟨[.queued (l.farEnd.playAll cues).1] ++ j, ?_, ?_, ?_⟩
          · rw [hrest, hj]
            simp [happen, queue]
          · exact Journal.Silent.append ⟨rfl, rfl⟩ hsilent
          · rw [Journal.events_append, hevents]
            rfl
      | rescript triggers entries => exact ⟨j, hrest ▸ hj, hsilent, hevents⟩

end Link

namespace Engine

/-! ### Passages -/

/-- The engine `e` has become `e'` while `j` was written into the journal. -/
structure Passage (e : Engine) (j : Journal) (e' : Engine) : Prop where
  journal : e'.link.journal = e.link.journal ++ j
  lastState : e'.lastState = (j.accepted e.lastId).getLast?.or e.lastState
  nextId : e'.session.nextId = e.session.nextId + UInt32.ofNat j.attempts.length

variable {e e' e'' : Engine} {a b j : Journal}

namespace Passage

theorem refl (e : Engine) : Passage e [] e :=
  ⟨(List.append_nil _).symm, rfl, by simp [Journal.attempts]⟩

theorem lastId (h : Passage e j e') : e'.lastId = j.lastId e.lastId := by
  rw [Engine.lastId, h.lastState, Option.map_or]
  rfl

theorem trans (h₁ : Passage e a e') (h₂ : Passage e' b e'') : Passage e (a ++ b) e'' where
  journal := by rw [h₂.journal, h₁.journal, List.append_assoc]
  lastState := by
    rw [h₂.lastState, h₁.lastState, h₁.lastId, Journal.accepted_append, List.getLast?_append,
      Option.or_assoc]
  nextId := by
    rw [h₂.nextId, h₁.nextId, Journal.attempts_append, List.length_append, UInt32.ofNat_add,
      UInt32.add_assoc]

theorem withMotion (h : Passage e j e') (m : Motion) : Passage e j (e'.withMotion m) :=
  ⟨h.journal, h.lastState, h.nextId⟩

theorem of_withMotion {m : Motion} (h : Passage (e.withMotion m) j e') : Passage e j e' :=
  ⟨h.journal, h.lastState, h.nextId⟩

theorem look (h : Passage e j e') : Passage e j e'.look.2 := ⟨h.journal, h.lastState, h.nextId⟩

theorem setController (h : Passage e j e') (mode : Option ControllerMode) :
    Passage e j { e' with controllerMode := mode } := ⟨h.journal, h.lastState, h.nextId⟩

/-- The journal has grown by something that brings no state. -/
theorem of_events_nil (hjournal : e'.link.journal = e.link.journal ++ j)
    (hevents : j.events = []) (hlast : e'.lastState = e.lastState)
    (hid : e'.session.nextId = e.session.nextId + UInt32.ofNat j.attempts.length) :
    Passage e j e' where
  journal := hjournal
  lastState := by simp [Journal.accepted, Journal.states, hevents, records, hlast]
  nextId := hid

/-- The journal has grown by something that neither tries a request nor brings a state. -/
theorem of_attempts_nil (hjournal : e'.link.journal = e.link.journal ++ j)
    (hattempts : j.attempts = []) (hevents : j.events = []) (hlast : e'.lastState = e.lastState)
    (hid : e'.session.nextId = e.session.nextId) : Passage e j e' := by
  refine .of_events_nil hjournal hevents hlast ?_
  rw [hattempts, hid]
  exact (UInt32.add_zero _).symm

end Passage

/-- Looking at the deadline concerns nothing but the clock. -/
theorem look_eq {late : Bool} (h : e.look = (late, e')) :
    e'.motion = e.motion ∧ Passage e [] e' := by
  obtain rfl : e.look.2 = e' := congrArg Prod.snd h
  exact ⟨rfl, (Passage.refl e).look⟩

/-! ### Sending -/

theorem passage_send (request : Request) (e : Engine) :
    ∃ j, Passage e j { e with session := (e.session.send request).2 } ∧
      j.attempts = [request.encode e.session.nextId] ∧ j.commands = [] ∧ j.events = [] := by
  let id := e.session.nextId
  let link := (e.session.link.sendRequest (request.encode id)).2
  have hsend : (e.session.send request).2.link = link ∧
      (e.session.send request).2.nextId = id + 1 := by
    unfold Session.send
    simp only
    split <;> (rename_i h; exact ⟨(congrArg Prod.snd h).symm, rfl⟩)
  have hjournal : ∃ j : Journal, link.journal = e.link.journal ++ j ∧
      j.attempts = [request.encode id] ∧ j.commands = [] ∧ j.events = [] := by
    simp only [link, Link.sendRequest]
    split
    · exact ⟨[.requestRefused (request.encode id)], rfl, rfl, rfl, rfl⟩
    · refine ⟨[.request (request.encode id)] ++
        [.queued (e.session.link.farEnd.onRequest (request.encode id)).1], ?_, rfl, rfl, rfl⟩
      rw [← List.append_assoc]
      rfl
  obtain ⟨j, hj, hattempts, hcommands, hevents⟩ := hjournal
  refine ⟨j, .of_events_nil ?_ hevents rfl ?_, hattempts, hcommands, hevents⟩
  · rw [← hj, ← hsend.1]
    rfl
  · rw [hattempts]
    exact hsend.2

/-- A request goes out under the next id. -/
theorem send_id {request : Request} {s s' : Session} {id : UInt32}
    (h : s.send request = (.ok id, s')) : id = s.nextId := by
  unfold Session.send at h
  simp only at h
  split at h
  · simp at h
  · simp only [Prod.mk.injEq, Except.ok.injEq] at h
    exact h.1.symm

/-- Without a state there is nothing to answer.  Otherwise the command that answers the last state
either goes out, and is the last command from then on, or is refused by a closed link. -/
theorem sendCommand_cases (motion : Option MotionCommand) (torques : Option Torques) (e : Engine) :
    (e.lastState = none ∧ e.sendCommand motion torques = (.ok (), e)) ∨
    ∃ s c, e.lastState = some s ∧
      c = compose s (e.motion.status = .stopping) e.motion.lastCommand motion torques ∧
      ((e.link.closed ∧ ∃ e', e.sendCommand motion torques = (.error .closed, e') ∧
          e'.motion = e.motion ∧ Passage e [.commandRefused c.encode] e') ∨
        e.link.closed = false ∧ ∃ e' said, e.sendCommand motion torques = (.ok (), e') ∧
          e'.motion = { e.motion with lastCommand := some c } ∧
          Passage e [.command c.encode, .queued said] e') := by
  cases hs : e.lastState with
  | none => exact .inl ⟨rfl, by simp [sendCommand, hs]⟩
  | some s =>
      refine .inr ⟨s, _, rfl, rfl, ?_⟩
      simp only [sendCommand, hs, Link.sendDatagram]
      generalize compose s (e.motion.status = .stopping) e.motion.lastCommand motion torques = c
      by_cases hclosed : e.link.closed
      · simp only [hclosed, if_true]
        exact .inl ⟨trivial, _, rfl, rfl, .of_attempts_nil rfl rfl rfl rfl rfl⟩
      · simp only [hclosed, Bool.false_eq_true, if_false]
        generalize e.link.farEnd.onCommand c.encode = said
        refine .inr ⟨trivial, _, said.1, rfl, rfl, .of_attempts_nil ?_ rfl rfl rfl rfl⟩
        exact List.append_assoc e.link.journal [_] [_]

/-! ### Receiving -/

/-- One entry was written that records a receipt, and the motion is as it was. -/
structure Receives (e : Engine) (entry : Entry) (e' : Engine) : Prop where
  passage : Passage e [entry] e'
  silent : Journal.Silent [entry]
  motion : e'.motion = e.motion

/-- A state counts as an event only if it is newer than the last one. -/
def IsNews (last : Option UInt64) : Event → Prop
  | .state s => newerThan last s
  | .reply .. => True

/-- What the entry for a receipt says about the message that was taken, by a client whose last state
had the number `last`. -/
def Documents (last : Option UInt64) (entry : Entry) : Except SessionError Intake → Prop
  | .ok (.event event) => entry.event? = some event ∧ IsNews last event
  | .ok .stale => ∃ s, entry.event? = some (.state s) ∧ ¬ newerThan last s
  | .ok .ended => entry.event? = none
  | .error err => entry.event? = none ∧ err.isFatal

theorem isFresh_eq (e : Engine) (s : State) : e.isFresh s = newerThan e.lastId s := by
  unfold isFresh newerThan
  cases e.lastId <;> rfl

theorem accepted_of_newer {last : Option UInt64} {entry : Entry} {s : State}
    (h : entry.event? = some (.state s)) (hs : newerThan last s) :
    Journal.accepted last [entry] = [s] := by
  simp [Journal.accepted, Journal.states, Journal.events, Event.state?, records, h, hs]

theorem accepted_of_stale {last : Option UInt64} {entry : Entry} {s : State}
    (h : entry.event? = some (.state s)) (hs : ¬ newerThan last s) :
    Journal.accepted last [entry] = [] := by
  simp [Journal.accepted, Journal.states, Journal.events, Event.state?, records, h, hs]

theorem receives_starve {err : LinkError} {link : Link} (hr : e.link.receive = (.error err, link)) :
    ∃ entry, Receives e entry (e.starve err link) ∧ entry.event? = none := by
  have hlink : (e.starve err link).link = link := e.starve_link err link
  have hrest : (e.starve err link).lastState = e.lastState ∧
      (e.starve err link).session.nextId = e.session.nextId ∧
      (e.starve err link).motion = e.motion := by
    cases err <;> exact ⟨rfl, rfl, rfl⟩
  rcases Link.receive_journal_of_error hr with hj | hj
  all_goals
    rw [← hlink] at hj
    exact ⟨_, ⟨.of_attempts_nil hj rfl rfl hrest.1 hrest.2.1, ⟨rfl, rfl⟩, hrest.2.2⟩, rfl⟩

/-- Taking what the link gave writes one entry that says what it was. -/
theorem receives_intake {incoming : Incoming} {link : Link} {result : Except SessionError Intake}
    (hr : e.link.receive = (.ok incoming, link))
    (ha : (e.withLink link).intake incoming = (result, e')) :
    ∃ entry, Receives e entry e' ∧ Documents e.lastId entry result := by
  obtain ⟨rfl, rfl⟩ := Prod.mk.inj ha
  have hjournal := Link.receive_journal hr
  have hid : e.session.nextId = e.session.nextId + UInt32.ofNat 0 := (UInt32.add_zero _).symm
  cases incoming with
  | state datagram =>
      replace hjournal := hjournal.resolve_right (by simp)
      simp only
      split
      · rename_i err hdecode
        have hevent : (Entry.taken (.state datagram)).event? = none := by
          simp [Entry.event?, hdecode, Except.toOption]
        exact ⟨_, ⟨.of_attempts_nil hjournal rfl (by simp [Journal.events, hevent]) rfl rfl,
          ⟨rfl, rfl⟩, rfl⟩, hevent, rfl⟩
      · rename_i s hdecode
        have hevent : (Entry.taken (.state datagram)).event? = some (.state s) := by
          simp [Entry.event?, hdecode, Except.toOption]
        have hfresh := (e.withLink link).isFresh_eq s
        split
        · rename_i hnew
          replace hnew : newerThan e.lastId s := hfresh ▸ hnew
          exact ⟨_, ⟨⟨hjournal, by rw [accepted_of_newer hevent hnew]; rfl, hid⟩, ⟨rfl, rfl⟩, rfl⟩,
            hevent, hnew⟩
        · rename_i hstale
          replace hstale : ¬ newerThan e.lastId s := hfresh ▸ hstale
          exact ⟨_, ⟨⟨hjournal, by rw [accepted_of_stale hevent hstale]; rfl, hid⟩, ⟨rfl, rfl⟩,
            rfl⟩, s, hevent, hstale⟩
  | reply frame =>
      replace hjournal := hjournal.resolve_right (by simp)
      simp only
      split
      · rename_i err hdecode
        have hevent : (Entry.taken (.reply frame)).event? = none := by
          simp [Entry.event?, hdecode, Except.toOption]
        exact ⟨_, ⟨.of_attempts_nil hjournal rfl (by simp [Journal.events, hevent]) rfl rfl,
          ⟨rfl, rfl⟩, rfl⟩, hevent, rfl⟩
      · rename_i header reply hdecode
        have hevent : (Entry.taken (.reply frame)).event? = some (.reply header reply) := by
          simp [Entry.event?, hdecode, Except.toOption]
        refine ⟨_, ⟨⟨hjournal, ?_, hid⟩, ⟨rfl, rfl⟩, rfl⟩, hevent, trivial⟩
        simp only [Journal.accepted, Journal.states, Journal.events, List.filterMap_cons, hevent]
        rfl
  | closed =>
      rcases hjournal with hjournal | ⟨-, hjournal⟩
      all_goals exact ⟨_, ⟨.of_attempts_nil hjournal rfl rfl rfl rfl, ⟨rfl, rfl⟩, rfl⟩, rfl⟩

/-! ### What happens meanwhile -/

theorem passage_witness (e : Engine) (hs : List Happening) :
    ∃ j, Passage e j (e.witness hs) ∧ j.Silent ∧ j.events = [] := by
  obtain ⟨j, hjournal, hsilent, hevents⟩ := e.link.witness_journal hs
  exact ⟨j, .of_attempts_nil hjournal hsilent.1 hevents rfl rfl, hsilent, hevents⟩

end Engine
end ArmControl
