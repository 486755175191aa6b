import ArmControl.Proofs.Observation
import ArmControl.Proofs.Wait

/-! # What a control cycle can do

`poll_cases` lists how a wait for the next state ends: at most one state is accepted, and it is the
one that decides; replies that were passed over have at most put a final status on record.
`update_cases` reduces a control cycle to what it sends first and to that wait. -/

namespace ArmControl

/-- The final status on record is the one from before, or else one of the replies in `j` told the
success of the motion in progress. -/
def Motion.Credits (m : Motion) (j : Journal) (outcome : Option MoveStatus) : Prop :=
  outcome = m.outcome ∨
    outcome = some .success ∧ ∃ id, m.current = some id ∧ .move .success ∈ j.repliesTo .move id

theorem Motion.Credits.append {m : Motion} {j : Journal} {outcome : Option MoveStatus}
    (h : m.Credits j outcome) (j' : Journal) : m.Credits (j ++ j') outcome := by
  rcases h with h | ⟨h, id, hid, hmem⟩
  · exact .inl h
  · exact .inr ⟨h, id, hid, Journal.mem_repliesTo_left hmem j'⟩

namespace Engine

variable {e e' e₁ : Engine} {j : Journal} {entry : Entry}
  {result : Except SessionError (Option State)}

/-! ### One more entry -/

theorem Passage.accepted_concat (h : Passage e j e₁) (entry : Entry) :
    Journal.accepted e.lastId (j ++ [entry]) =
      j.accepted e.lastId ++ Journal.accepted e₁.lastId [entry] := by
  rw [Journal.accepted_append, ← h.lastId]

theorem accepted_of_event_none (last : Option UInt64) (h : entry.event? = none) :
    Journal.accepted last [entry] = [] := by
  simp [Journal.accepted, Journal.states, Journal.events, h, records]

theorem accepted_of_reply (last : Option UInt64) {header : Header} {reply : Reply}
    (h : entry.event? = some (.reply header reply)) : Journal.accepted last [entry] = [] := by
  simp only [Journal.accepted, Journal.states, Journal.events, List.filterMap_cons, h]
  rfl

theorem repliesTo_of_reply {header : Header} {reply : Reply}
    (h : entry.event? = some (.reply header reply)) (kind : FrameKind) (id : UInt32) :
    Journal.repliesTo kind id [entry] =
      if reply.kind = kind ∧ header.id = id then [reply] else [] := by
  rw [Entry.kind_of_event? h]
  by_cases hmatch : header.kind = kind ∧ header.id = id <;>
    simp [Journal.repliesTo, Journal.replies, Journal.events, h, Event.reply?, hmatch]

theorem repliesTo_of_state {s : State} (h : entry.event? = some (.state s)) (kind : FrameKind)
    (id : UInt32) : Journal.repliesTo kind id [entry] = [] := by
  simp [Journal.repliesTo, Journal.replies, Journal.events, h, Event.reply?]

theorem repliesTo_of_event_none (h : entry.event? = none) (kind : FrameKind) (id : UInt32) :
    Journal.repliesTo kind id [entry] = [] := by
  simp [Journal.repliesTo, Journal.replies, Journal.events, h]

/-! ### Waiting for a state -/

theorem judgeState_none {event : Event} {m m' : Motion} (h : judgeState event m = (none, m')) :
    ∃ header reply, event = .reply header reply ∧ m.handle header reply = (.ok (), m') := by
  cases event with
  | state s =>
      simp only [judgeState] at h
      split at h <;> simp at h
  | reply header reply =>
      simp only [judgeState] at h
      split at h
      · simp at h
      · rename_i m₁ hhandle
        obtain ⟨-, rfl⟩ := Prod.mk.inj h
        exact ⟨header, reply, rfl, hhandle⟩

theorem judgeState_some {event : Event} {m m' : Motion}
    (h : judgeState event m = (some result, m')) :
    (∃ s, event = .state s ∧ m.observe s.motionMode = (.ok (), m') ∧ result = .ok (some s)) ∨
    (∃ s err, event = .state s ∧ m.observe s.motionMode = (.error err, m') ∧ result = .error err) ∨
    ∃ header reply err, event = .reply header reply ∧ m.handle header reply = (.error err, m') ∧
      result = .error err := by
  cases event with
  | state s =>
      simp only [judgeState] at h
      split at h
      · rename_i err m₁ hobserve
        simp only [Prod.mk.injEq, Option.some.injEq] at h
        obtain ⟨rfl, rfl⟩ := h
        exact .inr (.inl ⟨s, err, rfl, hobserve, rfl⟩)
      · rename_i m₁ hobserve
        simp only [Prod.mk.injEq, Option.some.injEq] at h
        obtain ⟨rfl, rfl⟩ := h
        exact .inl ⟨s, rfl, hobserve, rfl⟩
  | reply header reply =>
      simp only [judgeState] at h
      split at h
      · rename_i err m₁ hhandle
        simp only [Prod.mk.injEq, Option.some.injEq] at h
        obtain ⟨rfl, rfl⟩ := h
        exact .inr (.inr ⟨header, reply, err, rfl, hhandle, rfl⟩)
      · simp at h

/-- How a wait for the next state ends: `m` is the motion up to the last event, and the motion in
the end is the second argument. -/
inductive Polled (accepted : List State) (m : Motion) :
    Except SessionError (Option State) → Motion → Prop
  | ended : accepted = [] → Polled accepted m (.ok none) m
  | broken {err} : accepted = [] → err.isFatal → Polled accepted m (.error err) m
  | state {s m'} : accepted = [s] → m.observe s.motionMode = (.ok (), m') →
      Polled accepted m (.ok (some s)) m'
  | mismatch {s err m'} : accepted = [s] → m.observe s.motionMode = (.error err, m') →
      Polled accepted m (.error err) m'
  | rejected {header reply err m'} : accepted = [] → m.handle header reply = (.error err, m') →
      Polled accepted m (.error err) m'

theorem poll_cases (h : e.poll = (result, e')) :
    ∃ j outcome, Passage e j e' ∧ j.Silent ∧ e.motion.Credits j outcome ∧
      Polled (j.accepted e.lastId) { e.motion with outcome } result e'.motion := by
  let I (j : Journal) (e₁ : Engine) : Prop := Passage e j e₁ ∧ j.accepted e.lastId = [] ∧
    ∃ outcome, e.motion.Credits j outcome ∧ e₁.motion = { e.motion with outcome }
  let Q (result : Except SessionError (Option State)) (j : Journal) (e₁ : Engine) : Prop :=
    ∃ outcome, e.motion.Credits j outcome ∧
      Polled (j.accepted e.lastId) { e.motion with outcome } result e₁.motion
  have hwait := wait_rule judgeState (.ok none) e (I := I) (Q := Q)
    ?broken ?stale ?passed ?decided [] ⟨.refl e, rfl, e.motion.outcome, .inl rfl, rfl⟩
  · obtain ⟨j, hpassage, hsilent, outcome, hcredits, hpolled⟩ := hwait
    change e.wait judgeState (.ok none) = _ at h
    rw [h] at hpassage hpolled
    exact ⟨j, outcome, hpassage, hsilent, hcredits, hpolled⟩
  case broken =>
    rintro j e₁ entry e₂ result ⟨hpassage, haccepted, outcome, hcredits, hmotion⟩ hreceives hevent
      hbroken
    have hnone : Journal.accepted e.lastId (j ++ [entry]) = [] := by
      rw [hpassage.accepted_concat, haccepted, accepted_of_event_none _ hevent]
      rfl
    refine ⟨outcome, hcredits.append _, ?_⟩
    rw [hreceives.motion, hmotion]
    rcases hbroken with rfl | ⟨err, rfl, hfatal⟩
    · exact .ended hnone
    · exact .broken hnone hfatal
  case stale =>
    rintro j e₁ entry e₂ s ⟨hpassage, haccepted, outcome, hcredits, hmotion⟩ hreceives hevent hstale
    refine ⟨hpassage.trans hreceives.passage, ?_, outcome, hcredits.append _,
      hreceives.motion ▸ hmotion⟩
    rw [hpassage.accepted_concat, haccepted, accepted_of_stale hevent hstale]
    rfl
  case passed =>
    rintro j e₁ entry e₂ event m ⟨hpassage, haccepted, outcome, hcredits, hmotion⟩ hreceives hevent
      hnews hj
    obtain ⟨header, reply, rfl, hhandle⟩ := judgeState_none hj
    refine ⟨(hpassage.trans hreceives.passage).withMotion m, ?_, ?_⟩
    · rw [hpassage.accepted_concat, haccepted, accepted_of_reply _ hevent]
      rfl
    · rcases Motion.handle_cases hhandle with ⟨-, rfl⟩ | ⟨-, rfl, hid, rfl⟩ | ⟨_, h, -⟩ | ⟨_, h, -⟩
      · exact ⟨outcome, hcredits.append _, hmotion⟩
      · rw [hmotion] at hid
        refine ⟨some .success, .inr ⟨rfl, header.id, hid, ?_⟩, by simp [withMotion, hmotion]⟩
        refine Journal.mem_repliesTo_right j ?_
        rw [repliesTo_of_reply hevent]
        simp [Reply.kind]
      · cases h
      · cases h
  case decided =>
    rintro j e₁ entry e₂ event result m ⟨hpassage, haccepted, outcome, hcredits, hmotion⟩ hreceives
      hevent hnews hj
    refine ⟨outcome, hcredits.append _, ?_⟩
    rw [hpassage.accepted_concat, haccepted, ← hmotion]
    rcases judgeState_some hj with ⟨s, rfl, hobserve, rfl⟩ | ⟨s, err, rfl, hobserve, rfl⟩ |
      ⟨header, reply, err, rfl, hhandle, rfl⟩
    · rw [accepted_of_newer hevent hnews]
      exact .state rfl hobserve
    · rw [accepted_of_newer hevent hnews]
      exact .mismatch rfl hobserve
    · rw [accepted_of_reply _ hevent]
      exact .rejected rfl hhandle

/-! ### The cycle -/

variable {motion : Option MotionCommand} {torques : Option Torques}

/-- What a cycle sends before it waits for a state: nothing if there is nothing to say or no state
to answer, and one command otherwise. -/
inductive Sends (motion : Option MotionCommand) (torques : Option Torques) (e : Engine) :
    Journal → Engine → Prop
  | nothing : (e.lastState = none ∨ motion = none ∧ torques = none ∧ e.motion.status ≠ .stopping) →
      Sends motion torques e [] e
  | command {s c said e₁} : e.lastState = some s →
      c = compose s (e.motion.status = .stopping) e.motion.lastCommand motion torques →
      e₁.motion = { e.motion with lastCommand := some c } →
      Passage e [.command c.encode, .queued said] e₁ → e.link.closed = false →
      Sends motion torques e [.command c.encode, .queued said] e₁

theorem Sends.passage (h : Sends motion torques e j e₁) : Passage e j e₁ := by
  cases h with
  | nothing => exact .refl e
  | command _ _ _ hpassage _ => exact hpassage

theorem Sends.quiet (h : Sends motion torques e j e₁) : j.attempts = [] ∧ j.events = [] := by
  cases h <;> exact ⟨rfl, rfl⟩

theorem Sends.motion_eq (h : Sends motion torques e j e₁) :
    ∃ lastCommand, e₁.motion = { e.motion with lastCommand } := by
  cases h with
  | nothing => exact ⟨e.motion.lastCommand, rfl⟩
  | command _ _ hmotion _ _ => exact ⟨_, hmotion⟩

theorem update_of_deferred {err : SessionError} (h : e.motion.deferred = some err) :
    e.update motion torques = (.error err, e.withMotion { e.motion with deferred := none }) := by
  simp [update, h]

/-- Without a deferred error, a cycle is cut short by a closed link or waits for a state after it
has sent what there is to send. -/
theorem update_cases (hdeferred : e.motion.deferred = none)
    (h : e.update motion torques = (result, e')) :
    (∃ datagram, result = .error .closed ∧ e'.motion = e.motion ∧
      Passage e [.commandRefused datagram] e' ∧ e.link.closed) ∨
    ∃ j e₁, Sends motion torques e j e₁ ∧ e₁.poll = (result, e') := by
  simp only [update, hdeferred] at h
  split at h
  · rcases e.sendCommand_cases motion torques with ⟨hnone, hsend⟩ | ⟨s, c, hs, hc, hsend⟩
    · rw [hsend] at h
      exact .inr ⟨[], e, .nothing (.inl hnone), h⟩
    · rcases hsend with ⟨hclosed, e₁, hsend, hmotion, hpassage⟩ |
        ⟨hopen, e₁, said, hsend, hmotion, hpassage⟩
      · rw [hsend] at h
        obtain ⟨rfl, rfl⟩ := Prod.mk.inj h
        exact .inl ⟨_, rfl, hmotion, hpassage, hclosed⟩
      · rw [hsend] at h
        exact .inr ⟨_, e₁, .command hs hc hmotion hpassage hopen, h⟩
  · rename_i hnothing
    simp only [Bool.or_eq_true, decide_eq_true_eq, not_or,
      Option.not_isSome_iff_eq_none] at hnothing
    exact .inr ⟨[], e, .nothing (.inr ⟨hnothing.1.1, hnothing.1.2, hnothing.2⟩), h⟩

/-- A cycle tries no request, and a state that it gives is the only one that it accepted. -/
theorem update_passage (h : e.update motion torques = (result, e')) :
    ∃ j, Passage e j e' ∧ j.attempts = [] ∧
      ∀ s, result = .ok (some s) → j.accepted e.lastId = [s] := by
  cases hdeferred : e.motion.deferred with
  | some err =>
      rw [update_of_deferred hdeferred] at h
      obtain ⟨rfl, rfl⟩ := Prod.mk.inj h
      exact ⟨[], (Passage.refl e).withMotion _, rfl, by simp⟩
  | none =>
      rcases update_cases hdeferred h with ⟨_, rfl, -, hpassage, -⟩ | ⟨j₁, e₁, hsends, hpoll⟩
      · exact ⟨_, hpassage, rfl, by simp [SessionError.closed]⟩
      · obtain ⟨j, outcome, hpassage, hsilent, -, hpolled⟩ := poll_cases hpoll
        obtain ⟨hattempts, hevents⟩ := hsends.quiet
        refine ⟨j₁ ++ j, hsends.passage.trans hpassage, ?_, ?_⟩
        · exact (Journal.attempts_append_of_nil j₁ hsilent.1).trans hattempts
        · rintro s rfl
          cases hpolled with
          | state haccepted _ =>
              rw [Journal.accepted_append, ← hsends.passage.lastId, haccepted]
              simp [Journal.accepted, Journal.states, hevents, records]

end Engine
end ArmControl
