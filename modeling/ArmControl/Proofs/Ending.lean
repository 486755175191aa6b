import ArmControl.Proofs.Accounts
import ArmControl.Proofs.Success

/-! # The end of a motion, message by message

A motion is brought to its end in two parts.  First the engine sends finishing commands, all to one
target and with the same torques, and awaits one state after each until a state reports no
generator.  Then it awaits the final status, and sends nothing more.  `Journal.Ending` says so of
what passes on the way.

All the time the motion stays in progress, and its success is on record just if a reply has told it
(`Pending`), until a reply tells that it has failed (`Failure`).  So it has succeeded just if the
generator has come to rest and the success was told, in whichever order
(`motion_brought_to_end`). -/

namespace ArmControl

variable {finishing : MotionCommand} {control : Torques}

/-! ### What passes -/

namespace Journal

/-- A finishing command was sent in answer to the state `s`. -/
def finishes (finishing : MotionCommand) (control : Torques) (s : State)
    (said : Saying) : Journal :=
  [.command (Command.encode ⟨s.messageId, finishing, control⟩), .queued said]

/-- What passes at the end of a motion when `s` is the last state that was accepted. -/
inductive Ending (finishing : MotionCommand) (control : Torques) : State → Journal → Prop
  /-- The link is closed. -/
  | refused {s : State} (datagram : Bytes) : Ending finishing control s [.commandRefused datagram]
  /-- No state has followed. -/
  | broken {s : State} {said : Saying} {rest : Journal} :
      Silent rest → accepted (some s.messageId) rest = [] →
      Ending finishing control s (finishes finishing control s said ++ rest)
  /-- The state that has followed reports that the generator is still active. -/
  | moving {s next : State} {said : Saying} {between rest : Journal} :
      Silent between → accepted (some s.messageId) between = [next] →
      next.motionMode ≠ .idle → Ending finishing control next rest →
      Ending finishing control s (finishes finishing control s said ++ between ++ rest)
  /-- The state that has followed reports no generator; after that no command was sent. -/
  | resting {s next : State} {said : Saying} {later : List State} {rest : Journal} :
      Silent rest → accepted (some s.messageId) rest = next :: later → next.motionMode = .idle →
      Ending finishing control s (finishes finishing control s said ++ rest)

theorem accepted_finishes (said : Saying) (last : Option UInt64) (rest : Journal)
    (s : State) :
    accepted last (finishes finishing control s said ++ rest) = rest.accepted last := rfl

theorem lastId_of_accepted {last : Option UInt64} {j : Journal} {s : State}
    (h : j.accepted last = [s]) : j.lastId last = some s.messageId := by
  unfold lastId latest
  change ((j.accepted last).getLast?.map State.messageId).or last = _
  rw [h]
  rfl

theorem reportsRest_append {last : Option UInt64} {i j : Journal} :
    ReportsRest last (i ++ j) ↔ i.ReportsRest last ∨ j.ReportsRest (i.lastId last) := by
  simp only [ReportsRest, accepted_append, List.mem_append, or_and_right, exists_or]

/-- Only finishing commands are sent, all to the same target and with the same torques. -/
theorem Ending.commands {j : Journal} (h : Ending finishing control s j) :
    ∀ d ∈ j.commands, ∃ id, d = Command.encode ⟨id, finishing, control⟩ := by
  have hfirst {s : State} {said : Saying} :
      (finishes finishing control s said).commands =
        [Command.encode ⟨s.messageId, finishing, control⟩] := rfl
  induction h with
  | refused datagram => exact fun d hd => by cases hd
  | broken hsilent _ | resting hsilent _ _ =>
      intro d hd
      rw [commands_append_of_nil _ hsilent.2, hfirst, List.mem_singleton] at hd
      exact ⟨_, hd⟩
  | moving hsilent _ _ _ ih =>
      intro d hd
      rw [commands_append, commands_append_of_nil _ hsilent.2, hfirst] at hd
      rcases List.mem_append.1 hd with hd | hd
      · exact ⟨_, List.mem_singleton.1 hd⟩
      · exact ih d hd

end Journal

namespace Engine

variable {e e' : Engine} {id : UInt32} {m₀ m m' : Motion} {i j k : Journal} {entry : Entry}
  {header : Header} {reply : Reply}

/-! ### While the end is awaited -/

/-- The success of the motion `id` was told in `j`, or it had been on record before. -/
def Told (id : UInt32) (m₀ : Motion) (j : Journal) : Prop :=
  m₀.outcome = some .success ∨ .move .success ∈ j.repliesTo .move id

/-- What is known of the motion `id` after `j`, if `m₀` was known before: it is in progress, its
success is on record just if it was told, and no failure was told. -/
structure Pending (id : UInt32) (m₀ : Motion) (j : Journal) (m : Motion) : Prop where
  current : m.current = some id
  deferred : m.deferred = none
  outcome : m.outcome = none ∨ m.outcome = some .success
  told : m.outcome = some .success ↔ Told id m₀ j
  unfailed : ∀ status, .move status ∈ j.repliesTo .move id → ¬ status.isFailure

/-- How the motion `id` may fail, and what is known of it then: a reply has told its failure, or it
is still pending. -/
inductive Failure (id : UInt32) (m₀ : Motion) (j : Journal) : SessionError → Motion → Prop
  | aborted {status : MoveStatus} {m : Motion} : status.isFailure →
      .move status ∈ j.repliesTo .move id →
      (∀ other, .move other ∈ j.repliesTo .move id → other.isFailure → other = status) →
      m.current = none → m.status = .notStarted → Failure id m₀ j (.motion (.aborted status)) m
  | other {err : SessionError} {m : Motion} : Pending id m₀ j m → Failure id m₀ j err m

theorem Pending.of_eq (h : Pending id m₀ j m) (hcurrent : m'.current = m.current)
    (hdeferred : m'.deferred = m.deferred) (houtcome : m'.outcome = m.outcome) :
    Pending id m₀ j m' where
  current := hcurrent.trans h.current
  deferred := hdeferred.trans h.deferred
  outcome := houtcome ▸ h.outcome
  told := houtcome ▸ h.told
  unfailed := h.unfailed

theorem told_append :
    Told id m₀ (j ++ k) ↔ Told id m₀ j ∨ .move .success ∈ k.repliesTo .move id := by
  rw [Told, Told, Journal.repliesTo_append, List.mem_append, or_assoc]

/-- What brings no reply about the motion is of no matter. -/
theorem Pending.append_of_nil (h : Pending id m₀ j m) (hnone : k.repliesTo .move id = []) :
    Pending id m₀ (j ++ k) m where
  current := h.current
  deferred := h.deferred
  outcome := h.outcome
  told := by rw [h.told, told_append, hnone, or_iff_left List.not_mem_nil]
  unfailed status hstatus := by
    rw [Journal.repliesTo_append, hnone, List.append_nil] at hstatus
    exact h.unfailed status hstatus

/-- A reply that is handled leaves the motion pending, with its generator as it was; or it is an
error, and does not tell a success. -/
theorem Pending.handle (h : Pending id m₀ j m)
    (hevent : entry.event? = some (.reply header reply)) :
    (∃ m', m.handle header reply = (.ok (), m') ∧ Pending id m₀ (j ++ [entry]) m' ∧
      m'.status = m.status ∧ m'.lastCommand = m.lastCommand) ∨
    ∃ err m', m.handle header reply = (.error err, m') ∧ Failure id m₀ (j ++ [entry]) err m' ∧
      .move .success ∉ Journal.repliesTo .move id [entry] := by
  have hmem {status : MoveStatus} : .move status ∈ Journal.repliesTo .move id [entry] ↔
      reply = .move status ∧ header.id = id := mem_repliesTo_move hevent
  by_cases hended : m.EndedBy header reply
  · right
    rcases hended with ⟨⟨status, hstatus, rfl⟩, hactive⟩ | ⟨status, hfailure, rfl, hcurrent⟩
    · have hnone : Journal.repliesTo .move id [entry] = [] := by
        rw [repliesTo_of_reply hevent, if_neg]
        exact fun hmatch => by cases hmatch.1
      refine ⟨_, _, Motion.handle_of_withdrawn hstatus hactive, .other ?_, ?_⟩
      · exact (h.append_of_nil hnone).of_eq rfl rfl rfl
      · simp [hnone]
    · have hid : header.id = id := Option.some.inj (hcurrent.symm.trans h.current)
      refine ⟨_, _, Motion.handle_of_failed hfailure hcurrent,
        .aborted hfailure (Journal.mem_repliesTo_right j (hmem.2 ⟨rfl, hid⟩)) ?_ rfl rfl, ?_⟩
      · intro other hother hfailed
        rw [Journal.repliesTo_append, List.mem_append] at hother
        rcases hother with hother | hother
        · exact absurd hfailed (h.unfailed other hother)
        · exact (Reply.move.inj (hmem.1 hother).1).symm
      · rw [hmem]
        rintro ⟨heq, -⟩
        rw [Reply.move.inj heq] at hfailure
        cases hfailure
  · left
    have hmarks := marks_handle id hevent m
    rw [Motion.handle_of_not_endedBy hended] at hmarks ⊢
    have hunfailed (status : MoveStatus)
        (hmove : .move status ∈ Journal.repliesTo .move id [entry]) :
        ¬ status.isFailure := by
      obtain ⟨rfl, rfl⟩ := hmem.1 hmove
      exact fun hfailure => hended (.inr ⟨status, hfailure, rfl, h.current⟩)
    have hall (status : MoveStatus) (hmove : .move status ∈ (j ++ [entry]).repliesTo .move id) :
        ¬ status.isFailure := by
      rw [Journal.repliesTo_append, List.mem_append] at hmove
      exact hmove.elim (h.unfailed status) (hunfailed status)
    by_cases hsucceeds : m.SucceedsBy header reply
    · rw [if_pos hsucceeds] at hmarks ⊢
      refine ⟨_, rfl, ⟨h.current, h.deferred, .inr rfl, ?_, hall⟩, rfl, rfl⟩
      rw [(hmarks h.current).2, h.told, told_append]
    · rw [if_neg hsucceeds] at hmarks ⊢
      refine ⟨_, rfl, ⟨h.current, h.deferred, h.outcome, ?_, hall⟩, rfl, rfl⟩
      rw [(hmarks h.current).2, h.told, told_append]

/-! ### One cycle -/

/-- How the wait for a state ends on the way to rest; `last` is the command on record before, and
the list is of the states that were accepted. -/
inductive Turned (id : UInt32) (m₀ : Motion) (j : Journal) (last : Option Command) :
    List State → Except SessionError (Option State) → Motion → Prop
  | moving {s : State} {m : Motion} : s.motionMode ≠ .idle → Pending id m₀ j m →
      m.status = .stopping → m.lastCommand = last → Turned id m₀ j last [s] (.ok (some s)) m
  | resting {s : State} {m : Motion} : s.motionMode = .idle → Pending id m₀ j m →
      m.status = .notStarted → Turned id m₀ j last [s] (.ok (some s)) m
  | ended {m : Motion} : Pending id m₀ j m → Turned id m₀ j last [] (.ok none) m
  | failed {err : SessionError} {m : Motion} : Failure id m₀ j err m →
      Turned id m₀ j last [] (.error err) m

/-- A state that arrives on the way to rest is never an error. -/
theorem Turned.observe {last : Option Command} {s : State} (h : Pending id m₀ j m)
    (hstopping : m.status = .stopping) (hlast : m.lastCommand = last) :
    ∃ m', m.observe s.motionMode = (.ok (), m') ∧ Turned id m₀ j last [s] (.ok (some s)) m' := by
  have hobserve : m.observe s.motionMode =
      (.ok (), if s.motionMode = .idle then m.reset else m) := by
    simp [Motion.observe, hstopping]
  refine ⟨_, hobserve, ?_⟩
  by_cases hidle : s.motionMode = .idle
  · rw [if_pos hidle]
    exact .resting hidle (h.of_eq rfl rfl rfl) rfl
  · rw [if_neg hidle]
    exact .moving hidle h hstopping hlast

theorem poll_turned {result : Except SessionError (Option State)} (h : e.poll = (result, e'))
    (hpending : Pending id m₀ i e.motion) (hstopping : e.motion.status = .stopping) :
    ∃ j, Passage e j e' ∧ j.Silent ∧
      Turned id m₀ (i ++ j) e.motion.lastCommand (j.accepted e.lastId) result e'.motion := by
  let I (j : Journal) (e₁ : Engine) : Prop := Passage e j e₁ ∧ j.accepted e.lastId = [] ∧
    Pending id m₀ (i ++ j) e₁.motion ∧ e₁.motion.status = .stopping ∧
    e₁.motion.lastCommand = e.motion.lastCommand
  let Q (result : Except SessionError (Option State)) (j : Journal) (e₁ : Engine) : Prop :=
    Turned id m₀ (i ++ j) e.motion.lastCommand (j.accepted e.lastId) result e₁.motion
  have hwait := wait_rule judgeState (.ok none) e (I := I) (Q := Q) ?broken ?stale ?passed ?decided
    [] ⟨.refl e, rfl, by rwa [List.append_nil], hstopping, rfl⟩
  · obtain ⟨j, hpassage, hsilent, hturned⟩ := hwait
    change e.wait judgeState (.ok none) = _ at h
    rw [h] at hpassage hturned
    exact ⟨j, hpassage, hsilent, hturned⟩
  case broken =>
    rintro j e₁ entry e₂ result ⟨hpassage, haccepted, hpending, -, -⟩ hreceives hevent hbroken
    have hstill : Pending id m₀ (i ++ (j ++ [entry])) e₂.motion := by
      rw [hreceives.motion, ← List.append_assoc]
      exact hpending.append_of_nil (repliesTo_of_event_none hevent _ _)
    simp only [Q]
    rw [hpassage.accepted_concat, haccepted, accepted_of_event_none _ hevent]
    rcases hbroken with rfl | ⟨err, rfl, -⟩
    · exact .ended hstill
    · exact .failed (.other hstill)
  case stale =>
    rintro j e₁ entry e₂ s ⟨hpassage, haccepted, hpending, hstopping, hlast⟩ hreceives hevent hstale
    refine ⟨hpassage.trans hreceives.passage, ?_, ?_, hreceives.motion ▸ hstopping,
      hreceives.motion ▸ hlast⟩
    · rw [hpassage.accepted_concat, haccepted, accepted_of_stale hevent hstale]
      rfl
    · rw [hreceives.motion, ← List.append_assoc]
      exact hpending.append_of_nil (repliesTo_of_state hevent _ _)
  case passed =>
    rintro j e₁ entry e₂ event m ⟨hpassage, haccepted, hpending, hstopping, hlast⟩ hreceives hevent
      hnews hj
    obtain ⟨header, reply, rfl, hhandle⟩ := judgeState_none hj
    rcases hpending.handle hevent with ⟨m', hhandle', hstill, hstatus, hrecord⟩ |
      ⟨err, m', hhandle', -⟩
    · obtain ⟨-, rfl⟩ := Prod.mk.inj (hhandle'.symm.trans hhandle)
      refine ⟨(hpassage.trans hreceives.passage).withMotion _, ?_, ?_, hstatus.trans hstopping,
        hrecord.trans hlast⟩
      · rw [hpassage.accepted_concat, haccepted, accepted_of_reply _ hevent]
        rfl
      · rwa [List.append_assoc] at hstill
    · cases hhandle'.symm.trans hhandle
  case decided =>
    rintro j e₁ entry e₂ event result m ⟨hpassage, haccepted, hpending, hstopping, hlast⟩ hreceives
      hevent hnews hj
    simp only [Q]
    rw [hpassage.accepted_concat, haccepted, ← List.append_assoc]
    cases event with
    | state s =>
        have hstill := hpending.append_of_nil (repliesTo_of_state hevent .move id)
        obtain ⟨m', hobserve, hturned⟩ := Turned.observe (s := s) hstill hstopping hlast
        simp only [judgeState, hobserve] at hj
        obtain ⟨hresult, rfl⟩ := Prod.mk.inj hj
        obtain rfl := Option.some.inj hresult
        rw [accepted_of_newer hevent hnews]
        exact hturned
    | reply header reply =>
        rw [accepted_of_reply _ hevent]
        rcases hpending.handle hevent with ⟨m', hhandle, -⟩ | ⟨err, m', hhandle, hfailure, -⟩
        · simp only [judgeState, hhandle] at hj
          cases (Prod.mk.inj hj).1
        · simp only [judgeState, hhandle] at hj
          obtain ⟨hresult, rfl⟩ := Prod.mk.inj hj
          obtain rfl := Option.some.inj hresult
          exact .failed hfailure

/-! ### The way to rest -/

variable {torques : Option Torques}

/-- The torques of a finishing command: those that are given, or else those on record. -/
def closing (torques : Option Torques) (last : Option Command) : Torques :=
  torques.getD ((last.map Command.torques).getD Joints.zero)

/-- The torques of a finishing command are those of the next one too. -/
theorem closing_closing (messageId : UInt64) (last : Option Command) :
    closing torques (some ⟨messageId, finishing, closing torques last⟩) = closing torques last := by
  cases torques <;> rfl

/-- A cycle on the way to rest sends one finishing command and awaits a state, unless the link is
closed. -/
theorem update_turned {s : State} {result : Except SessionError (Option State)}
    (h : e.update (some finishing) torques = (result, e')) (hpending : Pending id m₀ i e.motion)
    (hstopping : e.motion.status = .stopping) (hlast : e.lastState = some s) :
    (∃ datagram, result = .error .closed ∧ e'.motion = e.motion ∧
      Passage e [.commandRefused datagram] e') ∨
    ∃ said rest, let control := closing torques e.motion.lastCommand
      let j := Journal.finishes finishing.finish control s said ++ rest
      Passage e j e' ∧ rest.Silent ∧ Turned id m₀ (i ++ j)
        (some ⟨s.messageId, finishing.finish, control⟩) (rest.accepted (some s.messageId)) result
        e'.motion := by
  rcases update_cases hpending.deferred h with ⟨datagram, rfl, hmotion, hpassage, -⟩ |
    ⟨k, e₁, hsends, hpoll⟩
  · exact .inl ⟨datagram, rfl, hmotion, hpassage⟩
  · cases hsends with
    | nothing hnothing => simp [hlast] at hnothing
    | @command s' c said _ hs hc hmotion hpassage hopen =>
        obtain rfl := Option.some.inj (hlast.symm.trans hs)
        have hcommand :
            c = ⟨s.messageId, finishing.finish, closing torques e.motion.lastCommand⟩ := by
          simp [hc, compose, hstopping, closing]
        subst hcommand
        have hstill : Pending id m₀ (i ++ Journal.finishes finishing.finish
            (closing torques e.motion.lastCommand) s said) e₁.motion := by
          rw [hmotion]
          exact (hpending.append_of_nil rfl).of_eq rfl rfl rfl
        obtain ⟨rest, hpassage', hsilent, hturned⟩ :=
          poll_turned hpoll hstill (by rw [hmotion]; exact hstopping)
        have hid : e₁.lastId = some s.messageId := by
          rw [hpassage.lastId, Journal.lastId_of_events_nil rfl, lastId, hlast]
          rfl
        rw [hid, hmotion, List.append_assoc] at hturned
        exact .inr ⟨said, rest, hpassage.trans hpassage', hsilent, hturned⟩

/-- How the way to rest ends, on which `j` has passed.  If the generator is at rest the motion is
still pending, and whatever follows, no command is sent any more. -/
inductive Rested (finishing : MotionCommand) (control : Torques) (s : State) (id : UInt32)
    (m₀ : Motion) (i j : Journal) : Except SessionError Unit → Motion → Prop
  | rests {m : Motion} : j.ReportsRest (some s.messageId) → Pending id m₀ (i ++ j) m →
      m.status = .notStarted →
      (∀ later : Journal, later.Silent → Journal.Ending finishing control s (j ++ later)) →
      Rested finishing control s id m₀ i j (.ok ()) m
  | failed {err : SessionError} {m : Motion} : ¬ j.ReportsRest (some s.messageId) →
      Failure id m₀ (i ++ j) err m → Journal.Ending finishing control s j →
      Rested finishing control s id m₀ i j (.error err) m

/-- The end is the same if a cycle was gone through before. -/
theorem Rested.cons {s next : State} {said : Saying} {rest : Journal}
    {result : Except SessionError Unit} (hsilent : rest.Silent)
    (haccepted : rest.accepted (some s.messageId) = [next]) (hmode : next.motionMode ≠ .idle)
    (h : Rested finishing control next id m₀
      (i ++ (Journal.finishes finishing control s said ++ rest)) j result m) :
    Rested finishing control s id m₀ i (Journal.finishes finishing control s said ++ rest ++ j)
      result m := by
  have hcycle : Journal.accepted (some s.messageId)
      (Journal.finishes finishing control s said ++ rest) = [next] := haccepted
  have hrest : Journal.ReportsRest (some s.messageId)
      (Journal.finishes finishing control s said ++ rest ++ j) ↔
        j.ReportsRest (some next.messageId) := by
    rw [Journal.reportsRest_append, Journal.lastId_of_accepted hcycle, Journal.ReportsRest, hcycle]
    simp [hmode]
  cases h with
  | rests hreports hpending hstatus hending =>
      refine .rests (hrest.2 hreports) (by rwa [List.append_assoc] at hpending) hstatus ?_
      intro later hlater
      rw [List.append_assoc]
      exact .moving hsilent haccepted hmode (hending later hlater)
  | failed hreports hfailure hending =>
      refine .failed (mt hrest.1 hreports) (by rwa [List.append_assoc] at hfailure) ?_
      exact .moving hsilent haccepted hmode hending

/-- A cycle that gives no state is the last one. -/
theorem update_broken {s : State} {err : SessionError}
    {result : Except SessionError (Option State)}
    (h : e.update (some finishing) torques = (result, e'))
    (hresult : result = .ok none ∧ err = .closed ∨ result = .error err)
    (hpending : Pending id m₀ i e.motion) (hstopping : e.motion.status = .stopping)
    (hlast : e.lastState = some s) (hcontrol : closing torques e.motion.lastCommand = control) :
    ∃ j, Passage e j e' ∧ Rested finishing.finish control s id m₀ i j (.error err) e'.motion := by
  rcases update_turned h hpending hstopping hlast with ⟨datagram, -, hmotion, hpassage⟩ |
    ⟨said, rest, hpassage, hsilent, hturned⟩
  · refine ⟨_, hpassage, .failed ?_ (.other ?_) (.refused datagram)⟩
    · rintro ⟨_, hnone, -⟩
      cases hnone
    · rw [hmotion]
      exact hpending.append_of_nil rfl
  · rw [hcontrol] at hpassage hturned
    have hfailure : rest.accepted (some s.messageId) = [] ∧
        Failure id m₀ (i ++ (Journal.finishes finishing.finish control s said ++ rest)) err
          e'.motion := by
      generalize rest.accepted (some s.messageId) = accepted at hturned
      rcases hresult with ⟨rfl, rfl⟩ | rfl
      · cases hturned with
        | ended hstill => exact ⟨rfl, .other hstill⟩
      · cases hturned with
        | failed hfailure => exact ⟨rfl, hfailure⟩
    refine ⟨_, hpassage, .failed ?_ hfailure.2 (.broken hsilent hfailure.1)⟩
    rintro ⟨t, ht, -⟩
    rw [Journal.accepted_finishes, hfailure.1] at ht
    cases ht

theorem drain_rested {s : State} {result : Except SessionError Unit}
    (h : e.drain finishing torques = (result, e')) (hpending : Pending id m₀ i e.motion)
    (hstopping : e.motion.status = .stopping) (hlast : e.lastState = some s)
    (hcontrol : closing torques e.motion.lastCommand = control) :
    ∃ j, Passage e j e' ∧ Rested finishing.finish control s id m₀ i j result e'.motion := by
  fun_induction drain finishing torques e generalizing i s with
  | case1 e _ next e₁ hupdate ih =>
      rcases update_turned hupdate hpending hstopping hlast with ⟨_, hresult, -⟩ |
        ⟨said, rest, hpassage, hsilent, hturned⟩
      · cases hresult
      · rw [hcontrol] at hpassage hturned
        generalize haccepted : rest.accepted (some s.messageId) = accepted at hturned
        generalize hm : e₁.motion = m₁ at hturned
        cases hturned with
        | moving hmode hstill hstatus hrecord =>
            have hnext : e₁.lastState = some next := by
              refine hpassage.lastState_of_accepted ?_
              rw [lastId, hlast]
              exact haccepted
            obtain ⟨k, hpassage', hrested⟩ := ih h (hm ▸ hstill) (by rw [hm, hstatus]) hnext
              (by rw [hm, hrecord, ← hcontrol, closing_closing])
            exact ⟨_, hpassage.trans hpassage', hrested.cons hsilent haccepted hmode⟩
        | resting hmode hstill hstatus =>
            rw [drain_of_rest (by rw [hm, hstatus])] at h
            obtain ⟨rfl, rfl⟩ := Prod.mk.inj h
            refine ⟨_, hpassage, ?_⟩
            rw [hm]
            refine .rests ⟨next, ?_, hmode⟩ hstill hstatus fun later hlater => ?_
            · rw [Journal.accepted_finishes, haccepted]
              exact List.mem_singleton_self next
            · have hafter : Journal.accepted (some s.messageId) (rest ++ later) =
                  next :: later.accepted (rest.lastId (some s.messageId)) := by
                rw [Journal.accepted_append, haccepted]
                rfl
              rw [List.append_assoc]
              exact .resting (hsilent.append hlater) hafter hmode
  | case2 e _ e₁ hupdate =>
      obtain ⟨rfl, rfl⟩ := Prod.mk.inj h
      exact update_broken hupdate (.inl ⟨rfl, rfl⟩) hpending hstopping hlast hcontrol
  | case3 e _ err e₁ hupdate =>
      obtain ⟨rfl, rfl⟩ := Prod.mk.inj h
      exact update_broken hupdate (.inr rfl) hpending hstopping hlast hcontrol
  | case4 e hrest => exact absurd hstopping hrest

/-! ### The final status -/

/-- How the wait for the final status ends. -/
inductive Resolved (id : UInt32) (m₀ : Motion) (j : Journal) :
    Except SessionError Unit → Motion → Prop
  | success {m₁ m : Motion} : Pending id m₀ j m₁ → m₁.outcome = some .success →
      m.current = none → m.status = .notStarted → Resolved id m₀ j (.ok ()) m
  | failed {err : SessionError} {m : Motion} : ¬ Told id m₀ j → Failure id m₀ j err m →
      Resolved id m₀ j (.error err) m

/-- Only a success that is on record settles a pending motion. -/
theorem Pending.settle (h : Pending id m₀ j m) (hrest : m.status = .notStarted) :
    (m.outcome = none ∧ m.settle id = (none, m)) ∨
    ∃ m', m.settle id = (some (.ok ()), m') ∧ Resolved id m₀ j (.ok ()) m' := by
  rcases h.outcome with hnone | hsuccess
  · exact .inl ⟨hnone, by simp [Motion.settle, hnone, h.current]⟩
  · exact .inr ⟨{ m with outcome := none, current := none }, by rw [Motion.settle, hsuccess],
      .success h hsuccess rfl hrest⟩

theorem Pending.untold (h : Pending id m₀ j m) (hnone : m.outcome = none) : ¬ Told id m₀ j := by
  rw [← h.told, hnone]
  simp

/-- At rest, an event leaves the motion without a final status, or it decides the wait. -/
theorem judgeOutcome_resolved {event : Event} {result : Option (Except SessionError Unit)}
    (hpending : Pending id m₀ j m) (hnone : m.outcome = none) (hrest : m.status = .notStarted)
    (hevent : entry.event? = some event) (h : judgeOutcome id event m = (result, m')) :
    (result = none ∧ Pending id m₀ (j ++ [entry]) m' ∧ m'.outcome = none ∧
      m'.status = .notStarted) ∨
    ∃ answer, result = some answer ∧ Resolved id m₀ (j ++ [entry]) answer m' := by
  -- what the event has left of the motion is settled if there is a final status
  have hsettled {m₁ : Motion} (hstill : Pending id m₀ (j ++ [entry]) m₁)
      (hrest₁ : m₁.status = .notStarted) (h : m₁.settle id = (result, m')) :
      (result = none ∧ Pending id m₀ (j ++ [entry]) m' ∧ m'.outcome = none ∧
        m'.status = .notStarted) ∨
      ∃ answer, result = some answer ∧ Resolved id m₀ (j ++ [entry]) answer m' := by
    rcases hstill.settle hrest₁ with ⟨hnone₁, hsettle⟩ | ⟨m₂, hsettle, hresolved⟩
    · obtain ⟨rfl, rfl⟩ := Prod.mk.inj (hsettle.symm.trans h)
      exact .inl ⟨rfl, hstill, hnone₁, hrest₁⟩
    · obtain ⟨rfl, rfl⟩ := Prod.mk.inj (hsettle.symm.trans h)
      exact .inr ⟨_, rfl, hresolved⟩
  cases event with
  | state s =>
      simp only [judgeOutcome, Motion.observe_of_notStarted hrest] at h
      exact hsettled (hpending.append_of_nil (repliesTo_of_state hevent .move id)) hrest h
  | reply header reply =>
      rcases hpending.handle hevent with ⟨m₁, hhandle, hstill, hstatus, -⟩ |
        ⟨err, m₁, hhandle, hfailure, hsuccess⟩
      · simp only [judgeOutcome, hhandle] at h
        exact hsettled hstill (hstatus.trans hrest) h
      · simp only [judgeOutcome, hhandle] at h
        obtain ⟨rfl, rfl⟩ := Prod.mk.inj h
        refine .inr ⟨_, rfl, .failed ?_ hfailure⟩
        rw [told_append]
        exact not_or.2 ⟨hpending.untold hnone, hsuccess⟩

theorem awaitOutcome_resolved {result : Except SessionError Unit}
    (h : e.awaitOutcome id = (result, e')) (hpending : Pending id m₀ i e.motion)
    (hrest : e.motion.status = .notStarted) :
    ∃ j, Passage e j e' ∧ j.Silent ∧ Resolved id m₀ (i ++ j) result e'.motion := by
  unfold awaitOutcome at h
  rcases hpending.settle hrest with ⟨hnone, hsettle⟩ | ⟨m', hsettle, hresolved⟩
  · simp only [hsettle] at h
    let I (j : Journal) (e₁ : Engine) : Prop := Pending id m₀ (i ++ j) e₁.motion ∧
      e₁.motion.outcome = none ∧ e₁.motion.status = .notStarted
    have hwait := wait_rule (judgeOutcome id) (.error .closed) (e.withMotion e.motion) (I := I)
      (Q := fun result j e₁ => Resolved id m₀ (i ++ j) result e₁.motion)
      ?broken ?stale ?passed ?decided [] ⟨by rwa [List.append_nil], hnone, hrest⟩
    · rw [h] at hwait
      obtain ⟨j, hpassage, hsilent, hresolved⟩ := hwait
      exact ⟨j, hpassage.of_withMotion, hsilent, hresolved⟩
    case broken =>
      rintro j e₁ entry e₂ result ⟨hpending, hnone, hrest⟩ hreceives hevent hbroken
      have hstill := hpending.append_of_nil (repliesTo_of_event_none hevent .move id)
      rw [← List.append_assoc, hreceives.motion]
      rcases hbroken with rfl | ⟨err, rfl, -⟩
      · exact .failed (hstill.untold hnone) (.other hstill)
      · exact .failed (hstill.untold hnone) (.other hstill)
    case stale =>
      rintro j e₁ entry e₂ s ⟨hpending, hnone, hrest⟩ hreceives hevent hstale
      simp only [I]
      rw [← List.append_assoc, hreceives.motion]
      exact ⟨hpending.append_of_nil (repliesTo_of_state hevent .move id), hnone, hrest⟩
    case passed =>
      rintro j e₁ entry e₂ event m ⟨hpending, hnone, hrest⟩ hreceives hevent hnews hj
      rcases judgeOutcome_resolved hpending hnone hrest hevent hj with ⟨-, hstill⟩ | ⟨_, h', -⟩
      · simp only [I]
        rwa [← List.append_assoc]
      · cases h'
    case decided =>
      rintro j e₁ entry e₂ event result m ⟨hpending, hnone, hrest⟩ hreceives hevent hnews hj
      rcases judgeOutcome_resolved hpending hnone hrest hevent hj with ⟨h', -⟩ | ⟨_, h', hresolved⟩
      · cases h'
      · obtain rfl := Option.some.inj h'
        rwa [← List.append_assoc]
  · simp only [hsettle] at h
    obtain ⟨rfl, rfl⟩ := Prod.mk.inj h
    exact ⟨[], (Passage.refl e).withMotion m', Journal.silent_nil, by rwa [List.append_nil]⟩

/-! ### Both together -/

/-- How the end of the motion `id` ends. -/
inductive Ended (id : UInt32) (m₀ : Motion) (last : Option UInt64) (j : Journal) :
    Except SessionError Unit → Motion → Prop
  | success {m₁ m : Motion} : j.ReportsRest last → Pending id m₀ j m₁ →
      m₁.outcome = some .success → m.current = none → m.status = .notStarted →
      Ended id m₀ last j (.ok ()) m
  | failed {err : SessionError} {m : Motion} : ¬ (j.ReportsRest last ∧ Told id m₀ j) →
      Failure id m₀ j err m → Ended id m₀ last j (.error err) m

theorem finishMotion_ended {motion : Option MotionCommand} {s : State}
    {result : Except SessionError Unit} (h : e.finishMotion id motion torques = (result, e'))
    (hcurrent : e.motion.current = some id) (hrunning : e.motion.status = .running)
    (hdeferred : e.motion.deferred = none)
    (houtcome : e.motion.outcome = none ∨ e.motion.outcome = some .success)
    (hlast : e.lastState = some s) :
    ∃ j, Passage e j e' ∧
      Journal.Ending (motion.getD (.hold s)).finish (closing torques e.motion.lastCommand) s j ∧
      Ended id e.motion e.lastId j result e'.motion := by
  have hid : e.lastId = some s.messageId := by rw [lastId, hlast]; rfl
  rw [hid]
  let e₀ := e.withMotion (e.motion.exchange .running .stopping)
  have hmotion : e₀.motion = { e.motion with status := .stopping } :=
    Motion.exchange_of_eq hrunning _
  have hpending : Pending id e.motion [] e₀.motion := by
    rw [hmotion]
    refine ⟨hcurrent, hdeferred, houtcome, ?_, fun _ hnone => by cases hnone⟩
    exact (or_iff_left (by simp [Journal.repliesTo, Journal.replies, Journal.events])).symm
  have hlast₀ : (e.withMotion (e.motion.exchange .running .stopping)).lastState = some s := hlast
  simp only [finishMotion, hcurrent, ne_eq, not_true_eq_false, if_false, hlast₀, Option.map_some,
    Option.getD_some] at h
  rcases hdrain : e₀.drain (motion.getD (.hold s)).finish torques with ⟨drained, e₁⟩
  have hcontrol : closing torques e₀.motion.lastCommand = closing torques e.motion.lastCommand := by
    rw [hmotion]
  obtain ⟨j, hpassage, hrested⟩ :=
    drain_rested hdrain hpending (by rw [hmotion]) hlast hcontrol
  rw [hdrain] at h
  generalize hm : e₁.motion = m₁ at hrested
  cases hrested with
  | failed hreports hfailure hending =>
      obtain ⟨rfl, rfl⟩ := Prod.mk.inj h
      rw [hm]
      exact ⟨j, hpassage.of_withMotion, hending, .failed (fun hboth => hreports hboth.1) hfailure⟩
  | rests hreports hstill hrest hending =>
      obtain ⟨k, hpassage', hsilent, hresolved⟩ :=
        awaitOutcome_resolved h (hm ▸ hstill) (by rw [hm, hrest])
      refine ⟨j ++ k, hpassage.of_withMotion.trans hpassage', hending k hsilent, ?_⟩
      rw [List.nil_append] at hresolved
      generalize e'.motion = m' at hresolved
      cases hresolved with
      | success hpending' hsuccess hnone hstatus =>
          exact .success (hreports.append k) hpending' hsuccess hnone hstatus
      | failed huntold hfailure => exact .failed (fun hboth => huntold hboth.2) hfailure

/-- A motion that is in progress, with its generator running and no error deferred, was started by
some call and has been in progress since.  It is brought to its end by finishing commands, all to
the target that is given, or else to hold the arm where it is, and all with the torques that are
given, or else with the last ones; each is followed by one state, up to the first one that reports
no generator.  The end is a success just if there is such a state and the success of the motion was
told at any time since it was started; then, and if its failure is told, the motion is over.  After
any other error it is still in progress. -/
theorem motion_brought_to_end (session : Session) (settings : Settings) (clock : Clock)
    (turns : List Turn) (id : UInt32) :
    let e₀ := Engine.start session settings clock
    let e := e₀.after turns
    e.motion.current = some id → e.motion.status = .running → e.motion.deferred = none →
    ∃ before call later s, turns = before ++ .call call :: later ∧
      let found := e₀.after before
      (∃ controller motion path goal, call = .startMotion controller motion path goal ∧
        (found.startMotion controller motion path goal).1 = .ok id) ∧
      (∀ since, since <+: later →
        (e₀.after (before ++ .call call :: since)).motion.current = some id) ∧
      e.lastState = some s ∧ ∀ motion torques result e',
      e.finishMotion id motion torques = (result, e') →
      let finishing := (motion.getD (.hold s)).finish
      let control := torques.getD ((e.motion.lastCommand.map Command.torques).getD Joints.zero)
      ∃ j : Journal, e'.link.journal = e.link.journal ++ j ∧
        Journal.Ending finishing control s j ∧
        (∀ d ∈ j.commands, ∃ n, d = Command.encode ⟨n, finishing, control⟩) ∧
        (result = .ok () ↔ j.ReportsRest e.lastId ∧
          .move .success ∈ (e'.link.since found.link).repliesTo .move id) ∧
        (result = .ok () → e'.motion.current = none ∧ e'.motion.status = .notStarted) ∧
        (∀ status, status.isFailure → .move status ∈ j.repliesTo .move id →
          result = .error (.motion (.aborted status)) ∧ e'.motion.current = none ∧
            e'.motion.status = .notStarted) ∧
        ∀ err, result = .error err →
          (∀ status, status.isFailure → .move status ∉ j.repliesTo .move id) →
          e'.motion.current = some id := by
  intro e₀ e hcurrent hrunning hdeferred
  have horderly : e.Orderly := (orderly_start session settings clock).after turns
  obtain ⟨s, hlast⟩ := Option.ne_none_iff_exists'.1 (horderly.state_of_active (.inl hrunning))
  obtain ⟨before, call, later, rfl, ⟨hbegins, i, hsince, hmarked⟩, hprogress⟩ :=
    success_told rfl turns hcurrent
  refine ⟨before, call, later, s, rfl, hbegins, hprogress, hlast, ?_⟩
  intro motion torques result e' h
  obtain ⟨j, hpassage, hending, hended⟩ :=
    finishMotion_ended h hcurrent hrunning hdeferred horderly.outcome_success hlast
  have htold : .move .success ∈ (e'.link.since (e₀.after before).link).repliesTo .move id ↔
      Told id e.motion j := by
    rw [Link.since_eq (hsince.trans hpassage).journal, Journal.repliesTo_append, List.mem_append,
      ← hmarked]
    rfl
  refine ⟨j, hpassage.journal, hending, hending.commands, ?_⟩
  rw [htold]
  generalize e'.motion = m at hended
  cases hended with
  | success hreports hpending hsuccess hnone hstatus =>
      refine ⟨iff_of_true rfl ⟨hreports, hpending.told.1 hsuccess⟩, fun _ => ⟨hnone, hstatus⟩, ?_,
        nofun⟩
      exact fun status hfailure hmem => absurd hfailure (hpending.unfailed status hmem)
  | failed hmissing hfailure =>
      refine ⟨iff_of_false nofun hmissing, nofun, ?_⟩
      cases hfailure with
      | aborted hfailed hmem honly hnone hstatus =>
          refine ⟨fun status hfailure hmem' => ?_, fun _ _ hunfailed => ?_⟩
          · obtain rfl := honly status hmem' hfailure
            exact ⟨rfl, hnone, hstatus⟩
          · exact absurd hmem (hunfailed _ hfailed)
      | other hpending =>
          refine ⟨fun status hfailure hmem => ?_, fun _ _ _ => hpending.current⟩
          exact absurd hfailure (hpending.unfailed status hmem)

/-- A motion whose generator is still active for one cycle, and whose success is told before the
generator comes to rest. -/
theorem motion_brought_to_end_accepting :
    let e₀ := Engine.start { link := { farEnd := .accepting } } {} default
    let e := e₀.after
      [.call (.startMotion .jointImpedance .jointPosition default default),
        .happen [.say [.nextState { State.initial with motionMode := .jointPosition } 1,
          .reply (.move .success) none 0, .nextState State.initial 1]]]
    let e' := (e.finishMotion 0 none none).2
    e.motion.current = some 0 ∧ e.motion.status = .running ∧ e.motion.deferred = none ∧
      ∃ s, e.lastState = some s ∧ ∃ j : Journal, e'.link.journal = e.link.journal ++ j ∧
        Journal.Ending (MotionCommand.hold s).finish Joints.zero s j ∧
        j.ReportsRest e.lastId ∧ (e.finishMotion 0 none none).1 = .ok () ∧
        e'.motion.current = none := by
  intro e₀ e e'
  have hcurrent : e.motion.current = some 0 := by decide +kernel
  have hrunning : e.motion.status = .running := by decide +kernel
  have hdeferred : e.motion.deferred = none := by decide +kernel
  have hunsent : e.motion.lastCommand = none := by decide +kernel
  have hok : (e.finishMotion 0 none none).1 = .ok () := by decide +kernel
  obtain ⟨_, _, _, s, -, -, -, hlast, hend⟩ :=
    motion_brought_to_end { link := { farEnd := .accepting } } {} default
      [.call (.startMotion .jointImpedance .jointPosition default default),
        .happen [.say [.nextState { State.initial with motionMode := .jointPosition } 1,
          .reply (.move .success) none 0, .nextState State.initial 1]]] 0 hcurrent hrunning
      hdeferred
  obtain ⟨j, hjournal, hending, -, hiff, hover, -, -⟩ := hend none none _ e' rfl
  obtain ⟨hreports, -⟩ := hiff.1 hok
  change Journal.Ending (MotionCommand.hold s).finish
    ((e.motion.lastCommand.map Command.torques).getD Joints.zero) s j at hending
  rw [hunsent] at hending
  exact ⟨hcurrent, hrunning, hdeferred, s, hlast, j, hjournal, hending, hreports, hok,
    (hover hok).1⟩

end Engine
end ArmControl
