import ArmControl.Proofs.Ending
import ArmControl.Proofs.Growth
import ArmControl.Proofs.Rounds

/-! # What a motion that is stopped has sent

`run_stopped` gives all commands of a motion whose steering has asked to stop: first, for each call
that asked to go on, the command that answers the state that was shown; then finishing commands
only, which repeat the last of them, in answer to the states that are accepted one after another
until one reports that the generator is at rest.

A finishing command is refused only by a link that is closed, and a motion does not begin on such a
link (`Path.unrefused`). -/

namespace ArmControl

/-! ### A link that is not closed -/

/-- The command that the client could not send. -/
def Entry.refusal? : Entry → Option Bytes
  | commandRefused datagram => some datagram
  | _ => none

/-- The commands that the client could not send. -/
def Journal.refusals (j : Journal) : List Bytes := j.filterMap Entry.refusal?

@[simp] theorem Journal.refusals_append (a b : Journal) :
    refusals (a ++ b) = a.refusals ++ b.refusals := by
  simp [refusals]

namespace Link

/-- Whatever happens to a link, or is done with it, leaves `P`. -/
structure Preserves (P : Link → Prop) : Prop where
  request : ∀ l frame, P l → P (l.sendRequest frame).2
  command : ∀ l datagram, P l → P (l.sendDatagram datagram).2
  receive : ∀ l, P l → P l.receive.2
  happen : ∀ l happening, P l → P (l.happen happening)

theorem Preserves.witness {P : Link → Prop} (hP : Preserves P) {l : Link} (h : P l)
    (hs : List Happening) : P (l.witness hs) := by
  induction hs generalizing l with
  | nil => exact h
  | cons happening rest ih => exact ih (hP.happen l happening h)

/-- The link is open, and these are the commands that were refused. -/
def Opened (refused : List Bytes) (l : Link) : Prop :=
  l.closed = false ∧ Journal.refusals l.journal = refused

theorem Opened.write {refused : List Bytes} {l l' : Link} {j : Journal} (h : Opened refused l)
    (hclosed : l'.closed = l.closed) (hjournal : l'.journal = l.journal ++ j)
    (hj : j.refusals = []) : Opened refused l' := by
  refine ⟨hclosed.trans h.1, ?_⟩
  rw [hjournal, Journal.refusals_append, hj, List.append_nil]
  exact h.2

theorem preserves_opened (refused : List Bytes) : Preserves (Opened refused) where
  request l frame h := by
    unfold sendRequest
    split
    · exact h.write rfl rfl rfl
    · exact h.write rfl (List.append_assoc _ [_] [_]) rfl
  command l datagram h := by
    unfold sendDatagram
    rw [if_neg (by simp [h.1])]
    exact h.write rfl (List.append_assoc _ [_] [_]) rfl
  receive l h := by
    unfold receive
    split
    · exact h.write rfl rfl rfl
    · split
      · exact h.write rfl rfl rfl
      · split <;> exact h.write rfl rfl rfl
  happen l happening h := by
    cases happening with
    | say cues => exact h.write rfl rfl rfl
    | rescript => exact h

end Link

namespace Engine

variable {e e₁ e' : Engine} {ms : List Moment} {P : Link → Prop}

theorem Act.preserves (hP : Link.Preserves P) (h : Act e e') (he : P e.link) : P e'.link := by
  cases h with
  | motion | look | controller => exact he
  | send request =>
      have hsend := hP.request e.session.link (request.encode e.session.nextId) he
      change P (e.session.send request).2.link
      unfold Session.send
      simp only
      split <;> (rename_i heq; rw [heq] at hsend; exact hsend)
  | command motion torques =>
      unfold sendCommand
      split
      · exact he
      · rename_i s _
        have hsend := hP.command e.link
          (compose s (e.motion.status = .stopping) e.motion.lastCommand motion torques).encode he
        simp only
        split <;> (rename_i heq; rw [heq] at hsend; exact hsend)
  | happen happenings => exact hP.witness he happenings

theorem Path.preserves (hP : Link.Preserves P) (h : Path e ms e') (he : P e.link) : P e'.link := by
  induction h with
  | refl => exact he
  | act hact _ ih => exact ih (hact.preserves hP he)
  | take awaited _ ih =>
      refine ih ?_
      rw [received_link]
      exact hP.receive _ he

/-- On an open link, the link stays open and no command is refused. -/
theorem Path.unrefused {j : Journal} (h : Path e ms e') (hopen : e.link.closed = false)
    (hpassage : Passage e j e') : e'.link.closed = false ∧ j.refusals = [] := by
  obtain ⟨hstill, hrefusals⟩ := h.preserves (Link.preserves_opened _) ⟨hopen, rfl⟩
  rw [hpassage.journal, Journal.refusals_append] at hrefusals
  exact ⟨hstill, List.append_right_eq_self.1 hrefusals⟩

/-- On a closed link no request is answered. -/
theorem open_of_execute {request : Request} {answer : UInt32 × Reply}
    (h : e.execute request = (.ok answer, e')) : e.link.closed = false := by
  by_contra hclosed
  have hlink : e.link.closed = true := by simpa using hclosed
  change e.session.link.closed = true at hlink
  simp [execute, Session.send, Link.sendRequest, hlink] at h

variable {controller : ControllerMode} {motion : MotionMode} {path goal : Deviation} {id : UInt32}

theorem open_of_startMotion (h : e.startMotion controller motion path goal = (.ok id, e')) :
    e.link.closed = false := by
  unfold startMotion at h
  split at h
  · cases h
  · simp only at h
    split at h
    · cases h
    · rename_i hexecute
      have hopen := open_of_execute hexecute
      exact hopen
    · cases h

/-- A motion that has begun where there was none before is all that is known afterwards. -/
theorem startMotion_of_idle (hidle : e.motion = {})
    (h : e.startMotion controller motion path goal = (.ok id, e')) :
    ∃ outcome, (outcome = none ∨ outcome = some .success) ∧ e'.motion =
      { status := .running, expected := motion, current := some id, outcome } := by
  rw [startMotion_eq] at h
  rcases hlaunch : e.launch controller motion path goal with ⟨launched, e₁⟩
  obtain ⟨j, -, -, -, hlaunched⟩ := launch_cases hlaunch (by rw [hidle]) (by rw [hidle])
  rw [hlaunch] at h
  generalize hm : e₁.motion = m₁ at hlaunched
  cases hlaunched with
  | refused => cases h
  | @accepted confirmed _ _ hawaited =>
      cases hawaited with
      | failed => cases h
      | confirmed hcredits _ =>
          obtain ⟨hid, rfl⟩ := Prod.mk.inj h
          obtain rfl := Except.ok.inj hid
          refine ⟨_, hcredits.imp_right And.left, ?_⟩
          rw [hm, hidle]
          rfl

end Engine

/-! ### The finishing commands -/

/-- The states that finishing commands answer: `s`, and each one that is accepted after it, up to
the first that reports no generator. -/
def Journal.closers (s : State) (j : Journal) : List State :=
  s :: (j.accepted (some s.messageId)).takeWhile fun t => t.motionMode ≠ .idle

theorem Journal.Ending.commands_eq {finishing : MotionCommand} {control : Torques} {s : State}
    {j : Journal} (h : Ending finishing control s j) (hopen : j.refusals = []) :
    j.commands = (j.closers s).map fun t => Command.encode ⟨t.messageId, finishing, control⟩ := by
  induction h with
  | refused datagram => cases hopen
  | broken hsilent haccepted =>
      rw [closers, accepted_finishes, haccepted, commands_append_of_nil _ hsilent.2]
      rfl
  | @moving s next said between rest hsilent haccepted hmode hending ih =>
      have hrest : rest.refusals = [] := by
        rw [refusals_append] at hopen
        exact (List.append_eq_nil_iff.1 hopen).2
      have hclosers : closers s (finishes finishing control s said ++ between ++ rest) =
          s :: rest.closers next := by
        rw [closers, List.append_assoc, accepted_finishes, accepted_append, haccepted,
          lastId_of_accepted haccepted, List.singleton_append,
          List.takeWhile_cons_of_pos (by simpa using hmode)]
        rfl
      rw [commands_append, commands_append_of_nil _ hsilent.2, ih hrest, hclosers]
      rfl
  | resting hsilent haccepted hmode =>
      rw [closers, accepted_finishes, haccepted, commands_append_of_nil _ hsilent.2,
        List.takeWhile_cons_of_neg (by simp [hmode])]
      rfl

/-- At the end of a motion no request is tried. -/
theorem Journal.Ending.attempts {finishing : MotionCommand} {control : Torques} {s : State}
    {j : Journal} (h : Ending finishing control s j) : j.attempts = [] := by
  induction h with
  | refused => rfl
  | broken hsilent _ | resting hsilent _ _ => exact attempts_append_of_nil _ hsilent.1
  | moving hsilent _ _ _ ih =>
      rw [attempts_append_of_nil _ ih]
      exact attempts_append_of_nil _ hsilent.1

/-! ### The run -/

namespace ControlLoop

open Engine

variable {σ : Type} {credit : σ → Nat} {steering : Steering credit} {e e' : Engine}
  {controller : ControllerMode} {motion : MotionMode} {calls : List Call}
  {said : List (Tick × LoopCommand)} {stopped : Tick}

/-- What was asked for last. -/
def lastSaid (said : List (Tick × LoopCommand)) : LoopCommand :=
  (said.getLast?.map Prod.snd).getD {}

/-- What was sent for what was asked for. -/
def spoken (said : List (Tick × LoopCommand)) : List Command :=
  said.filterMap fun said => said.2.answerTo said.1.state

/-- What is shown and answered in a call. -/
def exchanged (call : Call) : Tick × Except SessionError (Step LoopCommand) :=
  (call.input, call.answer)

theorem asked_of_exchanged (h : calls.map exchanged = said.map fun g => (g.1, .ok (.proceed g.2))) :
    asked calls = lastSaid said := by
  have hlast := congrArg List.getLast? h
  rw [List.getLast?_map, List.getLast?_map] at hlast
  unfold asked lastSaid
  generalize calls.getLast? = call at hlast ⊢
  generalize said.getLast? = g at hlast ⊢
  rcases call with _ | ⟨tick, answer, journal⟩ <;> rcases g with _ | g
  · rfl
  · cases hlast
  · cases hlast
  · obtain ⟨-, rfl⟩ := Prod.mk.inj (Option.some.inj hlast)
    rfl

theorem sentFor_of_exchanged
    (h : calls.map exchanged = said.map fun g => (g.1, .ok (.proceed g.2))) :
    calls.filterMap sentFor = spoken said := by
  induction calls generalizing said with
  | nil =>
      obtain rfl := List.map_eq_nil_iff.1 h.symm
      rfl
  | cons call rest ih =>
      cases said with
      | nil => cases h
      | cons g said =>
          obtain ⟨hcall, hrest⟩ := List.cons.inj h
          obtain ⟨hinput, hanswer⟩ := Prod.mk.inj hcall
          have hsent : sentFor call = g.2.answerTo g.1.state := by
            rw [sentFor, hanswer, hinput]
          rw [filterMap_sentFor_cons, hsent, ih hrest, spoken, spoken, List.filterMap_cons]
          cases g.2.answerTo g.1.state <;> rfl

/-- From `e` on the commands `said` were sent first, and then `s` was the last state.  After that
finishing commands alone were sent, all with this target and these torques, in answer to the states
that were accepted one after another. -/
def Dictated (e : Engine) (said : List Command) (s : State) (target : MotionCommand)
    (control : Torques) (j : Journal) : Prop :=
  ∃ a b c : Journal, j = a ++ b ++ c ∧ a.commands = said.map Command.encode ∧
    (a.accepted e.lastId).getLast?.or e.lastState = some s ∧ b.attempts = [] ∧
    b.commands = (b.closers s).map (fun t => Command.encode ⟨t.messageId, target.finish, control⟩) ∧
    c.commands = []

theorem conclude_mute {ended : Except SessionError Unit × Engine}
    {result : Except SessionError Unit} (h : (result, e') = conclude ended) :
    ∃ k, Passage ended.2 k e' ∧ k.commands = [] := by
  rcases ended with ⟨err | ⟨⟩, e₁⟩
  · obtain ⟨-, rfl⟩ := Prod.mk.inj h
    obtain ⟨k, hpassage, -, hcommands, -⟩ := e₁.cancelMotion_cases
    exact ⟨k, hpassage, hcommands⟩
  · obtain ⟨-, rfl⟩ := Prod.mk.inj h
    exact ⟨[], .refl _, rfl⟩

/-- In the rounds of a motion that has begun the link is open. -/
theorem open_of_arrives {path goal : Deviation} {id : UInt32} {e₁ : Engine} {s : State}
    {before : List Call} {call : Call} {j : Journal}
    (hstart : e.startMotion controller motion path goal = (.ok id, e₁))
    (h : Arrives motion s e₁ before call j e') : e'.link.closed = false := by
  obtain ⟨j₀, hpassage₀, -⟩ := startMotion_mute controller motion path goal e
  have hpath₀ := path_startMotion controller motion path goal e
  have hopen := (hpath₀.unrefused (open_of_startMotion hstart) hpassage₀).1
  rw [hstart] at hopen
  obtain ⟨ms, hpath⟩ := h.path
  exact (hpath.unrefused hopen h.passage).1

/-- A run that is stopped has sent what the steering has asked for, and then the last of it, or
else to stay where the arm is, until the arm has come to rest. -/
theorem run_stopped {m : σ} {p' : σ × List Call} {result : Except SessionError Unit}
    (hidle : e.motion = {})
    (h : run controller motion steering.recorded e (m, []) = (result, p', e'))
    (hcalls : p'.2.map exchanged =
      said.map (fun g => (g.1, .ok (.proceed g.2))) ++ [(stopped, .ok .stop)]) :
    ∃ j, Passage e j e' ∧ Dictated e (spoken said) stopped.state
      ((lastSaid said).motion.getD (.hold stopped.state))
      (closing (lastSaid said).torques (spoken said).getLast?) j := by
  rcases recorded_run_cases h with ⟨hnone, -⟩ |
    ⟨id, e₁, s, r, e₂, hstart, hcruises, -, hrounds, hend⟩
  · rw [hnone] at hcalls
    simp at hcalls
  · have hnothing : asked [] = {} := rfl
    obtain ⟨before, ⟨tick, answer, journal⟩, j₁, e₃, ended, heq, harrives, hleaves⟩ :=
      hrounds.arrives hcruises hnothing
    rw [heq, List.map_append] at hcalls
    obtain ⟨hbefore, hlast⟩ := List.append_inj' hcalls rfl
    obtain ⟨rfl, rfl⟩ := Prod.mk.inj (List.singleton_inj.1 hlast)
    rw [List.nil_append, asked_of_exchanged hbefore] at hleaves
    obtain ⟨started, hstarted, hmotion₁⟩ := startMotion_of_idle hidle hstart
    obtain ⟨outcome, hcredits, hmotion₃⟩ := harrives.motion
    rw [sentFor_of_exchanged hbefore, hmotion₁, Option.or_none] at hmotion₃
    -- the answer to the last call is a stop, which leaves one way for the cycles to end
    cases hleaves with
    | stopped hfinish =>
        have hs : e₃.lastState = some tick.state := harrives.cruises.last
        have houtcome : e₃.motion.outcome = none ∨ e₃.motion.outcome = some .success := by
          rw [hmotion₁] at hcredits
          rw [hmotion₃]
          exact hcredits.elim (fun heq => heq ▸ hstarted) fun hcredit => .inr hcredit.1
        obtain ⟨j₂, hpassage₂, hending, -⟩ := finishMotion_ended hfinish (by rw [hmotion₃])
          harrives.cruises.running (by rw [hmotion₃]) houtcome hs
        obtain ⟨j₀, hpassage₀, hmute⟩ :=
          startMotion_mute controller motion e.settings.path e.settings.goal e
        obtain ⟨k, hpassage₃, hquiet⟩ := conclude_mute hend
        have hpath := path_finishMotion id (lastSaid said).motion (lastSaid said).torques e₃
        rw [hfinish] at hpath
        have hrefusals := (hpath.unrefused (open_of_arrives hstart harrives) hpassage₂).2
        rw [hstart] at hpassage₀
        have hpassage := hpassage₀.trans harrives.passage
        refine ⟨_, (hpassage.trans hpassage₂).trans hpassage₃, j₀ ++ j₁, j₂, k, rfl, ?_, ?_,
          hending.attempts, ?_, hquiet⟩
        · rw [Journal.commands_append, hmute, harrives.commands, sentFor_of_exchanged hbefore]
          rfl
        · rw [← hpassage.lastState, hs]
        · rw [hmotion₃] at hending
          exact hending.commands_eq hrefusals

end ControlLoop
end ArmControl
