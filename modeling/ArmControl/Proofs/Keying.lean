import ArmControl.Proofs.Datagram
import ArmControl.Proofs.Exclusion

/-! # Which state a command answers

Commands are sent by control cycles alone, and each cycle sends at most one, before it receives
anything: `update_commands` says when it does so.  The command answers the last state that was
accepted, and is flagged as the last one while the generator comes to rest (`Answers`).

A command in the journal of a session was sent by such a cycle (`perform_of_command`), so the
numbers of the states that are answered never decrease (`Journal.Keyed.sorted`).
`commands_keyed` says all this of a whole session. -/

namespace ArmControl

/-! ### The numbers of commands -/

/-- The last record is not older than `last`, or than any state before it. -/
theorem le_latest {last : Option UInt64} {id id' : UInt64} (states : List State)
    (h : last = some id) (h' : latest last states = some id') : id ≤ id' := by
  unfold latest at h'
  cases hrecord : (records last states).getLast? with
  | none =>
      rw [hrecord, h] at h'
      exact (Option.some.inj h') ▸ UInt64.le_refl id
  | some s =>
      rw [hrecord] at h'
      obtain rfl := Option.some.inj h'
      have hnew := newerThan_of_mem_records (List.mem_of_getLast? hrecord)
      rw [h] at hnew
      exact UInt64.le_of_lt (by simpa [Engine.newerThan] using hnew)

namespace Journal

/-- The numbers of the states that the commands answer. -/
def answered (j : Journal) : List UInt64 :=
  j.commands.filterMap fun d => (Command.decode d).toOption.map Command.messageId

/-- Every command answers the last state that was accepted before it was sent. -/
def Keyed (j : Journal) : Prop :=
  ∀ (a : Journal) d b, j = a ++ .command d :: b →
    ∃ c, Command.decode d = .ok c ∧ a.lastId none = some c.messageId

theorem Keyed.of_append {i j : Journal} (h : Keyed (i ++ j)) : i.Keyed := by
  rintro a d b rfl
  exact h a d (b ++ j) (by simp)

/-- The numbers never decrease, and none exceeds that of the last state accepted. -/
theorem Keyed.sorted {j : Journal} (h : j.Keyed) :
    j.answered.Pairwise (· ≤ ·) ∧
      ∀ id ∈ j.answered, ∃ last, j.lastId none = some last ∧ id ≤ last := by
  induction j using List.reverseRecOn with
  | nil => exact ⟨.nil, nofun⟩
  | append_singleton j entry ih =>
      obtain ⟨hpairwise, hbound⟩ := ih h.of_append
      have hlater {id : UInt64} (hid : id ∈ answered j) :
          ∃ last, lastId none (j ++ [entry]) = some last ∧ id ≤ last := by
        obtain ⟨last, hlast, hle⟩ := hbound id hid
        rw [lastId_append, hlast]
        obtain ⟨last', hlast'⟩ : ∃ last', lastId (some last) [entry] = some last' := by
          unfold lastId latest
          cases (records (some last) (states [entry])).getLast? <;> exact ⟨_, rfl⟩
        exact ⟨last', hlast', UInt64.le_trans hle (le_latest _ rfl hlast')⟩
      cases hcommand : entry.command? with
      | none =>
          have hsame : answered (j ++ [entry]) = answered j := by
            simp [answered, commands, hcommand]
          rw [hsame]
          exact ⟨hpairwise, fun id hid => hlater hid⟩
      | some d =>
          obtain rfl : entry = .command d := by
            unfold Entry.command? at hcommand
            split at hcommand
            · exact congrArg _ (Option.some.inj hcommand)
            · cases hcommand
          obtain ⟨c, hdecode, hkey⟩ := h j d [] rfl
          have hnow : answered (j ++ [.command d]) = answered j ++ [c.messageId] := by
            simp [answered, commands, Entry.command?, hdecode, Except.toOption]
          have hle {id : UInt64} (hid : id ∈ answered j) : id ≤ c.messageId := by
            obtain ⟨last, hlast, hle⟩ := hbound id hid
            rw [hkey] at hlast
            rwa [Option.some.inj hlast]
          rw [hnow]
          refine ⟨?_, fun id hid => ?_⟩
          · rw [List.pairwise_append]
            refine ⟨hpairwise, List.pairwise_singleton _ _, fun id hid id' hid' => ?_⟩
            rw [List.mem_singleton.1 hid']
            exact hle hid
          · rcases List.mem_append.1 hid with hid | hid
            · exact hlater hid
            · rw [List.mem_singleton.1 hid]
              refine ⟨c.messageId, ?_, UInt64.le_refl _⟩
              rw [lastId_append, hkey]
              rfl

end Journal

namespace Engine

variable {e e' : Engine} {motion : Option MotionCommand} {torques : Option Torques}
  {j k l : Journal} {d : Bytes}

/-! ### One cycle -/

/-- A cycle with this motion and these torques has a command to send. -/
structure Speaks (e : Engine) (motion : Option MotionCommand) (torques : Option Torques) : Prop where
  deferred : e.motion.deferred = none
  state : e.lastState ≠ none
  occasion : motion ≠ none ∨ torques ≠ none ∨ e.motion.status = .stopping
  opened : e.link.closed = false

/-- The command answers the last state.  It is the last one of its motion if the generator comes to
rest, or if that is asked for. -/
structure Answers (e : Engine) (motion : Option MotionCommand) (c : Command) : Prop where
  id : e.lastId = some c.messageId
  finished : c.motion.finished ↔
    e.motion.status = .stopping ∨ ∃ m, motion = some m ∧ m.finished

theorem answers_compose {s : State} (hs : e.lastState = some s) (motion : Option MotionCommand)
    (torques : Option Torques) : e.Answers motion
      (compose s (e.motion.status = .stopping) e.motion.lastCommand motion torques) where
  id := by simp [lastId, hs, compose]
  finished := by
    by_cases hstopping : e.motion.status = .stopping
    · simp [compose, hstopping, MotionCommand.finish]
    · cases motion <;> simp [compose, hstopping, MotionCommand.neutral]

theorem update_of_silent (hmotion : motion = none) (htorques : torques = none)
    (hstatus : e.motion.status ≠ .stopping) (hdeferred : e.motion.deferred = none) :
    e.update motion torques = e.poll := by
  simp [update, hdeferred, hmotion, htorques, hstatus]

/-- A command is sent just if there is one to send, and it is the first thing that passes. -/
theorem update_commands (e : Engine) (motion : Option MotionCommand) (torques : Option Torques) :
    (e.Speaks motion torques → ∃ c said, ∃ rest : Journal,
      Passage e (.command c.encode :: .queued said :: rest) (e.update motion torques).2 ∧
      rest.commands = [] ∧ e.Answers motion c) ∧
    (¬ e.Speaks motion torques → ∃ j, Passage e j (e.update motion torques).2 ∧
      j.commands = []) := by
  constructor
  · intro hspeaks
    rcases update_cases hspeaks.deferred (Prod.eta (e.update motion torques)).symm with
      ⟨_, -, -, -, hclosed⟩ | ⟨i, e₁, hsends, hpoll⟩
    · exact absurd hclosed (by simp [hspeaks.opened])
    · obtain ⟨j, -, hpassage, hsilent, -⟩ := poll_cases hpoll
      cases hsends with
      | nothing hnothing =>
          rcases hnothing with hnone | ⟨rfl, rfl, hstatus⟩
          · exact absurd hnone hspeaks.state
          · exact absurd hspeaks.occasion (by simp [hstatus])
      | command hs hc _ hpassage₁ _ =>
          exact ⟨_, _, j, hpassage₁.trans hpassage, hsilent.2, hc ▸ answers_compose hs motion torques⟩
  · intro hmute
    by_cases hdeferred : e.motion.deferred = none
    · by_cases hoccasion : motion ≠ none ∨ torques ≠ none ∨ e.motion.status = .stopping
      · rcases update_cases hdeferred (Prod.eta (e.update motion torques)).symm with
          ⟨_, -, -, hpassage, -⟩ | ⟨i, e₁, hsends, hpoll⟩
        · exact ⟨_, hpassage, rfl⟩
        · obtain ⟨j, -, hpassage, hsilent, -⟩ := poll_cases hpoll
          cases hsends with
          | nothing => exact ⟨j, hpassage, hsilent.2⟩
          | command hs _ _ _ hopened =>
              exact absurd ⟨hdeferred, by simp [hs], hoccasion, hopened⟩ hmute
      · simp only [not_or, not_not] at hoccasion
        rw [update_of_silent hoccasion.1 hoccasion.2.1 hoccasion.2.2 hdeferred]
        obtain ⟨j, -, hpassage, hsilent, -⟩ := poll_cases (Prod.eta e.poll).symm
        exact ⟨j, hpassage, hsilent.2⟩
    · obtain ⟨err, herr⟩ := Option.ne_none_iff_exists'.1 hdeferred
      rw [update_of_deferred herr]
      exact ⟨[], (Passage.refl e).withMotion _, rfl⟩

theorem startMotion_mute (controller : ControllerMode) (motion : MotionMode)
    (path goal : Deviation) (e : Engine) :
    ∃ j, Passage e j (e.startMotion controller motion path goal).2 ∧ j.commands = [] := by
  by_cases hadmits : e.Admits (.move ⟨controller, motion, path, goal⟩)
  · rcases hlaunch : e.launch controller motion path goal with ⟨launched, e₁⟩
    obtain ⟨i, hpassage, -, hcommands, -⟩ := launch_cases hlaunch hadmits.1 hadmits.2
    rw [startMotion_eq, hlaunch]
    rcases launched with err | ⟨id, err | _⟩
    · exact ⟨i, hpassage, hcommands⟩
    · obtain ⟨j, hcancel, -, hnone, -⟩ := e₁.cancelMotion_cases
      exact ⟨i ++ j, hpassage.trans hcancel, (Journal.commands_append_of_nil i hnone).trans hcommands⟩
    · exact ⟨i, hpassage, hcommands⟩
  · obtain ⟨fault, hrefused⟩ : ∃ fault, e.perform (.startMotion controller motion path goal) =
        (.error (.motion fault), e) := perform_of_not_admits rfl hadmits
    have hsame : (e.startMotion controller motion path goal).2 = e := congrArg Prod.snd hrefused
    exact ⟨[], hsame.symm ▸ .refl e, rfl⟩

/-- What is written has no command in it. -/
theorem Passage.not_mem_commands (h : Passage e j e') (hcommands : j.commands = [])
    (hentry : Passage e (k ++ .command d :: l) e') : False := by
  obtain rfl := List.append_cancel_left (h.journal.symm.trans hentry.journal)
  simp [Journal.commands, Entry.command?] at hcommands

theorem update_of_command (h : Passage e (k ++ .command d :: l) (e.update motion torques).2) :
    k = [] ∧ e.Speaks motion torques ∧ ∃ c, d = c.encode ∧ e.Answers motion c := by
  obtain ⟨hspeaks, hmute⟩ := e.update_commands motion torques
  by_cases hspeak : e.Speaks motion torques
  · obtain ⟨c, said, rest, hpassage, hrest, hanswers⟩ := hspeaks hspeak
    have heq := List.append_cancel_left (hpassage.journal.symm.trans h.journal)
    cases k with
    | nil => exact ⟨rfl, hspeak, c, (Entry.command.inj (List.cons.inj heq).1).symm, hanswers⟩
    | cons first k =>
        exfalso
        have htail := congrArg Journal.commands (List.cons.inj heq).2
        change Journal.commands rest = _ at htail
        rw [hrest] at htail
        simp [Journal.commands, Entry.command?] at htail
  · obtain ⟨j, hpassage, hcommands⟩ := hmute hspeak
    exact (hpassage.not_mem_commands hcommands h).elim

/-! ### The cycles of a call -/

/-- Cycles on the way to rest lead from one engine to another, each of which has given a state. -/
inductive Drains (finishing : MotionCommand) (torques : Option Torques) : Engine → Engine → Prop
  | refl {e : Engine} : Drains finishing torques e e
  | cycle {e e₁ e' : Engine} {s : State} : e.update (some finishing) torques = (.ok (some s), e₁) →
      Drains finishing torques e₁ e' → Drains finishing torques e e'

/-- The call has come to a control cycle with this motion and these torques: it is that cycle, or
it brings a motion to its end, and the generator is on its way to rest. -/
inductive Call.Cycles (e : Engine) :
    Call → Engine → Option MotionCommand → Option Torques → Prop
  | update {motion : Option MotionCommand} {torques : Option Torques} :
      Call.Cycles e (.update motion torques) e motion torques
  | finishing {id : UInt32} {motion : Option MotionCommand} {torques : Option Torques}
      {finishing : MotionCommand} {e' : Engine} : e.motion.current = some id →
      Drains finishing torques (e.withMotion (e.motion.exchange .running .stopping)) e' →
      e'.motion.status = .stopping →
      Call.Cycles e (.finishMotion id motion torques) e' (some finishing) torques

theorem drain_of_command {finishing : MotionCommand}
    (h : Passage e (k ++ .command d :: l) (e.drain finishing torques).2) :
    ∃ e₁, Drains finishing torques e e₁ ∧ e₁.motion.status = .stopping ∧ Passage e k e₁ ∧
      e₁.Speaks (some finishing) torques ∧
      ∃ c, d = c.encode ∧ e₁.Answers (some finishing) c := by
  -- a command of the first cycle is the first thing that passes
  have hfirst {e e₁ : Engine} {k l : Journal} {result : Except SessionError (Option State)}
      (hstopping : e.motion.status = .stopping)
      (hupdate : e.update (some finishing) torques = (result, e₁))
      (h : Passage e (k ++ .command d :: l) e₁) :
      ∃ e₁, Drains finishing torques e e₁ ∧ e₁.motion.status = .stopping ∧ Passage e k e₁ ∧
        e₁.Speaks (some finishing) torques ∧
        ∃ c, d = c.encode ∧ e₁.Answers (some finishing) c := by
    replace h : Passage e (k ++ .command d :: l) (e.update (some finishing) torques).2 := by
      rwa [hupdate]
    obtain ⟨rfl, hspeaks, hsent⟩ := update_of_command h
    exact ⟨e, .refl, hstopping, .refl e, hspeaks, hsent⟩
  fun_induction drain finishing torques e generalizing k with
  | case1 e hstopping s e₁ hupdate ih =>
      obtain ⟨i, hpassage₁, -⟩ := update_passage hupdate
      obtain ⟨j, hpassage₂, -⟩ := drain_passage finishing torques e₁
      rcases h.split hpassage₁ hpassage₂ with ⟨m, rfl⟩ | ⟨m, rfl, rfl⟩
      · exact hfirst hstopping hupdate hpassage₁
      · obtain ⟨e₂, hdrains, hstopping₂, hpassage, hsent⟩ := ih hpassage₂
        exact ⟨e₂, .cycle hupdate hdrains, hstopping₂, hpassage₁.trans hpassage, hsent⟩
  | case2 e hstopping e₁ hupdate => exact hfirst hstopping hupdate h
  | case3 e hstopping err e₁ hupdate => exact hfirst hstopping hupdate h
  | case4 e hrest => exact ((Passage.refl e).not_mem_commands rfl h).elim

variable {call : Call}

theorem finishMotion_of_command {id : UInt32}
    (h : Passage e (k ++ .command d :: l) (e.finishMotion id motion torques).2) :
    ∃ e₁ finishing, Call.Cycles e (.finishMotion id motion torques) e₁ (some finishing) torques ∧
      Passage e k e₁ ∧ e₁.Speaks (some finishing) torques ∧
      ∃ c, d = c.encode ∧ e₁.Answers (some finishing) c := by
  unfold finishMotion at h
  split at h
  · exact ((Passage.refl e).not_mem_commands rfl h).elim
  · rename_i hcurrent
    simp only at h
    generalize motion.getD _ = last at h
    have hpassage₀ : Passage e [] (e.withMotion (e.motion.exchange .running .stopping)) :=
      (Passage.refl e).withMotion _
    obtain ⟨j₁, hpassage₁, -⟩ := drain_passage last.finish torques
      (e.withMotion (e.motion.exchange .running .stopping))
    have hdrain {m : Journal} (hj : j₁ = k ++ .command d :: m) :
        ∃ e₁ finishing, Call.Cycles e (.finishMotion id motion torques) e₁ (some finishing)
          torques ∧ Passage e k e₁ ∧ e₁.Speaks (some finishing) torques ∧
          ∃ c, d = c.encode ∧ e₁.Answers (some finishing) c := by
      obtain ⟨e₁, hdrains, hstopping, hpassage, hsent⟩ := drain_of_command (hj ▸ hpassage₁)
      exact ⟨e₁, _, .finishing (not_not.1 hcurrent) hdrains hstopping, hpassage₀.trans hpassage,
        hsent⟩
    rcases hresult : Engine.drain last.finish torques
      (e.withMotion (e.motion.exchange .running .stopping)) with ⟨err | _, e₁⟩ <;>
      rw [hresult] at h hpassage₁
    · exact hdrain (List.append_cancel_left ((hpassage₀.trans hpassage₁).journal.symm.trans h.journal))
    · obtain ⟨j₂, hpassage₂, hsilent⟩ := awaitOutcome_passage id e₁
      rcases h.split (hpassage₀.trans hpassage₁) hpassage₂ with ⟨m, hm⟩ | ⟨m, -, rfl⟩
      · exact hdrain hm
      · exact (hpassage₂.not_mem_commands hsilent.2 hpassage₂).elim

/-- All other calls send no command. -/
theorem perform_of_command (h : Passage e (k ++ .command d :: l) (e.perform call).2) :
    ∃ e₁ motion torques, Call.Cycles e call e₁ motion torques ∧ Passage e k e₁ ∧
      e₁.Speaks motion torques ∧ ∃ c, d = c.encode ∧ e₁.Answers motion c := by
  have hmute {P : Prop} (hnone : ∃ j, Passage e j (e.perform call).2 ∧ j.commands = []) : P := by
    obtain ⟨j, hpassage, hcommands⟩ := hnone
    exact (hpassage.not_mem_commands hcommands h).elim
  cases call with
  | update motion torques =>
      obtain ⟨rfl, hspeaks, hsent⟩ := update_of_command h
      exact ⟨e, motion, torques, .update, .refl e, hspeaks, hsent⟩
  | finishMotion id motion torques =>
      obtain ⟨e₁, finishing, hcycles, hpassage, hsent⟩ := finishMotion_of_command h
      exact ⟨e₁, _, torques, hcycles, hpassage, hsent⟩
  | startGenerator type =>
      refine hmute ?_
      by_cases hstatus : e.motion.status = .notStarted
      · obtain ⟨j, hpassage, hcommands, -⟩ :=
          startGenerator_cases (Prod.eta (e.startGenerator type)).symm hstatus
        exact ⟨j, hpassage, hcommands⟩
      · exact ⟨[], by rw [perform, startGenerator_of_busy hstatus]; exact .refl e, rfl⟩
  | stopGenerator =>
      obtain ⟨j, hpassage, hcommands, -⟩ := e.stopGenerator_passage
      exact hmute ⟨j, hpassage, hcommands⟩
  | setController mode =>
      obtain ⟨j, hpassage, -, hcommands, -⟩ :=
        setController_cases (Prod.eta (e.setController mode)).symm
      exact hmute ⟨j, hpassage, hcommands⟩
  | startMotion controller motion path goal =>
      exact hmute (startMotion_mute controller motion path goal e)
  | cancelMotion =>
      obtain ⟨j, hpassage, -, hcommands, -⟩ := e.cancelMotion_cases
      exact hmute ⟨j, hpassage, hcommands⟩

/-! ### A session -/

/-- Every command was sent by a control cycle that had one to send, and answers the last state that
was accepted before. -/
theorem after_of_command {e₀ : Engine} {turns : List Turn} {a b : Journal}
    (h₀ : e₀.lastState = none)
    (h : (e₀.after turns).link.journal = e₀.link.journal ++ (a ++ .command d :: b)) :
    ∃ before call later e₁ motion torques c, turns = before ++ .call call :: later ∧
      Call.Cycles (e₀.after before) call e₁ motion torques ∧
      e₁.link.journal = e₀.link.journal ++ a ∧ e₁.Speaks motion torques ∧
      Command.decode d = .ok c ∧ e₁.Answers motion c ∧ a.lastId none = some c.messageId := by
  obtain ⟨before, t, later, i, k, l, rfl, rfl, hbefore, hturn⟩ := exists_turn h
  cases t with
  | happen happenings =>
      obtain ⟨j, hpassage, hsilent, -⟩ := (e₀.after before).passage_witness happenings
      exact (hpassage.not_mem_commands hsilent.2 hturn).elim
  | call call =>
      obtain ⟨e₁, motion, torques, hcycles, hpassage, hspeaks, c, rfl, hanswers⟩ :=
        perform_of_command hturn
      obtain ⟨i', hsession⟩ := after_passage before e₀
      obtain rfl := List.append_cancel_left (hsession.journal.symm.trans hbefore)
      have hall := hsession.trans hpassage
      have hlast : e₁.lastId = Journal.lastId none (i' ++ k) := by
        rw [hall.lastId, lastId, h₀]
        rfl
      exact ⟨before, call, later, e₁, motion, torques, c, rfl, hcycles, hall.journal, hspeaks,
        c.decode_encode, hanswers, hlast ▸ hanswers.id⟩

/-- A cycle sends a command before anything else passes, if there is one to send, and sends none
otherwise.  All commands of a session were sent by such cycles: each answers the last state that was
accepted before it, and is flagged while the generator comes to rest; so the numbers of the states
that are answered never decrease. -/
theorem commands_keyed (session : Session) (settings : Settings) (clock : Clock)
    (turns : List Turn) :
    let e₀ := Engine.start session settings clock
    let e := e₀.after turns
    (∀ (e : Engine) motion torques,
      (e.Speaks motion torques → ∃ c said, ∃ rest : Journal,
        Passage e (.command c.encode :: .queued said :: rest) (e.update motion torques).2 ∧
        rest.commands = [] ∧ e.Answers motion c) ∧
      (¬ e.Speaks motion torques → ∃ j, Passage e j (e.update motion torques).2 ∧
        j.commands = [])) ∧
    (∀ (a : Journal) d b, e.link.journal = e₀.link.journal ++ (a ++ .command d :: b) →
      ∃ before call later e₁ motion torques c, turns = before ++ .call call :: later ∧
        Call.Cycles (e₀.after before) call e₁ motion torques ∧
        e₁.link.journal = e₀.link.journal ++ a ∧ e₁.Speaks motion torques ∧
        Command.decode d = .ok c ∧ e₁.Answers motion c ∧
        (a.accepted none).getLast?.map State.messageId = some c.messageId) ∧
    ∃ j : Journal, e.link.journal = e₀.link.journal ++ j ∧ j.answered.Pairwise (· ≤ ·) := by
  intro e₀ e
  refine ⟨update_commands, fun a d b h => ?_, ?_⟩
  · obtain ⟨before, call, later, e₁, motion, torques, c, hturns, hcycles, hjournal, hspeaks,
      hdecode, hanswers, hkey⟩ := after_of_command rfl h
    refine ⟨before, call, later, e₁, motion, torques, c, hturns, hcycles, hjournal, hspeaks,
      hdecode, hanswers, ?_⟩
    rwa [Journal.lastId, latest, Option.or_none] at hkey
  · obtain ⟨j, hpassage⟩ := after_passage turns e₀
    have hkeyed : j.Keyed := by
      rintro a d b rfl
      obtain ⟨_, _, _, _, _, _, c, -, -, -, -, hdecode, -, hkey⟩ :=
        after_of_command rfl hpassage.journal
      exact ⟨c, hdecode, hkey⟩
    exact ⟨j, hpassage.journal, hkeyed.sorted.1⟩

theorem commands_keyed_update :
    let e₀ := Engine.start default {} default
    let before := [Turn.happen [.say [.nextState State.initial 5]], .call (.update none none)]
    let e := e₀.after before
    let call := Call.update (some .neutral) none
    let command : Command := ⟨5, .neutral, Joints.zero⟩
    ¬ e₀.Speaks none none ∧ (∃ j, Passage e₀ j (e₀.update none none).2 ∧ j.commands = []) ∧
    e.Speaks (some .neutral) none ∧
    (∃ c said, ∃ rest : Journal,
      Passage e (.command c.encode :: .queued said :: rest) (e.update (some .neutral) none).2 ∧
      rest.commands = [] ∧ e.Answers (some .neutral) c) ∧
    ∃ a b : Journal, (e₀.after (before ++ [.call call])).link.journal =
        e₀.link.journal ++ (a ++ .command command.encode :: b) ∧
      ∃ c, Command.decode command.encode = .ok c ∧
        (a.accepted none).getLast?.map State.messageId = some c.messageId := by
  intro e₀ before e call command
  have hmute : ¬ e₀.Speaks none none := fun h => h.state rfl
  have hspeaks : e.Speaks (some .neutral) none :=
    ⟨by decide +kernel, by decide +kernel, .inl nofun, by decide +kernel⟩
  have hjournal : (e₀.after (before ++ [.call call])).link.journal = e₀.link.journal ++
      (e.link.journal ++ .command command.encode :: [.queued {}, .idle]) := by decide +kernel
  obtain ⟨hupdate, hsent, -⟩ := commands_keyed default {} default (before ++ [.call call])
  obtain ⟨-, -, -, -, -, -, c, -, -, -, -, hdecode, -, hkey⟩ := hsent _ _ _ hjournal
  exact ⟨hmute, (hupdate e₀ none none).2 hmute, hspeaks, (hupdate e _ _).1 hspeaks, _, _, hjournal,
    c, hdecode, hkey⟩

end Engine
end ArmControl
