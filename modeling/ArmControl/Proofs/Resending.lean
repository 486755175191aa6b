import ArmControl.Proofs.Accounts
import ArmControl.Proofs.Keying
import ArmControl.Proofs.Obedience

/-! # What is sent again

An engine has the last command on record that it has sent, and sends it again while the generator
comes to rest.  As long as a generator is active the record follows what is sent (`Retains`).  When
the generator is gone the record is empty; what is sent then is put on record all the same, and a
start leaves it there (`Recalls`).

Both are shown of the few small procedures of which all the others are made.  So the
cycles on the way to rest send again what was sent last since the generator was started, or else
what had been on record by then, and if there was nothing, they hold the arm where it is
(`stopping_resends`). -/

namespace ArmControl

/-- A far end that lets a generator start, and agrees to stop it. -/
def FarEnd.obliging : FarEnd where
  script :=
    [(.request .startMotion, [.reply (.startMotion .success) none 0,
        .nextState { State.initial with motionMode := .jointPosition } 1]),
      (.request .stopMotion, [.reply (.stopMotion .success) none 0])]

/-! ### The record -/

namespace Motion

variable {m m' m'' : Motion} {checked : Except SessionError Unit × Motion}

/-- The command on record is kept as long as the generator is, and goes together with it; and there
is no generator that was not there before. -/
structure Keeps (m m' : Motion) : Prop where
  record : m'.lastCommand = none ∨ m'.lastCommand = m.lastCommand
  active : m'.status ≠ .notStarted →
    m.status ≠ .notStarted ∧ m'.lastCommand = m.lastCommand
  gone : m.status ≠ .notStarted → m'.status = .notStarted → m'.lastCommand = none

/-- A change that is no change of the status and of the record. -/
theorem keeps_of_eq (hstatus : m'.status = m.status) (hrecord : m'.lastCommand = m.lastCommand) :
    m.Keeps m' :=
  ⟨.inr hrecord, fun hactive => ⟨hstatus ▸ hactive, hrecord⟩,
    fun hactive hgone => absurd (hstatus ▸ hgone) hactive⟩

theorem keeps_refl (m : Motion) : m.Keeps m := keeps_of_eq rfl rfl

/-- The generator is gone, and the record with it. -/
theorem keeps_of_reset (hstatus : m'.status = .notStarted) (hrecord : m'.lastCommand = none) :
    m.Keeps m' :=
  ⟨.inl hrecord, fun hactive => absurd hstatus hactive, fun _ _ => hrecord⟩

theorem Keeps.trans (h₁ : m.Keeps m') (h₂ : m'.Keeps m'') : m.Keeps m'' where
  record := by
    rcases h₂.record with hnone | hsame
    · exact .inl hnone
    · rw [hsame]
      exact h₁.record
  active hactive := by
    obtain ⟨hactive', hsame⟩ := h₂.active hactive
    rw [hsame]
    exact h₁.active hactive'
  gone hactive hgone := by
    by_cases hbetween : m'.status = .notStarted
    · rcases h₂.record with hnone | hsame
      · exact hnone
      · rw [hsame]
        exact h₁.gone hactive hbetween
    · exact h₂.gone hbetween hgone

theorem keeps_observe (mode : MotionMode) (m : Motion) : m.Keeps (m.observe mode).2 := by
  rcases hobserve : m.observe mode with ⟨result, m'⟩
  rcases observe_cases hobserve with ⟨-, rfl, -⟩ | ⟨-, hstarting, -, rfl⟩ | ⟨-, -, -, rfl⟩ |
    ⟨-, -, -, -, -, rfl⟩
  · exact keeps_refl _
  · exact ⟨.inr rfl, fun _ => ⟨by simp [hstarting], rfl⟩, fun _ hgone => by cases hgone⟩
  · exact keeps_of_reset rfl rfl
  · exact keeps_of_reset rfl rfl

theorem keeps_handle (header : Header) (reply : Reply) (m : Motion) :
    m.Keeps (m.handle header reply).2 := by
  rcases hhandle : m.handle header reply with ⟨result, m'⟩
  rcases handle_cases hhandle with ⟨-, rfl⟩ | ⟨-, -, -, rfl⟩ | ⟨-, -, -, -, rfl⟩ |
    ⟨-, -, -, -, rfl⟩
  · exact keeps_refl _
  · exact keeps_of_eq rfl rfl
  · exact keeps_of_reset rfl rfl
  · exact keeps_of_reset rfl rfl

theorem Keeps.defer (h : m.Keeps checked.2) : m.Keeps (Motion.defer checked) := by
  obtain ⟨deferred, hdefer⟩ := defer_cases checked
  rw [hdefer]
  exact h.trans (keeps_of_eq rfl rfl)

theorem keeps_settle (id : UInt32) (m : Motion) : m.Keeps (m.settle id).2 := by
  unfold settle
  split
  · exact keeps_of_eq rfl rfl
  · exact keeps_of_eq rfl rfl
  · split <;> exact keeps_refl m

/-- A generator that is asked to stop, or to go on, is still the same. -/
theorem keeps_exchange {a b : MotionStatus} (ha : a ≠ .notStarted) (hb : b ≠ .notStarted)
    (m : Motion) : m.Keeps (m.exchange a b) := by
  by_cases hstatus : m.status = a
  · rw [exchange_of_eq hstatus]
    exact ⟨.inr rfl, fun _ => ⟨hstatus ▸ ha, rfl⟩, fun _ hgone => absurd hgone hb⟩
  · rw [exchange_of_ne hstatus]
    exact keeps_refl m

end Motion

namespace Engine

variable {e e' e₁ e₂ e₀ : Engine} {i j : Journal}

theorem keeps_judgeState (event : Event) (m : Motion) : m.Keeps (judgeState event m).2 := by
  cases event with
  | state s =>
      have h := Motion.keeps_observe s.motionMode m
      simp only [judgeState]
      split <;> (rename_i hobserve; rwa [hobserve] at h)
  | reply header reply =>
      have h := Motion.keeps_handle header reply m
      simp only [judgeState]
      split <;> (rename_i hhandle; rwa [hhandle] at h)

theorem keeps_judgeReply (kind : FrameKind) (id : UInt32) (event : Event) (m : Motion) :
    m.Keeps (judgeReply kind id event m).2 := by
  cases event with
  | state s => exact (Motion.keeps_observe s.motionMode m).defer
  | reply header reply =>
      simp only [judgeReply]
      split
      · exact Motion.keeps_refl m
      · exact (Motion.keeps_handle header reply m).defer

theorem keeps_judgeOutcome (id : UInt32) (event : Event) (m : Motion) :
    m.Keeps (judgeOutcome id event m).2 := by
  cases event with
  | state s =>
      have h := Motion.keeps_observe s.motionMode m
      simp only [judgeOutcome]
      split <;> (rename_i hobserve; rw [hobserve] at h)
      · exact h
      · exact h.trans (Motion.keeps_settle id _)
  | reply header reply =>
      have h := Motion.keeps_handle header reply m
      simp only [judgeOutcome]
      split <;> (rename_i hhandle; rw [hhandle] at h)
      · exact h
      · exact h.trans (Motion.keeps_settle id _)

/-- The command on record, as it was sent. -/
def lastSent (e : Engine) : Option Bytes := e.motion.lastCommand.map Command.encode

/-- On record is the last command that was sent while `j` was written, or else the one that was on
record before. -/
def Recorded (e : Engine) (j : Journal) (e' : Engine) : Prop :=
  e'.lastSent = j.commands.getLast?.or e.lastSent

theorem Recorded.trans (h₁ : Recorded e i e₁) (h₂ : Recorded e₁ j e') : Recorded e (i ++ j) e' := by
  unfold Recorded at *
  rw [h₂, h₁, Journal.commands_append, List.getLast?_append, Option.or_assoc]

/-- Nothing was sent, and the record is as it was. -/
theorem recorded_of_eq (hcommands : j.commands = []) (h : e'.lastSent = e.lastSent) :
    Recorded e j e' := by
  rw [Recorded, hcommands, h]
  rfl

/-- While `j` was written a record was kept of what was sent, unless there is none in the end. -/
structure Recalls (e : Engine) (j : Journal) (e' : Engine) : Prop where
  passage : Passage e j e'
  record : e'.lastSent = none ∨ Recorded e j e'

/-- Moreover, a generator that is active in the end has been active before, and then the record has
been kept. -/
structure Retains (e : Engine) (j : Journal) (e' : Engine) : Prop extends Recalls e j e' where
  active : e'.motion.status ≠ .notStarted → e.motion.status ≠ .notStarted ∧ Recorded e j e'

instance : Composes Recalls where
  refl e := ⟨.refl e, .inr (recorded_of_eq rfl rfl)⟩
  trans := by
    intro e e₁ e' i j h₁ h₂
    refine ⟨h₁.passage.trans h₂.passage, ?_⟩
    rcases h₂.record with hnone | hrecorded₂
    · exact .inl hnone
    · rcases h₁.record with hnone | hrecorded₁
      · -- what was on record before is forgotten, but not what was sent afterwards
        cases hlast : j.commands.getLast? with
        | none =>
            left
            rw [hrecorded₂, hlast, hnone]
            rfl
        | some d =>
            right
            rw [Recorded, hrecorded₂, Journal.commands_append, List.getLast?_append, hlast]
            rfl
      · exact .inr (hrecorded₁.trans hrecorded₂)

instance : Composes Retains where
  refl e := ⟨Composes.refl e, fun hactive => ⟨hactive, recorded_of_eq rfl rfl⟩⟩
  trans := by
    intro e e₁ e' i j h₁ h₂
    refine ⟨Composes.trans h₁.toRecalls h₂.toRecalls, fun hactive => ?_⟩
    obtain ⟨hactive₁, hrecorded₂⟩ := h₂.active hactive
    obtain ⟨hactive₀, hrecorded₁⟩ := h₁.active hactive₁
    exact ⟨hactive₀, hrecorded₁.trans hrecorded₂⟩

/-- While `j` was written no command was sent, and the record was kept with the generator. -/
structure Mute (e : Engine) (j : Journal) (e' : Engine) : Prop where
  passage : Passage e j e'
  commands : j.commands = []
  keeps : e.motion.Keeps e'.motion

instance : Composes Mute where
  refl e := ⟨.refl e, rfl, Motion.keeps_refl _⟩
  trans h₁ h₂ := ⟨h₁.passage.trans h₂.passage,
    (Journal.commands_append_of_nil _ h₂.commands).trans h₁.commands, h₁.keeps.trans h₂.keeps⟩

theorem lastSent_of_none (h : e.motion.lastCommand = none) : e.lastSent = none :=
  congrArg (Option.map Command.encode) h

theorem Mute.retains (h : Mute e j e') : Retains e j e' := by
  have hsame (heq : e'.motion.lastCommand = e.motion.lastCommand) : Recorded e j e' :=
    recorded_of_eq h.commands (congrArg (Option.map Command.encode) heq)
  obtain ⟨hpassage, -, hkeeps⟩ := h
  refine ⟨⟨hpassage, ?_⟩,
    fun hactive => ⟨(hkeeps.active hactive).1, hsame (hkeeps.active hactive).2⟩⟩
  rcases hkeeps.record with hnone | heq
  · exact .inl (lastSent_of_none hnone)
  · exact .inr (hsame heq)

end Engine

/-! ### What sends no command -/

namespace Procedure

open Engine

variable {α : Type}

theorem mute_check {f : Motion → α × Motion} (h : ∀ m, Motion.Keeps m (f m).2) :
    Obeys Mute (check f) :=
  fun e => ⟨[], (Passage.refl e).withMotion _, rfl, h e.motion⟩

theorem mute_modify {f : Motion → Motion} (h : ∀ m, Motion.Keeps m (f m)) :
    Obeys Mute (modify f) := mute_check h

theorem mute_transmit (request : Request) : Obeys Mute (transmit request) := by
  intro e
  obtain ⟨j, hpassage, -, hcommands, -⟩ := passage_send request e
  exact ⟨j, hpassage, hcommands, Motion.keeps_refl _⟩

theorem mute_wait (awaited : Option (FrameKind × UInt32)) {judge : Judge α}
    (ended : Except SessionError α) (h : ∀ event m, Motion.Keeps m (judge event m).2) :
    Obeys Mute (wait awaited judge ended) := by
  intro e
  obtain ⟨j, hpassage, hsilent⟩ := wait_passage judge ended e
  have hkeeps := wait_motion judge ended e (P := e.motion.Keeps)
    (fun event m hm => hm.trans (h event m)) (Motion.keeps_refl _)
  exact ⟨j, hpassage, hsilent.2, hkeeps⟩

theorem Obeys.recalls {P : Procedure α} (h : Obeys Mute P) : Obeys Recalls P :=
  h.mono fun h => h.retains.toRecalls

theorem passive_mute : Passive Mute where
  observe mode := mute_check (Motion.keeps_observe mode)
  settle id := mute_check (Motion.keeps_settle id)
  reset := mute_modify fun _ => Motion.keeps_of_reset rfl rfl
  clear := mute_modify fun _ => Motion.keeps_of_reset rfl rfl
  raised := mute_modify fun _ => Motion.keeps_of_eq rfl rfl
  halt := mute_modify (Motion.keeps_exchange (by simp) (by simp))
  resume := mute_modify (Motion.keeps_exchange (by simp) (by simp))
  confirm _ e := ⟨[], (Passage.refl e).setController _, rfl, Motion.keeps_refl _⟩
  look e := ⟨[], (Passage.refl e).look, rfl, Motion.keeps_refl _⟩
  transmit := mute_transmit
  state := mute_wait none (.ok none) keeps_judgeState
  reply kind id _ := mute_wait _ _ (keeps_judgeReply kind id)
  outcome id := mute_wait _ _ (keeps_judgeOutcome id)

/-! ### What sends commands -/

/-- What is sent is put on record. -/
theorem retains_command (motion : Option MotionCommand) (torques : Option Torques) :
    Obeys Retains (command motion torques) := by
  intro e
  change ∃ j, Retains e j (e.sendCommand motion torques).2
  rcases e.sendCommand_cases motion torques with ⟨-, hsend⟩ | ⟨s, c, -, -, hsend⟩
  · rw [hsend]
    exact ⟨[], Composes.refl e⟩
  · rcases hsend with ⟨-, e₁, hsend, hmotion, hpassage⟩ | ⟨-, e₁, said, hsend, hmotion, hpassage⟩
    · rw [hsend]
      have hmute : Mute e [.commandRefused c.encode] e₁ :=
        ⟨hpassage, rfl, hmotion ▸ Motion.keeps_refl _⟩
      exact ⟨_, hmute.retains⟩
    · rw [hsend]
      have hrecorded : Recorded e [.command c.encode, .queued said] e₁ := by
        rw [Recorded, lastSent, hmotion]
        rfl
      refine ⟨_, ⟨hpassage, .inr hrecorded⟩, fun hactive => ⟨?_, hrecorded⟩⟩
      rwa [hmotion] at hactive

theorem active_retains : Active Retains where
  toPassive := passive_mute.mono Mute.retains
  command := retains_command

/-! ### What starts a generator -/

theorem passive_recalls : Passive Recalls := active_retains.toPassive.mono Retains.toRecalls

/-- A start leaves the record as it finds it. -/
theorem recalls_begin (f : Motion → Motion) (mode : MotionMode)
    (hf : ∀ m, (f m).lastCommand = m.lastCommand) :
    Obeys Recalls (modify fun m => (f m).begin mode) := by
  intro e
  refine ⟨[], (Passage.refl e).withMotion _, .inr (recorded_of_eq rfl ?_)⟩
  exact congrArg (Option.map Command.encode) (hf e.motion)

theorem recalls_startMotion (controller : ControllerMode) (motion : MotionMode)
    (path goal : Deviation) : Obeys Recalls (startMotion controller motion path goal) := by
  have hunsettled : Obeys Mute (modify fun m => { m with outcome := none }) :=
    mute_modify fun _ => Motion.keeps_of_eq rfl rfl
  have hexecute : Obeys Mute (execute (.move ⟨controller, motion, path, goal⟩)) :=
    obeys_execute (mute_transmit _) fun id => mute_wait _ _ (keeps_judgeReply _ id)
  have hlaunch : Obeys Recalls (launch controller motion path goal) := by
    rw [launch_eq]
    refine (obeys_see _).bind fun m => ?_
    split
    · exact obeys_pure _
    · refine (obeys_see _).bind fun since => hunsettled.recalls.bind fun _ => ?_
      refine hexecute.recalls.bind fun result => ?_
      split
      · exact obeys_pure _
      · rename_i id
        refine (recalls_begin (fun m => { m with current := some id }) motion fun _ => rfl).bind
          fun _ => (passive_recalls.confirmGenerator since).bind fun confirmed => ?_
        rcases confirmed with err | ⟨⟩
        · exact obeys_pure _
        · exact (passive_recalls.confirm controller).bind fun _ => obeys_pure _
      · exact obeys_pure _
  rw [startMotion_eq]
  refine hlaunch.bind fun launched => ?_
  rcases launched with err | ⟨id, err | ⟨⟩⟩
  · exact obeys_pure _
  · exact passive_recalls.cancelMotion.bind fun _ => obeys_pure _
  · exact obeys_pure _

end Procedure

/-! ### Turns -/

namespace Engine

variable {e e' e₀ : Engine} {call : Call}

open Procedure

theorem perform_recalls (call : Call) (e : Engine) : ∃ j, Recalls e j (e.perform call).2 := by
  by_cases hcall : call.Starts
  · cases call with
    | startGenerator type =>
        exact passive_recalls.startGenerator (recalls_begin id _ fun _ => rfl) e
    | startMotion controller motion path goal =>
        exact recalls_startMotion controller motion path goal e
    | update | stopGenerator | setController | finishMotion | cancelMotion => exact hcall.elim
  · obtain ⟨j, hretains⟩ := active_retains.perform hcall e
    exact ⟨j, hretains.toRecalls⟩

theorem witness_mute (happenings : List Happening) (e : Engine) :
    ∃ j, Mute e j (e.witness happenings) := by
  obtain ⟨j, hpassage, hsilent, -⟩ := e.passage_witness happenings
  exact ⟨j, hpassage, hsilent.2, Motion.keeps_refl _⟩

/-- A start is refused while a generator is active, and every other turn retains the record. -/
theorem turn_retains (t : Turn) (hactive : e.motion.status ≠ .notStarted) :
    ∃ j, Retains e j (e.turn t) := by
  cases t with
  | happen happenings =>
      obtain ⟨j, hmute⟩ := witness_mute happenings e
      exact ⟨j, hmute.retains⟩
  | call call =>
      by_cases hcall : call.Starts
      · obtain ⟨err, hrefused⟩ := perform_of_busy hcall hactive
        rw [turn, hrefused]
        exact ⟨[], Composes.refl e⟩
      · exact active_retains.perform hcall e

theorem turn_recalls (t : Turn) (e : Engine) : ∃ j, Recalls e j (e.turn t) := by
  cases t with
  | call call => exact perform_recalls call e
  | happen happenings =>
      obtain ⟨j, hmute⟩ := witness_mute happenings e
      exact ⟨j, hmute.retains.toRecalls⟩

theorem after_recalls (turns : List Turn) (e : Engine) : ∃ j, Recalls e j (e.after turns) := by
  induction turns generalizing e with
  | nil => exact ⟨[], Composes.refl e⟩
  | cons t rest ih =>
      obtain ⟨i, hturn⟩ := turn_recalls t e
      obtain ⟨j, hrest⟩ := ih (e.turn t)
      exact ⟨i ++ j, Composes.trans hturn hrest⟩

/-- As long as a generator is active all that is sent is put on record. -/
theorem after_recorded {turns : List Turn}
    (hactive : ∀ since, since <+: turns → (e.after since).motion.status ≠ .notStarted) :
    ∃ j, Passage e j (e.after turns) ∧ Recorded e j (e.after turns) := by
  induction turns generalizing e with
  | nil => exact ⟨[], .refl e, recorded_of_eq rfl rfl⟩
  | cons t rest ih =>
      obtain ⟨i, hturn⟩ := turn_retains t (hactive [] List.nil_prefix)
      obtain ⟨-, hrecorded⟩ := hturn.active (hactive [t] (List.prefix_append [t] rest))
      obtain ⟨j, hpassage, hrecorded'⟩ := ih fun since hsince =>
        hactive (t :: since) (List.cons_prefix_cons.2 ⟨rfl, hsince⟩)
      exact ⟨i ++ j, hturn.passage.trans hpassage, hrecorded.trans hrecorded'⟩

/-- A command that was sent has its place in the journal. -/
theorem exists_command {d : Bytes} (h : d ∈ j.commands) :
    ∃ k l : Journal, j = k ++ .command d :: l := by
  obtain ⟨entry, hentry, hcommand⟩ := List.mem_filterMap.1 h
  obtain ⟨k, l, rfl⟩ := List.append_of_mem hentry
  cases entry with
  | command datagram => exact ⟨k, l, by rw [Option.some.inj hcommand]⟩
  | _ => cases hcommand

/-- A start sends no command. -/
theorem starts_mute (hcall : call.Starts) (hpassage : Passage e j (e.perform call).2) :
    j.commands = [] := by
  by_contra hsome
  obtain ⟨d, hd⟩ := List.exists_mem_of_ne_nil _ hsome
  obtain ⟨k, l, rfl⟩ := exists_command hd
  obtain ⟨_, _, _, hcycles, -⟩ := perform_of_command hpassage
  cases hcycles <;> exact hcall

/-! ### When the generator is gone -/

theorem update_forgets (motion : Option MotionCommand) (torques : Option Torques)
    (hactive : e.motion.status ≠ .notStarted)
    (hgone : (e.update motion torques).2.motion.status = .notStarted) :
    (e.update motion torques).2.motion.lastCommand = none := by
  cases hdeferred : e.motion.deferred with
  | some err =>
      rw [update_of_deferred hdeferred] at hgone
      exact absurd hgone hactive
  | none =>
      rcases update_cases hdeferred (Prod.eta (e.update motion torques)).symm with
        ⟨_, -, hmotion, -⟩ | ⟨i, e₁, hsends, hpoll⟩
      · rw [hmotion] at hgone
        exact absurd hgone hactive
      · obtain ⟨lastCommand, hmotion⟩ := hsends.motion_eq
        obtain ⟨j, hmute⟩ := passive_mute.state e₁
        rw [poll_run, hpoll] at hmute
        exact hmute.keeps.gone (by rwa [hmotion]) hgone

theorem drain_forgets (finishing : MotionCommand) (torques : Option Torques)
    (hactive : e.motion.status ≠ .notStarted)
    (hgone : (e.drain finishing torques).2.motion.status = .notStarted) :
    (e.drain finishing torques).2.motion.lastCommand = none := by
  -- only the last cycle can have found a generator and left none
  have hlast {e e₁ : Engine} {result : Except SessionError (Option State)}
      (hactive : e.motion.status ≠ .notStarted)
      (hrun : e.update (some finishing) torques = (result, e₁))
      (hgone : e₁.motion.status = .notStarted) : e₁.motion.lastCommand = none := by
    have hforgets := update_forgets (some finishing) torques hactive
    rw [hrun] at hforgets
    exact hforgets hgone
  fun_induction drain finishing torques e with
  | case1 e hstopping s e₁ hrun ih =>
      by_cases hgone₁ : e₁.motion.status = .notStarted
      · rw [drain_of_rest hgone₁]
        exact hlast hactive hrun hgone₁
      · exact ih hgone₁ hgone
  | case2 e hstopping e₁ hrun => exact hlast hactive hrun hgone
  | case3 e hstopping err e₁ hrun => exact hlast hactive hrun hgone
  | case4 e hrest => exact absurd hgone hactive

theorem finishMotion_forgets {id : UInt32} {motion : Option MotionCommand}
    {torques : Option Torques} (hactive : e.motion.status ≠ .notStarted)
    (hgone : (e.finishMotion id motion torques).2.motion.status = .notStarted) :
    (e.finishMotion id motion torques).2.motion.lastCommand = none := by
  unfold finishMotion at hgone ⊢
  split at hgone
  · exact absurd hgone hactive
  · rename_i hcurrent
    simp only [if_neg hcurrent]
    have hhalted : (e.motion.exchange .running .stopping).status ≠ .notStarted := by
      unfold Motion.exchange MotionStatus.exchange
      split
      · simp
      · exact hactive
    simp only at hgone
    generalize motion.getD _ = last at hgone ⊢
    have hdrained := drain_forgets last.finish torques
      (e := e.withMotion (e.motion.exchange .running .stopping)) hhalted
    split at hgone <;> (rename_i e₁ hrun; rw [hrun] at hdrained)
    · exact hdrained hgone
    · obtain ⟨j, hmute⟩ := passive_mute.awaitOutcome id e₁
      change Mute e₁ j (e₁.awaitOutcome id).2 at hmute
      by_cases hgone₁ : e₁.motion.status = .notStarted
      · rcases hmute.keeps.record with hnone | hsame
        · exact hnone
        · exact hsame.trans (hdrained hgone₁)
      · exact hmute.keeps.gone hgone₁ hgone

/-- A turn that ends the generator leaves no record. -/
theorem turn_forgets (t : Turn) (hactive : e.motion.status ≠ .notStarted)
    (hgone : (e.turn t).motion.status = .notStarted) : (e.turn t).motion.lastCommand = none := by
  have hforgets {e' : Engine} (hmute : ∃ j, Mute e j e') (hgone : e'.motion.status = .notStarted) :
      e'.motion.lastCommand = none := by
    obtain ⟨j, hmute⟩ := hmute
    exact hmute.keeps.gone hactive hgone
  cases t with
  | happen happenings => exact hforgets (witness_mute happenings e) hgone
  | call call =>
      by_cases hcall : call.Starts
      · obtain ⟨err, hrefused⟩ := perform_of_busy hcall hactive
        rw [turn, hrefused] at hgone
        exact absurd hgone hactive
      · cases call with
        | update motion torques => exact update_forgets motion torques hactive hgone
        | stopGenerator => exact hforgets (passive_mute.stopGenerator e) hgone
        | setController mode => exact hforgets (passive_mute.setController mode e) hgone
        | finishMotion id motion torques => exact finishMotion_forgets hactive hgone
        | cancelMotion => exact hforgets (passive_mute.cancelMotion e) hgone
        | startGenerator | startMotion => exact absurd trivial hcall

/-- The call is a cycle that has sent this command while no generator was active. -/
def Utters (d : Bytes) (e : Engine) (call : Call) : Prop :=
  e.motion.status = .notStarted ∧
    ∃ motion torques j, call = .update motion torques ∧ Passage e j (e.perform call).2 ∧
      d ∈ j.commands

/-- Without a generator, the end of a motion has nothing to send. -/
theorem finishMotion_mute {id : UInt32} {motion : Option MotionCommand}
    {torques : Option Torques} (hstatus : e.motion.status = .notStarted) :
    ∃ j, Mute e j (e.finishMotion id motion torques).2 := by
  unfold finishMotion
  split
  · exact ⟨[], Composes.refl e⟩
  · have hhalt : e.withMotion (e.motion.exchange .running .stopping) = e := by
      rw [Motion.exchange_of_ne (by simp [hstatus])]
      rfl
    simp only [hhalt, drain_of_rest hstatus]
    exact passive_mute.awaitOutcome id e

theorem utters_of_command {d : Bytes} (hstatus : e.motion.status = .notStarted)
    (hpassage : Passage e j (e.perform call).2) (hd : d ∈ j.commands) : Utters d e call := by
  obtain ⟨k, l, rfl⟩ := exists_command hd
  obtain ⟨_, motion, torques, hcycles, -⟩ := perform_of_command hpassage
  cases hcycles with
  | update => exact ⟨hstatus, motion, torques, _, rfl, hpassage, hd⟩
  | finishing =>
      obtain ⟨i, hmute⟩ := finishMotion_mute hstatus
      exact (hmute.passage.not_mem_commands hmute.commands hpassage).elim

/-- What is on record without a generator was sent without a generator, and none has been active
since. -/
theorem since_utters {d : Bytes} (h₀ : e₀.motion = {}) (turns : List Turn)
    (hstatus : (e₀.after turns).motion.status = .notStarted)
    (hrecord : (e₀.after turns).lastSent = some d) :
    Since (Utters d) (fun e => e.motion.status = .notStarted) e₀ turns := by
  induction turns using List.reverseRecOn with
  | nil =>
      rw [after, List.foldl_nil, lastSent, h₀] at hrecord
      cases hrecord
  | append_singleton turns t ih =>
      have hnow := hstatus
      rw [after_concat] at hstatus hrecord
      have hbefore : (e₀.after turns).motion.status = .notStarted := by
        by_contra hactive
        rw [lastSent_of_none (turn_forgets t hactive hstatus)] at hrecord
        cases hrecord
      by_cases hkept : (e₀.after turns).lastSent = some d
      · exact (ih hbefore hkept).concat hnow
      · obtain ⟨j, hrecalls⟩ := turn_recalls t (e₀.after turns)
        have hd : d ∈ j.commands := by
          rcases hrecalls.record with hnone | hrecorded
          · rw [hnone] at hrecord
            cases hrecord
          · rw [hrecorded, Option.or_eq_some_iff] at hrecord
            rcases hrecord with hsent | ⟨-, hkept'⟩
            · exact List.mem_of_getLast? hsent
            · exact absurd hkept' hkept
        cases t with
        | call call => exact .of_begins (utters_of_command hbefore hrecalls.passage hd) hnow
        | happen happenings =>
            obtain ⟨i, hmute⟩ := witness_mute happenings (e₀.after turns)
            obtain ⟨k, l, rfl⟩ := exists_command hd
            exact (hmute.passage.not_mem_commands hmute.commands hrecalls.passage).elim

/-! ### The way to rest -/

/-- The command that answers a state on the way to rest if nothing else is asked for: the last one
again, or else the arm is held where it is. -/
def resend (s : State) (last : Option Command) : Command where
  messageId := s.messageId
  motion := ((last.map Command.motion).getD (MotionCommand.hold s)).finish
  torques := (last.map Command.torques).getD Joints.zero

/-- A cycle on the way to rest that is given nothing sends the command on record again, unless the
link is closed. -/
theorem update_resends {s : State} (hstopping : e.motion.status = .stopping)
    (hdeferred : e.motion.deferred = none) (hlast : e.lastState = some s) :
    ∃ j, Passage e j (e.update none none).2 ∧ j.commands =
      if e.link.closed then [] else [(resend s e.motion.lastCommand).encode] := by
  have hresend : compose s (e.motion.status = .stopping) e.motion.lastCommand none none =
      resend s e.motion.lastCommand := by
    simp [compose, resend, hstopping]
  rcases update_cases hdeferred (Prod.eta (e.update none none)).symm with
    ⟨_, -, -, hpassage, hclosed⟩ | ⟨i, e₁, hsends, hpoll⟩
  · exact ⟨_, hpassage, by simp [hclosed, Journal.commands, Entry.command?]⟩
  · obtain ⟨j, -, hpassage, hsilent, -⟩ := poll_cases hpoll
    cases hsends with
    | nothing hnothing => simp [hlast, hstopping] at hnothing
    | command hs hc _ hpassage₁ hopen =>
        obtain rfl := Option.some.inj (hlast.symm.trans hs)
        refine ⟨_, hpassage₁.trans hpassage, ?_⟩
        rw [Journal.commands_append_of_nil _ hsilent.2, hc, hresend, hopen]
        rfl

/-- A cycle on the way to rest that is given nothing sends again what was sent last since the
generator was started.  If nothing was, it sends what was on record when the generator was started:
the last command before that, if it was sent without a generator and none has been active since.  If
there was no record either, it holds the arm where it is. -/
theorem stopping_resends (session : Session) (settings : Settings) (clock : Clock)
    (turns : List Turn) :
    let e₀ := Engine.start session settings clock
    let e := e₀.after turns
    e.motion.status = .stopping → e.motion.deferred = none →
    ∃ before call later s last, turns = before ++ .call call :: later ∧
      let found := e₀.after before
      let started := e₀.after (before ++ [.call call])
      call.Starts ∧ (found.perform call).1 = .ok () ∧
      (∀ since, since <+: later → (started.after since).motion.status ≠ .notStarted) ∧
      e.lastState = some s ∧
      last.map Command.encode =
        (e.link.since found.link).commands.getLast?.or started.lastSent ∧
      (∀ d, started.lastSent = some d → (found.link.since e₀.link).commands.getLast? = some d ∧
        Since (Utters d) (fun e => e.motion.status = .notStarted) e₀ before) ∧
      ∃ j : Journal, (e.update none none).2.link.journal = e.link.journal ++ j ∧
        j.commands = if e.link.closed then [] else [(resend s last).encode] := by
  intro e₀ e hstopping hdeferred
  have horderly : e.Orderly := (orderly_start session settings clock).after turns
  obtain ⟨s, hlast⟩ := Option.ne_none_iff_exists'.1 (horderly.state_of_active (.inr hstopping))
  have hsince : Since (fun e call => call.Starts ∧ (e.perform call).1 = .ok ())
      (fun e => e.motion.status ≠ .notStarted) e₀ turns :=
    since_start rfl id (fun hactive _ => hactive) turns (by rw [hstopping]; simp)
  obtain ⟨before, call, later, rfl, ⟨hcall, hok⟩, hactive⟩ := hsince
  let found := e₀.after before
  let started := e₀.after (before ++ [.call call])
  obtain ⟨i, hbefore⟩ := after_recalls before e₀
  have hstarted : (found.perform call).2 = started := (after_concat e₀ before (.call call)).symm
  obtain ⟨j, hstart⟩ := perform_recalls call found
  have hmute := starts_mute hcall hstart.passage
  rw [hstarted] at hstart
  have hafter (since : List Turn) :
      started.after since = e₀.after (before ++ .call call :: since) := by
    rw [List.append_cons]
    exact List.foldl_append.symm
  have hactive' : ∀ since, since <+: later → (started.after since).motion.status ≠ .notStarted := by
    intro since hsince
    rw [hafter]
    exact hactive since hsince
  obtain ⟨k, hlater, hrecorded⟩ := after_recorded hactive'
  rw [hafter] at hlater hrecorded
  obtain ⟨l, hupdate, hcommands⟩ := update_resends hstopping hdeferred hlast
  refine ⟨before, call, later, s, e.motion.lastCommand, rfl, hcall, hok, hactive', hlast, ?_, ?_,
    l, hupdate.journal, hcommands⟩
  · rw [Link.since_eq (hstart.passage.trans hlater).journal, Journal.commands_append, hmute]
    exact hrecorded
  · intro d hd
    have hfound : found.lastSent = some d := by
      rcases hstart.record with hnone | hrecorded
      · cases hnone.symm.trans hd
      · rw [Recorded, hmute] at hrecorded
        exact hrecorded.symm.trans hd
    have hidle : found.motion.status = .notStarted := by
      by_contra hbusy
      obtain ⟨err, hrefused⟩ := perform_of_busy hcall hbusy
      rw [hrefused] at hok
      cases hok
    refine ⟨?_, since_utters rfl before hidle hfound⟩
    rw [Link.since_eq hbefore.passage.journal]
    rcases hbefore.record with hnone | hrecorded
    · cases hnone.symm.trans hfound
    · rw [Recorded, hfound] at hrecorded
      exact (hrecorded.trans Option.or_none).symm

/-- A generator was given one target and then asked to stop. -/
theorem stopping_resends_obliging :
    let e₀ := Engine.start { link := { farEnd := .obliging } } {} default
    let e := e₀.after [.call (.startGenerator .jointPosition), .call (.update (some .neutral) none),
      .call .stopGenerator]
    e.motion.status = .stopping ∧ e.motion.deferred = none ∧
    ∃ s last, e.lastState = some s ∧ ∃ j : Journal,
      (e.update none none).2.link.journal = e.link.journal ++ j ∧
      j.commands = [(resend s last).encode] := by
  intro e₀ e
  have hstopping : e.motion.status = .stopping := by decide +kernel
  have hdeferred : e.motion.deferred = none := by decide +kernel
  have hopen : e.link.closed = false := by decide +kernel
  obtain ⟨_, _, _, s, last, -, -, -, -, hlast, -, -, j, hjournal, hcommands⟩ :=
    stopping_resends { link := { farEnd := .obliging } } {} default
      [.call (.startGenerator .jointPosition), .call (.update (some .neutral) none),
        .call .stopGenerator] hstopping hdeferred
  rw [hopen] at hcommands
  exact ⟨hstopping, hdeferred, s, last, hlast, j, hjournal, hcommands⟩

/-- A command was sent when no generator was active.  Then one was started and asked to stop, and
was given nothing in between; but on its way to rest it is sent to the target of that command, and
the arm is not where the target is. -/
theorem resends_before_start :
    let target : MotionCommand :=
      { MotionCommand.neutral with jointPositions := Vector.replicate _ ⟨0x3fd3333333333333⟩ }
    let before : List Turn := [.happen [.say [.nextState State.initial 1]],
      .call (.update none none), .call (.update (some target) none)]
    let e₀ := Engine.start { link := { farEnd := .obliging } } {} default
    let started := e₀.after (before ++ [.call (.startGenerator .jointPosition)])
    let e := started.after [.call .stopGenerator]
    let s : State := { State.initial with messageId := 2, motionMode := .jointPosition }
    ((e₀.after before).startGenerator .jointPosition).1 = .ok () ∧
      e.motion.status = .stopping ∧ e.motion.deferred = none ∧ e.lastState = some s ∧
      (e.link.since started.link).commands = [] ∧
      ((e.update none none).2.link.since e.link).commands =
        [Command.encode ⟨2, target.finish, Joints.zero⟩] ∧
      target.finish ≠ (MotionCommand.hold s).finish := by
  decide +kernel

end Engine
end ArmControl
