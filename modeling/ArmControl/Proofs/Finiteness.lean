import ArmControl.Proofs.Datagram
import ArmControl.Proofs.Quiescence

/-! # Which values leave a control loop

A control loop refuses the values of its callback that are not finite.  But it sends others as well:
after the stop, the command of the callback is filled up, where it says nothing, with the position
of the last state and with the torques that were sent last.  Nobody checks those.

`run_sends` says of every run what it `Sends`: finite values as long as the callback goes on, and
after the stop finite ones but for that position and for torques from before the run (`Closing`).
`run_sends_nan` is a run that sends a position that is no number.  A robot sends nothing outside its
runs, and so its torques are always finite (`steer_sends`). -/

namespace ArmControl

/-! ### Finite values -/

theorem MotionCommand.isFinite_neutral : neutral.isFinite = true := by decide +kernel

theorem Torques.isFinite_zero : Torques.isFinite Joints.zero = true := by
  decide +kernel

/-- The target and the torques of the command are finite. -/
def Command.Finite (c : Command) : Prop :=
  c.motion.isFinite = true ∧ Torques.isFinite c.torques = true

/-- What the loop does not refuse is finite. -/
theorem LoopCommand.finite_of_validate {c : LoopCommand} (h : c.validate = .ok ()) :
    (∀ m, c.motion = some m → m.isFinite = true) ∧
      ∀ t, c.torques = some t → Torques.isFinite t = true := by
  unfold validate at h
  split at h
  · cases h
  · rename_i hmotion
    split at h
    · cases h
    · rename_i htorques
      constructor
      · intro m hm
        simpa [hm] using hmotion
      · intro t ht
        simpa [ht] using htorques

/-- A far end that accepts a motion, but reports joint positions that are no numbers. -/
def FarEnd.unmeasured : FarEnd where
  script :=
    let positions := Vector.replicate _ Binary64.nan
    [(.request .move, [.reply (.move .started) none 0,
        .nextState { State.initial with
          motionMode := .jointPosition, jointPositions := positions } 1]),
      (.finished, [.nextState State.initial 1, .reply (.move .success) none 0])]

/-! ### The commands of a journal -/

namespace Journal

variable {P Q : Command → Prop} {i j : Journal}

/-- All command datagrams in the journal are read as commands of which `P` holds. -/
def Carries (P : Command → Prop) (j : Journal) : Prop :=
  ∀ d ∈ j.commands, ∃ c, Command.decode d = .ok c ∧ P c

theorem carries_of_nil (h : j.commands = []) : j.Carries P := by
  intro d hd
  rw [h] at hd
  cases hd

theorem Carries.append (hi : i.Carries P) (hj : j.Carries P) : Journal.Carries P (i ++ j) := by
  intro d hd
  rw [commands_append] at hd
  rcases List.mem_append.1 hd with hd | hd
  · exact hi d hd
  · exact hj d hd

theorem Carries.mono (h : j.Carries P) (hsub : ∀ c, P c → Q c) : j.Carries Q := by
  intro d hd
  obtain ⟨c, hc, hP⟩ := h d hd
  exact ⟨c, hc, hsub c hP⟩

end Journal

namespace Engine

variable {e e' : Engine} {motion : Option MotionCommand} {torques : Option Torques}
  {P : Command → Prop} {T : Torques → Prop}

/-! ### The cycles of the engine -/

/-- The torques that were sent last are such that `T` holds of them. -/
def Remembers (T : Torques → Prop) (e : Engine) : Prop :=
  ∀ c, e.motion.lastCommand = some c → T c.torques

/-- What the engine receives may make it forget the last command. -/
theorem poll_lastCommand {result : Except SessionError (Option State)}
    (h : e.poll = (result, e')) :
    e'.motion.lastCommand = none ∨ e'.motion.lastCommand = e.motion.lastCommand := by
  obtain ⟨j, outcome, -, -, -, hpolled⟩ := poll_cases h
  generalize e'.motion = m' at hpolled
  cases hpolled with
  | ended => exact .inr rfl
  | broken => exact .inr rfl
  | state _ hobserve | mismatch _ hobserve =>
      rcases Motion.observe_cases hobserve with ⟨-, rfl, -⟩ | ⟨-, -, -, rfl⟩ | ⟨-, -, -, rfl⟩ |
        ⟨-, -, -, -, -, rfl⟩
      · exact .inr rfl
      · exact .inr rfl
      · exact .inl rfl
      · exact .inl rfl
  | rejected _ hhandle =>
      rcases Motion.handle_cases hhandle with ⟨-, rfl⟩ | ⟨-, -, -, rfl⟩ | ⟨-, -, -, -, rfl⟩ |
        ⟨-, -, -, -, rfl⟩
      · exact .inr rfl
      · exact .inr rfl
      · exact .inl rfl
      · exact .inl rfl

theorem Remembers.poll {result : Except SessionError (Option State)} (hlast : Remembers T e)
    (h : e.poll = (result, e')) : Remembers T e' := by
  intro c hc
  rcases poll_lastCommand h with hnone | hsame
  · rw [hnone] at hc
    cases hc
  · exact hlast c (hsame ▸ hc)

/-- A cycle sends nothing but the answer to the last state. -/
theorem update_sends {result : Except SessionError (Option State)} (hlast : Remembers T e)
    (hP : ∀ s, e.lastState = some s →
      P (compose s (e.motion.status = .stopping) e.motion.lastCommand motion torques))
    (hT : ∀ c, P c → T c.torques) (h : e.update motion torques = (result, e')) :
    ∃ j, Passage e j e' ∧ j.Carries P ∧ Remembers T e' := by
  cases hdeferred : e.motion.deferred with
  | some err =>
      rw [update_of_deferred hdeferred] at h
      obtain ⟨-, rfl⟩ := Prod.mk.inj h
      exact ⟨[], (Passage.refl e).withMotion _, Journal.carries_of_nil rfl, hlast⟩
  | none =>
      rcases update_cases hdeferred h with ⟨_, -, hmotion, hpassage, -⟩ | ⟨i, e₁, hsends, hpoll⟩
      · refine ⟨_, hpassage, Journal.carries_of_nil rfl, ?_⟩
        unfold Remembers
        rw [hmotion]
        exact hlast
      · obtain ⟨j, -, hpassage, hsilent, -⟩ := poll_cases hpoll
        refine ⟨i ++ j, hsends.passage.trans hpassage, ?_, ?_⟩
        · refine Journal.Carries.append ?_ (Journal.carries_of_nil hsilent.2)
          cases hsends with
          | nothing => exact Journal.carries_of_nil rfl
          | command hs hc _ _ _ =>
              intro d hd
              obtain rfl := List.mem_singleton.1 hd
              exact ⟨_, Command.decode_encode _, hc ▸ hP _ hs⟩
        · refine Remembers.poll ?_ hpoll
          cases hsends with
          | nothing => exact hlast
          | command hs hc hmotion _ _ =>
              intro c' hc'
              rw [hmotion] at hc'
              obtain rfl := Option.some.inj hc'
              exact hT _ (hc ▸ hP _ hs)

/-- The command that ends a motion with the target `finishing`: its torques are those given, or else
such that `T` holds of them. -/
def Ends (finishing : MotionCommand) (torques : Option Torques) (T : Torques → Prop)
    (c : Command) : Prop :=
  c.motion = finishing.finish ∧ (∀ t, torques = some t → c.torques = t) ∧ T c.torques

theorem compose_ends {finishing : MotionCommand} (hlast : Remembers T e)
    (hgiven : ∀ t, torques = some t → T t) (hzero : T Joints.zero)
    (hstopping : e.motion.status = .stopping) (s : State) :
    Ends finishing torques T
      (compose s (e.motion.status = .stopping) e.motion.lastCommand (some finishing) torques) := by
  simp only [Ends, compose, hstopping, decide_true, if_true, Option.getD_some, true_and]
  cases htorques : torques with
  | some t => exact ⟨fun t' ht' => Option.some.inj ht', hgiven t htorques⟩
  | none =>
      refine ⟨by simp, ?_⟩
      cases hcommand : e.motion.lastCommand with
      | none => exact hzero
      | some c => exact hlast c hcommand

theorem drain_sends {finishing : MotionCommand} {result : Except SessionError Unit}
    (hlast : Remembers T e) (hgiven : ∀ t, torques = some t → T t) (hzero : T Joints.zero)
    (h : e.drain finishing torques = (result, e')) :
    ∃ j, Passage e j e' ∧ j.Carries (Ends finishing torques T) := by
  have hstep {e e' : Engine} {result : Except SessionError (Option State)}
      (hlast : Remembers T e) (hstopping : e.motion.status = .stopping)
      (hupdate : e.update (some finishing) torques = (result, e')) :
      ∃ j, Passage e j e' ∧ j.Carries (Ends finishing torques T) ∧ Remembers T e' :=
    update_sends hlast (fun s _ => compose_ends hlast hgiven hzero hstopping s)
      (fun _ hends => hends.2.2) hupdate
  fun_induction drain finishing torques e with
  | case1 e hstopping s e₁ hupdate ih =>
      obtain ⟨i, hpassage₁, hcarries₁, hlast₁⟩ := hstep hlast hstopping hupdate
      obtain ⟨j, hpassage₂, hcarries₂⟩ := ih hlast₁ h
      exact ⟨i ++ j, hpassage₁.trans hpassage₂, hcarries₁.append hcarries₂⟩
  | case2 e hstopping e₁ hupdate =>
      obtain ⟨-, rfl⟩ := Prod.mk.inj h
      obtain ⟨i, hpassage₁, hcarries₁, -⟩ := hstep hlast hstopping hupdate
      exact ⟨i, hpassage₁, hcarries₁⟩
  | case3 e hstopping err e₁ hupdate =>
      obtain ⟨-, rfl⟩ := Prod.mk.inj h
      obtain ⟨i, hpassage₁, hcarries₁, -⟩ := hstep hlast hstopping hupdate
      exact ⟨i, hpassage₁, hcarries₁⟩
  | case4 e hrest =>
      obtain ⟨-, rfl⟩ := Prod.mk.inj h
      exact ⟨[], .refl e, Journal.carries_of_nil rfl⟩

/-- The last target is the one that is given, or else to hold the position of the last state. -/
theorem finishMotion_sends {id : UInt32} {s : State} {result : Except SessionError Unit}
    (hs : e.lastState = some s) (hlast : Remembers T e) (hgiven : ∀ t, torques = some t → T t)
    (hzero : T Joints.zero) (h : e.finishMotion id motion torques = (result, e')) :
    ∃ j, Passage e j e' ∧ j.Carries (Ends (motion.getD (.hold s)).finish torques T) := by
  let e₀ := e.withMotion (e.motion.exchange .running .stopping)
  have hpassage₀ : Passage e [] e₀ := (Passage.refl e).withMotion _
  have hlast₀ : Remembers T e₀ := hlast
  have hs₀ : (e.withMotion (e.motion.exchange .running .stopping)).lastState = some s := hs
  unfold Engine.finishMotion at h
  split at h
  · obtain ⟨-, rfl⟩ := Prod.mk.inj h
    exact ⟨[], .refl e, Journal.carries_of_nil rfl⟩
  · simp only at h
    rw [hs₀, Option.map_some, Option.getD_some] at h
    rcases hdrain : e₀.drain (motion.getD (.hold s)).finish torques with ⟨drained, e₁⟩
    obtain ⟨j₁, hpassage₁, hcarries⟩ := drain_sends hlast₀ hgiven hzero hdrain
    rw [hdrain] at h
    cases drained with
    | error err =>
        obtain ⟨-, rfl⟩ := Prod.mk.inj h
        exact ⟨[] ++ j₁, hpassage₀.trans hpassage₁, hcarries⟩
    | ok _ =>
        obtain ⟨j₂, hpassage₂, hsilent⟩ := awaitOutcome_passage id e₁
        replace h : e₁.awaitOutcome id = (result, e') := h
        rw [h] at hpassage₂
        exact ⟨[] ++ j₁ ++ j₂, (hpassage₀.trans hpassage₁).trans hpassage₂,
          hcarries.append (Journal.carries_of_nil hsilent.2)⟩

end Engine

/-! ### The run -/

namespace ControlLoop

open Engine

variable {σ : Type} {credit : σ → Nat} {steering : Steering credit} {e e' : Engine} {id : UInt32}
  {i j : Journal} {earlier : Option Command} {calls : List Call}

/-- What the steering has asked for in its last call. -/
def asked (calls : List Call) : LoopCommand :=
  match calls.getLast? with
  | some ⟨_, .ok (.proceed command), _⟩ => command
  | _ => {}

/-- The steering has answered its last call with `stop`: it was shown the state `s`, it had asked
for `last` before, and `journal` is what had passed over the link by then. -/
def Stopped (calls : List Call) (journal : Journal) (s : State) (last : LoopCommand) : Prop :=
  ∃ before call, calls = before ++ [call] ∧ call.answer = .ok .stop ∧ call.input.state = s ∧
    call.journal = journal ∧ asked before = last

/-- Torques that are finite, or were sent with the command `earlier`. -/
def Sound (earlier : Option Command) (t : Torques) : Prop :=
  Torques.isFinite t = true ∨ ∃ c, earlier = some c ∧ t = c.torques

/-- A command that is sent after the steering was shown the state `s` and has stopped, when it had
asked for `last` and the last command before the run was `earlier`: its values are finite, but for
the position of `s` and the torques of `earlier`, which stand in for what was not asked for. -/
structure Closing (earlier : Option Command) (s : State) (last : LoopCommand) (c : Command) :
    Prop where
  motion : c.motion.isFinite = true ∨
    last.motion = none ∧ c.motion = (MotionCommand.hold s).finish
  torques : Torques.isFinite c.torques = true ∨
    last.torques = none ∧ ∃ c₀, earlier = some c₀ ∧ c.torques = c₀.torques

/-- What passes over the link in a run that starts after `start`: commands with finite values, and
after a stop those that close the motion. -/
def Sends (earlier : Option Command) (start : Journal) (calls : List Call) (j : Journal) : Prop :=
  ∃ a b, j = a ++ b ∧ a.Carries Command.Finite ∧
    b.Carries fun c => ∃ s last, Stopped calls (start ++ a) s last ∧ Closing earlier s last c

theorem Sends.of_finite (h : j.Carries Command.Finite) : Sends earlier i calls j :=
  ⟨j, [], (List.append_nil j).symm, h, Journal.carries_of_nil rfl⟩

theorem Sends.append_left {k : Journal} (hi : k.Carries Command.Finite)
    (h : Sends earlier (i ++ k) calls j) : Sends earlier i calls (k ++ j) := by
  obtain ⟨a, b, rfl, ha, hb⟩ := h
  refine ⟨k ++ a, b, (List.append_assoc k a b).symm, hi.append ha, ?_⟩
  rwa [← List.append_assoc]

theorem Sends.append_right {k : Journal} (h : Sends earlier i calls j) (hk : k.commands = []) :
    Sends earlier i calls (j ++ k) := by
  obtain ⟨a, b, rfl, ha, hb⟩ := h
  exact ⟨a, b ++ k, List.append_assoc a b k, ha, hb.append (Journal.carries_of_nil hk)⟩

/-- What ends the motion after a stop closes it. -/
theorem Closing.of_ends {s : State} {last : LoopCommand} {c : Command}
    (hmotion : ∀ m, last.motion = some m → m.isFinite = true)
    (htorques : ∀ t, last.torques = some t → Torques.isFinite t = true)
    (h : Ends (last.motion.getD (.hold s)).finish last.torques (Sound earlier) c) :
    Closing earlier s last c := by
  obtain ⟨htarget, hgiven, hsound⟩ := h
  constructor
  · cases hlast : last.motion with
    | none =>
        rw [hlast] at htarget
        exact .inr ⟨rfl, htarget⟩
    | some m =>
        rw [hlast] at htarget
        rw [htarget]
        exact .inl (hmotion m hlast)
  · cases hlast : last.torques with
    | none => exact hsound.imp_right fun hearlier => ⟨rfl, hearlier⟩
    | some t =>
        rw [hgiven t hlast]
        exact .inl (htorques t hlast)

/-- What is sent in mid-motion is what the steering has asked for. -/
theorem compose_running {command : LoopCommand} {s : State} {last : Option Command}
    (hvalid : command.validate = .ok ()) (hrunning : e.motion.status = .running) :
    (compose s (e.motion.status = .stopping) last command.motion command.torques).Finite := by
  obtain ⟨hmotion, htorques⟩ := LoopCommand.finite_of_validate hvalid
  simp only [Command.Finite, compose, hrunning]
  constructor
  · cases hm : command.motion with
    | none => exact MotionCommand.isFinite_neutral
    | some m => exact hmotion m hm
  · cases ht : command.torques with
    | none => exact Torques.isFinite_zero
    | some t => exact htorques t ht

/-- Calling the steering sends nothing and leaves the last state and the last command. -/
theorem call_sends {s : State} {tick : Tick} {p p' : σ × List Call}
    {answer : Except SessionError (Step LoopCommand)} {T : Torques → Prop}
    (hs : e.lastState = some s) (hlast : Remembers T e)
    (hcall : steering.recorded.call tick e p = (answer, p', e')) :
    ∃ j, Passage e j e' ∧ j.commands = [] ∧ e'.motion = e.motion ∧ e'.lastState = some s ∧
      Remembers T e' := by
  obtain ⟨j, hpassage, hsilent, hevents, hmotion⟩ := Callback.call_passage hcall
  refine ⟨j, hpassage, hsilent.2, hmotion, ?_, ?_⟩
  · rw [hpassage.lastState_of_accepted_nil (Journal.accepted_of_events_nil hevents _), hs]
  · unfold Remembers
    rw [hmotion]
    exact hlast

/-- A cycle in mid-motion sends finite values. -/
theorem update_sends_finite {command : LoopCommand}
    {result : Except SessionError (Option State)} (hrunning : e.motion.status = .running)
    (hlast : Remembers (Sound earlier) e) (hvalid : command.validate = .ok ())
    (h : e.update command.motion command.torques = (result, e')) :
    ∃ j, Passage e j e' ∧ j.Carries Command.Finite ∧ Remembers (Sound earlier) e' :=
  update_sends hlast (fun _ _ => compose_running hvalid hrunning)
    (fun _ hfinite => .inl hfinite.2) h

theorem cycles_sends {s : State} {previous : UInt64} {last : LoopCommand} {p p' : σ × List Call}
    {result : Except SessionError Unit} (hway : UnderWay id i e) (hs : e.lastState = some s)
    (hasked : asked p.2 = last) (hmotion : ∀ m, last.motion = some m → m.isFinite = true)
    (htorques : ∀ t, last.torques = some t → Torques.isFinite t = true)
    (hlast : Remembers (Sound earlier) e)
    (h : cycles steering.recorded id s previous last e p = (result, p', e')) :
    ∃ j, Passage e j e' ∧ Sends earlier e.link.journal p'.2 j := by
  fun_induction cycles steering.recorded id s previous last e p generalizing i with
  | case1 s previous last e p err p₁ e₁ hcall =>
      simp only [Prod.mk.injEq] at h
      obtain ⟨-, -, rfl⟩ := h
      obtain ⟨j, hpassage, hcommands, -⟩ := call_sends hs hlast hcall
      exact ⟨j, hpassage, .of_finite (Journal.carries_of_nil hcommands)⟩
  | case2 s previous last e p p₁ e₁ hcall finished e₂ hfinish =>
      simp only [Prod.mk.injEq] at h
      obtain ⟨-, rfl, rfl⟩ := h
      obtain ⟨j₁, hpassage₁, hcommands, -, hs₁, hlast₁⟩ := call_sends hs hlast hcall
      obtain ⟨j₂, hpassage₂, hends⟩ := finishMotion_sends hs₁ hlast₁
        (fun t ht => .inl (htorques t ht)) (.inl Torques.isFinite_zero) hfinish
      have hstopped : Stopped p₁.2 (e.link.journal ++ j₁) s last :=
        ⟨p.2, _, Callback.recorded_call hcall, rfl, rfl, hpassage₁.journal, hasked⟩
      refine ⟨j₁ ++ j₂, hpassage₁.trans hpassage₂, j₁, j₂, rfl, ?_, ?_⟩
      · exact Journal.carries_of_nil hcommands
      · exact hends.mono fun c hc => ⟨s, last, hstopped, .of_ends hmotion htorques hc⟩
  | case3 s previous last e p command p₁ e₁ hcall err hvalid =>
      simp only [Prod.mk.injEq] at h
      obtain ⟨-, -, rfl⟩ := h
      obtain ⟨j, hpassage, hcommands, -⟩ := call_sends hs hlast hcall
      exact ⟨j, hpassage, .of_finite (Journal.carries_of_nil hcommands)⟩
  | case4 s previous last e p command p₁ e₁ hcall hvalid s' e₂ hupdate ih =>
      obtain ⟨j₁, hpassage₁, hcommands, hsame, -, hlast₁⟩ := call_sends hs hlast hcall
      have hway₁ := hway.append hpassage₁ hsame
      obtain ⟨j₂, hpassage₂, hfinite, hlast₂⟩ :=
        update_sends_finite hway₁.running hlast₁ hvalid hupdate
      obtain ⟨-, -, k, hpassage, -, haccepted, hway₂⟩ := hway₁.update hupdate
      have hasked' : asked p₁.2 = command := by
        rw [Callback.recorded_call hcall]
        simp [asked]
      obtain ⟨hmotion', htorques'⟩ := LoopCommand.finite_of_validate hvalid
      obtain ⟨j₃, hpassage₃, hsends⟩ := ih hway₂ (hpassage.lastState_of_accepted haccepted)
        hasked' hmotion' htorques' hlast₂ h
      have hpassage₁₂ := hpassage₁.trans hpassage₂
      rw [hpassage₁₂.journal] at hsends
      refine ⟨_, hpassage₁₂.trans hpassage₃, hsends.append_left ?_⟩
      exact (Journal.carries_of_nil hcommands).append hfinite
  | case5 s previous last e p command p₁ e₁ hcall hvalid e₂ hupdate =>
      simp only [Prod.mk.injEq] at h
      obtain ⟨-, -, rfl⟩ := h
      obtain ⟨j₁, hpassage₁, hcommands, hsame, -, hlast₁⟩ := call_sends hs hlast hcall
      obtain ⟨j₂, hpassage₂, hfinite, -⟩ :=
        update_sends_finite (hway.append hpassage₁ hsame).running hlast₁ hvalid hupdate
      exact ⟨_, hpassage₁.trans hpassage₂,
        .of_finite ((Journal.carries_of_nil hcommands).append hfinite)⟩
  | case6 s previous last e p command p₁ e₁ hcall hvalid err e₂ hupdate =>
      simp only [Prod.mk.injEq] at h
      obtain ⟨-, -, rfl⟩ := h
      obtain ⟨j₁, hpassage₁, hcommands, hsame, -, hlast₁⟩ := call_sends hs hlast hcall
      obtain ⟨j₂, hpassage₂, hfinite, -⟩ :=
        update_sends_finite (hway.append hpassage₁ hsame).running hlast₁ hvalid hupdate
      exact ⟨_, hpassage₁.trans hpassage₂,
        .of_finite ((Journal.carries_of_nil hcommands).append hfinite)⟩

variable {controller : ControllerMode} {motion : MotionMode}

theorem course_sends {m : σ} {p' : σ × List Call}
    {result : Except SessionError (Except SessionError Unit)}
    (h : course controller motion steering.recorded e (m, []) = (result, p', e')) :
    ∃ j, Passage e j e' ∧ Sends e.motion.lastCommand e.link.journal p'.2 j := by
  unfold course at h
  by_cases hbusy : e.motion.status ≠ .notStarted ∨ e.motion.current.isSome
  · simp only [launch, if_pos hbusy, Prod.mk.injEq] at h
    obtain ⟨-, -, rfl⟩ := h
    exact ⟨[], .refl e, .of_finite (Journal.carries_of_nil rfl)⟩
  · obtain ⟨hstatus, hcurrent⟩ : e.motion.status = .notStarted ∧ e.motion.current = none := by
      simpa using hbusy
    rcases hlaunch : e.launch controller motion e.settings.path e.settings.goal with ⟨launched, e₁⟩
    obtain ⟨j₁, hpassage₁, -, hcommands, hlaunched⟩ := launch_cases hlaunch hstatus hcurrent
    have hsilent : j₁.Carries Command.Finite := Journal.carries_of_nil hcommands
    rw [hlaunch] at h
    generalize hm : e₁.motion = m₁ at hlaunched
    cases hlaunched with
    | refused =>
        simp only [Prod.mk.injEq] at h
        obtain ⟨-, -, rfl⟩ := h
        exact ⟨j₁, hpassage₁, .of_finite hsilent⟩
    | accepted _ hawaited =>
        cases hawaited with
        | failed =>
            simp only [Prod.mk.injEq] at h
            obtain ⟨-, -, rfl⟩ := h
            exact ⟨j₁, hpassage₁, .of_finite hsilent⟩
        | confirmed hcredits hrunning =>
            obtain ⟨hway, -⟩ := underWay_of_confirmed hpassage₁ hm hcredits hrunning
            obtain ⟨s, hs⟩ := Option.ne_none_iff_exists'.1 hway.state
            have hlast : Remembers (Sound e.motion.lastCommand) e₁ := by
              intro c hc
              rw [hm] at hc
              exact .inr ⟨c, hc, rfl⟩
            have hasked : asked (m, ([] : List Call)).2 = {} := rfl
            rcases hspin : spin steering.recorded e.session.nextId e₁ (m, []) with ⟨spun, p₁, e₂⟩
            simp only [hspin, Prod.mk.injEq] at h
            obtain ⟨-, rfl, rfl⟩ := h
            simp only [spin, hs] at hspin
            obtain ⟨j₂, hpassage₂, hsends⟩ :=
              cycles_sends hway hs hasked (by simp) (by simp) hlast hspin
            rw [hpassage₁.journal] at hsends
            exact ⟨_, hpassage₁.trans hpassage₂, hsends.append_left hsilent⟩

theorem recorded_run_sends {m : σ} {p' : σ × List Call} {result : Except SessionError Unit}
    (h : run controller motion steering.recorded e (m, []) = (result, p', e')) :
    ∃ j, Passage e j e' ∧ Sends e.motion.lastCommand e.link.journal p'.2 j := by
  rcases e.raisePriority_cases with hraised | ⟨cause, hraised⟩
  · rw [run_eq controller motion steering.recorded e (m, []) hraised] at h
    rcases hcourse : course controller motion steering.recorded e (m, []) with ⟨answer, p₁, e₁⟩
    obtain ⟨j, hpassage, hsends⟩ := course_sends hcourse
    rw [hcourse] at h
    rcases answer with err | err | ⟨⟩
    · simp only [Prod.mk.injEq] at h
      obtain ⟨-, rfl, rfl⟩ := h
      exact ⟨j, hpassage, hsends⟩
    · simp only [Prod.mk.injEq] at h
      obtain ⟨-, rfl, rfl⟩ := h
      obtain ⟨j', hpassage', -, hcommands, -⟩ := e₁.cancelMotion_cases
      exact ⟨j ++ j', hpassage.trans hpassage', hsends.append_right hcommands⟩
    · simp only [Prod.mk.injEq] at h
      obtain ⟨-, rfl, rfl⟩ := h
      exact ⟨j, hpassage, hsends⟩
  · simp only [run, hraised, Prod.mk.injEq] at h
    obtain ⟨-, -, rfl⟩ := h
    exact ⟨[], .refl e, .of_finite (Journal.carries_of_nil rfl)⟩

/-- Until the steering stops, a run sends finite values.  After that it may send the position of the
state that the steering was shown last, and the torques that were sent before the run. -/
theorem run_sends (controller : ControllerMode) (motion : MotionMode) (steering : Steering credit)
    (e : Engine) (m : σ) :
    ∃ result m' calls e' j, run controller motion steering e m = (result, m', e') ∧
      run controller motion steering.recorded e (m, []) = (result, (m', calls), e') ∧
      e'.link.journal = e.link.journal ++ j ∧
      Sends e.motion.lastCommand e.link.journal calls j := by
  have hplain := run_erase steering.recorded_erases controller motion e (m, [])
  rcases hrun : run controller motion steering.recorded e (m, []) with ⟨result, ⟨m', calls⟩, e'⟩
  obtain ⟨j, hpassage, hsends⟩ := recorded_run_sends hrun
  rw [hrun] at hplain
  exact ⟨_, _, _, _, j, hplain, rfl, hpassage.journal, hsends⟩

/-- A run that is stopped at once sends positions that are no numbers, and succeeds. -/
theorem run_sends_nan :
    let e := Engine.start { link := { farEnd := .unmeasured } } {} default
    let stopping : Steering fun _ : Unit => 0 := .ofPure fun _ m => (.ok .stop, m)
    let ran := run .jointImpedance .jointPosition stopping e ()
    ran.1.isOk = true ∧
      (Journal.commands ran.2.2.link.journal).map
        (fun d => (Command.decode d).toOption.map fun c => c.motion.isFinite) = [some false] := by
  decide +kernel

/-- What is sent when nothing was sent before the run has finite torques. -/
theorem Sends.finite_torques (h : Sends none i calls j) :
    j.Carries fun c => Torques.isFinite c.torques = true := by
  obtain ⟨a, b, rfl, ha, hb⟩ := h
  refine (ha.mono fun _ hfinite => hfinite.2).append (hb.mono ?_)
  rintro c ⟨s, last, -, -, hfinite | ⟨-, c₀, hnone, -⟩⟩
  · exact hfinite
  · cases hnone

end ControlLoop

/-! ### A robot -/

namespace Robot

/-- Whatever a robot has done before, the motions that it is steered through have finite torques. -/
theorem steer_sends {σ : Type} {credit : σ → Nat} (link : Link) (settings : Settings)
    (clock : Clock) (turns : List Turn) (controller : ControllerMode) (motion : MotionMode)
    (steering : ControlLoop.Steering (fun p : Operation × σ => credit p.2)) (m : σ) :
    let r := (connect link settings clock).2.after turns
    ∃ j : Journal, (r.steer controller motion steering m).2.2.engine.link.journal =
        r.engine.link.journal ++ j ∧
      j.Carries fun c => Torques.isFinite c.torques = true := by
  intro r
  have hquiescent : r.Quiescent := (connect_quiescent link settings clock).after turns
  let p : Operation × σ := (.controlling controller motion, m)
  have hplain := ControlLoop.run_erase steering.recorded_erases controller motion r.engine (p, [])
  rcases hrun : ControlLoop.run controller motion steering.recorded r.engine (p, []) with
    ⟨result, ⟨p', calls⟩, e⟩
  obtain ⟨j, hpassage, hsends⟩ := ControlLoop.recorded_run_sends hrun
  rw [hrun] at hplain
  refine ⟨j, ?_, ?_⟩
  · rw [steer, operate_of_free hquiescent.slot, hplain]
    exact hpassage.journal
  · rw [hquiescent.lastCommand] at hsends
    exact hsends.finite_torques

end Robot
end ArmControl
