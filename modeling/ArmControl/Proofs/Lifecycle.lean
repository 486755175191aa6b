import ArmControl.Proofs.Course
import ArmControl.Proofs.Standing

/-! # The life cycle of the motion generator

A client that calls the engine, one call after the other, finds it `Orderly` in between: no start
is pending, a generator that is active has been reported by a state, and it has a mode of its own
or serves a motion in progress.  Across one call the status moves only as `Call.Advances` allows.

Both follow from what holds at every moment inside the calls as well: `Motion.Sound`, and the
status is led on by what the arm reports (`MotionStatus.Leads`).  `lifecycle` states it for every
engine that can be reached. -/

namespace ArmControl

/-! ### At every moment -/

/-- What is known of the motion agrees with itself. -/
structure Motion.Sound (m : Motion) : Prop where
  idle_of_notStarted : m.status = .notStarted → m.expected = .idle
  current_of_idle : m.status ≠ .notStarted → m.expected = .idle → m.current ≠ none
  outcome_success : m.outcome = none ∨ m.outcome = some .success

namespace Motion

theorem sound_empty : ({} : Motion).Sound := ⟨fun _ => rfl, fun h => absurd rfl h, .inl rfl⟩

theorem Sound.reset {m : Motion} (h : m.Sound) : m.reset.Sound :=
  ⟨fun _ => rfl, fun hstatus => absurd rfl hstatus, h.outcome_success⟩

/-- A generator that can be started has a mode of its own. -/
theorem Sound.begin {m : Motion} (h : m.Sound) (type : MotionType) : (m.begin type.mode).Sound := by
  have hmode : type.mode ≠ .idle := by cases type <;> decide
  exact ⟨by simp [Motion.begin], fun _ hidle => absurd hidle hmode, h.outcome_success⟩

theorem lasting_sound : Lasting Sound where
  observe mode m h := by
    rcases hobserve : m.observe mode with ⟨result, m'⟩
    rcases observe_cases hobserve with ⟨-, rfl, -⟩ | ⟨-, hstatus, -, rfl⟩ | ⟨-, -, -, rfl⟩ |
      ⟨-, -, -, -, -, rfl⟩
    · exact h
    · exact ⟨by simp, fun _ => h.current_of_idle (by simp [hstatus]), h.outcome_success⟩
    · exact h.reset
    · exact h.reset
  handle header reply m h := by
    rcases hhandle : m.handle header reply with ⟨result, m'⟩
    rcases handle_cases hhandle with ⟨-, rfl⟩ | ⟨-, -, -, rfl⟩ | ⟨-, -, -, -, rfl⟩ |
      ⟨-, -, -, -, rfl⟩
    · exact h
    · exact ⟨h.idle_of_notStarted, h.current_of_idle, .inr rfl⟩
    · exact h.reset
    · exact ⟨fun _ => rfl, fun hstatus => absurd rfl hstatus, h.outcome_success⟩
  reset := Sound.reset
  note _ _ _ h := ⟨h.idle_of_notStarted, h.current_of_idle, h.outcome_success⟩

/-- Once the generator is gone, it stays so, whatever is still to come of the motion. -/
theorem lasting_gone : Lasting fun m => m.Sound ∧ m.status = .notStarted :=
  lasting_sound.and lasting_notStarted

theorem gone_settle (id : UInt32) {m : Motion} (h : m.Sound ∧ m.status = .notStarted) :
    (m.settle id).2.Sound ∧ (m.settle id).2.status = .notStarted := by
  have hsettled : (m.settle id).2 = m ∨
      (m.settle id).2 = { m with outcome := none, current := none } := by
    unfold settle
    split
    · exact .inr rfl
    · exact .inr rfl
    · split <;> exact .inl rfl
  rcases hsettled with heq | heq
  · rwa [heq]
  · rw [heq]
    exact ⟨⟨h.1.idle_of_notStarted, fun hstatus => absurd h.2 hstatus, .inl rfl⟩, h.2⟩

/-- What lasts from a status on: the motion agrees with itself, and the status is led on. -/
theorem lasting_from (a : MotionStatus) : Lasting fun m => m.Sound ∧ a.Leads m.status :=
  lasting_sound.and (lasting_leads a)

end Motion

namespace Engine

/-! ### Calls -/

/-- What a client may ask of the engine. -/
inductive Call
  | update (motion : Option MotionCommand) (torques : Option Torques)
  | startGenerator (type : MotionType)
  | stopGenerator
  | setController (mode : ControllerMode)
  | startMotion (controller : ControllerMode) (motion : MotionMode) (path goal : Deviation)
  | finishMotion (id : UInt32) (motion : Option MotionCommand) (torques : Option Torques)
  | cancelMotion

/-- Does what is asked for, and says whether it has succeeded. -/
def perform (e : Engine) : Call → Except SessionError Unit × Engine
  | .update motion torques =>
    let (result, e) := e.update motion torques
    (result.map fun _ => (), e)
  | .startGenerator type => e.startGenerator type
  | .stopGenerator => e.stopGenerator
  | .setController mode => e.setController mode
  | .startMotion controller motion path goal =>
    let (result, e) := e.startMotion controller motion path goal
    (result.map fun _ => (), e)
  | .finishMotion id motion torques => e.finishMotion id motion torques
  | .cancelMotion => (.ok (), e.cancelMotion)

/-- One thing that happens in a session: a call, or something that happens on the link by itself. -/
inductive Turn
  | call (call : Call)
  | happen (happenings : List Happening)

def turn (e : Engine) : Turn → Engine
  | .call call => (e.perform call).2
  | .happen happenings => e.witness happenings

/-- The engine after some turns. -/
def after (e : Engine) (turns : List Turn) : Engine := turns.foldl turn e

/-- What holds between two calls. -/
structure Orderly (e : Engine) : Prop where
  not_starting : e.motion.status ≠ .starting
  idle_of_notStarted : e.motion.status = .notStarted → e.motion.expected = .idle
  state_of_active : e.motion.status = .running ∨ e.motion.status = .stopping → e.lastState ≠ none
  current_of_idle : e.motion.status = .running ∨ e.motion.status = .stopping →
    e.motion.expected = .idle → e.motion.current ≠ none
  outcome_success : e.motion.outcome = none ∨ e.motion.outcome = some .success

/-- The calls that start a generator. -/
def Call.Starts : Call → Prop
  | .startGenerator _ | .startMotion .. => True
  | _ => False

/-- The calls that ask a generator to come to rest. -/
def Call.Stops : Call → Prop
  | .stopGenerator | .finishMotion .. => True
  | _ => False

/-- How the status may move across a call with this result. -/
inductive Call.Advances (call : Call) (result : Except SessionError Unit) :
    MotionStatus → MotionStatus → Prop
  | stays {a} : a ≠ .starting → call.Advances result a a
  | ends {a} : a ≠ .starting → call.Advances result a .notStarted
  | starts : call.Starts → result = .ok () → call.Advances result .notStarted .running
  | stops : call.Stops → call.Advances result .running .stopping

/-! ### One call -/

variable {e e' : Engine} {j : Journal} {call : Call} {result : Except SessionError Unit}

theorem orderly_of_sound (hsound : e.motion.Sound) (hstarting : e.motion.status ≠ .starting)
    (hstate : e.motion.status ≠ .notStarted → e.lastState ≠ none) : e.Orderly where
  not_starting := hstarting
  idle_of_notStarted := hsound.idle_of_notStarted
  state_of_active h := hstate (by rcases h with h | h <;> simp [h])
  current_of_idle h := hsound.current_of_idle (by rcases h with h | h <;> simp [h])
  outcome_success := hsound.outcome_success

theorem orderly_of_gone (h : e.motion.Sound ∧ e.motion.status = .notStarted) : e.Orderly :=
  orderly_of_sound h.1 (by simp [h.2]) fun hstatus => absurd h.2 hstatus

theorem orderly_of_idle (h : e.motion = {}) : e.Orderly :=
  orderly_of_gone (h ▸ ⟨Motion.sound_empty, rfl⟩)

theorem Orderly.active (h : e.Orderly) (hstatus : e.motion.status ≠ .notStarted) :
    e.motion.status = .running ∨ e.motion.status = .stopping := by
  have := h.not_starting
  cases hs : e.motion.status <;> simp_all

theorem Orderly.sound (h : e.Orderly) : e.motion.Sound :=
  ⟨h.idle_of_notStarted, fun hstatus => h.current_of_idle (h.active hstatus), h.outcome_success⟩

theorem Orderly.start (h : e.Orderly) : e.motion.Sound ∧ e.motion.status.Leads e.motion.status :=
  ⟨h.sound, .inl rfl⟩

/-- A passage that leaves the status alone or ends the generator keeps the order. -/
theorem Orderly.of_leads (h : e.Orderly) (hpassage : Passage e j e')
    (hmotion : e'.motion.Sound ∧ e.motion.status.Leads e'.motion.status) : e'.Orderly := by
  rcases hmotion.2 with hstatus | hstatus | ⟨hstarting, -⟩
  · refine orderly_of_sound hmotion.1 (hstatus ▸ h.not_starting) fun hactive => ?_
    exact hpassage.lastState_ne_none (h.state_of_active (h.active (hstatus ▸ hactive)))
  · exact orderly_of_gone ⟨hmotion.1, hstatus⟩
  · exact absurd hstarting h.not_starting

theorem Call.advances_of_leads {a b : MotionStatus} (ha : a ≠ .starting) (h : a.Leads b) :
    call.Advances result a b := by
  rcases h with rfl | rfl | ⟨rfl, -⟩
  · exact .stays ha
  · exact .ends ha
  · exact absurd rfl ha

/-- Exchanging the status of an active generator for the one of another keeps the order. -/
theorem Orderly.exchange (h : e.Orderly) {a b : MotionStatus} (ha : a ≠ .notStarted)
    (hb : b ≠ .notStarted) (hb' : b ≠ .starting) :
    (e.withMotion (e.motion.exchange a b)).Orderly := by
  by_cases hstatus : e.motion.status = a
  · rw [Motion.exchange_of_eq hstatus]
    have hactive : e.motion.status ≠ .notStarted := hstatus ▸ ha
    refine orderly_of_sound ⟨fun hnone => absurd hnone hb, fun _ => ?_, h.outcome_success⟩ hb'
      fun _ => ?_
    · exact h.sound.current_of_idle hactive
    · exact h.state_of_active (h.active hactive)
  · rw [Motion.exchange_of_ne hstatus]
    exact h

theorem Orderly.startGenerator (h : e.Orderly) {type : MotionType}
    (hcall : e.startGenerator type = (result, e')) :
    e'.Orderly ∧ (Call.startGenerator type).Advances result e.motion.status e'.motion.status := by
  by_cases hstatus : e.motion.status = .notStarted
  · have hsound := Motion.lasting_sound.startGenerator (fun hm => hm.begin type) h.sound
    obtain ⟨j, hpassage, -, hstarted⟩ := startGenerator_cases hcall hstatus
    rw [hcall] at hsound
    rw [hstatus]
    generalize hs : e'.motion.status = status at hstarted
    cases hstarted with
    | running hmem _ =>
        obtain ⟨t, ht, -⟩ := hpassage.lastState_mem (List.ne_nil_of_mem hmem)
        exact ⟨orderly_of_sound hsound (by simp [hs]) fun _ => by simp [ht], .starts trivial rfl⟩
    | failed => exact ⟨orderly_of_gone ⟨hsound, hs⟩, .stays (by decide)⟩
  · rw [startGenerator_of_busy hstatus] at hcall
    obtain ⟨rfl, rfl⟩ := Prod.mk.inj hcall
    exact ⟨h, .stays h.not_starting⟩

theorem Orderly.stopGenerator (h : e.Orderly) (hcall : e.stopGenerator = (result, e')) :
    e'.Orderly ∧ Call.stopGenerator.Advances result e.motion.status e'.motion.status := by
  by_cases hstatus : e.motion.status = .running
  · let e₀ := e.withMotion (e.motion.exchange .running .stopping)
    have hstopping : e₀.motion.status = .stopping := by
      simp [e₀, withMotion, Motion.exchange_of_eq hstatus]
    have h₀ : e₀.Orderly := h.exchange (by decide) (by decide) (by decide)
    rcases hexecute : e₀.execute .stopMotion with ⟨answer, e₁⟩
    obtain ⟨j, hpassage, -⟩ := execute_cases hexecute
    have hmotion := (Motion.lasting_from _).execute .stopMotion h₀.start
    rw [hexecute] at hmotion
    have h₁ := h₀.of_leads hpassage hmotion
    have hnext : e₁.motion.status = .stopping ∨ e₁.motion.status = .notStarted := by
      simpa [hstopping, MotionStatus.Leads] using hmotion.2
    have hback : (e₁.withMotion (e₁.motion.exchange .stopping .running)).Orderly ∧ ∀ result,
        Call.stopGenerator.Advances result .running
          (e₁.motion.exchange .stopping .running).status := by
      refine ⟨h₁.exchange (by decide) (by decide) (by decide), fun result => ?_⟩
      rcases hnext with hs | hs
      · rw [Motion.exchange_of_eq hs]
        exact .stays (by decide)
      · rw [Motion.exchange_of_ne (by simp [hs]), hs]
        exact .ends (by decide)
    rw [hstatus]
    simp only [Engine.stopGenerator, hstatus, ne_eq, not_true_eq_false, if_false] at hcall
    split at hcall
    · rename_i heq
      obtain ⟨-, rfl⟩ := Prod.mk.inj (hexecute.symm.trans heq)
      obtain ⟨rfl, rfl⟩ := Prod.mk.inj hcall
      exact ⟨hback.1, hback.2 _⟩
    · rename_i heq
      obtain ⟨-, rfl⟩ := Prod.mk.inj (hexecute.symm.trans heq)
      obtain ⟨rfl, rfl⟩ := Prod.mk.inj hcall
      refine ⟨h₁, ?_⟩
      rcases hnext with hs | hs
      · exact hs ▸ .stops trivial
      · exact hs ▸ .ends (by decide)
    · rename_i heq
      obtain ⟨-, rfl⟩ := Prod.mk.inj (hexecute.symm.trans heq)
      obtain ⟨rfl, rfl⟩ := Prod.mk.inj hcall
      exact ⟨hback.1, hback.2 _⟩
  · simp only [Engine.stopGenerator, hstatus, ne_eq, not_false_eq_true, if_true] at hcall
    obtain ⟨rfl, rfl⟩ := Prod.mk.inj hcall
    exact ⟨h, .stays h.not_starting⟩

theorem Orderly.startMotion (h : e.Orderly) {controller : ControllerMode} {motion : MotionMode}
    {path goal : Deviation} {result : Except SessionError UInt32}
    (hcall : e.startMotion controller motion path goal = (result, e')) :
    e'.Orderly ∧ (Call.startMotion controller motion path goal).Advances (result.map fun _ => ())
      e.motion.status e'.motion.status := by
  by_cases hidle : e.motion.status = .notStarted ∧ e.motion.current = none
  · obtain ⟨hstatus, hcurrent⟩ := hidle
    rw [startMotion_eq] at hcall
    rcases hlaunch : e.launch controller motion path goal with ⟨launched, e₁⟩
    obtain ⟨j, hpassage, -, -, hlaunched⟩ := launch_cases hlaunch hstatus hcurrent
    rw [hlaunch] at hcall
    rw [hstatus]
    generalize hm : e₁.motion = m₁ at hlaunched
    cases hlaunched with
    | refused =>
        obtain ⟨rfl, rfl⟩ := Prod.mk.inj hcall
        refine ⟨orderly_of_gone ⟨?_, by rw [hm]; exact hstatus⟩, ?_⟩
        · rw [hm]
          exact ⟨h.idle_of_notStarted, fun hactive => absurd hstatus hactive, .inl rfl⟩
        · rw [hm, hstatus]
          exact .stays (by decide)
    | accepted _ hawaited =>
        cases hawaited with
        | failed =>
            obtain ⟨rfl, rfl⟩ := Prod.mk.inj hcall
            have hgone : e₁.cancelMotion.motion = {} := e₁.cancelMotion_cases.choose_spec.2.2.2
            rw [hgone]
            exact ⟨orderly_of_idle hgone, .stays (by decide)⟩
        | confirmed hcredits hrunning =>
            obtain ⟨rfl, rfl⟩ := Prod.mk.inj hcall
            obtain ⟨s, hs, -⟩ := hrunning.resolve_left (by simp [Motion.begin])
            obtain ⟨t, ht, -⟩ := hpassage.lastState_mem (List.ne_nil_of_mem hs)
            have htells : Journal.Tells e.session.nextId ([] ++ j) _ :=
              hcredits.tells (.inl rfl) rfl
            refine ⟨orderly_of_sound ?_ (by simp [hm]) fun _ => by simp [ht], ?_⟩
            · rw [hm]
              exact ⟨by simp, fun _ _ => by simp [Motion.begin], htells.imp_right And.left⟩
            · rw [hm]
              exact .starts trivial rfl
  · have hbusy : e.motion.status ≠ .notStarted ∨ e.motion.current.isSome := by
      simpa [Classical.or_iff_not_imp_left, Option.isSome_iff_ne_none] using hidle
    simp only [Engine.startMotion, if_pos hbusy] at hcall
    obtain ⟨rfl, rfl⟩ := Prod.mk.inj hcall
    exact ⟨h, .stays h.not_starting⟩

theorem drain_status {finishing : MotionCommand} {torques : Option Torques}
    (h : e.drain finishing torques = (.ok (), e')) : e'.motion.status ≠ .stopping := by
  fun_induction drain finishing torques e with
  | case1 e _ s e₁ hupdate ih => exact ih h
  | case2 e _ e₁ hupdate => cases h
  | case3 e _ err e₁ hupdate => cases h
  | case4 e hstatus =>
      obtain ⟨-, rfl⟩ := Prod.mk.inj h
      exact hstatus

theorem Orderly.finishMotion (h : e.Orderly) {id : UInt32} {motion : Option MotionCommand}
    {torques : Option Torques} (hcall : e.finishMotion id motion torques = (result, e')) :
    e'.Orderly ∧ (Call.finishMotion id motion torques).Advances result e.motion.status
      e'.motion.status := by
  by_cases hcurrent : e.motion.current = some id
  · let e₀ := e.withMotion (e.motion.exchange .running .stopping)
    have h₀ : e₀.Orderly := h.exchange (by decide) (by decide) (by decide)
    have hends : e.motion.status = .running ∧ e₀.motion.status = .stopping ∨
        e.motion.status ≠ .running ∧ e₀.motion.status = e.motion.status := by
      by_cases hs : e.motion.status = .running
      · exact .inl ⟨hs, by simp [e₀, withMotion, Motion.exchange_of_eq hs]⟩
      · exact .inr ⟨hs, by simp [e₀, withMotion, Motion.exchange_of_ne hs]⟩
    have hadvances {b : MotionStatus} (hb : e₀.motion.status.Leads b) :
        (Call.finishMotion id motion torques).Advances result e.motion.status b := by
      rcases hends with ⟨hs, hs₀⟩ | ⟨-, hs₀⟩
      · rw [hs]
        rw [hs₀] at hb
        rcases hb with rfl | rfl | ⟨hb, -⟩
        · exact .stops trivial
        · exact .ends (by decide)
        · cases hb
      · exact Call.advances_of_leads h.not_starting (hs₀ ▸ hb)
    simp only [Engine.finishMotion, hcurrent, ne_eq, not_true_eq_false, if_false] at hcall
    generalize motion.getD _ = last at hcall
    have hmotion := (Motion.lasting_from _).enduring.drain last.finish torques h₀.start
    obtain ⟨j, hpassage, -⟩ := drain_passage last.finish torques e₀
    rcases hdrain : e₀.drain last.finish torques with ⟨drained, e₁⟩
    rw [hdrain] at hmotion hpassage hcall
    cases drained with
    | error err =>
        obtain ⟨rfl, rfl⟩ := Prod.mk.inj hcall
        exact ⟨h₀.of_leads hpassage hmotion, hadvances hmotion.2⟩
    | ok _ =>
        replace hcall : e₁.awaitOutcome id = (result, e') := hcall
        have hgone : e₁.motion.status = .notStarted := by
          have hrest := drain_status hdrain
          have hstarting := h.not_starting
          have hled : e₀.motion.status.Leads e₁.motion.status := hmotion.2
          unfold MotionStatus.Leads at hled
          rcases hends with ⟨-, hs₀⟩ | ⟨hrunning, hs₀⟩
          · simpa [hs₀, hrest] using hled
          · rw [hs₀] at hled
            cases hs : e.motion.status <;> simp_all
        have hsettled := Motion.lasting_gone.enduring.awaitOutcome
          (fun id => Motion.gone_settle id) id ⟨hmotion.1, hgone⟩
        simp only [hcall] at hsettled
        exact ⟨orderly_of_gone hsettled, hadvances (.inr (.inl hsettled.2))⟩
  · simp only [Engine.finishMotion, hcurrent, ne_eq, not_false_eq_true, if_true] at hcall
    obtain ⟨rfl, rfl⟩ := Prod.mk.inj hcall
    exact ⟨h, .stays h.not_starting⟩

/-- A call keeps the order, and moves the status as it may. -/
theorem Orderly.perform (h : e.Orderly) (call : Call) :
    (e.perform call).2.Orderly ∧
      call.Advances (e.perform call).1 e.motion.status (e.perform call).2.motion.status := by
  cases call with
  | update motion torques =>
      obtain ⟨j, hpassage, -⟩ := update_passage (Prod.eta (e.update motion torques)).symm
      have hmotion := (Motion.lasting_from _).enduring.update motion torques h.start
      exact ⟨h.of_leads hpassage hmotion, Call.advances_of_leads h.not_starting hmotion.2⟩
  | startGenerator type => exact h.startGenerator (Prod.eta _).symm
  | stopGenerator => exact h.stopGenerator (Prod.eta _).symm
  | setController mode =>
      obtain ⟨j, hpassage, -⟩ := setController_cases (Prod.eta (e.setController mode)).symm
      have hmotion := (Motion.lasting_from _).enduring.setController mode h.start
      exact ⟨h.of_leads hpassage hmotion, Call.advances_of_leads h.not_starting hmotion.2⟩
  | startMotion controller motion path goal => exact h.startMotion (Prod.eta _).symm
  | finishMotion id motion torques => exact h.finishMotion (Prod.eta _).symm
  | cancelMotion =>
      obtain ⟨-, -, -, -, hgone⟩ := e.cancelMotion_cases
      simp only [Engine.perform, hgone]
      exact ⟨orderly_of_idle hgone, .ends h.not_starting⟩

/-- A start is refused as long as a generator is active. -/
theorem perform_of_busy (hcall : call.Starts) (hstatus : e.motion.status ≠ .notStarted) :
    ∃ err, e.perform call = (.error err, e) := by
  cases call with
  | startGenerator type => exact ⟨_, startGenerator_of_busy hstatus⟩
  | startMotion controller motion path goal =>
      exact ⟨.motion .alreadyMoving, by simp [Engine.perform, Engine.startMotion, hstatus]; rfl⟩
  | update | stopGenerator | setController | finishMotion | cancelMotion => exact hcall.elim

/-- A standing property outlasts a call that neither starts a generator nor asks to stop one. -/
theorem Standing.perform {I : Engine → Prop} (hI : Standing I) (hstart : ¬ call.Starts)
    (hstop : call ≠ .stopGenerator) (h : I e) : I (e.perform call).2 := by
  cases call with
  | update motion torques => exact hI.update motion torques h
  | startGenerator => exact absurd trivial hstart
  | stopGenerator => exact absurd rfl hstop
  | setController mode => exact hI.setController mode h
  | startMotion => exact absurd trivial hstart
  | finishMotion id motion torques => exact hI.finishMotion id motion torques h
  | cancelMotion => exact hI.cancelMotion h

/-- If it outlasts the resumption of a generator too, it outlasts every call that starts none. -/
theorem Standing.perform_of_resume {I : Engine → Prop} (hI : Standing I)
    (hresume : ∀ {e}, I e → I (e.withMotion (e.motion.exchange .stopping .running)))
    (hstart : ¬ call.Starts) (h : I e) : I (e.perform call).2 := by
  by_cases hstop : call = .stopGenerator
  · subst hstop
    exact hI.stopGenerator hresume h
  · exact hI.perform hstart hstop h

/-! ### A session -/

theorem orderly_start (session : Session) (settings : Settings) (clock : Clock) :
    (Engine.start session settings clock).Orderly :=
  orderly_of_idle rfl

theorem Orderly.turn (h : e.Orderly) (t : Turn) : (e.turn t).Orderly := by
  cases t with
  | call call => exact (h.perform call).1
  | happen happenings =>
      obtain ⟨j, hpassage, -⟩ := e.passage_witness happenings
      exact h.of_leads hpassage h.start

theorem Orderly.after (h : e.Orderly) (turns : List Turn) : (e.after turns).Orderly := by
  induction turns generalizing e with
  | nil => exact h
  | cons t rest ih => exact ih (h.turn t)

/-- Whatever a client has asked for and whatever has happened meanwhile, the engine is orderly
between two calls, and the next call moves the status only along the life cycle. -/
theorem lifecycle (session : Session) (settings : Settings) (clock : Clock) (turns : List Turn) :
    let e := (Engine.start session settings clock).after turns
    e.Orderly ∧ ∀ call,
      Call.Advances call (e.perform call).1 e.motion.status (e.perform call).2.motion.status := by
  intro e
  have h : e.Orderly := (orderly_start session settings clock).after turns
  exact ⟨h, fun call => (h.perform call).2⟩

end Engine
end ArmControl
