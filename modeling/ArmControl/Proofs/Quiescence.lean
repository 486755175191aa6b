import ArmControl.Proofs.Idle

/-! # A session is quiescent between two operations

A user calls the operations of a robot one after the other, and things happen on the link in
between.  However an operation has ended, it leaves the robot `Quiescent`: the slot is free again
and nothing of a motion is left over.  So no operation is ever refused because of what came before
it.

`quiescent_after` states this for every robot that was made of a link, and every sequence of
operations. -/

namespace ArmControl

/-- The operation was excluded by another one, or by a motion that was still in progress. -/
def RobotError.isRefusal : RobotError → Bool
  | session cause => cause.isRefusal
  | settings _ => false

open Engine

namespace Robot

/-! ### Sessions of a user -/

/-- An operation as the user asks for it, with what the callbacks remember at first. -/
inductive Call : Type 1
  | read {σ : Type} {credit : σ → Nat} (cb : Callback credit State Bool) (m : σ)
  | readOnce
  | controlIdle {σ : Type} {credit : σ → Nat} (controller : ControllerMode)
      (cb : Callback credit State Bool) (m : σ)
  | controlMotion {σ : Type} {credit : σ → Nat} {type : MotionType} (controller : ControllerMode)
      (cb : Callback credit Tick (Step (Target type))) (m : σ)
  | controlTorques {σ : Type} {credit : σ → Nat} (cb : Callback credit Tick (Step Torques)) (m : σ)
  | controlTorquesWithMotion {σ : Type} {credit : σ → Nat} {type : MotionType}
      (torqueCallback : Callback credit Tick (Step Torques))
      (motionCallback : Callback credit Tick (Step (Target type))) (m : σ)

/-- Carries out an operation, and says whether it has succeeded. -/
def perform (r : Robot) : Call → Except RobotError Unit × Robot
  | .read cb m =>
    let (result, _, r) := r.read cb m
    (result, r)
  | .readOnce =>
    let (result, r) := r.readOnce
    (result.map fun _ => (), r)
  | .controlIdle controller cb m =>
    let (result, _, r) := r.controlIdle controller cb m
    (result, r)
  | .controlMotion controller cb m =>
    let (result, _, r) := r.controlMotion controller cb m
    (result, r)
  | .controlTorques cb m =>
    let (result, _, r) := r.controlTorques cb m
    (result, r)
  | .controlTorquesWithMotion torqueCallback motionCallback m =>
    let (result, _, r) := r.controlTorquesWithMotion torqueCallback motionCallback m
    (result, r)

/-- One thing that happens in a session: an operation, or something on the link by itself. -/
inductive Turn : Type 1
  | call (call : Call)
  | happen (happenings : List Happening)

def turn (r : Robot) : Turn → Robot
  | .call call => (r.perform call).2
  | .happen happenings => r.witness happenings

/-- The robot after some turns. -/
def after (r : Robot) (turns : List Turn) : Robot := turns.foldl turn r

/-! ### Quiescence -/

/-- No operation is in progress, and nothing is left of a motion. -/
structure Quiescent (r : Robot) : Prop where
  slot : r.slot = none
  status : r.engine.motion.status = .notStarted
  expected : r.engine.motion.expected = .idle
  current : r.engine.motion.current = none
  outcome : r.engine.motion.outcome = none
  deferred : r.engine.motion.deferred = none
  lastCommand : r.engine.motion.lastCommand = none

theorem quiescent_iff {r : Robot} : r.Quiescent ↔ r.slot = none ∧ r.engine.motion = {} := by
  constructor
  · rintro ⟨hslot, hstatus, hexpected, hcurrent, houtcome, hdeferred, hcommand⟩
    refine ⟨hslot, ?_⟩
    generalize r.engine.motion = m at *
    cases m
    simp_all
  · rintro ⟨hslot, hidle⟩
    constructor <;> simp [hslot, hidle]

variable {r r' : Robot} {σ : Type} {credit : σ → Nat} {α : Type}

/-- An operation does well if it ends quiescent and is not refused. -/
def EndsWell (result : Except RobotError α) (r : Robot) : Prop :=
  r.Quiescent ∧ ∀ err, result = .error err → err.isRefusal = false

/-- An operation is not refused while the slot is free. -/
theorem operate_of_free {op : Operation}
    {activity : Engine → Operation × σ → Except SessionError α × (Operation × σ) × Engine}
    (h : r.slot = none) (m : σ) : operate op activity r m =
      ((activity r.engine (op, m)).1.mapError .session, (activity r.engine (op, m)).2.1.2,
        { slot := .free, engine := (activity r.engine (op, m)).2.2 }) := by
  have hclaim : r.slot.claim (some op) = .ok (some op) := by rw [h]; rfl
  simp only [operate, hclaim]

theorem operate_endsWell {op : Operation}
    {activity : Engine → Operation × σ → Except SessionError α × (Operation × σ) × Engine} (m : σ)
    (h : r.Quiescent) (hidle : (activity r.engine (op, m)).2.2.motion = {})
    (hresult : ∀ err, (activity r.engine (op, m)).1 = .error err → err.isRefusal = false) :
    EndsWell (operate op activity r m).1 (operate op activity r m).2.2 := by
  rw [operate_of_free h.slot]
  refine ⟨quiescent_iff.2 ⟨rfl, hidle⟩, fun err herr => ?_⟩
  cases hended : (activity r.engine (op, m)).1 with
  | ok a =>
      rw [hended] at herr
      cases herr
  | error cause =>
      rw [hended] at herr
      obtain rfl : .session cause = err := Except.error.inj herr
      exact hresult cause hended

theorem Quiescent.idle (h : r.Quiescent) : r.engine.motion = {} := (quiescent_iff.1 h).2

/-- What reading states comes to, if nothing is said of what the callback remembers. -/
theorem showStates_ends {σ : Type} {credit : σ → Nat} {e : Engine}
    (cb : ArmControl.Callback credit State Bool) (m : σ) (hidle : e.motion = {}) :
    (showStates cb e m).2.2.motion = {} ∧
      ∀ err, (showStates cb e m).1 = .error err → err.isRefusal = false := by
  have hlogs : cb.Logs (fun _ => ([] : List Unit)) fun _ => [] := fun _ _ _ => rfl
  obtain ⟨-, -, hidle', -, hresult⟩ := showStates_of_idle hlogs hidle (Prod.eta _).symm
  exact ⟨hidle', hresult⟩

theorem read_endsWell (h : r.Quiescent) (cb : Callback credit State Bool) (m : σ) :
    EndsWell (r.read cb m).1 (r.read cb m).2.2 := by
  obtain ⟨hidle, hresult⟩ := showStates_ends cb.onEngine (.reading, m) h.idle
  exact operate_endsWell m h hidle hresult

theorem readOnce_endsWell (h : r.Quiescent) : EndsWell r.readOnce.1 r.readOnce.2 := by
  rcases hupdate : r.engine.update none none with ⟨result, e⟩
  have hpoll := hupdate
  rw [update_of_idle h.idle] at hpoll
  obtain ⟨_, _, _, hidle, hquiet⟩ := poll_of_idle h.idle hpoll
  unfold readOnce
  simp only
  refine operate_endsWell () h ?_ fun err herr => ?_
  · simp only [hupdate]
    split <;> (rename_i heq; obtain ⟨rfl, rfl⟩ := Prod.mk.inj heq; exact hidle)
  · simp only [hupdate] at herr
    split at herr <;> (rename_i heq; obtain ⟨rfl, rfl⟩ := Prod.mk.inj heq; cases herr)
    · exact hquiet.isRefusal
    · rfl

theorem controlIdle_endsWell (h : r.Quiescent) (controller : ControllerMode)
    (cb : Callback credit State Bool) (m : σ) :
    EndsWell (r.controlIdle controller cb m).1 (r.controlIdle controller cb m).2.2 := by
  have hidle := setController_of_idle controller h.idle
  rcases hset : r.engine.setController controller with ⟨result, e⟩
  obtain ⟨_, _, _, _, hresult⟩ := setController_cases hset
  rw [hset] at hidle
  suffices hends : _ from operate_endsWell m h (And.left hends) (And.right hends)
  simp only [hset]
  rcases hresult with ⟨rfl, s, hs, -⟩ | ⟨err, rfl, hrefusal⟩
  · simp only [hs]
    split
    · rename_i p e' hcall
      obtain ⟨-, -, -, -, hmotion⟩ := ArmControl.Callback.call_passage hcall
      exact showStates_ends cb.onEngine p (hmotion.trans hidle)
    · rename_i p e' hcall
      obtain ⟨-, -, -, -, hmotion⟩ := ArmControl.Callback.call_passage hcall
      exact ⟨hmotion.trans hidle, by simp⟩
  · exact ⟨hidle, fun err' herr => by cases herr; exact hrefusal⟩

theorem steer_endsWell (h : r.Quiescent) (controller : ControllerMode) (motion : MotionMode)
    {steering : ControlLoop.Steering (fun p : Operation × σ => credit p.2)} (htame : steering.Tame)
    (m : σ) : EndsWell (r.steer controller motion steering m).1
      (r.steer controller motion steering m).2.2 := by
  obtain ⟨hidle, hresult⟩ := ControlLoop.run_of_idle htame h.idle
    (Prod.eta (ControlLoop.run controller motion steering r.engine
      (.controlling controller motion, m))).symm
  exact operate_endsWell m h hidle hresult

theorem perform_endsWell (h : r.Quiescent) (call : Call) :
    EndsWell (r.perform call).1 (r.perform call).2 := by
  cases call with
  | read cb m => exact read_endsWell h cb m
  | readOnce =>
      obtain ⟨hquiescent, hresult⟩ := readOnce_endsWell h
      refine ⟨hquiescent, fun err herr => hresult err ?_⟩
      simp only [perform] at herr
      cases hread : r.readOnce.1 <;> simp_all [Except.map]
  | controlIdle controller cb m => exact controlIdle_endsWell h controller cb m
  | controlMotion controller cb m =>
      exact steer_endsWell h controller _ (ArmControl.Callback.tame_map _ _) m
  | controlTorques cb m => exact steer_endsWell h _ _ (ArmControl.Callback.tame_map _ _) m
  | controlTorquesWithMotion torqueCallback motionCallback m =>
      exact steer_endsWell h _ _ (ArmControl.Callback.tame_map _ _) m

/-! ### A session -/

theorem connect_quiescent (link : Link) (settings : Settings) (clock : Clock) :
    (connect link settings clock).2.Quiescent := quiescent_iff.2 ⟨rfl, rfl⟩

theorem Quiescent.witness (h : r.Quiescent) (happenings : List Happening) :
    (r.witness happenings).Quiescent := quiescent_iff.2 ⟨h.slot, h.idle⟩

theorem Quiescent.after (h : r.Quiescent) (turns : List Turn) : (r.after turns).Quiescent := by
  induction turns generalizing r with
  | nil => exact h
  | cons t rest ih =>
      cases t with
      | call call => exact ih (perform_endsWell h call).1
      | happen happenings => exact ih (h.witness happenings)

/-- After any operations, a robot is quiescent, and no operation that follows is refused. -/
theorem quiescent_after (link : Link) (settings : Settings) (clock : Clock) (turns : List Turn) :
    let r := (connect link settings clock).2.after turns
    r.Quiescent ∧ ∀ call,
      (∀ conflict, (r.perform call).1 ≠ .error (.session (.conflict conflict))) ∧
      (r.perform call).1 ≠ .error (.session (.motion .alreadyMoving)) := by
  intro r
  have h : r.Quiescent := (connect_quiescent link settings clock).after turns
  refine ⟨h, fun call => ⟨fun conflict herr => ?_, fun herr => ?_⟩⟩
  · cases (perform_endsWell h call).2 _ herr
  · cases (perform_endsWell h call).2 _ herr

end Robot
end ArmControl
