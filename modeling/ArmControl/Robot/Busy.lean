import ArmControl.Robot.Basic

/-!
# The busy robot

While an operation is in progress every other one fails with a conflict that names both, and leaves
the robot and the memory of the callback as they are.
-/

namespace ArmControl.Robot

variable {σ α : Type} {credit : σ → Nat}

theorem operate_of_busy {r : Robot} {holder : Operation} (h : r.slot = some holder) (op : Operation)
    (activity : Engine → Operation × σ → Except SessionError α × (Operation × σ) × Engine) (m : σ) :
    operate op activity r m = (.error (.session (.conflict (.busy op holder))), m, r) := by
  simp [operate, h, Slot.claim]

theorem read_of_busy {r : Robot} {holder : Operation} (h : r.slot = some holder)
    (cb : Callback credit State Bool) (m : σ) :
    r.read cb m = (.error (.session (.conflict (.busy .reading holder))), m, r) :=
  operate_of_busy h _ _ m

theorem readOnce_of_busy {r : Robot} {holder : Operation} (h : r.slot = some holder) :
    r.readOnce = (.error (.session (.conflict (.busy .reading holder))), r) := by
  simp [readOnce, operate_of_busy h]

theorem controlIdle_of_busy {r : Robot} {holder : Operation} (h : r.slot = some holder)
    (controller : ControllerMode) (cb : Callback credit State Bool) (m : σ) :
    r.controlIdle controller cb m =
      (.error (.session (.conflict (.busy (.controlling controller .idle) holder))), m, r) := by
  simp [controlIdle, operate_of_busy h]

theorem controlMotion_of_busy {r : Robot} {holder : Operation} (h : r.slot = some holder)
    {type : MotionType} (controller : ControllerMode)
    (cb : Callback credit Tick (Step (Target type))) (m : σ) :
    r.controlMotion controller cb m =
      (.error (.session (.conflict (.busy (.controlling controller type.mode) holder))), m, r) := by
  simp [controlMotion, steer, operate_of_busy h]

theorem controlTorques_of_busy {r : Robot} {holder : Operation} (h : r.slot = some holder)
    (cb : Callback credit Tick (Step Torques)) (m : σ) :
    r.controlTorques cb m =
      (.error (.session (.conflict (.busy (.controlling .external .idle) holder))), m, r) := by
  simp [controlTorques, steer, operate_of_busy h]

theorem controlTorquesWithMotion_of_busy {r : Robot} {holder : Operation}
    (h : r.slot = some holder) {type : MotionType}
    (torqueCallback : Callback credit Tick (Step Torques))
    (motionCallback : Callback credit Tick (Step (Target type))) (m : σ) :
    r.controlTorquesWithMotion torqueCallback motionCallback m =
      (.error (.session (.conflict (.busy (.controlling .external type.mode) holder))), m, r) := by
  simp [controlTorquesWithMotion, steer, operate_of_busy h]

end ArmControl.Robot
