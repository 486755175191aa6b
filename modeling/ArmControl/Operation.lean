import ArmControl.Mode

/-!
# Operations

An operation drives the session for as long as it runs: either it reads states, or it controls the
arm with a controller and a motion generator.
-/

namespace ArmControl

inductive Operation
  | reading
  | controlling (controller : ControllerMode) (motion : MotionMode)
deriving DecidableEq, Repr, Inhabited

namespace Operation

/-- How an operation is named in messages. -/
def describe : Operation → String
  | reading => "a read operation"
  | controlling controller motion =>
    "a control operation (" ++ Coded.name controller ++ " controller, " ++ Coded.name motion ++
      " motion generator)"

/-- How the operation in progress, if any, is named in messages. -/
def describe? : Option Operation → String
  | none => "no operation"
  | some op => op.describe

end Operation
end ArmControl
