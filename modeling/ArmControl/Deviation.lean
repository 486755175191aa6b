import ArmControl.Binary64

/-!
# Tolerated deviations

A motion is aborted by the controller when the arm strays further than a `Deviation` from its path
or its goal.
-/

namespace ArmControl

/-- How far the arm may stray: translation in metres, rotation and elbow in radians. -/
structure Deviation where
  translation : Binary64
  rotation : Binary64
  elbow : Binary64
deriving DecidableEq, Repr

namespace Deviation

/-- Ten metres, 3.12 radians and a full turn of the elbow. -/
def default : Deviation := ⟨⟨0x4024000000000000⟩, ⟨0x4008f5c28f5c28f6⟩, ⟨0x401921fb54442d18⟩⟩

instance : Inhabited Deviation := ⟨default⟩

def format : Format Deviation :=
  (Binary64.format.pair (Binary64.format.pair Binary64.format)).iso
    (fun (t, r, e) => ⟨t, r, e⟩) (fun d => (d.translation, d.rotation, d.elbow))

theorem exact_format : format.Exact :=
  (Binary64.exact_format.pair (Binary64.exact_format.pair Binary64.exact_format)).iso
    (fun _ => rfl) fun _ => rfl

end Deviation
end ArmControl
