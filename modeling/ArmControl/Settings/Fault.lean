import ArmControl.Toml.Fault

/-!
# Why a text gives no settings
-/

namespace ArmControl

inductive SettingsFault
  /-- It is no document. -/
  | document (fault : Toml.Fault)
  /-- A setting has a value of the wrong kind. -/
  | wrongKind (key : String)
  | outOfRange (key : String)
  /-- A part of a setting is not given. -/
  | missing (key : String)
  /-- A setting has none of the values that there are to choose from. -/
  | unknownChoice (key : String)
deriving DecidableEq, Repr, Inhabited

def SettingsFault.message : SettingsFault → String
  | document fault => fault.message
  | wrongKind key => "wrong kind of value for " ++ key
  | outOfRange key => "value out of range for " ++ key
  | missing key => "missing " ++ key
  | unknownChoice key => "unknown choice for " ++ key

end ArmControl
