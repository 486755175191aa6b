/-!
# Why a text is no document
-/

namespace ArmControl.Toml

/-- What is wrong with a text that is no document. -/
inductive Fault
  /-- A control character inside a text or a comment. -/
  | control
  /-- A text without its closing quotes. -/
  | unclosed
  /-- A backslash that begins no escape. -/
  | escape
  | keyExpected
  | equalsExpected
  | valueExpected
  /-- Neither a comma nor the end after an element. -/
  | separatorExpected
  /-- A header without its closing bracket. -/
  | headerEndExpected
  /-- Something behind a statement on its line. -/
  | lineEndExpected
  /-- Arrays and inline tables nested too deeply, or too many names in a key. -/
  | tooDeep
  /-- A key that has a value already. -/
  | duplicate (key : String)
  /-- A key whose value is complete, or no table. -/
  | closed (key : String)
deriving DecidableEq, Repr, Inhabited

def Fault.message : Fault → String
  | control => "control characters must be escaped"
  | unclosed => "a text is not closed"
  | escape => "unknown escape"
  | keyExpected => "a key is missing"
  | equalsExpected => "a key must be followed by ="
  | valueExpected => "a value is missing or malformed"
  | separatorExpected => "elements must be separated by commas"
  | headerEndExpected => "a header is not closed"
  | lineEndExpected => "only a comment may follow on this line"
  | tooDeep => "values or keys are nested too deeply"
  | duplicate key => "duplicate key " ++ key
  | closed key => "the value of " ++ key ++ " cannot be extended"

end ArmControl.Toml
