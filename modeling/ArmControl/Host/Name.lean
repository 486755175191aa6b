/-!
# Names of hosts

A name has labels with dots between them, of up to 63 letters, digits, dashes and underscores each, and
does not begin with a dash.  One dot may stand behind the last label, and a dot alone is the name of the
root.  Behind a backslash stands a character that is taken for itself, or three digits that number one.

A label takes its length and one byte more where it is sent, and a name ends with an empty one; all
together are no more than 255 bytes.
-/

namespace ArmControl.HostName

/-- A character of a name: one that a backslash or nothing makes part of a label, or a dot. -/
inductive Piece
  | label (code : Nat)
  | dot
deriving DecidableEq, Repr

/-- The pieces of a name, if each backslash begins something. -/
def pieces? : List Char → Option (List Piece)
  | [] => some []
  | '.' :: rest => (.dot :: ·) <$> pieces? rest
  | '\\' :: a :: b :: c :: rest =>
    if a.isDigit then
      let code := 100 * (a.toNat - '0'.toNat) + 10 * (b.toNat - '0'.toNat) + (c.toNat - '0'.toNat)
      if b.isDigit ∧ c.isDigit ∧ code < 256 then (.label code :: ·) <$> pieces? rest else none
    else (.label a.toNat :: ·) <$> pieces? (b :: c :: rest)
  | '\\' :: a :: rest => if a.isDigit then none else (.label a.toNat :: ·) <$> pieces? rest
  | ['\\'] => none
  | c :: rest => (.label c.toNat :: ·) <$> pieces? rest

/-- The labels of a name. -/
def labels : List Piece → List (List Nat)
  | [] => [[]]
  | .dot :: rest => [] :: labels rest
  | .label code :: rest =>
    match labels rest with
    | [] => [[code]]
    | label :: others => (code :: label) :: others

/-- A letter, a digit, a dash or an underscore. -/
def isNameCode (code : Nat) : Bool :=
  code < 128 && ((Char.ofNat code).isAlphanum || code = '-'.toNat || code = '_'.toNat)

def isLabel (label : List Nat) : Bool :=
  !label.isEmpty && label.length ≤ 63 && label.all isNameCode

/-- How many bytes a name takes where it is sent. -/
def sentLength (labels : List (List Nat)) : Nat :=
  labels.foldl (fun n label => n + label.length + 1) 1

/-- The text can be the name of a host. -/
def isName (text : String) : Bool :=
  if text = "." then true
  else
    match pieces? text.toList with
    | none => false
    | some pieces =>
      let found := labels pieces
      let found := if found.getLastD [] = [] then found.dropLast else found
      !found.isEmpty && found.all isLabel && (found.headD []).head? ≠ some '-'.toNat
        && sentLength found ≤ 255

end ArmControl.HostName
