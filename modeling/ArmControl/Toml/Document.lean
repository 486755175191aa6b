import ArmControl.Toml.Scalar
import ArmControl.Toml.Text

/-!
# Documents

A document is read in two steps.  `statements` reads the text as a list of `Statement`s, one on a line:
headers, and keys with their values.  `Table.ofStatements` carries them out one after the other on an
empty table.

Values may stand inside each other to a depth of `maxDepth`, and a key may have as many names.  An inline
table may run over several lines: wherever a blank may stand between the parts of an assignment, so may a
comment and the end of a line.
-/

namespace ArmControl.Toml

/-- What stands on a line of a document. -/
inductive Statement
  /-- The header of a table. -/
  | opening (path : Path)
  /-- The header of another element of an array of tables. -/
  | element (path : Path)
  /-- A key and its value. -/
  | assignment (path : Path) (value : Value)
deriving Inhabited

/-- How deep arrays and inline tables may stand inside each other, and how many names a key may have. -/
def maxDepth : Nat := 80

def isKeyChar (c : Char) : Bool := c.isAlphanum || c = '_' || c = '-'

/-- One name of a key: in quotes, or made of letters, digits, underscores and dashes. -/
def keyName : Reader String := do
  match ← get with
  | '"' :: rest =>
    set rest
    lineText '"'
  | '\'' :: rest =>
    set rest
    lineText '\''
  | s =>
    match s.takeWhile isKeyChar with
    | [] => throw .keyExpected
    | name =>
      set (s.dropWhile isKeyChar)
      return String.ofList name

/-- A further name of a key, behind a dot. -/
def furtherName : Reader (Option String) := do
  blanks
  match ← get with
  | '.' :: rest =>
    set rest
    blanks
    return some (← keyName)
  | _ => return none

/-- A key, with the blanks around it. -/
def key : Reader Path := do
  blanks
  let first ← keyName
  let further ← (Reader.many furtherName : Reader (List String))
  if maxDepth ≤ further.length then throw .tooDeep
  return ⟨(first :: further).dropLast, further.getLastD first⟩

/-- The elements up to a closing bracket, with commas between them; one comma may stand behind the
last. -/
def elements {α : Type} (closing : Char) (item : Reader α) : Reader (List α) := do
  let round : Reader (Option α) := do
    gap
    if (← get).head? = some closing then return none
    let a ← item
    gap
    match ← get with
    | ',' :: rest =>
      set rest
      return some a
    | c :: _ => if c = closing then return some a else throw .separatorExpected
    | [] => throw .separatorExpected
  let found ← (Reader.many round : Reader (List α))
  take closing .separatorExpected
  return found

/-- A key and its value; `between` passes over what may stand before and behind the equals sign. -/
def assignment (between : Reader Unit) (value : Reader Value) : Reader (Path × Value) := do
  let path ← key
  between
  take '=' .equalsExpected
  between
  return (path, ← value)

/-- An array or an inline table, with a reader for the values in it. -/
def container (value : Reader Value) : Reader Value := do
  match ← get with
  | '[' :: rest =>
    set rest
    return .array (← elements ']' value)
  | _ :: rest =>
    set rest
    let assignments ← elements '\x7d' (assignment gap value)
    return .table .inline (← Table.ofAssignments assignments)
  | [] => throw .valueExpected

/-- Any value, with a reader for arrays and inline tables. -/
def valueWith (container : Reader Value) : Reader Value := do
  match ← text? with
  | some text => return .text text
  | none =>
    match (← get).head? with
    | some '[' => container
    | some '\x7b' => container
    | _ => scalar

/-- A value in which others may stand as deep as there is room for. -/
def valueIn : Nat → Reader Value
  | 0 => valueWith (throw .tooDeep)
  | room + 1 => valueWith (container (valueIn room))

/-- Takes nothing but a comment up to the end of the line. -/
def finishLine : Reader Unit := do
  let s := skipComment (skipBlanks (← get))
  match lineEnd? s, s with
  | some rest, _ => set rest
  | none, [] => set s
  | none, _ => throw .lineEndExpected

/-- The next statement, if there is one. -/
def statement? : Reader (Option Statement) := do
  gap
  match ← get with
  | [] => return none
  | '[' :: '[' :: rest =>
    set rest
    let path ← key
    take ']' .headerEndExpected
    take ']' .headerEndExpected
    finishLine
    return some (.element path)
  | '[' :: rest =>
    set rest
    let path ← key
    take ']' .headerEndExpected
    finishLine
    return some (.opening path)
  | _ =>
    let (path, value) ← assignment blanks (valueIn maxDepth)
    finishLine
    return some (.assignment path value)

/-- The statements of a text, which may begin with a byte order mark. -/
def statements (text : String) : Except Fault (List Statement) :=
  let s := match text.toList with
    | '\ufeff' :: rest => rest
    | s => s
  (·.1) <$> Reader.many statement? s

/-- A document under construction: its table, and where keys go. -/
structure Draft where
  table : Table := []
  current : List String := []
deriving Inhabited

/-- Carries out a statement. -/
def Draft.add (d : Draft) : Statement → Except Fault Draft
  | .opening path => do
    return { table := ← Table.openTable path d.table, current := path.parents ++ [path.name] }
  | .element path => do
    return { table := ← Table.openElement path d.table, current := path.parents ++ [path.name] }
  | .assignment path value => do
    return { d with table := ← Table.assignIn d.current path value d.table }

/-- The table that statements make. -/
def Table.ofStatements (statements : List Statement) : Except Fault Table :=
  Draft.table <$> statements.foldlM Draft.add {}

/-- The table of a document. -/
def parse (text : String) : Except Fault Table := statements text >>= Table.ofStatements

end ArmControl.Toml
