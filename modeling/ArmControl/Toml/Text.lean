import ArmControl.Toml.Reader

/-!
# Texts

A text stands between double quotes, where a backslash begins an escape, or between single quotes,
where every character stands for itself.  Three quotes on each side let it run over several lines; a
line end right behind the opening quotes does not count, and one or two quotes may come before the
closing ones.
-/

namespace ArmControl.Toml

def hexDigit? (c : Char) : Option Nat :=
  if '0' ≤ c ∧ c ≤ '9' then some (c.toNat - '0'.toNat)
  else if 'a' ≤ c ∧ c ≤ 'f' then some (c.toNat - 'a'.toNat + 10)
  else if 'A' ≤ c ∧ c ≤ 'F' then some (c.toNat - 'A'.toNat + 10)
  else none

/-- The number that some hexadecimal digits write. -/
def hexNumber? (digits : List Char) : Option Nat := do
  let values ← digits.mapM hexDigit?
  return values.foldl (fun n d => 16 * n + d) 0

/-- The character that `width` hexadecimal digits number. -/
def numbered (width : Nat) : Reader Char := do
  let s ← get
  let digits := s.take width
  match hexNumber? digits with
  | some code =>
    if digits.length = width ∧ code.isValidChar then
      set (s.drop width)
      return Char.ofNat code
    else throw .escape
  | none => throw .escape

/-- The character that an escape stands for, behind its backslash. -/
def escape : Reader Char := do
  match ← get with
  | [] => throw .escape
  | c :: rest =>
    set rest
    match c with
    | 'b' => return '\x08'
    | 't' => return '\t'
    | 'n' => return '\n'
    | 'f' => return '\x0c'
    | 'r' => return '\r'
    | 'e' => return '\x1b'
    | '"' => return '"'
    | '\\' => return '\\'
    | 'x' => numbered 2
    | 'u' => numbered 4
    | 'U' => numbered 8
    | _ => throw .escape

/-- Takes a character that stands for itself. -/
def plain : Reader Char := do
  match ← get with
  | [] => throw .unclosed
  | c :: rest =>
    if isPlain c then
      set rest
      return c
    else throw .control

/-- Some characters of a text on one line, or nothing at its closing quote. -/
def lineItem (quote : Char) : Reader (Option Char) := do
  match ← get with
  | c :: rest =>
    if c = quote then return none
    else if c = '\\' ∧ quote = '"' then
      set rest
      return some (← escape)
    else return some (← plain)
  | [] => throw .unclosed

/-- The text on one line behind its opening quote. -/
def lineText (quote : Char) : Reader String := do
  let content ← (Reader.many (lineItem quote) : Reader (List Char))
  take quote .unclosed
  return String.ofList content

/-- Some characters of a text on several lines, or nothing at its closing quotes.  A backslash at the
end of a line stands for nothing, and so do the blanks and line ends that follow. -/
def blockItem (quote : Char) : Reader (Option (List Char)) := do
  let s ← get
  match s with
  | [] => throw .unclosed
  | c :: rest =>
    if c = quote then
      let quotes := (s.takeWhile (· = quote)).length
      if 5 < quotes then throw .unclosed
      else if quotes = 3 then return none
      else
        set rest
        return some [c]
    else if c = '\\' ∧ quote = '"' then
      match lineEnd? (skipBlanks rest) with
      | some next =>
        set next
        lines skipBlanks
        return some []
      | none =>
        set rest
        return some [← escape]
    else
      match c, lineEnd? s with
      | '\r', some next =>
        set next
        return some ['\r', '\n']
      | _, some next =>
        set next
        return some ['\n']
      | _, none => return some [← plain]

/-- The text on several lines behind its opening quotes. -/
def blockText (quote : Char) : Reader String := do
  modify fun s => (lineEnd? s).getD s
  let content ← (Reader.many (blockItem quote) : Reader (List (List Char)))
  modify (·.drop 3)
  return String.ofList content.flatten

/-- The text that begins here, if one does. -/
def text? : Reader (Option String) := do
  match ← get with
  | '"' :: '"' :: '"' :: rest =>
    set rest
    return some (← blockText '"')
  | '\'' :: '\'' :: '\'' :: rest =>
    set rest
    return some (← blockText '\'')
  | '"' :: rest =>
    set rest
    return some (← lineText '"')
  | '\'' :: rest =>
    set rest
    return some (← lineText '\'')
  | _ => return none

end ArmControl.Toml
