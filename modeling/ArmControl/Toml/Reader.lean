import ArmControl.Toml.Fault

/-!
# Reading a text from its front

A `Reader` takes a value off the front of a text.  `Reader.many` repeats one.  Every round that gives
something takes something off the text, so there are no more such rounds than the text has characters.

The blanks of a line are spaces and tabs; a line ends with a line feed, which a carriage return may
precede; a comment runs to the end of its line.
-/

namespace ArmControl.Toml

abbrev Reader (α : Type) := StateT (List Char) (Except Fault) α

/-- Repeats a reader until it gives nothing, or has given one value more than `bound` has characters. -/
def Reader.manyWithin {α : Type} (item : Reader (Option α)) (bound : List Char) (s : List Char) :
    Except Fault (List α × List Char) :=
  match item s with
  | .error fault => .error fault
  | .ok (none, rest) => .ok ([], rest)
  | .ok (some a, rest) =>
    match bound with
    | [] => .ok ([a], rest)
    | _ :: bound =>
      match Reader.manyWithin item bound rest with
      | .error fault => .error fault
      | .ok (as, rest) => .ok (a :: as, rest)

/-- Repeats a reader until it gives nothing. -/
def Reader.many {α : Type} (item : Reader (Option α)) (s : List Char) :
    Except Fault (List α × List Char) :=
  Reader.manyWithin item s s

def isBlank (c : Char) : Bool := c = ' ' || c = '\t'

/-- May stand for itself inside a text or a comment. -/
def isPlain (c : Char) : Bool := c = '\t' || (0x20 ≤ c.val && c.val ≠ 0x7f)

/-- The text behind the end of a line that it begins with. -/
def lineEnd? : List Char → Option (List Char)
  | '\n' :: rest => some rest
  | '\r' :: '\n' :: rest => some rest
  | _ => none

/-- The text behind the blanks. -/
def skipBlanks (s : List Char) : List Char := s.dropWhile isBlank

/-- The text behind a comment, which leaves the end of the line. -/
def skipComment : List Char → List Char
  | '#' :: rest => rest.dropWhile isPlain
  | s => s

/-- Passes over the rest of a line and its end, once `skip` has passed over what does not count; where
the line goes on, only over that. -/
def restOfLine (skip : List Char → List Char) : Reader (Option Unit) := do
  let s := skip (← get)
  match lineEnd? s with
  | some rest =>
    set rest
    return some ()
  | none =>
    set s
    return none

/-- Passes over lines of which nothing counts. -/
def lines (skip : List Char → List Char) : Reader Unit := do
  let _ ← (Reader.many (restOfLine skip) : Reader (List Unit))

/-- Passes over blanks, comments and ends of lines. -/
def gap : Reader Unit := lines (skipComment ∘ skipBlanks)

/-- Passes over blanks. -/
def blanks : Reader Unit := modify skipBlanks

/-- Takes the next character, which must be the one given. -/
def take (c : Char) (otherwise : Fault) : Reader Unit := do
  match ← get with
  | d :: rest => if c = d then set rest else throw otherwise
  | [] => throw otherwise

end ArmControl.Toml
