import ArmControl.Binary64.Rounding
import ArmControl.Toml.Moment
import ArmControl.Toml.Reader
import ArmControl.Toml.Table

/-!
# Values without quotes

Truth values, numbers and moments are words: they run to the next bracket, comma, equals sign, comment or
end of a line, and what they are is settled by the whole word.

In a number, underscores stand between digits (`isSeparated`).  The form of a float is looked at as a
whole, but an integer is known by how it begins: by its base, or by digits and an underscore behind them.
Whether it can be read is another matter: it may have no digits, or others than those of its base, or be
too large.  It is then the value `Value.unreadable`, which does harm only where it is read.
-/

namespace ArmControl.Toml

/-! ### Digits -/

def digitValue (c : Char) : Nat :=
  if c.isDigit then c.toNat - '0'.toNat
  else if c.isUpper then c.toNat - 'A'.toNat + 10
  else c.toNat - 'a'.toNat + 10

def isDigitOf (base : Nat) (c : Char) : Bool := c.isAlphanum && digitValue c < base

/-- The number that digits write to a base. -/
def numberOf (base : Nat) (digits : List Char) : Nat :=
  digits.foldl (fun n c => base * n + digitValue c) 0

/-- Every underscore stands between two digits; `behindDigit` tells what stands before the text. -/
def isSeparatedFrom (isDigit : Char → Bool) : (behindDigit : Bool) → List Char → Bool
  | _, [] => true
  | behindDigit, '_' :: rest =>
    behindDigit && rest.head?.any isDigit && isSeparatedFrom isDigit false rest
  | _, c :: rest => isSeparatedFrom isDigit (isDigit c) rest

/-- Every underscore stands between two digits. -/
def isSeparated (isDigit : Char → Bool) (word : List Char) : Bool := isSeparatedFrom isDigit false word

def withoutUnderscores (word : List Char) : List Char := word.filter (· ≠ '_')

/-! ### Integers -/

/-- The integers that a document can hold: those of 128 bits, with a sign or without. -/
def isHeldInteger (n : Int) : Bool :=
  -0x80000000000000000000000000000000 ≤ n && n < 0x100000000000000000000000000000000

/-- The value of what should be digits of a base. -/
def integer (base : Nat) (negative : Bool) (digits : List Char) : Value :=
  let n : Int := numberOf base digits
  let n := if negative then -n else n
  if !digits.isEmpty && digits.all (isDigitOf base) && isHeldInteger n then .integer n else .unreadable

/-- An integer to another base than ten, behind the letter for its base. -/
def based? (base : Nat) (word : List Char) : Option Value :=
  let digits := withoutUnderscores word
  if digits.all (isDigitOf base) && isSeparated (isDigitOf base) word then
    some (integer base false digits)
  else none

/-! ### Floats -/

/-- One or more decimal digits. -/
def digits? (word : List Char) : Option (List Char) :=
  if !word.isEmpty && word.all Char.isDigit then some word else none

/-- The digits behind a decimal point, if there is one. -/
def decimals? : List Char → Option (List Char)
  | [] => some []
  | '.' :: rest => digits? rest
  | _ => none

/-- Splits a sign off a word: whether it is negative, and the rest. -/
def signOf : List Char → Bool × List Char
  | '-' :: rest => (true, rest)
  | '+' :: rest => (false, rest)
  | word => (false, word)

/-- The exponent of ten, if there is one. -/
def power? : List Char → Option Int
  | [] => some 0
  | _ :: rest => do
    let (negative, word) := signOf rest
    let n := numberOf 10 (← digits? word)
    return if negative then -n else n

def isPowerMark (c : Char) : Bool := c = 'e' || c = 'E'

/-- A zero stands in front of other digits. -/
def hasNeedlessZero (digits : List Char) : Bool := digits.head? = some '0' && digits.length > 1

/-- A decimal number with a point or a power of ten, without its sign and its underscores.  A number that
is too small is zero. -/
def float? (negative : Bool) (word : List Char) : Option Value := do
  let mantissa := word.takeWhile (!isPowerMark ·)
  let head ← digits? (mantissa.takeWhile (· ≠ '.'))
  if hasNeedlessZero head then none
  let tail ← decimals? (mantissa.dropWhile (· ≠ '.'))
  let power ← power? (word.dropWhile (!isPowerMark ·))
  let x := Binary64.ofDecimal negative (numberOf 10 (head ++ tail)) (power - tail.length)
  return if x.isFinite then .float x else .unreadable

/-! ### Words -/

/-- A decimal number behind its sign, if it has one. -/
def decimal? (negative : Bool) (word : List Char) : Option Value :=
  let rest := word.dropWhile Char.isDigit
  let digits := withoutUnderscores word
  if rest.contains ' ' then none
  else if rest.any fun c => c = '.' || isPowerMark c then
    if isSeparated Char.isDigit word then float? negative digits else none
  else if rest.head? = some '_' ∨ rest.isEmpty then
    if word.isEmpty || hasNeedlessZero word then none
    else if isSeparated (isDigitOf 16) word then some (integer 10 negative digits)
    else none
  else none

/-- The value of a word. -/
def ofWord? (word : List Char) : Option Value :=
  let (negative, rest) := signOf word
  if word = "true".toList then some (.boolean true)
  else if word = "false".toList then some (.boolean false)
  else if rest = "inf".toList then some (.float (.signed negative .infinity))
  else if rest = "nan".toList then some (.float (.signed negative .nan))
  else if Moment.isMoment word then some (.moment (String.ofList word))
  else
    match word with
    | '0' :: 'x' :: digits => based? 16 digits
    | '0' :: 'o' :: digits => based? 8 digits
    | '0' :: 'b' :: digits => based? 2 digits
    | _ => decimal? negative rest

/-- Ends a word, unless it is a blank behind which the word goes on. -/
def endsWord (c : Char) : Bool := isBlank c || "\n\r#,[]\x7b\x7d=".toList.contains c

/-- A word goes on behind blanks if neither a text begins there nor anything that ends a word. -/
def goesOn (s : List Char) : Bool :=
  (skipBlanks s).head?.any fun c => !endsWord c && c ≠ '"' && c ≠ '\''

/-- Splits off the word that a text begins with. -/
def splitWord : List Char → List Char × List Char
  | [] => ([], [])
  | c :: s =>
    if !endsWord c || isBlank c && goesOn s then
      let (word, rest) := splitWord s
      (c :: word, rest)
    else ([], c :: s)

/-- The value of the word that begins here. -/
def scalar : Reader Value := do
  let (word, rest) := splitWord (← get)
  set rest
  match ofWord? word with
  | some v => return v
  | none => throw .valueExpected

end ArmControl.Toml
