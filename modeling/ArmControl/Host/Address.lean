/-!
# Addresses in numbers

An address in numbers has 32 bits or 128.  `Address.ofText?` reads one.

The short form has up to four numbers with dots between them: each but the last gives eight bits, and
the last gives all that are left.  The numbers may be decimal, octal behind a zero, or hexadecimal
behind `0x`.

The long form has eight groups of up to four hexadecimal digits, with colons between them.  Two colons
may stand for one or more groups of zeros, and the last two groups may be written as four decimal
numbers with dots.  A percent sign may follow, and a zone behind it: a number, or the name of an
interface if the address has a meaning on one link only.  An address that is read has all eight groups
(`length_of_long?`).
-/

namespace ArmControl

/-- An address in numbers. -/
inductive Address
  | short (number : Nat)
  | long (groups : List Nat) (zone : Nat)
deriving DecidableEq, Repr, Inhabited

namespace Address

/-- The parts of a text between separators. -/
def splitAt (separator : Char) : List Char → List (List Char)
  | [] => [[]]
  | c :: rest =>
    match splitAt separator rest with
    | [] => [[c]]
    | part :: parts => if c = separator then [] :: part :: parts else (c :: part) :: parts

def digit? (base : Nat) (c : Char) : Option Nat :=
  let value :=
    if c.isDigit then c.toNat - '0'.toNat
    else if 'a' ≤ c ∧ c ≤ 'z' then c.toNat - 'a'.toNat + 10
    else if 'A' ≤ c ∧ c ≤ 'Z' then c.toNat - 'A'.toNat + 10
    else base
  if value < base then some value else none

/-- The number that one or more digits write. -/
def number? (base : Nat) (digits : List Char) : Option Nat := do
  if digits.isEmpty then none
  let values ← digits.mapM (digit? base)
  return values.foldl (fun n d => base * n + d) 0

/-! ### The short form -/

/-- A number whose base is told by how it begins. -/
def anyNumber? : List Char → Option Nat
  | '0' :: 'x' :: digits => number? 16 digits
  | '0' :: 'X' :: digits => number? 16 digits
  | '0' :: digit :: digits => number? 8 (digit :: digits)
  | digits => number? 10 digits

/-- The number of some parts; the last fills the bits that the others leave. -/
def joinParts? : (bits : Nat) → List Nat → Option Nat
  | bits, [last] => if last < 1 <<< bits then some last else none
  | bits, part :: parts => do
    if 256 ≤ part ∨ bits < 16 then none
    return part <<< (bits - 8) + (← joinParts? (bits - 8) parts)
  | _, [] => none

def short? (text : List Char) : Option Nat := do
  joinParts? 32 (← (splitAt '.' text).mapM anyNumber?)

/-! ### The long form -/

/-- Four decimal numbers without needless zeros, as two groups. -/
def dotted? (text : List Char) : Option (List Nat) := do
  let part? (digits : List Char) : Option Nat := do
    if digits.length > 1 ∧ digits.head? = some '0' then none
    let n ← number? 10 digits
    if n < 256 then some n else none
  match ← (splitAt '.' text).mapM part? with
  | [a, b, c, d] => some [256 * a + b, 256 * c + d]
  | _ => none

def group? (digits : List Char) : Option Nat :=
  if digits.length ≤ 4 then number? 16 digits else none

/-- The groups between colons; those at the end may be dotted. -/
def groups? (mayBeDotted : Bool) (text : List Char) : Option (List Nat) := do
  if text.isEmpty then return []
  let parts := splitAt ':' text
  let last := parts.getLastD []
  let front ← parts.dropLast.mapM group?
  if mayBeDotted ∧ last.contains '.' then return front ++ (← dotted? last)
  return front ++ [← group? last]

/-- Splits a text at the first two colons that follow each other. -/
def splitAtGap : List Char → Option (List Char × List Char)
  | ':' :: ':' :: rest => some ([], rest)
  | c :: rest => (splitAtGap rest).map fun (before, after) => (c :: before, after)
  | [] => none

/-- The eight groups of an address in the long form. -/
def long? (text : List Char) : Option (List Nat) := do
  match splitAtGap text with
  | none =>
    let groups ← groups? true text
    if groups.length = 8 then some groups else none
  | some (before, after) =>
    let front ← groups? false before
    let back ← groups? true after
    if front.length + back.length < 8 then
      some (front ++ List.replicate (8 - front.length - back.length) 0 ++ back)
    else none

theorem length_of_long? {text : List Char} {groups : List Nat} (h : long? text = some groups) :
    groups.length = 8 := by
  unfold long? at h
  split at h
  · obtain ⟨found, _, h⟩ := Option.bind_eq_some_iff.1 h
    split at h <;> simp_all
  · obtain ⟨front, _, h⟩ := Option.bind_eq_some_iff.1 h
    obtain ⟨back, _, h⟩ := Option.bind_eq_some_iff.1 h
    split at h
    · obtain rfl := Option.some.inj h
      simp only [List.length_append, List.length_replicate]
      omega
    · contradiction

/-- The address has 32 bits, written in the long form. -/
def isMapped (groups : List Nat) : Bool := groups.take 6 = [0, 0, 0, 0, 0, 0xffff]

/-- The address is one of a single host, and means something on one link only. -/
def isLinkLocal (groups : List Nat) : Bool := groups.headD 0 / 64 = 0xfe80 / 64

/-- The address is one of many hosts. -/
def isMulticast (groups : List Nat) : Bool := groups.headD 0 / 256 = 0xff

/-- The address is one of many hosts on one interface or one link. -/
def isLinkMulticast (groups : List Nat) : Bool :=
  isMulticast groups && (groups.headD 0 % 16 = 1 || groups.headD 0 % 16 = 2)

/-- The longest name of an interface, in bytes. -/
def maxInterface : Nat := 15

/-- The number of an interface.  The only one that every host has is `lo`, the first; behind its name a
colon and a label may follow. -/
def interface? (name : List Char) : Option Nat :=
  if name.takeWhile (· ≠ ':') = "lo".toList ∧ (String.ofList name).utf8ByteSize ≤ maxInterface then some 1
  else none

/-- The number of a zone. -/
def zone? (groups : List Nat) (name : List Char) : Option Nat :=
  let named := if isLinkLocal groups || isLinkMulticast groups then interface? name else none
  named <|> (number? 10 name).filter (· < 0x100000000)

/-- Reads an address in numbers. -/
def ofText? (text : String) : Option Address :=
  match short? text.toList with
  | some number => some (.short number)
  | none =>
    match text.toList.dropWhile (· ≠ '%') with
    | [] => (long? text.toList).map (.long · 0)
    | _ :: name => do
      let groups ← long? (text.toList.takeWhile (· ≠ '%'))
      return .long groups (← zone? groups name)

end Address
end ArmControl
