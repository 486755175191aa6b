import ArmControl.Binary64
import ArmControl.Toml.Fault

/-!
# Values and tables

A document is a table: keys with their values, in the order in which they were first given.  Every
table remembers its `Origin`, because that decides who may add to it:

* a table that a header names can be opened once; those on the way to it are `implied`, and may be
  opened later;
* keys with dots make the tables on their way, and only further keys with dots add to those;
* an inline table is complete where it ends.

`Table.assign`, `Table.openTable` and `Table.openElement` are the three ways in which a statement of a
document changes its table.
-/

namespace ArmControl.Toml

/-- What brought a table about. -/
inductive Origin
  /-- A header with its name. -/
  | opened
  /-- A header with a longer name. -/
  | implied
  /-- A key with dots. -/
  | dotted
  | inline
deriving DecidableEq, Repr, Inhabited

inductive Value
  | text (text : String)
  | integer (n : Int)
  | float (x : Binary64)
  /-- A number that cannot be read: it is too large, or has not the digits of its base. -/
  | unreadable
  | boolean (b : Bool)
  /-- A date, a time, or both, as written. -/
  | moment (text : String)
  | array (elements : List Value)
  | table (origin : Origin) (entries : List (String × Value))
  /-- An array of tables, by the entries of each; headers add to it, and `last` is the open one. -/
  | tables (earlier : List (List (String × Value))) (last : List (String × Value))
deriving Inhabited

mutual

/-- Every number in the value can be read. -/
def Value.isReadable : Value → Bool
  | .unreadable => false
  | .array elements => allReadable elements
  | .table _ entries => entriesReadable entries
  | .tables earlier last => tablesReadable earlier && entriesReadable last
  | _ => true

def Value.allReadable : List Value → Bool
  | [] => true
  | v :: rest => v.isReadable && allReadable rest

def Value.entriesReadable : List (String × Value) → Bool
  | [] => true
  | (_, v) :: rest => v.isReadable && entriesReadable rest

def Value.tablesReadable : List (List (String × Value)) → Bool
  | [] => true
  | entries :: rest => entriesReadable entries && tablesReadable rest

end

/-- A key with dots: the tables on the way, and the name in the last of them. -/
structure Path where
  parents : List String
  name : String
deriving DecidableEq, Repr, Inhabited

/-- Keys with their values, each key once. -/
abbrev Table := List (String × Value)

namespace Table

/-- The value of a key. -/
def get? (key : String) : Table → Option Value
  | [] => none
  | (k, v) :: t => if k = key then some v else get? key t

/-- Gives a key another value, in its old place; a new key comes last. -/
def set (key : String) (value : Value) : Table → Table
  | [] => [(key, value)]
  | (k, v) :: t => if k = key then (k, value) :: t else (k, v) :: set key value t

theorem get?_set (t : Table) (key other : String) (value : Value) :
    get? other (set key value t) = if other = key then some value else get? other t := by
  induction t with
  | nil =>
    by_cases h : other = key
    · simp [set, get?, h]
    · simp [set, get?, h, Ne.symm h]
  | cons entry t ih =>
    obtain ⟨k, v⟩ := entry
    by_cases hk : k = key
    · subst hk
      by_cases h : other = k
      · simp [set, get?, h]
      · simp [set, get?, h, Ne.symm h]
    · by_cases h : other = key
      · subst h
        simp [set, get?, hk, ih]
      · simp [set, get?, hk, ih, h]

/-- Follows a path down from a table and changes the table at its end.  Tables that are missing on the
way are made.  A key with dots does not pass through a table that has a header of its own, and
nothing passes through a complete value. -/
def descend (byDots : Bool) (change : Origin → Table → Except Fault Table) :
    List String → Origin → Table → Except Fault Table
  | [], origin, t => change origin t
  | key :: path, _, t =>
    match get? key t with
    | none => do
      let origin := if byDots then Origin.dotted else .implied
      return set key (.table origin (← descend byDots change path origin [])) t
    | some (.table origin inner) =>
      if origin = .inline then .error (.closed key)
      else if byDots ∧ origin = .opened then .error (.duplicate key)
      else do return set key (.table origin (← descend byDots change path origin inner)) t
    | some (.tables earlier last) => do
      return set key (.tables earlier (← descend byDots change path .opened last)) t
    | some _ => .error (.closed key)

/-- Gives a new key a value.  With dots on the way, the key must belong to a table that dots made. -/
def assign (path : Path) (value : Value) : Origin → Table → Except Fault Table :=
  descend true
    (fun origin t =>
      if path.parents ≠ [] ∧ origin ≠ .dotted then .error (.duplicate path.name)
      else if (get? path.name t).isSome then .error (.duplicate path.name)
      else .ok (set path.name value t))
    path.parents

/-- An inline table, out of what stands between its braces. -/
def ofAssignments (assignments : List (Path × Value)) : Except Fault Table :=
  assignments.foldlM (fun t (path, value) => assign path value .inline t) []

/-- Opens the table that a header names. -/
def openTable (path : Path) : Table → Except Fault Table :=
  descend false
    (fun _ t =>
      match get? path.name t with
      | none => .ok (set path.name (.table .opened []) t)
      | some (.table .implied inner) => .ok (set path.name (.table .opened inner) t)
      | some _ => .error (.duplicate path.name))
    path.parents .opened

/-- Adds a table to the array of tables that a header names. -/
def openElement (path : Path) : Table → Except Fault Table :=
  descend false
    (fun _ t =>
      match get? path.name t with
      | none => .ok (set path.name (.tables [] []) t)
      | some (.tables earlier last) => .ok (set path.name (.tables (earlier ++ [last]) []) t)
      | some _ => .error (.duplicate path.name))
    path.parents .opened

/-- Gives a key a value in the table that was opened last. -/
def assignIn (current : List String) (path : Path) (value : Value) : Table → Except Fault Table :=
  descend false (assign path value) current .opened

end Table
end ArmControl.Toml
