import ArmControl.Wire.Format

/-!
# Coded enumerations

Modes, statuses and kinds of frame stand on the wire as small numbers.  A `Coded` type lists its
values and gives each a code; `Coded.ofCode?` finds the value of a code, and refuses the codes that
the enumeration leaves unused (`ofCode?_eq_some_iff`).
-/

namespace ArmControl

/-- An enumeration whose values are numbered on the wire. -/
class Coded (α : Type) (κ : outParam Type) where
  /-- The name of the enumeration in reports of unknown codes. -/
  title : String
  /-- Every value, in the order of the codes. -/
  values : List α
  /-- The number that stands for a value. -/
  code : α → κ
  /-- The name of a value in messages. -/
  name : α → String
  mem_values : ∀ a, a ∈ values
  code_injective : ∀ a b, code a = code b → a = b

namespace Coded

variable {α κ : Type} [Coded α κ]

/-- The value with this code. -/
def ofCode? [DecidableEq κ] (α : Type) [Coded α κ] (k : κ) : Option α :=
  (values : List α).find? fun a => code a = k

/-- The value with this name. -/
def ofName? (α : Type) {κ : Type} [Coded α κ] (s : String) : Option α :=
  (values : List α).find? fun a => name a == s

/-- What is reported of a code that stands for no value. -/
def unknownCodeMessage (α : Type) {κ : Type} [Coded α κ] [ToString κ] (k : κ) : String :=
  "No discriminant in enum `" ++ title α ++ "` matches the value `" ++ toString k ++ "`"

theorem ofCode?_eq_some_iff [DecidableEq κ] {k : κ} {a : α} : ofCode? α k = some a ↔ code a = k := by
  constructor
  · intro h
    simpa using List.find?_some h
  · rintro rfl
    have hmem : (ofCode? α (code a)).isSome := by
      rw [ofCode?, List.find?_isSome]
      exact ⟨a, mem_values a, by simp⟩
    obtain ⟨b, hb⟩ := Option.isSome_iff_exists.1 hmem
    have hcode : code b = code a := by simpa using List.find?_some hb
    rw [hb, code_injective b a hcode]

@[simp] theorem ofCode?_code [DecidableEq κ] (a : α) : ofCode? α (code a) = some a :=
  ofCode?_eq_some_iff.2 rfl

end Coded

namespace Format

variable {α : Type} [Coded α UInt8]

/-- The value of a one-byte field. -/
def decodeField (field : WireField) (k : UInt8) : Except WireError α :=
  match Coded.ofCode? α k with
  | some a => .ok a
  | none => .error (.invalidValue field k)

/-- A one-byte field that holds a coded value. -/
def coded (field : WireField) : Format α :=
  uint8.refine (decodeField field) Coded.code

theorem decodeField_eq_ok_iff {field : WireField} {k : UInt8} {a : α} :
    decodeField field k = .ok a ↔ Coded.code a = k := by
  unfold decodeField
  split
  · rename_i b hb
    rw [Coded.ofCode?_eq_some_iff] at hb
    subst hb
    simp only [Except.ok.injEq]
    exact ⟨fun h => h ▸ rfl, fun h => Coded.code_injective _ _ h.symm⟩
  · rename_i hnone
    simp only [reduceCtorEq, false_iff]
    intro h
    rw [Coded.ofCode?_eq_some_iff.2 h] at hnone
    cases hnone

theorem exact_coded (field : WireField) : (coded field : Format α).Exact :=
  exact_uint8.refine (fun _ => decodeField_eq_ok_iff.2 rfl) fun _ _ => decodeField_eq_ok_iff.1

end Format
end ArmControl
