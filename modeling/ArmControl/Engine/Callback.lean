import ArmControl.Engine.Move
import ArmControl.Link.Happening

/-!
# Callbacks

A callback of the user answers what the engine hands it.  It may keep a memory of any type `σ`, and
while it runs things may happen on the link; it does nothing else to the engine.  A callback must
say, by the `credit` of its memory, how many events it may still cause, so that a loop that calls it
ends whenever the far end has nothing more to say.  A callback that causes nothing needs no credit
(`Callback.ofPure`).
-/

namespace ArmControl

namespace Engine

/-- The engine after some happenings on its link. -/
def witness (e : Engine) (hs : List Happening) : Engine := e.withLink (e.link.witness hs)

@[simp] theorem witness_nil (e : Engine) : e.witness [] = e := rfl

theorem witness_append (e : Engine) (a b : List Happening) :
    e.witness (a ++ b) = (e.witness a).witness b := by
  simp [witness, withLink, link, Link.witness_append]

theorem witness_supply_le (e : Engine) (hs : List Happening) :
    (e.witness hs).supply ≤ e.supply + Happening.totalCost hs :=
  e.link.witness_supply_le hs

end Engine

/-- A function of the user that answers inputs of type `ι` with answers of type `ρ`. -/
structure Callback {σ : Type} (credit : σ → Nat) (ι ρ : Type) where
  call : ι → Engine → σ → ρ × σ × Engine
  /-- Nothing but happenings, within the credit. -/
  outside : ∀ input e m, ∃ hs, (call input e m).2.2 = e.witness hs ∧
    Happening.totalCost hs + credit (call input e m).2.1 ≤ credit m

namespace Callback

variable {σ : Type} {credit : σ → Nat} {ι ρ ρ' : Type}

/-- A callback during which nothing happens. -/
def ofPure (f : ι → σ → ρ × σ) : Callback (fun _ : σ => 0) ι ρ where
  call input e m := ((f input m).1, (f input m).2, e)
  outside _ e _ := ⟨[], e.witness_nil.symm, by simp [Happening.totalCost]⟩

/-- The callback with its answers put into another form. -/
def map (cb : Callback credit ι ρ) (f : ι → ρ → ρ') : Callback credit ι ρ' where
  call input e m :=
    let (answer, rest) := cb.call input e m
    (f input answer, rest)
  outside := cb.outside

/-- One callback after the other, both on the same input. -/
def both (first : Callback credit ι ρ) (second : Callback credit ι ρ') :
    Callback credit ι (ρ × ρ') where
  call input e m :=
    let (a, m, e) := first.call input e m
    let (b, m, e) := second.call input e m
    ((a, b), m, e)
  outside input e m := by
    obtain ⟨hs₁, heq₁, hle₁⟩ := first.outside input e m
    obtain ⟨hs₂, heq₂, hle₂⟩ :=
      second.outside input (first.call input e m).2.2 (first.call input e m).2.1
    refine ⟨hs₁ ++ hs₂, ?_, ?_⟩
    · rw [Engine.witness_append, ← heq₁]
      exact heq₂
    · rw [Happening.totalCost_append, Nat.add_assoc]
      exact Nat.le_trans (Nat.add_le_add_left hle₂ _) hle₁

/-- Calling a callback does not add to what can still come. -/
theorem call_supply_le (cb : Callback credit ι ρ) (input : ι) (e : Engine) (m : σ) :
    (cb.call input e m).2.2.supply + credit (cb.call input e m).2.1 ≤ e.supply + credit m := by
  obtain ⟨hs, heq, hle⟩ := cb.outside input e m
  have := e.witness_supply_le hs
  rw [← heq] at this
  omega

end Callback
end ArmControl
