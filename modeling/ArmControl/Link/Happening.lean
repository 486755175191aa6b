import ArmControl.Link.Basic

/-!
# What happens on a link by itself

While the client is busy elsewhere, for instance in a callback, the far end may play some cues or
change its script.  A `Happening` never takes anything off the link and never sends anything; what it
adds to the supply is bounded by its `cost` (`happen_supply_le`).
-/

namespace ArmControl

inductive Happening
  /-- The far end plays these cues. -/
  | say (cues : List Cue)
  /-- The far end exchanges the entries for some triggers. -/
  | rescript (triggers : List Trigger) (entries : Script)
deriving Repr, Inhabited

namespace Happening

/-- How many events a happening may add. -/
def cost : Happening → Nat
  | say cues => cues.countP Cue.speaks
  | rescript _ entries => entries.supply

/-- How many events some happenings may add. -/
def totalCost : List Happening → Nat
  | [] => 0
  | h :: rest => h.cost + totalCost rest

theorem totalCost_append (a b : List Happening) :
    totalCost (a ++ b) = totalCost a + totalCost b := by
  induction a with
  | nil => simp [totalCost]
  | cons h rest ih => simp only [List.cons_append, totalCost, ih]; omega

end Happening

namespace Link

/-- The link after a happening. -/
def happen (l : Link) : Happening → Link
  | .say cues => l.queue (l.farEnd.playAll cues)
  | .rescript triggers entries =>
    { l with farEnd := { l.farEnd with script := l.farEnd.script.replace triggers entries } }

theorem happen_supply_le (l : Link) (h : Happening) : (l.happen h).supply ≤ l.supply + h.cost := by
  cases h with
  | say cues =>
    have := l.farEnd.playAll_length cues
    simp only [happen, queue, supply, FarEnd.supply, List.length_append, this,
      FarEnd.playAll_script, Happening.cost]
    omega
  | rescript triggers entries =>
    have := l.farEnd.script.replace_supply_le triggers entries
    simp only [happen, supply, FarEnd.supply, Happening.cost]
    omega

/-- The link after some happenings. -/
def witness (l : Link) (hs : List Happening) : Link := hs.foldl happen l

@[simp] theorem witness_nil (l : Link) : l.witness [] = l := rfl

theorem witness_append (l : Link) (a b : List Happening) :
    l.witness (a ++ b) = (l.witness a).witness b := List.foldl_append

theorem witness_supply_le (l : Link) (hs : List Happening) :
    (l.witness hs).supply ≤ l.supply + Happening.totalCost hs := by
  induction hs generalizing l with
  | nil => simp [Happening.totalCost]
  | cons h rest ih =>
    have h₁ := ih (l.happen h)
    have h₂ := l.happen_supply_le h
    simp only [witness, List.foldl_cons, Happening.totalCost] at h₁ ⊢
    omega

end Link
end ArmControl
