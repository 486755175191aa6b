import ArmControl.Slot.Word

/-!
# Arbitration

Any number of clients share the slot of a session.  What they do to it comes down to deeds, each a
single step: a client claims an operation, or drops a guard that it holds.  Dropping a guard frees
the slot without a look at what holds it.  Whatever the order of the deeds, the slot is the one that
the outstanding guard holds, or free (`Run.heldBy`), so at most one guard is outstanding, the slot
tells its operation, claims fail as long as it lasts and no deed of others ends it
(`mutual_exclusion`).
-/

namespace ArmControl

/-- What a client holds from a claim on.  The operation that was claimed is remembered, while a
guard itself knows only the slot. -/
structure Guard (κ : Type) where
  client : κ
  operation : Operation
deriving DecidableEq, Repr

/-- A slot with the guards that are outstanding on it. -/
structure SharedSlot (κ : Type) where
  cell : Slot.Cell := {}
  guards : List (Guard κ) := []

namespace SharedSlot

variable {κ : Type} {a b : SharedSlot κ} {g : Guard κ}

/-- The operation in progress, as everybody sees it. -/
def current (a : SharedSlot κ) : Slot := a.cell.current

/-- A client claims an operation, and gets a guard if the slot is free. -/
def claim (client : κ) (wanted : Option Operation) (a : SharedSlot κ) :
    Except SessionError Unit × SharedSlot κ :=
  match a.cell.claim wanted with
  | (.error err, cell) => (.error err, { a with cell })
  | (.ok (), cell) =>
    (.ok (), { cell, guards := a.guards ++ (wanted.map (Guard.mk client)).toList })

/-- The slot as it is while a client holds a guard on it, or nobody does. -/
def heldBy (holder : Option (Guard κ)) : SharedSlot κ :=
  { cell := ⟨Slot.pack (holder.map Guard.operation)⟩, guards := holder.toList }

@[simp] theorem current_heldBy (holder : Option (Guard κ)) :
    (heldBy holder).current = holder.map Guard.operation :=
  Slot.Cell.current_pack _

@[simp] theorem guards_heldBy (holder : Option (Guard κ)) :
    (heldBy holder).guards = holder.toList := rfl

theorem mem_guards_heldBy {holder : Option (Guard κ)} :
    g ∈ (heldBy holder).guards ↔ holder = some g := by
  simp

@[simp] theorem claim_none (client : κ) (a : SharedSlot κ) :
    a.claim client none = (.error (.conflict .nothingToClaim), a) := rfl

@[simp] theorem claim_free (client : κ) (op : Operation) :
    (heldBy none).claim client (some op) = (.ok (), heldBy (some ⟨client, op⟩)) := by
  simp [claim, heldBy, Slot.Cell.claim_pack, Slot.claim]

@[simp] theorem claim_held (client : κ) (op : Operation) (g : Guard κ) :
    (heldBy (some g)).claim client (some op) =
      (.error (.conflict (.busy op g.operation)), heldBy (some g)) := by
  simp [claim, heldBy, Slot.Cell.claim_pack, Slot.claim]

variable [DecidableEq κ]

/-- A guard is dropped. -/
def drop (g : Guard κ) (a : SharedSlot κ) : SharedSlot κ :=
  { cell := a.cell.release, guards := a.guards.erase g }

@[simp] theorem drop_held (g : Guard κ) : (heldBy (some g)).drop g = heldBy none := by
  simp [drop, heldBy, Slot.Cell.release_eq, Slot.release, Slot.free]

/-! ### Runs -/

inductive Deed (κ : Type)
  | claim (client : κ) (wanted : Option Operation)
  | drop (guard : Guard κ)
deriving DecidableEq

/-- One deed.  Only a guard that is outstanding can be dropped, by the client that holds it. -/
inductive Step : SharedSlot κ → Deed κ → SharedSlot κ → Prop
  | claim (a : SharedSlot κ) (client : κ) (wanted : Option Operation) :
    Step a (.claim client wanted) (a.claim client wanted).2
  | drop (a : SharedSlot κ) (g : Guard κ) (h : g ∈ a.guards) : Step a (.drop g) (a.drop g)

/-- Deeds of all clients, in the order in which they take effect. -/
inductive Run : SharedSlot κ → List (Deed κ) → SharedSlot κ → Prop
  | nil (a : SharedSlot κ) : Run a [] a
  | cons {a b c : SharedSlot κ} {deed : Deed κ} {deeds : List (Deed κ)} :
    Step a deed b → Run b deeds c → Run a (deed :: deeds) c

theorem Step.heldBy {holder : Option (Guard κ)} {deed : Deed κ}
    (h : Step (heldBy holder) deed b) : ∃ holder', b = SharedSlot.heldBy holder' := by
  cases h with
  | claim client wanted =>
    match wanted, holder with
    | none, holder => exact ⟨holder, rfl⟩
    | some op, none => exact ⟨some ⟨client, op⟩, congrArg Prod.snd (claim_free client op)⟩
    | some op, some g => exact ⟨some g, congrArg Prod.snd (claim_held client op g)⟩
  | drop g hg =>
    obtain rfl := mem_guards_heldBy.1 hg
    exact ⟨none, drop_held g⟩

/-- Whatever the order of the deeds, the slot is free or the one that a single guard holds. -/
theorem Run.heldBy {holder : Option (Guard κ)} {deeds : List (Deed κ)}
    (h : Run (heldBy holder) deeds b) : ∃ holder', b = SharedSlot.heldBy holder' := by
  generalize ha : SharedSlot.heldBy holder = a at h
  induction h generalizing holder with
  | nil => exact ⟨holder, ha.symm⟩
  | cons hstep _ ih =>
    subst ha
    obtain ⟨holder', rfl⟩ := hstep.heldBy
    exact ih rfl

/-- While a guard is outstanding, every deed but its own drop changes nothing. -/
theorem Step.eq_of_held {deed : Deed κ} (h : Step (SharedSlot.heldBy (some g)) deed b)
    (hkept : deed ≠ .drop g) : b = SharedSlot.heldBy (some g) := by
  cases h with
  | claim client wanted =>
    match wanted with
    | none => rfl
    | some op => rw [claim_held]
  | drop g' hg' =>
    obtain rfl := Option.some.inj (mem_guards_heldBy.1 hg')
    exact absurd rfl hkept

theorem Run.eq_of_held {deeds : List (Deed κ)} (h : Run (SharedSlot.heldBy (some g)) deeds b)
    (hkept : .drop g ∉ deeds) : b = SharedSlot.heldBy (some g) := by
  generalize ha : SharedSlot.heldBy (some g) = a at h
  induction h with
  | nil => rfl
  | cons hstep _ ih =>
    subst ha
    simp only [List.mem_cons, not_or] at hkept
    have hfirst := hstep.eq_of_held (Ne.symm hkept.1)
    rw [ih hkept.2 hfirst.symm, hfirst]

/-! ### Mutual exclusion -/

/-- One client at a time has the slot. -/
structure Exclusive (a : SharedSlot κ) : Prop where
  /-- At most one guard is outstanding. -/
  single : a.guards.length ≤ 1
  /-- The slot tells the operation of the guard that is outstanding. -/
  current_eq : a.current = a.guards.head?.map Guard.operation
  /-- A claim of an operation succeeds exactly when no guard is outstanding. -/
  claim_ok_iff : ∀ client wanted,
    (a.claim client wanted).1 = .ok () ↔ wanted ≠ none ∧ a.guards = []
  /-- A claim that succeeds gives the client a guard for the operation. -/
  claim_ok : ∀ client op, (a.claim client (some op)).1 = .ok () →
    (a.claim client (some op)).2.guards = [⟨client, op⟩]
  /-- A claim that fails changes nothing. -/
  claim_error : ∀ client wanted err,
    (a.claim client wanted).1 = .error err → (a.claim client wanted).2 = a
  /-- The error of a claim names the operation that holds the slot. -/
  claim_busy : ∀ client op err, (a.claim client (some op)).1 = .error err →
    ∃ g ∈ a.guards, err = .conflict (.busy op g.operation)
  /-- A claim lasts, whatever the other clients do, until its own guard is dropped. -/
  lasts : ∀ g ∈ a.guards, ∀ deeds b, Run a deeds b → .drop g ∉ deeds → b = a
  /-- A guard that is dropped leaves the slot free. -/
  drop_eq : ∀ g ∈ a.guards, a.drop g = {}

theorem exclusive_heldBy (holder : Option (Guard κ)) : (heldBy holder).Exclusive where
  single := by cases holder <;> simp
  current_eq := by cases holder <;> simp
  claim_ok_iff client wanted := by cases holder <;> cases wanted <;> simp
  claim_ok client op := by cases holder <;> simp
  claim_error client wanted err := by cases holder <;> cases wanted <;> simp
  claim_busy client op err h := by
    cases holder with
    | none => simp at h
    | some g => exact ⟨g, by simp, by simpa using h.symm⟩
  lasts g hg deeds b hrun hkept := by
    obtain rfl := mem_guards_heldBy.1 hg
    exact hrun.eq_of_held hkept
  drop_eq g hg := by
    obtain rfl := mem_guards_heldBy.1 hg
    exact drop_held g

/-- From a free slot on, any number of clients claim operations and drop their guards in any order:
one of them has the slot at a time. -/
theorem mutual_exclusion {deeds : List (Deed κ)} (h : Run {} deeds a) : a.Exclusive := by
  have hrun : Run (heldBy none) deeds a := h
  obtain ⟨holder, rfl⟩ := hrun.heldBy
  exact exclusive_heldBy holder

/-- A client starts reading, another one is refused, and starts its control operation once the
reading is over. -/
theorem mutual_exclusion_two_clients :
    let control : Operation := .controlling .cartesianImpedance .cartesianVelocity
    let deeds : List (Deed Bool) := [.claim false (some .reading), .claim true (some control),
      .drop ⟨false, .reading⟩, .claim true (some control)]
    Run {} deeds (heldBy (some ⟨true, control⟩)) ∧
      (heldBy (some ⟨true, control⟩) : SharedSlot Bool).Exclusive := by
  intro control deeds
  have hrun : Run {} deeds (heldBy (some ⟨true, control⟩)) := by
    refine .cons (.claim _ _ _) (.cons (.claim _ _ _) (.cons (.drop _ _ ?_) ?_))
    · decide
    · exact .cons (.claim _ _ _) (.nil _)
  exact ⟨hrun, mutual_exclusion hrun⟩

end SharedSlot
end ArmControl
