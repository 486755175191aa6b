import ArmControl.Proofs.Course
import ArmControl.Proofs.Errand

/-! # Extra messages do not interfere

Two robots are `EqualBut` for extra messages if nothing else tells them apart: the slot, the flags
of the link and the engine are the same, apart from the numbers of stale states and of replies, and
what is pending at the first one is what is pending at the second one without the extra messages.

When two such robots carry out the same errands, while their far ends say the same but for extra
messages, and each extra message means nothing at the moment at which it is taken, then they give
the same answers, send the same and are again equal but for extra messages
(`extra_messages_do_not_interfere`). -/

namespace ArmControl.Robot

open Engine Procedure

variable {α : Type} {extra : Nat → Bool} {start₁ start₂ : Link} {r r₁ r₂ : Robot}

/-! ### One errand -/

/-- The moments at which messages are taken during an errand. -/
def Errand.moments (t : Errand α) (r : Robot) : List Moment := (t.procedure r.slot).moments r.engine

theorem carryOut_grows (t : Errand α) (r : Robot) :
    ∃ j : Journal, (r.carryOut t).2.engine.link.journal = r.engine.link.journal ++ j := by
  obtain ⟨j, hj⟩ := (t.procedure r.slot).grows r.engine
  rw [t.procedure_run] at hj
  exact ⟨j, hj⟩

/-- The robots have the same in their slots, and their engines differ in their extra messages at
most. -/
structure Alike (extra : Nat → Bool) (start₁ start₂ : Link) (r₁ r₂ : Robot) : Prop where
  slot : r₁.slot = r₂.slot
  engine : Engine.Alike extra start₁ start₂ r₁.engine r₂.engine

theorem carryOut_alike {t₁ t₂ : Errand α} (h : t₁.Matches t₂)
    (halike : Alike extra start₁ start₂ r₁ r₂)
    (hecho : Echoes extra start₁ start₂ (r₁.carryOut t₁).2.engine.link
      (r₂.carryOut t₂).2.engine.link)
    (hinert : ∀ m ∈ t₂.moments r₂, extra m.number → m.Inert) :
    (r₁.carryOut t₁).1 = (r₂.carryOut t₂).1 ∧
      Alike extra start₁ start₂ (r₁.carryOut t₁).2 (r₂.carryOut t₂).2 := by
  have hrun₁ := t₁.procedure_run r₁
  have hrun₂ := t₂.procedure_run r₂
  have hagree := parallel_errand h r₂.slot extra start₁ start₂ r₁.engine r₂.engine halike.engine
  rw [halike.slot] at hrun₁
  rw [hrun₁, hrun₂] at hagree
  obtain ⟨hanswer, hengine⟩ := hagree hecho hinert
  obtain ⟨hanswer, hslot⟩ := Prod.mk.inj hanswer
  exact ⟨hanswer, hslot, hengine⟩

/-! ### Many errands -/

/-- Errands, one after the other. -/
abbrev Agenda := List (Σ α : Type, Errand α)

/-- The robot after all errands of an agenda. -/
def complete (r : Robot) (agenda : Agenda) : Robot := agenda.foldl (fun r t => (r.carryOut t.2).2) r

/-- The answers to the errands of an agenda. -/
def answers (r : Robot) : Agenda → List (Σ α : Type, α)
  | [] => []
  | t :: rest => ⟨t.1, (r.carryOut t.2).1⟩ :: (r.carryOut t.2).2.answers rest

/-- The moments at which messages are taken during an agenda. -/
def moments (r : Robot) : Agenda → List Moment
  | [] => []
  | t :: rest => t.2.moments r ++ (r.carryOut t.2).2.moments rest

/-- The errands of one agenda match those of the other. -/
inductive Agenda.Matches : Agenda → Agenda → Prop
  | nil : Matches [] []
  | cons {α : Type} {t₁ t₂ : Errand α} {rest₁ rest₂ : Agenda} (h : t₁.Matches t₂)
      (hrest : Matches rest₁ rest₂) : Matches (⟨α, t₁⟩ :: rest₁) (⟨α, t₂⟩ :: rest₂)

theorem complete_grows (agenda : Agenda) (r : Robot) :
    ∃ j : Journal, (r.complete agenda).engine.link.journal = r.engine.link.journal ++ j := by
  induction agenda generalizing r with
  | nil => exact ⟨[], (List.append_nil _).symm⟩
  | cons t rest ih =>
      obtain ⟨i, hi⟩ := carryOut_grows t.2 r
      obtain ⟨j, hj⟩ := ih (r.carryOut t.2).2
      refine ⟨i ++ j, ?_⟩
      rw [← List.append_assoc, ← hi]
      exact hj

theorem complete_alike {agenda₁ agenda₂ : Agenda} (h : agenda₁.Matches agenda₂)
    (halike : Alike extra start₁ start₂ r₁ r₂)
    (hecho : Echoes extra start₁ start₂ (r₁.complete agenda₁).engine.link
      (r₂.complete agenda₂).engine.link)
    (hinert : ∀ m ∈ r₂.moments agenda₂, extra m.number → m.Inert) :
    r₁.answers agenda₁ = r₂.answers agenda₂ ∧
      Alike extra start₁ start₂ (r₁.complete agenda₁) (r₂.complete agenda₂) := by
  induction h generalizing r₁ r₂ with
  | nil => exact ⟨rfl, halike⟩
  | @cons α t₁ t₂ rest₁ rest₂ hfirst _ ih =>
      obtain ⟨i₁, hi₁⟩ := carryOut_grows t₁ r₁
      obtain ⟨i₂, hi₂⟩ := carryOut_grows t₂ r₂
      obtain ⟨j₁, hj₁⟩ := complete_grows rest₁ (r₁.carryOut t₁).2
      obtain ⟨j₂, hj₂⟩ := complete_grows rest₂ (r₂.carryOut t₂).2
      have hgrown₁ := hi₁ ▸ halike.engine.linked.grown₁.trans (List.prefix_append _ _)
      have hgrown₂ := hi₂ ▸ halike.engine.linked.grown₂.trans (List.prefix_append _ _)
      obtain ⟨hanswer, hafter⟩ := carryOut_alike hfirst halike
        (hecho.of_append hgrown₁ hgrown₂ hj₁ hj₂)
        fun m hm => hinert m (List.mem_append_left _ hm)
      obtain ⟨hanswers, hend⟩ := ih hafter hecho fun m hm => hinert m (List.mem_append_right _ hm)
      refine ⟨?_, hend⟩
      simp only [answers, hanswer, hanswers]

/-! ### Robots that are equal but for extra messages -/

/-- Nothing tells the robots apart but extra messages that are pending at the second one, and the
numbers of stale states and of replies. -/
structure EqualBut (extra : Nat → Bool) (r₁ r₂ : Robot) : Prop where
  slot : r₁.slot = r₂.slot
  engine : r₁.engine.bare = r₂.engine.bare
  closed : r₁.engine.link.closed = r₂.engine.link.closed
  farClosed : r₁.engine.link.farClosed = r₂.engine.link.farClosed
  shutdown : r₁.engine.link.shutdown = r₂.engine.link.shutdown
  pending : r₁.engine.link.pending =
    thin extra r₂.engine.link.taken.length r₂.engine.link.pending

theorem EqualBut.alike (h : EqualBut extra r₁ r₂) :
    Alike extra r₁.engine.link r₂.engine.link r₁ r₂ :=
  ⟨h.slot, h.engine, .refl_of (Link.standing_eq h.pending h.farClosed h.shutdown), h.closed⟩

theorem Alike.equalBut (h : Alike extra start₁ start₂ r₁ r₂)
    (hecho : EchoesThroughout extra start₁ start₂ r₁.engine.link r₂.engine.link) :
    EqualBut extra r₁ r₂ := by
  have haligned := h.engine.linked.aligned hecho
  exact ⟨h.slot, h.engine.bare, h.engine.linked.closed, congrArg Saying.hangsUp haligned,
    congrArg Saying.interrupts haligned, congrArg Saying.events haligned⟩

/-- Messages that mean nothing when they are taken make no difference to what a robot answers, to
what its callbacks are handed, to what it sends and to what becomes of it. -/
theorem extra_messages_do_not_interfere {agenda₁ agenda₂ : Agenda} (h : EqualBut extra r₁ r₂)
    (hagenda : agenda₁.Matches agenda₂)
    (hecho : EchoesThroughout extra r₁.engine.link r₂.engine.link
      (r₁.complete agenda₁).engine.link (r₂.complete agenda₂).engine.link)
    (hinert : ∀ m ∈ r₂.moments agenda₂, extra m.number → m.Inert) :
    r₁.answers agenda₁ = r₂.answers agenda₂ ∧
    ((r₁.complete agenda₁).engine.link.since r₁.engine.link).sent =
      ((r₂.complete agenda₂).engine.link.since r₂.engine.link).sent ∧
    EqualBut extra (r₁.complete agenda₁) (r₂.complete agenda₂) := by
  obtain ⟨hanswers, hend⟩ := complete_alike hagenda h.alike hecho.echoes hinert
  exact ⟨hanswers, hend.engine.linked.sent, hend.equalBut hecho⟩

/-- A far end that accepts and confirms a motion, and tells of its state twice. -/
def repetitive : FarEnd where
  script :=
    [(.request .move, [.nextState { State.initial with motionMode := .jointPosition } 1,
        .nextState { State.initial with motionMode := .jointPosition } 0,
        .reply (.move .started) none 0])]

/-- A reply that nobody waits for and a state that comes twice make no difference to a motion. -/
theorem extra_messages_do_not_interfere_motion :
    let r₁ : Robot := { engine := .start { link := { farEnd := .accepting } } {} default }
    let r₂ : Robot := { engine := .start { link := { farEnd := repetitive } } {} default }
    let extra : Nat → Bool := fun n => n = 0 || n = 2
    let steering : Callback (fun _ : Unit => 0) Tick (Step (Target .jointPosition)) :=
      .ofPure fun _ m => (.stop, m)
    let motion := Errand.controlMotion .jointImpedance steering ()
    let agenda₁ : Agenda := [⟨_, .happen []⟩, ⟨_, motion⟩]
    let agenda₂ : Agenda :=
      [⟨_, .happen [.say [.reply (.setController .success) (some 77) 0]]⟩, ⟨_, motion⟩]
    EqualBut extra r₁ r₂ ∧ agenda₁.Matches agenda₂ ∧
    EchoesThroughout extra r₁.engine.link r₂.engine.link (r₁.complete agenda₁).engine.link
      (r₂.complete agenda₂).engine.link ∧
    (∀ m ∈ r₂.moments agenda₂, extra m.number → m.Inert) ∧
    ((r₂.moments agenda₂).map Moment.number).take 4 = [0, 1, 2, 3] ∧
    r₁.answers agenda₁ = r₂.answers agenda₂ ∧
    ((r₁.complete agenda₁).engine.link.since r₁.engine.link).sent =
      ((r₂.complete agenda₂).engine.link.since r₂.engine.link).sent ∧
    EqualBut extra (r₁.complete agenda₁) (r₂.complete agenda₂) := by
  intro r₁ r₂ extra steering motion agenda₁ agenda₂
  have hequal : EqualBut extra r₁ r₂ := ⟨rfl, rfl, rfl, rfl, rfl, rfl⟩
  have hmatches : agenda₁.Matches agenda₂ :=
    .cons (.happen _ _)
      (.cons (.controlMotion (Callback.inStep_ofPure _) .jointImpedance ()) .nil)
  have hecho : EchoesThroughout extra r₁.engine.link r₂.engine.link
      (r₁.complete agenda₁).engine.link (r₂.complete agenda₂).engine.link := by decide +kernel
  have hinert : ∀ m ∈ r₂.moments agenda₂, extra m.number → m.Inert := by decide +kernel
  exact ⟨hequal, hmatches, hecho, hinert, by decide +kernel,
    extra_messages_do_not_interfere hequal hmatches hecho hinert⟩

end ArmControl.Robot
