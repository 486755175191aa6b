import ArmControl.Proofs.Delivery
import ArmControl.Proofs.Errand
import ArmControl.Robot.Busy

/-! # Nested operations

A callback has the robot at hand, or a clone of it, which is the same robot, and may start
operations on it while its own operation is in progress.  `Conduct` is what a callback does on one
call, with the operations that it starts; they are carried out on the robot itself, by the same
`deliver` as any other operation, and `Nested` records each of them.  That the robot is left alone,
as `Callback.outside` wants it, is not presumed of such a callback but follows
(`Conduct.run_eq_witness`).

An operation whose callbacks start others ends as it does when they start none: with the same
result, the same memory, the same inputs of the callbacks and the same robot.  Each operation that
was started meanwhile was refused without any effect (`nested_operations_are_invisible`). -/

namespace ArmControl

/-! ### What callbacks keep -/

namespace Callback

variable {σ : Type} {credit : σ → Nat} {ι ρ ρ' : Type} {P : σ → Prop} {cb : Callback credit ι ρ}

/-- Whatever is called, a memory with `P` is left with `P`. -/
def Keeps (P : σ → Prop) (cb : Callback credit ι ρ) : Prop :=
  ∀ input e m, P m → P (cb.call input e m).2.1

theorem Keeps.map (h : cb.Keeps P) (f : ι → ρ → ρ') : (cb.map f).Keeps P := h

theorem Keeps.both {second : Callback credit ι ρ'} (h : cb.Keeps P) (hsecond : second.Keeps P) :
    (cb.both second).Keeps P :=
  fun input e m hm => hsecond input _ _ (h input e m hm)

/-- The callback on no other memories than those with `P`. -/
def Keeps.restrict (h : cb.Keeps P) : Callback (fun p : { m // P m } => credit p.1) ι ρ where
  call input e p :=
    let called := cb.call input e p.1
    (called.1, ⟨called.2.1, h input e p.1 p.2⟩, called.2.2)
  outside input e p := cb.outside input e p.1

theorem Keeps.restrict_erases (h : cb.Keeps P) : Erases Subtype.val h.restrict cb :=
  fun _ _ _ => rfl

end Callback

theorem ControlLoop.run_keeps {σ : Type} {credit : σ → Nat} {P : σ → Prop}
    {steering : Steering credit} (h : steering.Keeps P) (controller : ControllerMode)
    (motion : MotionMode) (e : Engine) {m : σ} (hm : P m) :
    P (run controller motion steering e m).2.1 := by
  -- the run on memories with `P` alone is the same run, and has no other memory to end with
  have herase := run_erase h.restrict_erases controller motion e ⟨m, hm⟩
  rw [show run controller motion steering e m = _ from herase]
  exact Subtype.property _

namespace Robot

theorem showStates_keeps {σ : Type} {credit : σ → Nat} {P : σ → Prop}
    {cb : ArmControl.Callback credit State Bool} (h : cb.Keeps P) (e : Engine) {m : σ} (hm : P m) :
    P (showStates cb e m).2.1 := by
  have herase := showStates_erase h.restrict_erases e ⟨m, hm⟩
  rw [show showStates cb e m = _ from herase]
  exact Subtype.property _

section

variable {σ : Type} {credit : σ → Nat} {P : Operation × σ → Prop} {m : σ}

theorem operate_keeps {α : Type} {op : Operation}
    {activity : Engine → Operation × σ → Except SessionError α × (Operation × σ) × Engine}
    (h : ∀ e p, P p → P (activity e p).2.1) (r : Robot) (hm : P (op, m)) :
    ∃ op', P (op', (operate op activity r m).2.1) := by
  unfold operate
  split
  · exact ⟨op, hm⟩
  · exact ⟨_, h r.engine (op, m) hm⟩

theorem read_keeps {cb : Callback credit State Bool} (h : cb.onEngine.Keeps P) (r : Robot)
    (hm : P (.reading, m)) : ∃ op', P (op', (r.read cb m).2.1) :=
  operate_keeps (fun e _ => showStates_keeps h e) r hm

theorem controlIdle_keeps {cb : Callback credit State Bool} (h : cb.onEngine.Keeps P)
    {controller : ControllerMode} (r : Robot) (hm : P (.controlling controller .idle, m)) :
    ∃ op', P (op', (r.controlIdle controller cb m).2.1) := by
  refine operate_keeps (fun e p hp => ?_) r hm
  split
  · exact hp
  · split
    · exact showStates_keeps h _ hp
    · rename_i e₁ _ _ s hs
      have hcalled := h s e₁ p hp
      rcases hcall : cb.onEngine.call s e₁ p with ⟨answer, p', e₂⟩
      rw [hcall] at hcalled
      cases answer with
      | true => exact showStates_keeps h e₂ hcalled
      | false => exact hcalled

theorem steer_keeps {steering : ControlLoop.Steering fun p : Operation × σ => credit p.2}
    (h : steering.Keeps P) {controller : ControllerMode} {motion : MotionMode} (r : Robot)
    (hm : P (.controlling controller motion, m)) :
    ∃ op', P (op', (steer controller motion steering r m).2.1) :=
  operate_keeps (fun e _ => ControlLoop.run_keeps h controller motion e) r hm

theorem controlMotion_keeps {type : MotionType} {cb : Callback credit Tick (Step (Target type))}
    (h : cb.onEngine.Keeps P) {controller : ControllerMode} (r : Robot)
    (hm : P (.controlling controller type.mode, m)) :
    ∃ op', P (op', (r.controlMotion controller cb m).2.1) :=
  steer_keeps (h.map _) r hm

theorem controlTorques_keeps {cb : Callback credit Tick (Step Torques)} (h : cb.onEngine.Keeps P)
    (r : Robot) (hm : P (.controlling .external .idle, m)) :
    ∃ op', P (op', (r.controlTorques cb m).2.1) :=
  steer_keeps (h.map _) r hm

theorem controlTorquesWithMotion_keeps {type : MotionType}
    {torqueCallback : Callback credit Tick (Step Torques)}
    {motionCallback : Callback credit Tick (Step (Target type))}
    (htorque : torqueCallback.onEngine.Keeps P) (hmotion : motionCallback.onEngine.Keeps P)
    (r : Robot) (hm : P (.controlling .external type.mode, m)) :
    ∃ op', P (op', (r.controlTorquesWithMotion torqueCallback motionCallback m).2.1) :=
  steer_keeps ((hmotion.both htorque).map _) r hm

end

/-! ### Operations on a busy robot -/

/-- The operation that a call wants the slot for. -/
def Call.operation : Call → Operation
  | .read .. | .readOnce => .reading
  | .controlIdle controller .. => .controlling controller .idle
  | @controlMotion _ _ type controller .. => .controlling controller type.mode
  | .controlTorques .. => .controlling .external .idle
  | @controlTorquesWithMotion _ _ type .. => .controlling .external type.mode

theorem deliver_of_busy {r : Robot} {holder : Operation} (h : r.slot = some holder) (call : Call) :
    r.deliver call = (.error (.session (.conflict (.busy call.operation holder))), [], r) := by
  cases call with
  | read cb m => simp only [deliver, read_of_busy h, Call.operation]
  | readOnce =>
      simp only [deliver, readOnce_of_busy h]
      rfl
  | controlIdle controller cb m => simp only [deliver, controlIdle_of_busy h, Call.operation]
  | controlMotion controller cb m => simp only [deliver, controlMotion_of_busy h, Call.operation]
  | controlTorques cb m => simp only [deliver, controlTorques_of_busy h, Call.operation]
  | controlTorquesWithMotion torqueCallback motionCallback m =>
      simp only [deliver, controlTorquesWithMotion_of_busy h, Call.operation]

/-- An operation that was started while another one was in progress, with the robot before and
afterwards. -/
structure Nested where
  operation : Operation
  before : Robot
  result : Except RobotError Unit
  /-- What was handed to the callbacks of the operation. -/
  shown : List State
  after : Robot

/-- The operation was refused because of another one, and did nothing at all. -/
structure Nested.Refused (holder : Operation) (n : Nested) : Prop where
  held : n.before.slot = some holder
  result : n.result = .error (.session (.conflict (.busy n.operation holder)))
  shown : n.shown = []
  after : n.after = n.before

/-! ### Conduct -/

/-- What a callback does until it answers: it looks at the robot, things happen on the link, and it
starts operations. -/
inductive Conduct (α : Type) : Type 1
  | answer (a : α)
  | look (next : Robot → Conduct α)
  | happen (happening : Happening) (next : Conduct α)
  /-- Starts an operation, and goes on with its result and the states that it has handed out. -/
  | start (call : Call) (next : Except RobotError Unit → List State → Conduct α)

namespace Conduct

variable {α : Type}

/-- The answer, the operations that were started, and the robot afterwards. -/
def run : Conduct α → Robot → α × List Nested × Robot
  | .answer a, r => (a, [], r)
  | .look next, r => (next r).run r
  | .happen happening next, r => next.run (r.witness [happening])
  | .start call next, r =>
    let (result, shown, r') := r.deliver call
    let (a, nested, r'') := (next result shown).run r'
    (a, ⟨call.operation, r, result, shown, r'⟩ :: nested, r'')

/-- What happens on the link meanwhile. -/
def happenings : Conduct α → Robot → List Happening
  | .answer _, _ => []
  | .look next, r => (next r).happenings r
  | .happen happening next, r => happening :: next.happenings (r.witness [happening])
  | .start call next, r =>
    let (result, shown, r') := r.deliver call
    (next result shown).happenings r'

/-- What the slot alone says of an operation. -/
def verdict (call : Call) (r : Robot) : Except RobotError Unit :=
  match r.slot.claim (some call.operation) with
  | .error err => .error (.session err)
  | .ok _ => .ok ()

/-- The same conduct without any operation.  What a callback does next may depend on the result of
an operation that it has started, so it looks at the slot instead and goes by that. -/
def solitary : Conduct α → Conduct α
  | .answer a => .answer a
  | .look next => .look fun r => (next r).solitary
  | .happen happening next => .happen happening next.solitary
  | .start call next => .look fun r => (next (verdict call r) []).solitary

theorem verdict_of_busy {r : Robot} {holder : Operation} (h : r.slot = some holder) (call : Call) :
    verdict call r = .error (.session (.conflict (.busy call.operation holder))) := by
  simp [verdict, h, Slot.claim]

section Busy

variable {r : Robot} {holder : Operation}

/-- On a busy robot, nothing comes out of a conduct but happenings on the link. -/
theorem run_eq_witness (h : r.slot = some holder) (c : Conduct α) :
    (c.run r).2.2 = r.witness (c.happenings r) := by
  induction c generalizing r with
  | answer a => rfl
  | look next ih => exact ih r h
  | happen happening next ih =>
      have hrest := ih (r := r.witness [happening]) h
      have hhappened := Engine.witness_append r.engine [happening]
        (next.happenings (r.witness [happening]))
      exact hrest.trans (congrArg (Robot.mk r.slot) hhappened.symm)
  | start call next ih =>
      -- the operation leaves the slot as it is, so what follows it finds the robot busy as well
      simp only [run, happenings, deliver_of_busy h call]
      exact ih _ _ h

/-- On a busy robot, every operation that is started is refused. -/
theorem run_refused (h : r.slot = some holder) (c : Conduct α) :
    ∀ n ∈ (c.run r).2.1, n.Refused holder := by
  induction c generalizing r with
  | answer a => simp [run]
  | look next ih => exact ih r h
  | happen happening next ih => exact ih (r := r.witness [happening]) h
  | start call next ih =>
      simp only [run, deliver_of_busy h call, List.forall_mem_cons]
      exact ⟨⟨h, rfl, rfl, rfl⟩, ih _ _ h⟩

example (e : Engine) :
    let quit : Callback (fun _ : Unit => 0) State Bool := .ofPure fun _ m => (false, m)
    let c : Conduct Bool := .start .readOnce fun _ _ =>
      .start (.controlIdle .jointImpedance quit ()) fun result _ => .answer result.toBool
    ((c.run ⟨some .reading, e⟩).1, (c.run ⟨some .reading, e⟩).2.1.map Nested.operation) =
      (false, [.reading, .controlling .jointImpedance .idle]) := rfl

/-- On a busy robot, the conduct is the same without its operations. -/
theorem solitary_run (h : r.slot = some holder) (c : Conduct α) :
    c.solitary.run r = ((c.run r).1, [], (c.run r).2.2) := by
  induction c generalizing r with
  | answer a => rfl
  | look next ih => exact ih r h
  | happen happening next ih => exact ih (r := r.witness [happening]) h
  | start call next ih =>
      simp only [solitary, run, deliver_of_busy h call, verdict_of_busy h call]
      exact ih _ _ h

theorem solitary_happenings (h : r.slot = some holder) (c : Conduct α) :
    c.solitary.happenings r = c.happenings r := by
  induction c generalizing r with
  | answer a => rfl
  | look next ih => exact ih r h
  | happen happening next ih =>
      exact congrArg (happening :: ·) (ih (r := r.witness [happening]) h)
  | start call next ih =>
      simp only [solitary, happenings, deliver_of_busy h call, verdict_of_busy h call]
      exact ih _ _ h

end Busy
end Conduct

/-! ### Callbacks with a conduct -/

/-- A callback that may start operations.  While an operation is in progress, no more happens than
the credit allows for. -/
structure ActiveCallback {σ : Type} (credit : σ → Nat) (ι ρ : Type) where
  conduct : ι → σ → Conduct (ρ × σ)
  within : ∀ input m (r : Robot), r.slot ≠ none →
    Happening.totalCost ((conduct input m).happenings r) + credit ((conduct input m).run r).1.2 ≤
      credit m

namespace ActiveCallback

variable {σ : Type} {credit : σ → Nat} {ι ρ : Type}

/-- The callback as the robot calls it, with the operations that it has started beside its
memory. -/
def toCallback (cb : ActiveCallback credit ι ρ) :
    Callback (fun p : σ × List Nested => credit p.1) ι ρ where
  call input r p :=
    let ((answer, m), nested, r) := (cb.conduct input p.1).run r
    (answer, (m, p.2 ++ nested), r)
  outside input r p h := by
    obtain ⟨holder, hr⟩ := Option.ne_none_iff_exists'.1 h
    exact ⟨_, Conduct.run_eq_witness hr (cb.conduct input p.1), cb.within input p.1 r h⟩

/-- The same callback without its operations. -/
def solitary (cb : ActiveCallback credit ι ρ) : ActiveCallback credit ι ρ where
  conduct input m := (cb.conduct input m).solitary
  within input m r h := by
    obtain ⟨holder, hr⟩ := Option.ne_none_iff_exists'.1 h
    rw [Conduct.solitary_happenings hr, Conduct.solitary_run hr]
    exact cb.within input m r h

/-- The memory without the operations that were started. -/
def hush (p : (σ × List Nested) × List ι) : (σ × List Nested) × List ι := ((p.1.1, []), p.2)

theorem solitary_erases (cb : ActiveCallback credit ι ρ) :
    ArmControl.Callback.Erases (Prod.map id hush) cb.toCallback.logged.onEngine
      cb.solitary.toCallback.logged.onEngine := by
  intro input e p
  have hrun := Conduct.solitary_run (r := ⟨some p.1, e⟩) rfl (cb.conduct input p.2.1.1)
  simp only [Callback.onEngine, Callback.logged, toCallback, solitary, Prod.map, id, hush, hrun,
    List.append_nil, erase]

/-- The operation in progress is the same, and has refused all that was started meanwhile. -/
def Refusing (holder : Operation) (p : Operation × ((σ × List Nested) × List ι)) : Prop :=
  p.1 = holder ∧ ∀ n ∈ p.2.1.2, n.Refused holder

theorem keeps_refusing (cb : ActiveCallback credit ι ρ) (holder : Operation) :
    cb.toCallback.logged.onEngine.Keeps (Refusing holder) := by
  rintro input e ⟨op, ⟨m, nested⟩, inputs⟩ ⟨hop, hnested⟩
  obtain rfl : op = holder := hop
  have hrobot := Conduct.run_eq_witness (r := ⟨some op, e⟩) rfl (cb.conduct input m)
  have hrefused := Conduct.run_refused (r := ⟨some op, e⟩) rfl (cb.conduct input m)
  refine ⟨?_, ?_⟩
  · simp only [Callback.onEngine, Callback.logged, toCallback, hrobot]
    rfl
  · intro n hn
    rcases List.mem_append.1 hn with hbefore | hnow
    · exact hnested n hbefore
    · exact hrefused n hnow

end ActiveCallback

/-! ### Operations with such callbacks -/

/-- An operation whose callbacks may start others, with the type of what they are handed. -/
inductive Undertaking {σ : Type} (credit : σ → Nat) : Type → Type 1
  | read (cb : ActiveCallback credit State Bool) : Undertaking credit State
  | controlIdle (controller : ControllerMode) (cb : ActiveCallback credit State Bool) :
      Undertaking credit State
  | controlMotion {type : MotionType} (controller : ControllerMode)
      (cb : ActiveCallback credit Tick (Step (Target type))) : Undertaking credit Tick
  | controlTorques (cb : ActiveCallback credit Tick (Step Torques)) : Undertaking credit Tick
  | controlTorquesWithMotion {type : MotionType}
      (torqueCallback : ActiveCallback credit Tick (Step Torques))
      (motionCallback : ActiveCallback credit Tick (Step (Target type))) : Undertaking credit Tick

namespace Undertaking

variable {σ ι : Type} {credit : σ → Nat}

def operation : Undertaking credit ι → Operation
  | .read _ => .reading
  | .controlIdle controller _ => .controlling controller .idle
  | @controlMotion _ _ type controller _ => .controlling controller type.mode
  | .controlTorques _ => .controlling .external .idle
  | @controlTorquesWithMotion _ _ type _ _ => .controlling .external type.mode

/-- The same operation with callbacks that start none. -/
def solitary : Undertaking credit ι → Undertaking credit ι
  | .read cb => .read cb.solitary
  | .controlIdle controller cb => .controlIdle controller cb.solitary
  | .controlMotion controller cb => .controlMotion controller cb.solitary
  | .controlTorques cb => .controlTorques cb.solitary
  | .controlTorquesWithMotion torqueCallback motionCallback =>
    .controlTorquesWithMotion torqueCallback.solitary motionCallback.solitary

/-- The operation as it is asked of the robot, with what the callbacks remember at first.  The
operations that they start are found beside what they remember in the end. -/
def errand (m : σ) :
    Undertaking credit ι → Errand (Except RobotError Unit × (σ × List Nested) × List ι)
  | .read cb => .read cb.toCallback (m, [])
  | .controlIdle controller cb => .controlIdle controller cb.toCallback (m, [])
  | .controlMotion controller cb => .controlMotion controller cb.toCallback (m, [])
  | .controlTorques cb => .controlTorques cb.toCallback (m, [])
  | .controlTorquesWithMotion torqueCallback motionCallback =>
    .controlTorquesWithMotion torqueCallback.toCallback motionCallback.toCallback (m, [])

open ActiveCallback

/-- An operation with callbacks that start none is the operation itself, up to the record of what
was started. -/
theorem carryOut_solitary (u : Undertaking credit ι) (m : σ) (r : Robot) :
    r.carryOut (u.solitary.errand m) =
      (((r.carryOut (u.errand m)).1.1, hush (r.carryOut (u.errand m)).1.2),
        (r.carryOut (u.errand m)).2) := by
  cases u with
  | read cb => exact congrArg Procedure.together (read_erase cb.solitary_erases r ((m, []), []))
  | controlIdle controller cb =>
      exact congrArg Procedure.together
        (controlIdle_erase cb.solitary_erases controller r ((m, []), []))
  | controlMotion controller cb =>
      exact congrArg Procedure.together
        (controlMotion_erase cb.solitary_erases controller r ((m, []), []))
  | controlTorques cb =>
      exact congrArg Procedure.together (controlTorques_erase cb.solitary_erases r ((m, []), []))
  | controlTorquesWithMotion torqueCallback motionCallback =>
      exact congrArg Procedure.together
        (controlTorquesWithMotion_erase torqueCallback.solitary_erases
          motionCallback.solitary_erases r ((m, []), []))

/-- All that the callbacks start is refused. -/
theorem carryOut_refused (u : Undertaking credit ι) (m : σ) (r : Robot) :
    ∀ n ∈ (r.carryOut (u.errand m)).1.2.1.2, n.Refused u.operation := by
  have hm : Refusing u.operation (u.operation, ((m, []), ([] : List ι))) := ⟨rfl, by simp⟩
  cases u with
  | read cb =>
      obtain ⟨_, -, hrefused⟩ := read_keeps (cb.keeps_refusing _) r hm
      exact hrefused
  | controlIdle controller cb =>
      obtain ⟨_, -, hrefused⟩ := controlIdle_keeps (cb.keeps_refusing _) r hm
      exact hrefused
  | controlMotion controller cb =>
      obtain ⟨_, -, hrefused⟩ := controlMotion_keeps (cb.keeps_refusing _) r hm
      exact hrefused
  | controlTorques cb =>
      obtain ⟨_, -, hrefused⟩ := controlTorques_keeps (cb.keeps_refusing _) r hm
      exact hrefused
  | controlTorquesWithMotion torqueCallback motionCallback =>
      obtain ⟨_, -, hrefused⟩ := controlTorquesWithMotion_keeps
        (torqueCallback.keeps_refusing _) (motionCallback.keeps_refusing _) r hm
      exact hrefused

/-- However an operation ends, the slot is free afterwards. -/
theorem carryOut_slot (u : Undertaking credit ι) (m : σ) {r : Robot} (h : r.slot = none) :
    (r.carryOut (u.errand m)).2.slot = none := by
  cases u <;> simp only [errand, carryOut, Robot.read, Robot.controlIdle, Robot.controlMotion,
    Robot.controlTorques, Robot.controlTorquesWithMotion, steer, operate_of_free h] <;> rfl

end Undertaking

/-- Whatever operations the callbacks of an operation start, the operation ends as it does when they
start none, and each operation that they start is refused and does nothing. -/
theorem nested_operations_are_invisible {σ ι : Type} {credit : σ → Nat}
    (u : Undertaking credit ι) (m : σ) (e : Engine) :
    ∃ result m' nested inputs e',
      ({ engine := e } : Robot).carryOut (u.errand m) =
        ((result, (m', nested), inputs), { engine := e' }) ∧
      ({ engine := e } : Robot).carryOut (u.solitary.errand m) =
        ((result, (m', []), inputs), { engine := e' }) ∧
      ∀ n ∈ nested, n.Refused u.operation := by
  have hsolitary := u.carryOut_solitary m { engine := e }
  have hrefused := u.carryOut_refused m { engine := e }
  have hslot := u.carryOut_slot m (r := { engine := e }) rfl
  generalize ({ engine := e } : Robot).carryOut (u.errand m) = outcome at *
  rcases outcome with ⟨⟨result, ⟨m', nested⟩, inputs⟩, ⟨slot, e'⟩⟩
  obtain rfl : slot = none := hslot
  exact ⟨result, m', nested, inputs, e', rfl, hsolitary, hrefused⟩

end Robot
end ArmControl
