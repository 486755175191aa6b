import Mathlib.Data.List.Induction
import ArmControl.Proofs.Lifecycle

/-! # What has held since a call

`Since begins holds e₀ turns` looks back over the turns of a session: at some call something has
begun that `begins` describes, and between the turns that followed `holds` has been true of the
engine up to now.  It begins with one turn (`Since.of_begins`) and goes on with the next
(`Since.concat`); what cannot begin while it holds has begun only once (`Since.meet`).

An active generator has begun with a start that succeeded.  So has everything that is true only
while a generator is active, and has been true before if the generator was active before
(`since_start`). -/

namespace ArmControl.Engine

variable {e e₀ : Engine} {turns : List Turn} {t : Turn} {call : Call}
  {begins begins' : Engine → Call → Prop} {holds : Engine → Prop}

theorem after_concat (e : Engine) (turns : List Turn) (t : Turn) :
    e.after (turns ++ [t]) = (e.after turns).turn t := List.foldl_append

/-- What `begins` describes was done by some call, and `holds` has been true since. -/
def Since (begins : Engine → Call → Prop) (holds : Engine → Prop) (e₀ : Engine)
    (turns : List Turn) : Prop :=
  ∃ before call later, turns = before ++ .call call :: later ∧ begins (e₀.after before) call ∧
    ∀ since, since <+: later → holds (e₀.after (before ++ .call call :: since))

theorem Since.of_begins (hbegins : begins (e₀.after turns) call)
    (hholds : holds (e₀.after (turns ++ [.call call]))) :
    Since begins holds e₀ (turns ++ [.call call]) := by
  refine ⟨turns, call, [], rfl, hbegins, fun since hsince => ?_⟩
  obtain rfl := List.prefix_nil.1 hsince
  exact hholds

theorem Since.concat (h : Since begins holds e₀ turns) (hholds : holds (e₀.after (turns ++ [t]))) :
    Since begins holds e₀ (turns ++ [t]) := by
  obtain ⟨before, call, later, rfl, hbegins, hlater⟩ := h
  refine ⟨before, call, later ++ [t], by simp, hbegins, fun since hsince => ?_⟩
  rcases List.prefix_concat_iff.1 hsince with rfl | hsince
  · rwa [List.append_assoc] at hholds
  · exact hlater since hsince

theorem Since.now (h : Since begins holds e₀ turns) : holds (e₀.after turns) := by
  obtain ⟨before, call, later, rfl, -, hlater⟩ := h
  exact hlater later (List.prefix_refl later)

/-- What cannot begin while it holds has begun with one call only. -/
theorem Since.meet (h : Since begins holds e₀ turns) (h' : Since begins' holds e₀ turns)
    (hnew : ∀ {e call}, begins e call → ¬ holds e)
    (hnew' : ∀ {e call}, begins' e call → ¬ holds e) :
    Since (fun e call => begins e call ∧ begins' e call) holds e₀ turns := by
  obtain ⟨before, call, later, rfl, hbegins, hlater⟩ := h
  obtain ⟨before', call', later', heq, hbegins', hlater'⟩ := h'
  -- the call that comes second would find what the first one has begun
  have hno {before later} {call : Call} {between : List Turn}
      (hlater : ∀ since, since <+: later → holds (e₀.after (before ++ .call call :: since)))
      (hfound : ¬ holds (e₀.after (before ++ between))) {rest}
      (hrest : .call call :: later = between ++ rest) : between = [] := by
    cases between with
    | nil => rfl
    | cons t between =>
        obtain ⟨rfl, rfl⟩ := List.cons.inj hrest
        exact absurd (hlater between (List.prefix_append _ _)) hfound
  rcases List.append_eq_append_iff.1 heq with ⟨between, rfl, hrest⟩ | ⟨between, rfl, hrest⟩
  · obtain rfl := hno hlater (hnew' hbegins') hrest
    obtain ⟨hcall, rfl⟩ := List.cons.inj hrest
    obtain rfl := Turn.call.inj hcall
    rw [List.append_nil] at hbegins'
    exact ⟨before, call, later, rfl, ⟨hbegins, hbegins'⟩, hlater⟩
  · obtain rfl := hno hlater' (hnew hbegins) hrest
    obtain ⟨hcall, rfl⟩ := List.cons.inj hrest
    obtain rfl := Turn.call.inj hcall
    rw [List.append_nil] at hbegins hlater
    exact ⟨before', call', later', by rw [List.append_nil], ⟨hbegins, hbegins'⟩, hlater⟩

/-! ### Since a start -/

/-- Only a start that succeeds leads to a generator where there was none. -/
theorem Call.Advances.of_notStarted {result : Except SessionError Unit} {b : MotionStatus}
    (h : call.Advances result .notStarted b) (hb : b ≠ .notStarted) :
    call.Starts ∧ result = .ok () := by
  cases h with
  | stays | ends => exact absurd rfl hb
  | starts hstart hok => exact ⟨hstart, hok⟩

/-- What is true only while a generator is active, and cannot become true while one is, has been
true since a start that succeeded. -/
theorem since_start (h₀ : e₀.motion = {})
    (hactive : ∀ {e}, holds e → e.motion.status ≠ .notStarted)
    (hback : ∀ {e t}, e.motion.status ≠ .notStarted → holds (e.turn t) → holds e)
    (turns : List Turn) (h : holds (e₀.after turns)) :
    Since (fun e call => call.Starts ∧ (e.perform call).1 = .ok ()) holds e₀ turns := by
  induction turns using List.reverseRecOn with
  | nil => exact absurd (congrArg Motion.status h₀) (hactive h)
  | append_singleton turns t ih =>
      rw [after_concat] at h
      by_cases hbefore : (e₀.after turns).motion.status = .notStarted
      · have horderly : (e₀.after turns).Orderly := (orderly_of_idle h₀).after turns
        cases t with
        | happen happenings =>
            have hafter := hactive h
            exact absurd hbefore hafter
        | call call =>
            have hadvances := (horderly.perform call).2
            rw [hbefore] at hadvances
            refine .of_begins (hadvances.of_notStarted (hactive h)) ?_
            rwa [after_concat]
      · refine (ih (hback hbefore h)).concat ?_
        rwa [after_concat]

end ArmControl.Engine
