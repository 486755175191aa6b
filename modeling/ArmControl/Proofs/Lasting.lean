import ArmControl.Proofs.Enduring

/-! # What lasts

A property of the motion is `Lasting` if no message undoes it, no note of a command or an error,
and no end of the generator.  Of the engine it is an enduring property then (`Lasting.enduring`),
and no reply that is awaited undoes it either.

How the status moves meanwhile is one of these properties (`lasting_leads`): it stays, the
generator is gone, or it is confirmed (`MotionStatus.Leads`). -/

namespace ArmControl

/-- The status `b` can come after `a` while the client asks for nothing. -/
def MotionStatus.Leads (a b : MotionStatus) : Prop :=
  b = a ∨ b = .notStarted ∨ a = .starting ∧ b = .running

theorem MotionStatus.Leads.trans {a b c : MotionStatus} (h₁ : a.Leads b) (h₂ : b.Leads c) :
    a.Leads c := by
  unfold Leads at *
  grind

namespace Motion

/-- A property that holds of a motion whatever reaches the client. -/
structure Lasting (P : Motion → Prop) : Prop where
  observe : ∀ mode {m}, P m → P (m.observe mode).2
  handle : ∀ header reply {m}, P m → P (m.handle header reply).2
  reset : ∀ {m}, P m → P m.reset
  note : ∀ deferred lastCommand {m}, P m → P { m with deferred, lastCommand }

namespace Lasting

variable {P : Motion → Prop} (hP : Lasting P) {e : Engine}
include hP

theorem defer (checked : Except SessionError Unit × Motion) (h : P checked.2) :
    P (Motion.defer checked) := by
  obtain ⟨deferred, hdefer⟩ := Motion.defer_cases checked
  rw [hdefer]
  exact hP.note deferred _ h

theorem judgeReply (kind : FrameKind) (id : UInt32) (event : Event) (m : Motion) (h : P m) :
    P (Engine.judgeReply kind id event m).2 := by
  cases event with
  | state s => exact hP.defer _ (hP.observe _ h)
  | reply header reply =>
      simp only [Engine.judgeReply]
      split
      · exact h
      · exact hP.defer _ (hP.handle _ _ h)

theorem execute (request : Request) (h : P e.motion) : P (e.execute request).2.motion :=
  e.execute_motion request hP.judgeReply h

/-- What lasts endures every wait of the engine. -/
theorem enduring : Engine.Enduring fun e => P e.motion := by
  have hfollows {checked : Except SessionError Unit × Motion} {m : Motion}
      (hm : m.Follows checked) (h : P checked.2) : P m := by
    rcases hm with rfl | rfl
    · exact h
    · exact hP.defer checked h
  constructor
  case quiet =>
    intro e e' j lastCommand h _ _ _ hmotion
    exact hmotion ▸ hP.note e.motion.deferred lastCommand h
  case state =>
    intro e e' entry s m h _ _ _ hm
    exact hfollows hm (hP.observe s.motionMode h)
  case reply =>
    intro e e' entry header reply m h _ _ hm
    exact hfollows hm (hP.handle header reply h)
  case answer =>
    intro e e' entry header reply h hreceives _ _
    exact hreceives.motion ▸ h
  case recheck =>
    intro e s h _
    exact hP.observe s.motionMode h
  case reset => exact fun h => hP.reset h
  case raised => exact fun h => hP.note none _ h

theorem startGenerator {type : MotionType} (hbegin : ∀ {m}, P m → P (m.begin type.mode))
    (h : P e.motion) : P (e.startGenerator type).2.motion := by
  have hexecuted := hP.execute (.startMotion type) h
  unfold Engine.startGenerator
  split
  · exact h
  · simp only
    split <;> (rename_i heq; rw [heq] at hexecuted)
    · exact hexecuted
    · exact hP.enduring.confirmGenerator _ (hbegin hexecuted)
    · exact hexecuted

theorem and {Q : Motion → Prop} (hQ : Lasting Q) : Lasting fun m => P m ∧ Q m where
  observe mode _ h := ⟨hP.observe mode h.1, hQ.observe mode h.2⟩
  handle header reply _ h := ⟨hP.handle header reply h.1, hQ.handle header reply h.2⟩
  reset h := ⟨hP.reset h.1, hQ.reset h.2⟩
  note deferred lastCommand _ h :=
    ⟨hP.note deferred lastCommand h.1, hQ.note deferred lastCommand h.2⟩

end Lasting

/-! ### The status -/

/-- Without a request of the client, a status stays, ends, or is confirmed. -/
theorem lasting_leads (a : MotionStatus) : Lasting fun m => a.Leads m.status where
  observe mode m h := by
    rcases hobserve : m.observe mode with ⟨result, m'⟩
    rcases observe_cases hobserve with ⟨-, rfl, -⟩ | ⟨-, hstatus, -, rfl⟩ | ⟨-, -, -, rfl⟩ |
      ⟨-, -, -, -, -, rfl⟩
    · exact h
    · exact h.trans (.inr (.inr ⟨hstatus, rfl⟩))
    · exact .inr (.inl rfl)
    · exact .inr (.inl rfl)
  handle header reply m h := by
    rcases hhandle : m.handle header reply with ⟨result, m'⟩
    rcases handle_cases hhandle with ⟨-, rfl⟩ | ⟨-, -, -, rfl⟩ | ⟨-, -, -, -, rfl⟩ |
      ⟨-, -, -, -, rfl⟩
    · exact h
    · exact h
    · exact .inr (.inl rfl)
    · exact .inr (.inl rfl)
  reset _ := .inr (.inl rfl)
  note _ _ _ h := h

theorem lasting_notStarted : Lasting fun m => m.status = .notStarted := by
  have heq (m : Motion) : m.status = .notStarted ↔ MotionStatus.notStarted.Leads m.status := by
    simp [MotionStatus.Leads]
  simpa only [heq] using lasting_leads .notStarted

end Motion
end ArmControl
