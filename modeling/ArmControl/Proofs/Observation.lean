import ArmControl.Motion.Basic

/-! # How states and replies change a motion

A state that is observed and a reply that is handled leave the motion as it is, advance it, or end
it with an error.  `observe_cases` and `handle_cases` list what can come of each; all that is said
about the motion elsewhere goes through them.

While no generator is active and no motion is in progress neither changes anything
(`observe_of_notStarted`, `handle_of_inert`). -/

namespace ArmControl

/-- The caller asked for something that another operation or motion excludes. -/
def SessionError.isRefusal : SessionError → Bool
  | .conflict _ => true
  | .motion .alreadyMoving => true
  | _ => false

theorem SessionError.isRefusal_of_isFatal {err : SessionError} (h : err.isFatal) :
    err.isRefusal = false := by
  cases err <;> simp_all [isFatal, isRefusal]

namespace Motion

variable {m m' : Motion} {mode : MotionMode} {header : Header} {reply : Reply}
  {result : Except SessionError Unit}

theorem observe_cases (h : m.observe mode = (result, m')) :
    (result = .ok () ∧ m' = m ∧ (m.status = .starting → mode ≠ m.expected) ∧
      (m.status = .running → mode = m.expected) ∧ (m.status = .stopping → mode ≠ .idle)) ∨
    (result = .ok () ∧ m.status = .starting ∧ mode = m.expected ∧
      m' = { m with status := .running }) ∨
    (result = .ok () ∧ m.status = .stopping ∧ mode = .idle ∧ m' = m.reset) ∨
    (∃ err, result = .error err ∧ err.isRefusal = false ∧
      (m.status = .starting ∨ m.status = .running) ∧ mode ≠ m.expected ∧ m' = m.reset) := by
  unfold observe at h
  cases hs : m.status with
  | notStarted =>
      simp only [hs, Prod.mk.injEq] at h
      obtain ⟨rfl, rfl⟩ := h
      simp
  | starting =>
      simp only [hs] at h
      split at h
      · rename_i hmode
        obtain ⟨rfl, rfl⟩ := Prod.mk.inj h
        simp [hmode]
      · rename_i hmode
        split at h
        · obtain ⟨rfl, rfl⟩ := Prod.mk.inj h
          simp [hmode]
        · obtain ⟨rfl, rfl⟩ := Prod.mk.inj h
          simp [hmode, SessionError.isRefusal]
  | running =>
      simp only [hs] at h
      split at h
      · rename_i hmode
        obtain ⟨rfl, rfl⟩ := Prod.mk.inj h
        simp [hmode]
      · rename_i hmode
        obtain ⟨rfl, rfl⟩ := Prod.mk.inj h
        simp [hmode, SessionError.isRefusal]
  | stopping =>
      simp only [hs] at h
      split at h
      · rename_i hmode
        obtain ⟨rfl, rfl⟩ := Prod.mk.inj h
        simp [hmode]
      · rename_i hmode
        obtain ⟨rfl, rfl⟩ := Prod.mk.inj h
        simp [hmode]

theorem handle_cases (h : m.handle header reply = (result, m')) :
    (result = .ok () ∧ m' = m) ∨
    (result = .ok () ∧ reply = .move .success ∧ m.current = some header.id ∧
      m' = { m with outcome := some .success }) ∨
    (∃ err, result = .error err ∧ err.isRefusal = false ∧ m.status ≠ .notStarted ∧ m' = m.reset) ∨
    (∃ err, result = .error err ∧ err.isRefusal = false ∧ m.current = some header.id ∧
      m' = { m with current := none }.reset) := by
  unfold handle at h
  split at h
  · obtain ⟨rfl, rfl⟩ := Prod.mk.inj h
    exact .inl ⟨rfl, rfl⟩
  · split at h
    · obtain ⟨rfl, rfl⟩ := Prod.mk.inj h
      exact .inl ⟨rfl, rfl⟩
    · rename_i hstatus
      obtain ⟨rfl, rfl⟩ := Prod.mk.inj h
      exact .inr (.inr (.inl ⟨_, rfl, rfl, hstatus, rfl⟩))
  · split at h
    · rename_i hcurrent
      split at h
      · obtain ⟨rfl, rfl⟩ := Prod.mk.inj h
        exact .inr (.inr (.inr ⟨_, rfl, rfl, hcurrent, rfl⟩))
      · split at h
        · rename_i hsuccess
          obtain ⟨rfl, rfl⟩ := Prod.mk.inj h
          exact .inr (.inl ⟨rfl, by rw [hsuccess], hcurrent, by rw [hsuccess]⟩)
        · obtain ⟨rfl, rfl⟩ := Prod.mk.inj h
          exact .inl ⟨rfl, rfl⟩
    · obtain ⟨rfl, rfl⟩ := Prod.mk.inj h
      exact .inl ⟨rfl, rfl⟩
  · obtain ⟨rfl, rfl⟩ := Prod.mk.inj h
    exact .inl ⟨rfl, rfl⟩

theorem observe_of_notStarted (h : m.status = .notStarted) (mode : MotionMode) :
    m.observe mode = (.ok (), m) := by
  simp [observe, h]

theorem handle_of_inert (h : m.status = .notStarted) (hcurrent : m.current = none)
    (header : Header) (reply : Reply) : m.handle header reply = (.ok (), m) := by
  rcases hresult : m.handle header reply with ⟨result, m'⟩
  rcases handle_cases hresult with ⟨rfl, rfl⟩ | ⟨-, -, hid, -⟩ | ⟨-, -, -, hstatus, -⟩ |
    ⟨-, -, -, hid, -⟩
  · rfl
  · simp [hcurrent] at hid
  · exact absurd h hstatus
  · simp [hcurrent] at hid

theorem exchange_of_eq {a : MotionStatus} (h : m.status = a) (b : MotionStatus) :
    m.exchange a b = { m with status := b } := by
  simp [exchange, MotionStatus.exchange, h]

theorem exchange_of_ne {a : MotionStatus} (h : m.status ≠ a) (b : MotionStatus) :
    m.exchange a b = m := by
  simp [exchange, MotionStatus.exchange, h]

/-- Deferring a check comes to the motion after the check, up to the error that is kept. -/
theorem defer_cases (checked : Except SessionError Unit × Motion) :
    ∃ deferred, defer checked = { checked.2 with deferred } := by
  obtain ⟨result, m⟩ := checked
  cases result with
  | ok _ => exact ⟨m.deferred, rfl⟩
  | error err => exact ⟨m.deferred <|> some err, rfl⟩

end Motion
end ArmControl
