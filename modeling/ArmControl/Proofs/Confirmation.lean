import ArmControl.Proofs.Lasting

/-! # What a confirmation tells

The engine counts a generator as running, and a controller as chosen, only once a state that is
newer than the request says so.  `confirmGenerator_cases` and `setController_cases` give that
state: it is among those that were accepted in the meantime.  A generator that is not confirmed is
gone. -/

namespace ArmControl

theorem Motion.Credits.trans {m m' : Motion} {a b : Journal} {o o' : Option MoveStatus}
    (h : m.Credits a o) (h' : m'.Credits b o') (hcurrent : m'.current = m.current)
    (houtcome : m'.outcome = o) : m.Credits (a ++ b) o' := by
  rcases h' with rfl | ⟨rfl, id, hid, hmem⟩
  · exact houtcome ▸ h.append b
  · exact .inr ⟨rfl, id, hcurrent ▸ hid, Journal.mem_repliesTo_right a hmem⟩

namespace Engine

variable {e e' : Engine} {j : Journal} {s : State}

/-! ### Newer states -/

theorem Passage.lastState_mem (h : Passage e j e') (hne : j.accepted e.lastId ≠ []) :
    ∃ s, e'.lastState = some s ∧ s ∈ j.accepted e.lastId := by
  obtain ⟨s, hs⟩ := Option.ne_none_iff_exists'.1 (mt List.getLast?_eq_none_iff.1 hne)
  exact ⟨s, by rw [h.lastState, hs]; rfl, List.mem_of_getLast? hs⟩

/-- A last state that is newer than the one before a passage was accepted on the way. -/
theorem Passage.mem_accepted (h : Passage e j e') (hs : e'.lastState = some s)
    (hnew : newerThan e.lastId s) : s ∈ j.accepted e.lastId := by
  by_cases hne : j.accepted e.lastId = []
  · have hlast : e.lastState = some s := by rw [← hs, h.lastState, hne]; rfl
    have hid : e.lastId = some s.messageId := by rw [Engine.lastId, hlast]; rfl
    rw [hid] at hnew
    exact absurd (of_decide_eq_true hnew) (UInt64.lt_irrefl _)
  · obtain ⟨t, ht, hmem⟩ := h.lastState_mem hne
    rw [hs] at ht
    exact Option.some.inj ht ▸ hmem

theorem Passage.lastState_of_accepted_nil (h : Passage e j e')
    (haccepted : j.accepted e.lastId = []) : e'.lastState = e.lastState := by
  rw [h.lastState, haccepted]
  rfl

theorem Passage.lastState_of_accepted (h : Passage e j e') (haccepted : j.accepted e.lastId = [s]) :
    e'.lastState = some s := by
  rw [h.lastState, haccepted]
  rfl

theorem Passage.lastState_ne_none (h : Passage e j e') (hlast : e.lastState ≠ none) :
    e'.lastState ≠ none := by
  rw [h.lastState]
  cases (j.accepted e.lastId).getLast? with
  | none => exact hlast
  | some s => exact Option.some_ne_none s

/-! ### The generator -/

theorem Polled.isRefusal {accepted : List State} {m m' : Motion} {err : SessionError}
    (h : Polled accepted m (.error err) m') : err.isRefusal = false := by
  cases h with
  | broken _ hfatal => exact SessionError.isRefusal_of_isFatal hfatal
  | mismatch _ hobserve =>
      rcases Motion.observe_cases hobserve with ⟨h, -⟩ | ⟨h, -⟩ | ⟨h, -⟩ | ⟨_, h, hrefusal, -⟩
      · cases h
      · cases h
      · cases h
      · cases h
        exact hrefusal
  | rejected _ hhandle =>
      rcases Motion.handle_cases hhandle with ⟨h, -⟩ | ⟨h, -⟩ | ⟨_, h, hrefusal, -⟩ |
        ⟨_, h, hrefusal, -⟩
      · cases h
      · cases h
      · cases h
        exact hrefusal
      · cases h
        exact hrefusal

/-- How the wait for the confirmation of a generator ends: it runs, and nothing else about the
motion has changed than that its success may be on record; or there is none any more. -/
inductive Awaited (m : Motion) (j : Journal) (accepted : List State) :
    Except SessionError Unit → Motion → Prop
  | confirmed {outcome} : m.Credits j outcome →
      (m.status = .running ∨ ∃ s ∈ accepted, s.motionMode = m.expected) →
      Awaited m j accepted (.ok ()) { m with status := .running, outcome }
  | failed {err m'} : m'.status = .notStarted → (m.deferred = none → err.isRefusal = false) →
      Awaited m j accepted (.error err) m'

theorem Awaited.mono {m m' : Motion} {a a' : List State} {result : Except SessionError Unit}
    (h : Awaited m j a result m') (i : Journal) (hsub : a ⊆ a') :
    Awaited m (i ++ j) a' result m' := by
  cases h with
  | confirmed hcredits hrunning =>
      refine .confirmed (.trans (.inl rfl) hcredits rfl rfl) (hrunning.imp_right ?_)
      rintro ⟨s, hs, hmode⟩
      exact ⟨s, hsub hs, hmode⟩
  | failed hnone hrefusal => exact .failed hnone hrefusal

theorem awaitGenerator_cases {result : Except SessionError Unit}
    (h : e.awaitGenerator = (result, e')) (hstatus : e.motion.status ≠ .stopping) :
    ∃ j, Passage e j e' ∧ j.Silent ∧ Awaited e.motion j (j.accepted e.lastId) result e'.motion := by
  fun_induction awaitGenerator e with
  | case1 e hrunning =>
      obtain ⟨rfl, rfl⟩ := Prod.mk.inj h
      refine ⟨[], .refl e, Journal.silent_nil, ?_⟩
      have hconfirmed : Awaited e.motion [] (Journal.accepted e.lastId []) (.ok ())
          { e.motion with status := .running, outcome := e.motion.outcome } :=
        .confirmed (.inl rfl) (.inl hrunning)
      rwa [← hrunning] at hconfirmed
  | case2 e hstarting e₁ hlook =>
      obtain ⟨rfl, rfl⟩ := Prod.mk.inj h
      exact ⟨[], (look_eq hlook).2.withMotion _, Journal.silent_nil, .failed rfl fun _ => rfl⟩
  | case3 e hstarting e₁ hlook s e₂ hpoll ih =>
      obtain ⟨hmotion, hpassage₁⟩ := look_eq hlook
      obtain ⟨j₂, outcome, hpassage₂, hsilent₂, hcredits, hpolled⟩ := poll_cases hpoll
      rw [hmotion] at hcredits hpolled
      rw [hpassage₁.lastId] at hpolled
      generalize hm : e₂.motion = m₂ at hpolled
      cases hpolled with
      | state haccepted hobserve =>
          have hsame : ∃ status, m₂ = { e.motion with status, outcome } ∧ status ≠ .stopping ∧
              (status = .running → s.motionMode = e.motion.expected) := by
            rcases Motion.observe_cases hobserve with ⟨-, rfl, -⟩ | ⟨-, -, hmode, rfl⟩ |
              ⟨-, h, -⟩ | ⟨_, h, -⟩
            · exact ⟨.starting, by rw [← hstarting], by simp, by simp⟩
            · exact ⟨.running, rfl, by simp, fun _ => hmode⟩
            · simp [hstarting] at h
            · cases h
          obtain ⟨status, rfl, hne, hmode⟩ := hsame
          obtain ⟨j₃, hpassage₃, hsilent₃, hawaited⟩ := ih h (hm ▸ hne)
          have hpassage := hpassage₁.trans hpassage₂
          refine ⟨_, hpassage.trans hpassage₃,
            (Journal.silent_nil.append hsilent₂).append hsilent₃, ?_⟩
          rw [Journal.accepted_append, ← hpassage.lastId]
          rw [hm] at hawaited
          generalize e'.motion = m' at hawaited
          cases hawaited with
          | confirmed hcredits' hrunning =>
              refine .confirmed (hcredits.trans hcredits' rfl rfl) (.inr ?_)
              rcases hrunning with hrunning | ⟨t, ht, hmodet⟩
              · refine ⟨s, List.mem_append_left _ ?_, hmode hrunning⟩
                exact haccepted ▸ List.mem_singleton_self s
              · exact ⟨t, List.mem_append_right _ ht, hmodet⟩
          | failed hnone hrefusal => exact .failed hnone hrefusal
  | case4 e hstarting e₁ hlook e₂ hpoll =>
      obtain ⟨rfl, rfl⟩ := Prod.mk.inj h
      obtain ⟨j, outcome, hpassage, hsilent, -⟩ := poll_cases hpoll
      exact ⟨_, ((look_eq hlook).2.trans hpassage).withMotion _, Journal.silent_nil.append hsilent,
        .failed rfl fun _ => rfl⟩
  | case5 e hstarting e₁ hlook err e₂ hpoll =>
      obtain ⟨rfl, rfl⟩ := Prod.mk.inj h
      obtain ⟨j, outcome, hpassage, hsilent, -, hpolled⟩ := poll_cases hpoll
      exact ⟨_, ((look_eq hlook).2.trans hpassage).withMotion _, Journal.silent_nil.append hsilent,
        .failed rfl fun _ => hpolled.isRefusal⟩
  | case6 e hrunning hstarting =>
      obtain ⟨rfl, rfl⟩ := Prod.mk.inj h
      refine ⟨[], (Passage.refl e).withMotion _, Journal.silent_nil, .failed ?_ ?_⟩
      · cases hs : e.motion.status with
        | notStarted => exact hs
        | starting => exact absurd hs hstarting
        | running => exact absurd hs hrunning
        | stopping => exact absurd hs hstatus
      · intro hdeferred
        rw [hdeferred]
        rfl

/-- The last state, if it is newer than `since`. -/
def news (since : Option UInt64) (e : Engine) : List State :=
  e.lastState.toList.filter (newerThan since)

theorem mem_news {since : Option UInt64} :
    s ∈ e.news since ↔ e.lastState = some s ∧ newerThan since s := by
  simp [news, Option.mem_toList]

theorem confirmGenerator_cases {since : Option UInt64} {result : Except SessionError Unit}
    (h : e.confirmGenerator since = (result, e')) (hstatus : e.motion.status = .starting) :
    ∃ j, Passage e j e' ∧ j.Silent ∧
      Awaited e.motion j (e.news since ++ j.accepted e.lastId) result e'.motion := by
  have hawait (h : e.awaitGenerator = (result, e')) : ∃ j, Passage e j e' ∧ j.Silent ∧
      Awaited e.motion j (e.news since ++ j.accepted e.lastId) result e'.motion := by
    obtain ⟨j, hpassage, hsilent, hawaited⟩ := awaitGenerator_cases h (by simp [hstatus])
    exact ⟨j, hpassage, hsilent, hawaited.mono [] fun s hs => List.mem_append_right _ hs⟩
  unfold confirmGenerator at h
  split at h
  · rename_i s hs
    split at h
    · rename_i hnew
      split at h
      · rename_i err m hobserve
        obtain ⟨rfl, rfl⟩ := Prod.mk.inj h
        refine ⟨[], (Passage.refl e).withMotion m, Journal.silent_nil, ?_⟩
        rcases Motion.observe_cases hobserve with ⟨herr, -⟩ | ⟨herr, -⟩ | ⟨herr, -⟩ |
          ⟨_, herr, hrefusal, -, -, rfl⟩
        · cases herr
        · cases herr
        · cases herr
        · cases herr
          exact .failed rfl fun _ => hrefusal
      · rename_i m hobserve
        rcases Motion.observe_cases hobserve with ⟨-, rfl, -⟩ | ⟨-, -, hmode, rfl⟩ | ⟨-, h, -⟩ |
          ⟨_, h, -⟩
        · exact hawait h
        · unfold awaitGenerator at h
          obtain ⟨rfl, rfl⟩ := Prod.mk.inj h
          refine ⟨[], (Passage.refl e).withMotion _, Journal.silent_nil, ?_⟩
          have hmem : s ∈ e.news since := mem_news.2 ⟨hs, hnew⟩
          exact .confirmed (.inl rfl) (.inr ⟨s, List.mem_append_left _ hmem, hmode⟩)
        · simp [hstatus] at h
        · cases h
    · exact hawait h
  · exact hawait h

/-- A state that is new after a passage was accepted on the way. -/
theorem Passage.mem_accepted_of_news (h : Passage e j e') (hs : s ∈ e'.news e.lastId) :
    s ∈ j.accepted e.lastId :=
  h.mem_accepted (mem_news.1 hs).1 (mem_news.1 hs).2

/-- What is new after one passage, or accepted in the next, was accepted in both together. -/
theorem Passage.mem_accepted_trans {a b : Journal} {e₁ : Engine} (h₁ : Passage e a e₁)
    (hs : s ∈ e₁.news e.lastId ++ b.accepted e₁.lastId) : s ∈ (a ++ b).accepted e.lastId := by
  rw [Journal.accepted_append, ← h₁.lastId]
  exact List.mem_append.2 ((List.mem_append.1 hs).imp_left h₁.mem_accepted_of_news)

/-! ### The controller -/

theorem poll_isRefusal {err : SessionError} (h : e.poll = (.error err, e')) :
    err.isRefusal = false := by
  obtain ⟨_, _, _, _, _, hpolled⟩ := poll_cases h
  exact hpolled.isRefusal

theorem awaitController_cases {mode : ControllerMode} {since : Option UInt64}
    {result : Except SessionError Unit} (h : e.awaitController mode since = (result, e')) :
    ∃ j, Passage e j e' ∧ j.Silent ∧
      ((result = .ok () ∧ ∃ s ∈ e'.news since, s.controllerMode = mode) ∨
        ∃ err, result = .error err ∧ err.isRefusal = false) := by
  fun_induction awaitController mode since e with
  | case1 e hconfirms =>
      obtain ⟨rfl, rfl⟩ := Prod.mk.inj h
      refine ⟨[], (Passage.refl e).setController _, Journal.silent_nil, .inl ⟨rfl, ?_⟩⟩
      unfold confirmsController at hconfirms
      split at hconfirms
      · rename_i s hs
        rw [Bool.and_eq_true, decide_eq_true_eq] at hconfirms
        exact ⟨s, mem_news.2 ⟨hs, hconfirms.1⟩, hconfirms.2⟩
      · cases hconfirms
  | case2 e hconfirms e₁ hlook =>
      obtain ⟨rfl, rfl⟩ := Prod.mk.inj h
      exact ⟨[], (look_eq hlook).2, Journal.silent_nil, .inr ⟨_, rfl, rfl⟩⟩
  | case3 e hconfirms e₁ hlook s e₂ hpoll ih =>
      obtain ⟨j₂, -, hpassage₂, hsilent₂, -⟩ := poll_cases hpoll
      obtain ⟨j₃, hpassage₃, hsilent₃, hresult⟩ := ih h
      exact ⟨_, ((look_eq hlook).2.trans hpassage₂).trans hpassage₃,
        (Journal.silent_nil.append hsilent₂).append hsilent₃, hresult⟩
  | case4 e hconfirms e₁ hlook e₂ hpoll =>
      obtain ⟨rfl, rfl⟩ := Prod.mk.inj h
      obtain ⟨j, -, hpassage, hsilent, -⟩ := poll_cases hpoll
      exact ⟨_, (look_eq hlook).2.trans hpassage, Journal.silent_nil.append hsilent,
        .inr ⟨_, rfl, rfl⟩⟩
  | case5 e hconfirms e₁ hlook err e₂ hpoll =>
      obtain ⟨rfl, rfl⟩ := Prod.mk.inj h
      obtain ⟨j, -, hpassage, hsilent, -⟩ := poll_cases hpoll
      exact ⟨_, (look_eq hlook).2.trans hpassage, Journal.silent_nil.append hsilent,
        .inr ⟨_, rfl, poll_isRefusal hpoll⟩⟩

theorem Executed.isRefusal {kind : FrameKind} {id : UInt32} {replies : List Reply}
    {err : SessionError} (h : Executed kind id replies (.error err)) : err.isRefusal = false := by
  cases h with
  | broken _ hfatal => exact SessionError.isRefusal_of_isFatal hfatal

/-- The choice of a controller tries one request and sends no command; once it has succeeded, the
last state is one that was accepted meanwhile. -/
theorem setController_cases {mode : ControllerMode} {result : Except SessionError Unit}
    (h : e.setController mode = (result, e')) :
    ∃ j, Passage e j e' ∧ j.attempts = [(Request.setController mode).encode e.session.nextId] ∧
      j.commands = [] ∧
      ((result = .ok () ∧
          ∃ s, e'.lastState = some s ∧ s ∈ j.accepted e.lastId ∧ s.controllerMode = mode) ∨
        ∃ err, result = .error err ∧ err.isRefusal = false) := by
  unfold setController at h
  rcases hexecute : e.execute (.setController mode) with ⟨answer, e₁⟩
  obtain ⟨j₁, hpassage₁, hattempts, hcommands, hexecuted⟩ := execute_cases hexecute
  simp only [hexecute] at h
  split at h
  · rename_i err e₂ heq
    obtain ⟨rfl, rfl⟩ := Prod.mk.inj heq
    obtain ⟨rfl, rfl⟩ := Prod.mk.inj h
    exact ⟨j₁, hpassage₁, hattempts, hcommands, .inr ⟨_, rfl, hexecuted.isRefusal⟩⟩
  · rename_i e₂ heq
    obtain ⟨rfl, rfl⟩ := Prod.mk.inj heq
    obtain ⟨j₂, hpassage₂, hsilent, hresult⟩ := awaitController_cases h
    have hpassage := hpassage₁.trans hpassage₂
    refine ⟨_, hpassage, ?_, ?_, hresult.imp ?_ id⟩
    · exact (Journal.attempts_append_of_nil j₁ hsilent.1).trans hattempts
    · exact (Journal.commands_append_of_nil j₁ hsilent.2).trans hcommands
    · rintro ⟨rfl, s, hs, hmode⟩
      exact ⟨rfl, s, (mem_news.1 hs).1, hpassage.mem_accepted_of_news hs, hmode⟩
  · rename_i e₂ _ heq
    obtain ⟨rfl, rfl⟩ := Prod.mk.inj heq
    obtain ⟨rfl, rfl⟩ := Prod.mk.inj h
    exact ⟨j₁, hpassage₁, hattempts, hcommands, .inr ⟨_, rfl, rfl⟩⟩

end Engine
end ArmControl
