import ArmControl.Proofs.Recording

/-! # How a motion comes to its end

A motion that is `UnderWay` stays so from cycle to cycle.  Its end has two parts: `drain_cases` says
that the generator has come to rest only when a state has reported it after a finishing command, and
`awaitOutcome_cases` that the motion has succeeded only when a reply to its request has said so.
`finishMotion_cases` puts them together. -/

namespace ArmControl

/-- A finishing command was sent, and a state that was accepted afterwards reports no generator. -/
def Journal.Rests (last : Option UInt64) (j : Journal) : Prop :=
  ∃ (before after : Journal) (c : Command), j = before ++ .command c.encode :: after ∧
    c.motion.finished ∧ ∃ s ∈ after.accepted (before.lastId last), s.motionMode = .idle

theorem Journal.Rests.append_left {last : Option UInt64} {i j : Journal}
    (h : j.Rests (i.lastId last)) : Rests last (i ++ j) := by
  obtain ⟨before, after, c, rfl, hfinished, s, hs, hidle⟩ := h
  refine ⟨i ++ before, after, c, by simp, hfinished, s, ?_, hidle⟩
  rwa [Journal.lastId_append]

theorem Journal.Rests.append_right {last : Option UInt64} {i : Journal} (h : i.Rests last)
    (j : Journal) : Rests last (i ++ j) := by
  obtain ⟨before, after, c, rfl, hfinished, s, hs, hidle⟩ := h
  exact ⟨before, after ++ j, c, by simp, hfinished, s, mem_accepted_left hs j, hidle⟩

/-- The final status on record is that of the motion `id`, told in `j`. -/
def Journal.Tells (id : UInt32) (j : Journal) (outcome : Option MoveStatus) : Prop :=
  outcome = none ∨ outcome = some .success ∧ .move .success ∈ j.repliesTo .move id

theorem Motion.Credits.tells {m : Motion} {id : UInt32} {i j : Journal}
    {outcome : Option MoveStatus} (h : m.Credits j outcome) (htells : i.Tells id m.outcome)
    (hcurrent : m.current = some id) : Journal.Tells id (i ++ j) outcome := by
  unfold Journal.Tells
  rw [Journal.repliesTo_append, List.mem_append]
  rcases h with rfl | ⟨rfl, id', hid', hmem⟩
  · exact htells.imp_right (And.imp_right .inl)
  · rw [hcurrent] at hid'
    exact .inr ⟨rfl, .inr (Option.some.inj hid' ▸ hmem)⟩

namespace Engine

variable {e e' : Engine} {id : UInt32} {j : Journal}

/-! ### A motion under way -/

/-- The motion `id` is in progress with its generator running; its success is on record only if `j`
tells of it. -/
structure UnderWay (id : UInt32) (j : Journal) (e : Engine) : Prop where
  running : e.motion.status = .running
  current : e.motion.current = some id
  tells : j.Tells id e.motion.outcome
  state : e.lastState ≠ none

theorem UnderWay.append (h : UnderWay id j e) {i : Journal} (hpassage : Passage e i e')
    (hmotion : e'.motion = e.motion) : UnderWay id (j ++ i) e' where
  running := hmotion ▸ h.running
  current := hmotion ▸ h.current
  tells := Motion.Credits.tells (.inl (congrArg Motion.outcome hmotion)) h.tells h.current
  state := hpassage.lastState_ne_none h.state

variable {motion : Option MotionCommand} {torques : Option Torques}

/-- What a cycle has done that gave a state. -/
theorem update_ok_cases {s : State} (h : e.update motion torques = (.ok (some s), e')) :
    e.motion.deferred = none ∧ ∃ i j e₁ outcome lastCommand, Sends motion torques e i e₁ ∧
      Passage e (i ++ j) e' ∧ j.Silent ∧ j.accepted e.lastId = [s] ∧
      e.motion.Credits (i ++ j) outcome ∧
      Motion.observe s.motionMode { e.motion with outcome, lastCommand } = (.ok (), e'.motion) := by
  cases hdeferred : e.motion.deferred with
  | some err =>
      rw [update_of_deferred hdeferred] at h
      cases (Prod.mk.inj h).1
  | none =>
      rcases update_cases hdeferred h with ⟨_, hclosed, -⟩ | ⟨i, e₁, hsends, hpoll⟩
      · cases hclosed
      · obtain ⟨j, outcome, hpassage, hsilent, hcredits, hpolled⟩ := poll_cases hpoll
        obtain ⟨lastCommand, hmotion⟩ := hsends.motion_eq
        have hlast : e₁.lastId = e.lastId := by
          rw [hsends.passage.lastId, Journal.lastId_of_events_nil hsends.quiet.2]
        rw [hmotion] at hcredits hpolled
        rw [hlast] at hpolled
        cases hpolled with
        | state haccepted hobserve =>
            exact ⟨rfl, i, j, e₁, outcome, lastCommand, hsends, hsends.passage.trans hpassage,
              hsilent, haccepted, .trans (.inl rfl) hcredits rfl rfl, hobserve⟩

theorem update_isRefusal {err : SessionError} (h : e.update motion torques = (.error err, e'))
    (hdeferred : e.motion.deferred = none) : err.isRefusal = false := by
  rcases update_cases hdeferred h with ⟨_, hclosed, -⟩ | ⟨_, _, -, hpoll⟩
  · cases hclosed
    rfl
  · exact poll_isRefusal hpoll

theorem Sends.accepted {i j : Journal} {e₁ : Engine} (h : Sends motion torques e i e₁) :
    (i ++ j).accepted e.lastId = j.accepted e.lastId := by
  simp [Journal.accepted, Journal.states, h.quiet.2]

/-- A cycle that gives a state leaves the motion under way. -/
theorem UnderWay.update {s : State} (h : UnderWay id j e)
    (hupdate : e.update motion torques = (.ok (some s), e')) :
    e.motion.deferred = none ∧ e'.motion.deferred = none ∧ ∃ i, Passage e i e' ∧ i.attempts = [] ∧
      i.accepted e.lastId = [s] ∧ UnderWay id (j ++ i) e' := by
  obtain ⟨hdeferred, i₁, i₂, e₁, outcome, lastCommand, hsends, hpassage, hsilent, haccepted,
    hcredits, hobserve⟩ := update_ok_cases hupdate
  have hmotion : e'.motion = { e.motion with outcome, lastCommand } := by
    rcases Motion.observe_cases hobserve with ⟨-, h', -⟩ | ⟨-, h', -⟩ | ⟨-, h', -⟩ | ⟨_, h', -⟩
    · exact h'
    · simp [h.running] at h'
    · simp [h.running] at h'
    · cases h'
  refine ⟨hdeferred, by rw [hmotion, hdeferred], i₁ ++ i₂, hpassage, ?_, ?_, ⟨?_, ?_, ?_, ?_⟩⟩
  · exact (Journal.attempts_append_of_nil i₁ hsilent.1).trans hsends.quiet.1
  · rw [hsends.accepted, haccepted]
  · rw [hmotion]
    exact h.running
  · rw [hmotion]
    exact h.current
  · rw [hmotion]
    exact hcredits.tells h.tells h.current
  · exact hpassage.lastState_ne_none h.state

/-! ### Coming to rest -/

/-- How the wait for the rest of the generator ends: it rests, and no more is known of the motion
than that it is in progress and what its final status is; or it has failed. -/
inductive Drained (m : Motion) (last : Option UInt64) (j : Journal) :
    Except SessionError Unit → Motion → Prop
  | rests {outcome} : j.Rests last → m.Credits j outcome →
      Drained m last j (.ok ()) { current := m.current, outcome }
  | failed {err m'} : (m.deferred = none → err.isRefusal = false) → Drained m last j (.error err) m'

theorem drain_of_rest {finishing : MotionCommand} (h : e.motion.status = .notStarted) :
    e.drain finishing torques = (.ok (), e) := by
  rw [drain]
  simp [h]

theorem drain_cases {finishing : MotionCommand} {result : Except SessionError Unit}
    (h : e.drain finishing torques = (result, e')) (hstopping : e.motion.status = .stopping)
    (hstate : e.lastState ≠ none) :
    ∃ j, Passage e j e' ∧ j.attempts = [] ∧ Drained e.motion e.lastId j result e'.motion := by
  fun_induction drain finishing torques e with
  | case1 e _ s e₁ hupdate ih =>
      obtain ⟨hdeferred, i₁, i₂, e₂, outcome, lastCommand, hsends, hpassage, hsilent, haccepted,
        hcredits, hobserve⟩ := update_ok_cases hupdate
      have hattempts : (i₁ ++ i₂).attempts = [] :=
        (Journal.attempts_append_of_nil i₁ hsilent.1).trans hsends.quiet.1
      rcases Motion.observe_cases hobserve with ⟨-, hmotion, -⟩ | ⟨-, h', -⟩ |
        ⟨-, -, hidle, hmotion⟩ | ⟨_, h', -⟩
      · -- no state has reported the end of the generator yet
        obtain ⟨j, hpassage', hattempts', hdrained⟩ := ih h (by rw [hmotion]; exact hstopping)
          (hpassage.lastState_ne_none hstate)
        refine ⟨_, hpassage.trans hpassage',
          (Journal.attempts_append_of_nil (i₁ ++ i₂) hattempts').trans hattempts, ?_⟩
        rw [hmotion, hpassage.lastId] at hdrained
        generalize e'.motion = m' at hdrained
        cases hdrained with
        | rests hrests hcredits' =>
            exact .rests hrests.append_left (hcredits.trans hcredits' rfl rfl)
        | failed hrefusal => exact .failed hrefusal
      · simp [hstopping] at h'
      · -- the state that ended the wait reports it
        rw [drain_of_rest (by rw [hmotion]; rfl)] at h
        obtain ⟨rfl, rfl⟩ := Prod.mk.inj h
        refine ⟨_, hpassage, hattempts, ?_⟩
        have hrests : Journal.Rests e.lastId (i₁ ++ i₂) := by
          cases hsends with
          | nothing hnothing => simp [hstate, hstopping] at hnothing
          | command _ hc _ _ _ =>
              refine ⟨[], _, _, rfl, ?_, s, ?_, hidle⟩
              · simp [hc, hstopping, compose, MotionCommand.finish]
              · change s ∈ i₂.accepted e.lastId
                rw [haccepted]
                exact List.mem_singleton_self s
        rw [hmotion]
        simp only [Motion.reset, hdeferred]
        exact .rests hrests hcredits
      · cases h'
  | case2 e _ e₁ hupdate =>
      obtain ⟨rfl, rfl⟩ := Prod.mk.inj h
      obtain ⟨j, hpassage, hattempts, -⟩ := update_passage hupdate
      exact ⟨j, hpassage, hattempts, .failed fun _ => rfl⟩
  | case3 e _ err e₁ hupdate =>
      obtain ⟨rfl, rfl⟩ := Prod.mk.inj h
      obtain ⟨j, hpassage, hattempts, -⟩ := update_passage hupdate
      exact ⟨j, hpassage, hattempts, .failed (update_isRefusal hupdate)⟩
  | case4 e hrest => exact absurd hstopping hrest

/-! ### The final status -/

/-- How the wait for the final status of the motion `id` ends, which is all that is left of it. -/
inductive Settled (id : UInt32) (j : Journal) : Except SessionError Unit → Motion → Prop
  | success : .move .success ∈ j.repliesTo .move id → Settled id j (.ok ()) {}
  | failed {err m'} : err.isRefusal = false → Settled id j (.error err) m'

theorem judgeOutcome_cases {event : Event} {result : Option (Except SessionError Unit)}
    {m' : Motion} (h : judgeOutcome id event { current := some id } = (result, m')) :
    (result = none ∧ m' = { current := some id }) ∨
    (∃ header, event = .reply header (.move .success) ∧ header.id = id ∧ result = some (.ok ()) ∧
      m' = {}) ∨
    ∃ err, result = some (.error err) ∧ err.isRefusal = false := by
  have hsettle : Motion.settle id { current := some id } = (none, { current := some id }) := by
    simp [Motion.settle]
  cases event with
  | state s =>
      have hobserve : Motion.observe s.motionMode { current := some id } =
          (.ok (), { current := some id }) := Motion.observe_of_notStarted rfl s.motionMode
      simp only [judgeOutcome, hobserve, hsettle] at h
      obtain ⟨rfl, rfl⟩ := Prod.mk.inj h
      exact .inl ⟨rfl, rfl⟩
  | reply header reply =>
      rcases hhandle : Motion.handle header reply { current := some id } with ⟨handled, m₁⟩
      simp only [judgeOutcome, hhandle] at h
      rcases Motion.handle_cases hhandle with ⟨rfl, rfl⟩ | ⟨rfl, rfl, hid, rfl⟩ | ⟨_, -, -, h', -⟩ |
        ⟨err, rfl, hrefusal, -⟩
      · simp only [hsettle] at h
        obtain ⟨rfl, rfl⟩ := Prod.mk.inj h
        exact .inl ⟨rfl, rfl⟩
      · obtain ⟨rfl, rfl⟩ := Prod.mk.inj h
        exact .inr (.inl ⟨header, rfl, (Option.some.inj hid).symm, rfl, rfl⟩)
      · exact absurd rfl h'
      · obtain ⟨rfl, rfl⟩ := Prod.mk.inj h
        exact .inr (.inr ⟨err, rfl, hrefusal⟩)

theorem awaitOutcome_cases {outcome : Option MoveStatus} {i : Journal}
    {result : Except SessionError Unit} (h : e.awaitOutcome id = (result, e'))
    (hmotion : e.motion = { current := some id, outcome }) (htells : i.Tells id outcome) :
    ∃ j, Passage e j e' ∧ j.Silent ∧ Settled id (i ++ j) result e'.motion := by
  unfold awaitOutcome at h
  rcases htells with rfl | ⟨rfl, hmem⟩
  · simp only [hmotion, Motion.settle, if_true] at h
    have hwait := wait_rule (judgeOutcome id) (.error .closed)
      (e.withMotion { current := some id }) (I := fun _ e => e.motion = { current := some id })
      (Q := fun result j e => Settled id j result e.motion) ?broken ?stale ?passed ?decided i rfl
    · rw [h] at hwait
      obtain ⟨j, hpassage, hsilent, hsettled⟩ := hwait
      exact ⟨_, hpassage.of_withMotion, Journal.silent_nil.append hsilent,
        hsettled⟩
    case broken =>
      rintro j e₁ entry e₂ result hI hreceives hevent (rfl | ⟨err, rfl, hfatal⟩)
      · exact .failed rfl
      · exact .failed (SessionError.isRefusal_of_isFatal hfatal)
    case stale =>
      intro j e₁ entry e₂ s hI hreceives hevent hstale
      exact hreceives.motion.trans hI
    case passed =>
      intro j e₁ entry e₂ event m hI hreceives hevent hnews hj
      rw [hI] at hj
      rcases judgeOutcome_cases hj with ⟨-, hm⟩ | ⟨_, -, -, h', -⟩ | ⟨_, h', -⟩
      · exact hm
      · cases h'
      · cases h'
    case decided =>
      intro j e₁ entry e₂ event result m hI hreceives hevent hnews hj
      rw [hI] at hj
      rcases judgeOutcome_cases hj with ⟨h', -⟩ | ⟨header, rfl, rfl, h', rfl⟩ | ⟨err, h', hrefusal⟩
      · cases h'
      · cases h'
        refine .success ?_
        refine Journal.mem_repliesTo_right j ?_
        rw [repliesTo_of_reply hevent]
        simp [Reply.kind]
      · cases h'
        exact .failed hrefusal
  · simp only [hmotion, Motion.settle] at h
    obtain ⟨rfl, rfl⟩ := Prod.mk.inj h
    exact ⟨[], (Passage.refl e).withMotion _, Journal.silent_nil, .success (by simpa using hmem)⟩

/-! ### Both together -/

/-- How the end of the motion `id` ends, of which `i` has told so far. -/
inductive Finished (e : Engine) (id : UInt32) (i j : Journal) :
    Except SessionError Unit → Motion → Prop
  | success : j.Rests e.lastId → .move .success ∈ (i ++ j).repliesTo .move id →
      Finished e id i j (.ok ()) {}
  | failed {err m'} : (e.motion.deferred = none → err.isRefusal = false) →
      Finished e id i j (.error err) m'

theorem finishMotion_cases {i : Journal} {result : Except SessionError Unit}
    (h : e.finishMotion id motion torques = (result, e')) (hway : UnderWay id i e) :
    ∃ j, Passage e j e' ∧ j.attempts = [] ∧ Finished e id i j result e'.motion := by
  let e₀ := e.withMotion (e.motion.exchange .running .stopping)
  have hmotion : e₀.motion = { e.motion with status := .stopping } := by
    simp [e₀, withMotion, Motion.exchange_of_eq hway.running]
  have hpassage₀ : Passage e [] e₀ := (Passage.refl e).withMotion _
  simp only [finishMotion, hway.current, ne_eq, not_true_eq_false, if_false] at h
  generalize motion.getD _ = last at h
  rcases hdrain : e₀.drain last.finish torques with ⟨drained, e₁⟩
  obtain ⟨j₁, hpassage₁, hattempts, hdrained⟩ := drain_cases hdrain (by rw [hmotion]) hway.state
  rw [hdrain] at h
  rw [hmotion] at hdrained
  generalize hm : e₁.motion = m₁ at hdrained
  cases hdrained with
  | failed hrefusal =>
      obtain ⟨rfl, rfl⟩ := Prod.mk.inj h
      exact ⟨_, hpassage₀.trans hpassage₁, hattempts, .failed hrefusal⟩
  | rests hrests hcredits =>
      have htells := hcredits.tells hway.tells hway.current
      rw [hway.current] at hm
      obtain ⟨j₂, hpassage₂, hsilent, hsettled⟩ := awaitOutcome_cases h hm htells
      refine ⟨_, (hpassage₀.trans hpassage₁).trans hpassage₂, ?_, ?_⟩
      · exact (Journal.attempts_append_of_nil j₁ hsilent.1).trans hattempts
      · generalize e'.motion = m' at hsettled
        cases hsettled with
        | success hmem => exact .success (hrests.append_right j₂) (by rwa [← List.append_assoc])
        | failed hrefusal => exact .failed fun _ => hrefusal

/-! ### Any end -/

theorem drain_passage (finishing : MotionCommand) (torques : Option Torques) (e : Engine) :
    ∃ j, Passage e j (e.drain finishing torques).2 ∧ j.attempts = [] := by
  fun_induction drain finishing torques e with
  | case1 e _ s e₁ hupdate ih =>
      obtain ⟨j₁, hpassage₁, hattempts₁, -⟩ := update_passage hupdate
      obtain ⟨j₂, hpassage₂, hattempts₂⟩ := ih
      exact ⟨_, hpassage₁.trans hpassage₂,
        (Journal.attempts_append_of_nil j₁ hattempts₂).trans hattempts₁⟩
  | case2 e _ e₁ hupdate =>
      obtain ⟨j, hpassage, hattempts, -⟩ := update_passage hupdate
      exact ⟨j, hpassage, hattempts⟩
  | case3 e _ err e₁ hupdate =>
      obtain ⟨j, hpassage, hattempts, -⟩ := update_passage hupdate
      exact ⟨j, hpassage, hattempts⟩
  | case4 e _ => exact ⟨[], .refl e, rfl⟩

theorem awaitOutcome_passage (id : UInt32) (e : Engine) :
    ∃ j, Passage e j (e.awaitOutcome id).2 ∧ j.Silent := by
  unfold awaitOutcome
  split
  · exact ⟨[], (Passage.refl e).withMotion _, Journal.silent_nil⟩
  · rename_i m _
    obtain ⟨j, hpassage, hsilent⟩ :=
      wait_passage (judgeOutcome id) (.error .closed) (e.withMotion m)
    exact ⟨_, ((Passage.refl e).withMotion m).trans hpassage, Journal.silent_nil.append hsilent⟩

/-- The end of a motion tries no request. -/
theorem finishMotion_passage (id : UInt32) (motion : Option MotionCommand)
    (torques : Option Torques) (e : Engine) :
    ∃ j, Passage e j (e.finishMotion id motion torques).2 ∧ j.attempts = [] := by
  unfold finishMotion
  split
  · exact ⟨[], .refl e, rfl⟩
  · simp only
    generalize motion.getD _ = last
    have hpassage₀ : Passage e [] (e.withMotion (e.motion.exchange .running .stopping)) :=
      (Passage.refl e).withMotion _
    obtain ⟨j₁, hpassage₁, hattempts⟩ := drain_passage last.finish torques
      (e.withMotion (e.motion.exchange .running .stopping))
    split <;> (rename_i hdrain; rw [hdrain] at hpassage₁)
    · exact ⟨_, hpassage₀.trans hpassage₁, hattempts⟩
    · obtain ⟨j₂, hpassage₂, hsilent⟩ := awaitOutcome_passage id _
      exact ⟨_, (hpassage₀.trans hpassage₁).trans hpassage₂,
        (Journal.attempts_append_of_nil j₁ hsilent.1).trans hattempts⟩

end Engine
end ArmControl
