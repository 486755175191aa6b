import ArmControl.Proofs.Decision
import ArmControl.Proofs.Exclusion
import ArmControl.Proofs.Obedience

/-! # The success of a motion

An engine has on record whether the motion in progress has succeeded.  As long as a motion is in
progress, its success is on record just if it was before or was told by a reply to its request, and
that is so of whatever the engine does (`Marks`).  When a motion is started nothing is on record but
what is told of it on the way (`startMotion_marks`), and no other motion is started before it is
over (`turn_marks`).  So its success is on record just if a reply has told it since it was started
(`success_told`). -/

namespace ArmControl

/-! ### The motion -/

namespace Motion

variable {id : UInt32} {m m' m'' : Motion} {told told' : Prop}

/-- If the motion `id` is in progress in the end it was so before, and its success is on record just
if it was before or has been told. -/
def Marks (id : UInt32) (m : Motion) (told : Prop) (m' : Motion) : Prop :=
  m'.current = some id →
    m.current = some id ∧ (m'.outcome = some .success ↔ m.outcome = some .success ∨ told)

theorem marks_of_eq (hcurrent : m'.current = m.current) (houtcome : m'.outcome = m.outcome)
    (htold : ¬ told) : m.Marks id told m' :=
  fun h => ⟨hcurrent ▸ h, by rw [houtcome, or_iff_left htold]⟩

/-- Nothing is said of a motion that is no longer in progress. -/
theorem marks_of_gone (h : m'.current = none) : m.Marks id told m' := by
  intro hcurrent
  rw [h] at hcurrent
  cases hcurrent

theorem Marks.trans (h₁ : m.Marks id told m') (h₂ : m'.Marks id told' m'') :
    m.Marks id (told ∨ told') m'' := by
  intro hcurrent
  obtain ⟨hcurrent₁, hlater⟩ := h₂ hcurrent
  obtain ⟨hcurrent₀, hfirst⟩ := h₁ hcurrent₁
  exact ⟨hcurrent₀, by rw [hlater, hfirst, or_assoc]⟩

theorem Marks.of_eq (h : m.Marks id told m') (hcurrent : m''.current = m'.current)
    (houtcome : m''.outcome = m'.outcome) : m.Marks id told m'' := by
  unfold Marks
  rw [hcurrent, houtcome]
  exact h

theorem Marks.defer {checked : Except SessionError Unit × Motion}
    (h : m.Marks id told checked.2) : m.Marks id told (defer checked) := by
  obtain ⟨deferred, hdefer⟩ := defer_cases checked
  rw [hdefer]
  exact h.of_eq rfl rfl

theorem Marks.of_gone_or_eq (h : m.Marks id told m')
    (hsettled : m''.current = none ∨ m'' = m') : m.Marks id told m'' := by
  rcases hsettled with hgone | rfl
  · exact marks_of_gone hgone
  · exact h

theorem observe_current_outcome (mode : MotionMode) (m : Motion) :
    (m.observe mode).2.current = m.current ∧ (m.observe mode).2.outcome = m.outcome := by
  rcases hobserve : m.observe mode with ⟨result, m'⟩
  rcases observe_cases hobserve with ⟨-, rfl, -⟩ | ⟨-, -, -, rfl⟩ | ⟨-, -, -, rfl⟩ |
    ⟨-, -, -, -, -, rfl⟩
  all_goals exact ⟨rfl, rfl⟩

/-- A motion is settled, and then it is over. -/
theorem settle_gone_or_eq (id : UInt32) (m : Motion) :
    (m.settle id).2.current = none ∨ (m.settle id).2 = m := by
  unfold settle
  split
  · exact .inl rfl
  · exact .inl rfl
  · split <;> exact .inr rfl

end Motion

namespace Engine

variable {e e' e₀ e₁ : Engine} {id : UInt32} {j : Journal} {entry : Entry} {header : Header}
  {reply : Reply}

/-- A reply to the request of a motion is read off the message that brought it. -/
theorem mem_repliesTo_move (hevent : entry.event? = some (.reply header reply))
    {status : MoveStatus} : .move status ∈ Journal.repliesTo .move id [entry] ↔
      reply = .move status ∧ header.id = id := by
  rw [repliesTo_of_reply hevent]
  by_cases hmatch : reply.kind = .move ∧ header.id = id
  · rw [if_pos hmatch, List.mem_singleton]
    exact ⟨fun heq => ⟨heq.symm, hmatch.2⟩, fun heq => heq.1.symm⟩
  · rw [if_neg hmatch]
    refine iff_of_false (by simp) fun heq => hmatch ⟨by rw [heq.1]; rfl, heq.2⟩

theorem marks_handle (id : UInt32) (hevent : entry.event? = some (.reply header reply))
    (m : Motion) : m.Marks id (.move .success ∈ Journal.repliesTo .move id [entry])
      (m.handle header reply).2 := by
  rw [mem_repliesTo_move hevent]
  by_cases hended : m.EndedBy header reply
  · rcases hended with ⟨⟨status, hstatus, rfl⟩, hactive⟩ | ⟨status, hfailure, rfl, hcurrent⟩
    · rw [Motion.handle_of_withdrawn hstatus hactive]
      exact Motion.marks_of_eq rfl rfl fun htold => by cases htold.1
    · rw [Motion.handle_of_failed hfailure hcurrent]
      exact Motion.marks_of_gone rfl
  · rw [Motion.handle_of_not_endedBy hended]
    by_cases hsucceeds : m.SucceedsBy header reply
    · rw [if_pos hsucceeds]
      intro hcurrent
      have hid : header.id = id := Option.some.inj (hsucceeds.2.symm.trans hcurrent)
      exact ⟨hcurrent, iff_of_true rfl (.inr ⟨hsucceeds.1, hid⟩)⟩
    · rw [if_neg hsucceeds]
      refine fun hcurrent => ⟨hcurrent, (or_iff_left ?_).symm⟩
      rintro ⟨hreply, hid⟩
      exact hsucceeds ⟨hreply, hid ▸ hcurrent⟩

theorem marks_observe (id : UInt32) {s : State} (hevent : entry.event? = some (.state s))
    (m : Motion) : m.Marks id (.move .success ∈ Journal.repliesTo .move id [entry])
      (m.observe s.motionMode).2 := by
  obtain ⟨hcurrent, houtcome⟩ := m.observe_current_outcome s.motionMode
  refine Motion.marks_of_eq hcurrent houtcome ?_
  rw [repliesTo_of_state hevent]
  exact List.not_mem_nil

theorem marks_judgeState {event : Event} (hevent : entry.event? = some event) (m : Motion) :
    m.Marks id (.move .success ∈ Journal.repliesTo .move id [entry]) (judgeState event m).2 := by
  cases event with
  | state s =>
      have h := marks_observe id hevent m
      simp only [judgeState]
      split <;> (rename_i hobserve; rwa [hobserve] at h)
  | reply header reply =>
      have h := marks_handle id hevent m
      simp only [judgeState]
      split <;> (rename_i hhandle; rwa [hhandle] at h)

/-- A reply that is awaited is not about a motion. -/
theorem marks_judgeReply {kind : FrameKind} (hkind : kind ≠ .move) (request : UInt32)
    {event : Event} (hevent : entry.event? = some event) (m : Motion) :
    m.Marks id (.move .success ∈ Journal.repliesTo .move id [entry])
      (judgeReply kind request event m).2 := by
  cases event with
  | state s => exact (marks_observe id hevent m).defer
  | reply header reply =>
      simp only [judgeReply]
      split
      · rename_i hawaited
        refine Motion.marks_of_eq rfl rfl fun htold => hkind ?_
        rw [mem_repliesTo_move hevent] at htold
        rw [← hawaited.1, ← Entry.kind_of_event? hevent, htold.1]
        rfl
      · exact (marks_handle id hevent m).defer

theorem marks_judgeOutcome (request : UInt32) {event : Event}
    (hevent : entry.event? = some event) (m : Motion) :
    m.Marks id (.move .success ∈ Journal.repliesTo .move id [entry])
      (judgeOutcome request event m).2 := by
  cases event with
  | state s =>
      have h := marks_observe id hevent m
      simp only [judgeOutcome]
      split <;> (rename_i hobserve; rw [hobserve] at h)
      · exact h
      · exact h.of_gone_or_eq (Motion.settle_gone_or_eq request _)
  | reply header reply =>
      have h := marks_handle id hevent m
      simp only [judgeOutcome]
      split <;> (rename_i hhandle; rw [hhandle] at h)
      · exact h
      · exact h.of_gone_or_eq (Motion.settle_gone_or_eq request _)

/-- While `j` was written the success of the motion `id` was put on record just if it was told, as
long as that motion is in progress. -/
structure Marks (id : UInt32) (e : Engine) (j : Journal) (e' : Engine) : Prop where
  passage : Passage e j e'
  marks : e.motion.Marks id (.move .success ∈ j.repliesTo .move id) e'.motion

/-- Nothing has arrived that could have told the success. -/
theorem marks_of_events_nil (hpassage : Passage e j e') (hevents : j.events = [])
    (hmarks : e.motion.Marks id False e'.motion) : Marks id e j e' := by
  refine ⟨hpassage, ?_⟩
  have hreplies : j.repliesTo .move id = [] := by simp [Journal.repliesTo, Journal.replies, hevents]
  rw [hreplies]
  simpa using hmarks

theorem marks_of_motion (e : Engine) {m : Motion} (h : e.motion.Marks id False m) :
    Marks id e [] (e.withMotion m) :=
  marks_of_events_nil ((Passage.refl e).withMotion m) rfl h

instance : Composes (Marks id) where
  refl e := marks_of_motion e (Motion.marks_of_eq rfl rfl not_false)
  trans h₁ h₂ := by
    refine ⟨h₁.passage.trans h₂.passage, ?_⟩
    rw [Journal.repliesTo_append, List.mem_append]
    exact h₁.marks.trans h₂.marks

/-- An entry is judged on its own. -/
theorem marks_wait {α : Type} {awaited : Option (FrameKind × UInt32)} {judge : Judge α}
    (ended : Except SessionError α)
    (h : ∀ {entry : Entry} {event : Event}, entry.event? = some event → ∀ m : Motion,
      m.Marks id (.move .success ∈ Journal.repliesTo .move id [entry]) (judge event m).2) :
    Procedure.Obeys (Marks id) (.wait awaited judge ended) := by
  intro e
  have hpassed {j : Journal} {e₁ e₂ : Engine} {entry : Entry} (hmarks : Marks id e j e₁)
      (hreceives : Receives e₁ entry e₂)
      (hnone : Journal.repliesTo .move id [entry] = []) : Marks id e (j ++ [entry]) e₂ := by
    refine Composes.trans hmarks ⟨hreceives.passage, ?_⟩
    exact Motion.marks_of_eq (by rw [hreceives.motion]) (by rw [hreceives.motion]) (by simp [hnone])
  have hjudged {j : Journal} {e₁ e₂ : Engine} {entry : Entry} {event : Event} {m : Motion}
      (hmarks : Marks id e j e₁) (hreceives : Receives e₁ entry e₂)
      (hevent : entry.event? = some event) (hm : (judge event e₁.motion).2 = m) :
      Marks id e (j ++ [entry]) (e₂.withMotion m) := by
    refine Composes.trans hmarks ⟨hreceives.passage.withMotion m, ?_⟩
    have hentry := h hevent e₁.motion
    rwa [hm] at hentry
  have hwait := wait_rule judge ended e (I := fun j e₁ => Marks id e j e₁)
    (Q := fun _ j e₁ => Marks id e j e₁) ?broken ?stale ?passed ?decided [] (Composes.refl e)
  · obtain ⟨j, -, -, hmarks⟩ := hwait
    exact ⟨j, hmarks⟩
  case broken =>
    intro j e₁ entry e₂ result hmarks hreceives hevent _
    exact hpassed hmarks hreceives (repliesTo_of_event_none hevent .move id)
  case stale =>
    intro j e₁ entry e₂ s hmarks hreceives hevent _
    exact hpassed hmarks hreceives (repliesTo_of_state hevent .move id)
  case passed =>
    intro j e₁ entry e₂ event m hmarks hreceives hevent _ hj
    exact hjudged hmarks hreceives hevent (congrArg Prod.snd hj)
  case decided =>
    intro j e₁ entry e₂ event result m hmarks hreceives hevent _ hj
    exact hjudged hmarks hreceives hevent (congrArg Prod.snd hj)

end Engine

/-! ### Procedures -/

namespace Procedure

open Engine

variable {id : UInt32}

theorem marks_check {α : Type} {f : Motion → α × Motion}
    (h : ∀ m, Motion.Marks id m False (f m).2) : Obeys (Marks id) (check f) :=
  fun e => ⟨[], marks_of_motion e (h e.motion)⟩

theorem marks_modify {f : Motion → Motion} (hcurrent : ∀ m, (f m).current = m.current)
    (houtcome : ∀ m, (f m).outcome = m.outcome) : Obeys (Marks id) (modify f) :=
  marks_check fun m => Motion.marks_of_eq (hcurrent m) (houtcome m) not_false

theorem marks_command (motion : Option MotionCommand) (torques : Option Torques) :
    Obeys (Marks id) (command motion torques) := by
  intro e
  change ∃ j, Marks id e j (e.sendCommand motion torques).2
  rcases e.sendCommand_cases motion torques with ⟨-, hsend⟩ | ⟨s, c, -, -, hsend⟩
  · rw [hsend]
    exact ⟨[], Composes.refl e⟩
  · rcases hsend with ⟨-, e₁, hsend, hmotion, hpassage⟩ | ⟨-, e₁, said, hsend, hmotion, hpassage⟩
    · rw [hsend]
      exact ⟨_, marks_of_events_nil hpassage rfl
        (Motion.marks_of_eq (by rw [hmotion]) (by rw [hmotion]) not_false)⟩
    · rw [hsend]
      exact ⟨_, marks_of_events_nil hpassage rfl
        (Motion.marks_of_eq (by rw [hmotion]) (by rw [hmotion]) not_false)⟩

theorem active_marks : Active (Marks id) where
  observe mode := marks_check fun m => Motion.marks_of_eq
    (m.observe_current_outcome mode).1 (m.observe_current_outcome mode).2 not_false
  settle request := marks_check fun m =>
    (Motion.marks_of_eq rfl rfl not_false).of_gone_or_eq (m.settle_gone_or_eq request)
  reset := marks_modify (fun _ => rfl) fun _ => rfl
  clear := marks_check fun _ => Motion.marks_of_gone rfl
  raised := marks_modify (fun _ => rfl) fun _ => rfl
  halt := marks_modify (fun _ => rfl) fun _ => rfl
  resume := marks_modify (fun _ => rfl) fun _ => rfl
  confirm _ e := ⟨[], marks_of_events_nil ((Passage.refl e).setController _) rfl
    (Motion.marks_of_eq rfl rfl not_false)⟩
  look e := ⟨[], marks_of_events_nil (Passage.refl e).look rfl
    (Motion.marks_of_eq rfl rfl not_false)⟩
  transmit request e := by
    obtain ⟨j, hpassage, -, -, hevents⟩ := passage_send request e
    exact ⟨j, marks_of_events_nil hpassage hevents (Motion.marks_of_eq rfl rfl not_false)⟩
  state := marks_wait (.ok none) marks_judgeState
  reply _ request hkind := marks_wait _ (marks_judgeReply hkind request)
  outcome request := marks_wait _ (marks_judgeOutcome request)
  command := marks_command

end Procedure

/-! ### Turns -/

namespace Engine

variable {e e' e₀ : Engine} {id : UInt32} {reply : Reply}

open Procedure

/-- What passes up to the answer leaves an engine alone that has no motion, and there is no other
reply to the request. -/
theorem execute_answered {request : Request} (hstatus : e.motion.status = .notStarted)
    (hcurrent : e.motion.current = none) (h : e.execute request = (.ok (id, reply), e')) :
    e'.motion = e.motion ∧ ∃ j, Passage e j e' ∧ j.repliesTo request.kind id = [reply] := by
  have hinert := execute_motion_of_inert hstatus hcurrent request
  rw [h] at hinert
  obtain ⟨j, hpassage, -, -, hexecuted⟩ := execute_cases h
  refine ⟨hinert, j, hpassage, ?_⟩
  cases hexecuted with
  | answered honly _ => exact honly

/-- A motion that has been started has its success on record just if it was told on the way. -/
theorem startMotion_marks {controller : ControllerMode} {motion : MotionMode}
    {path goal : Deviation} (h : e.startMotion controller motion path goal = (.ok id, e')) :
    ∃ j, Passage e j e' ∧ (e'.motion.current = some id →
      (e'.motion.outcome = some .success ↔ .move .success ∈ j.repliesTo .move id)) := by
  unfold startMotion at h
  split at h
  · cases h
  · rename_i hfree
    obtain ⟨hstatus, hcurrent⟩ : e.motion.status = .notStarted ∧ e.motion.current = none := by
      simpa using hfree
    let asked := e.withMotion { e.motion with outcome := none }
    simp only at h
    rcases hexecute : asked.execute (.move ⟨controller, motion, path, goal⟩) with
      ⟨err | ⟨n, reply⟩, e₁⟩ <;> rw [hexecute] at h
    · cases h
    · obtain ⟨hmotion, i, hpassage, honly⟩ :=
        execute_answered (e := asked) hstatus hcurrent hexecute
      by_cases hreply : reply = .move .started
      · subst hreply
        simp only at h
        generalize hbegun : e₁.withMotion ({ e₁.motion with current := some n }.begin motion) =
          begun at h
        have hnone : begun.motion.outcome = none := by
          rw [← hbegun]
          exact congrArg Motion.outcome hmotion
        have hobeys : Obeys (Marks n) (Procedure.confirmGenerator e.lastId) :=
          active_marks.confirmGenerator e.lastId
        obtain ⟨k, hmarks⟩ := hobeys begun
        change Marks n begun k (begun.confirmGenerator e.lastId).2 at hmarks
        rcases hconfirm : begun.confirmGenerator e.lastId with ⟨err | ⟨⟩, e₂⟩ <;>
          rw [hconfirm] at h hmarks
        · cases h
        · obtain ⟨hn, rfl⟩ := Prod.mk.inj h
          obtain rfl := Except.ok.inj hn
          refine ⟨i ++ k, ?_, fun hnow => ?_⟩
          · subst hbegun
            exact (hpassage.of_withMotion.trans hmarks.passage.of_withMotion).setController _
          · -- the answer that the motion has started is no success
            have hmarked := (hmarks.marks hnow).2
            change i.repliesTo .move n = _ at honly
            rw [hnone] at hmarked
            rw [Journal.repliesTo_append, honly]
            simpa using hmarked
      · simp at h

/-- While a motion is in progress no other is started, and no turn misses what is told of it. -/
theorem turn_marks (t : Turn) (hcurrent : e.motion.current = some id) :
    ∃ j, Marks id e j (e.turn t) := by
  cases t with
  | happen happenings =>
      obtain ⟨j, hpassage, -, hevents⟩ := e.passage_witness happenings
      exact ⟨j, marks_of_events_nil hpassage hevents (Motion.marks_of_eq rfl rfl not_false)⟩
  | call call =>
      by_cases hcall : call.Starts
      · cases call with
        | startGenerator type =>
            exact active_marks.startGenerator (marks_modify (fun _ => rfl) fun _ => rfl) e
        | startMotion controller motion path goal =>
            have hbusy : ¬ e.Admits (.move ⟨controller, motion, path, goal⟩) := by
              rintro ⟨-, hnone⟩
              cases hcurrent.symm.trans hnone
            have hrefused : ∃ fault, e.perform (.startMotion controller motion path goal) =
                (.error (.motion fault), e) := perform_of_not_admits rfl hbusy
            obtain ⟨fault, hperform⟩ := hrefused
            rw [turn, hperform]
            exact ⟨[], Composes.refl e⟩
        | update | stopGenerator | setController | finishMotion | cancelMotion => exact hcall.elim
      · exact active_marks.perform hcall e

theorem after_marks {turns : List Turn}
    (hcurrent : ∀ since, since <+: turns → (e.after since).motion.current = some id) :
    ∃ j, Marks id e j (e.after turns) := by
  induction turns generalizing e with
  | nil => exact ⟨[], Composes.refl e⟩
  | cons t rest ih =>
      obtain ⟨i, hturn⟩ := turn_marks t (hcurrent [] List.nil_prefix)
      obtain ⟨j, hrest⟩ := ih fun since hsince =>
        hcurrent (t :: since) (List.cons_prefix_cons.2 ⟨rfl, hsince⟩)
      exact ⟨i ++ j, Composes.trans hturn hrest⟩

/-- A motion in progress was started by some call, and it has succeeded just if a reply has told so
since then. -/
theorem success_told (h₀ : e₀.motion = {}) (turns : List Turn)
    (h : (e₀.after turns).motion.current = some id) :
    Since (fun found call => (∃ controller motion path goal,
        call = .startMotion controller motion path goal ∧
        (found.startMotion controller motion path goal).1 = .ok id) ∧
      ∃ j, Passage found j (e₀.after turns) ∧
        ((e₀.after turns).motion.outcome = some .success ↔
          .move .success ∈ j.repliesTo .move id))
      (fun e => e.motion.current = some id) e₀ turns := by
  have hsince : InProgress id e₀ turns := (inProgress_iff h₀ turns id).2 h
  obtain ⟨before, call, later, rfl, hbegins, hcurrent⟩ := hsince
  refine ⟨before, call, later, rfl, ⟨hbegins, ?_⟩, hcurrent⟩
  obtain ⟨controller, motion, path, goal, rfl, hok⟩ := hbegins
  let found := e₀.after before
  let started := (found.startMotion controller motion path goal).2
  have hstarted : found.startMotion controller motion path goal = (.ok id, started) :=
    Prod.ext hok rfl
  obtain ⟨i, hpassage, hstart⟩ := startMotion_marks hstarted
  have hafter (since : List Turn) : e₀.after (before ++
      .call (.startMotion controller motion path goal) :: since) = started.after since :=
    List.foldl_append
  simp only [hafter] at hcurrent h ⊢
  obtain ⟨j, hlater⟩ := after_marks hcurrent
  refine ⟨i ++ j, hpassage.trans hlater.passage, ?_⟩
  rw [Journal.repliesTo_append, List.mem_append,
    ← hstart (hcurrent [] List.nil_prefix)]
  exact (hlater.marks h).2

end Engine
end ArmControl
