import ArmControl.Proofs.Frames
import ArmControl.Proofs.Growth
import ArmControl.Proofs.Halting

/-! # One motion at a time

A request that begins a generator or a motion is the first thing that passes in a call to start one,
and it is tried only if the engine `Admits` it; a start that is not admitted changes nothing at all
(`perform_of_admits`, `perform_of_not_admits`).

For a generator no more is asked than that none is active.  A motion may have lost its generator and
still be in progress; then the engine refuses another motion, but it lets a generator start
(`start_during_motion`).  `starts_admitted` tells of every request of a session what was true when it
was tried. -/

namespace ArmControl

/-- The request begins a generator or a motion. -/
def Request.Starts : Request → Prop
  | .startMotion _ | .move _ => True
  | _ => False

/-- The request that the client has tried. -/
def Entry.asked? (entry : Entry) : Option Request :=
  entry.attempt?.bind fun frame => (Request.decode frame).toOption.map Prod.snd

theorem Entry.asked_of_attempt {entry : Entry} {request : Request} {id : UInt32}
    (h : entry.attempt? = some (request.encode id)) : entry.asked? = some request := by
  simp [asked?, h, Request.decode_encode, Except.toOption]

namespace Journal

variable {i j : Journal} {request : Request}

/-- The requests that the client has tried. -/
def asked (j : Journal) : List Request := j.filterMap Entry.asked?

/-- The requests are read off the frames that were tried. -/
theorem asked_eq (j : Journal) :
    j.asked = j.attempts.filterMap fun frame => (Request.decode frame).toOption.map Prod.snd := by
  rw [attempts, List.filterMap_filterMap]
  rfl

theorem asked_append (i j : Journal) : asked (i ++ j) = i.asked ++ j.asked := by
  simp [asked]

theorem asked_of_attempts {id : UInt32} (h : j.attempts = [request.encode id]) :
    j.asked = [request] := by
  simp [asked_eq, h, Request.decode_encode, Except.toOption]

theorem mem_asked {entry : Entry} (h : entry.asked? = some request) (i j : Journal) :
    request ∈ asked (i ++ entry :: j) :=
  List.mem_filterMap.2 ⟨entry, by simp, h⟩

/-- No request to begin anything is tried. -/
def BeginsNothing (j : Journal) : Prop := ∀ request ∈ j.asked, ¬ request.Starts

theorem beginsNothing_of_attempts_nil (h : j.attempts = []) : j.BeginsNothing := by
  simp [BeginsNothing, asked_eq, h]

theorem beginsNothing_of_attempts {id : UInt32} (h : j.attempts = [request.encode id])
    (hrequest : ¬ request.Starts) : j.BeginsNothing := by
  simpa [BeginsNothing, asked_of_attempts h] using hrequest

theorem BeginsNothing.append (hi : i.BeginsNothing) (hj : j.BeginsNothing) :
    BeginsNothing (i ++ j) := by
  intro request hrequest
  rw [asked_append] at hrequest
  exact (List.mem_append.1 hrequest).elim (hi request) (hj request)

/-- This request is the first thing that passes, and no other begins anything. -/
def Opens (request : Request) (j : Journal) : Prop :=
  ∃ entry l, j = entry :: l ∧ entry.asked? = some request ∧ BeginsNothing l

theorem Opens.append (h : i.Opens request) (hj : j.BeginsNothing) : Opens request (i ++ j) := by
  obtain ⟨entry, l, rfl, hentry, hl⟩ := h
  exact ⟨entry, l ++ j, rfl, hentry, hl.append hj⟩

end Journal

namespace Engine

variable {e e₀ : Engine} {call : Call} {request : Request}

/-! ### One call -/

/-- The engine lets the request pass: to begin a generator there must be none, and to begin a motion
no other one may be in progress besides. -/
def Admits (e : Engine) : Request → Prop
  | .startMotion _ => e.motion.status = .notStarted
  | .move _ => e.motion.status = .notStarted ∧ e.motion.current = none
  | _ => True

/-- The request by which a call begins something. -/
def Call.start? : Call → Option Request
  | .startGenerator type => some (.startMotion type)
  | .startMotion controller motion path goal => some (.move ⟨controller, motion, path, goal⟩)
  | _ => none

theorem execute_opens (request : Request) (e : Engine) :
    ∃ j, Passage e j (e.execute request).2 ∧ j.Opens request := by
  obtain ⟨entry, said, hpassage, hattempt, hsilent, -⟩ := passage_send_first request e
  have hopens : Journal.Opens request (entry :: said) :=
    ⟨entry, said, rfl, Entry.asked_of_attempt hattempt,
      Journal.beginsNothing_of_attempts_nil hsilent.1⟩
  unfold execute
  rcases hsend : e.session.send request with ⟨err | id, session⟩ <;> rw [hsend] at hpassage <;>
    simp only
  · exact ⟨_, hpassage, hopens⟩
  · obtain ⟨j, hwait, hsilent⟩ :=
      wait_passage (judgeReply request.kind id) (.error .closed) { e with session }
    replace hopens := hopens.append (Journal.beginsNothing_of_attempts_nil hsilent.1)
    split <;>
    · rename_i hanswer
      rw [awaitReply] at hanswer
      rw [hanswer] at hwait
      exact ⟨_, hpassage.trans hwait, hopens⟩

/-- What follows an accepted start tries no other request. -/
theorem confirmGenerator_beginsNothing (since : Option UInt64)
    (h : e.motion.status = .starting) :
    ∃ j, Passage e j (e.confirmGenerator since).2 ∧ j.BeginsNothing := by
  obtain ⟨j, hpassage, hsilent, -⟩ :=
    confirmGenerator_cases (Prod.eta (e.confirmGenerator since)).symm h
  exact ⟨j, hpassage, Journal.beginsNothing_of_attempts_nil hsilent.1⟩

theorem startGenerator_opens {type : MotionType} (h : e.Admits (.startMotion type)) :
    ∃ j, Passage e j (e.startGenerator type).2 ∧ j.Opens (.startMotion type) := by
  have hfree : e.motion.status = .notStarted := h
  obtain ⟨j, hpassage, hopens⟩ := execute_opens (.startMotion type) e
  simp only [startGenerator, hfree, ne_eq, not_true_eq_false, if_false]
  rcases hexecute : e.execute (.startMotion type) with ⟨err | ⟨id, reply⟩, e₁⟩ <;>
    rw [hexecute] at hpassage
  · exact ⟨j, hpassage, hopens⟩
  · by_cases hreply : reply = .startMotion .success
    · subst hreply
      obtain ⟨k, hconfirm, hnothing⟩ := confirmGenerator_beginsNothing e.lastId
        (e := e₁.withMotion (e₁.motion.begin type.mode)) rfl
      exact ⟨j ++ k, (hpassage.withMotion _).trans hconfirm, hopens.append hnothing⟩
    · refine ⟨j, ?_, hopens⟩
      simpa [hreply] using hpassage

variable {controller : ControllerMode} {motion : MotionMode} {path goal : Deviation}

theorem cancelMotion_beginsNothing (e : Engine) :
    ∃ j, Passage e j e.cancelMotion ∧ j.BeginsNothing := by
  obtain ⟨j, hpassage, hattempts, -⟩ := e.cancelMotion_cases
  exact ⟨j, hpassage, Journal.beginsNothing_of_attempts hattempts nofun⟩

theorem startMotion_opens (h : e.Admits (.move ⟨controller, motion, path, goal⟩)) :
    ∃ j, Passage e j (e.startMotion controller motion path goal).2 ∧
      j.Opens (.move ⟨controller, motion, path, goal⟩) := by
  obtain ⟨hstatus, hcurrent⟩ : e.motion.status = .notStarted ∧ e.motion.current = none := h
  have hfree : ¬ (e.motion.status ≠ .notStarted ∨ e.motion.current.isSome) := by
    simp [hstatus, hcurrent]
  obtain ⟨j, hpassage, hopens⟩ := execute_opens (.move ⟨controller, motion, path, goal⟩)
    (e.withMotion { e.motion with outcome := none })
  replace hpassage := hpassage.of_withMotion
  simp only [startMotion, if_neg hfree]
  rcases hexecute : execute (.move ⟨controller, motion, path, goal⟩)
    (e.withMotion { e.motion with outcome := none }) with ⟨err | ⟨id, reply⟩, e₁⟩ <;>
    rw [hexecute] at hpassage
  · exact ⟨j, hpassage, hopens⟩
  · by_cases hreply : reply = .move .started
    · subst hreply
      obtain ⟨k, hconfirm, hnothing⟩ := confirmGenerator_beginsNothing e.lastId
        (e := e₁.withMotion ({ e₁.motion with current := some id }.begin motion)) rfl
      replace hconfirm := (hpassage.withMotion _).trans hconfirm
      replace hopens := hopens.append hnothing
      rcases hconfirmed : confirmGenerator e.lastId
        (e₁.withMotion ({ e₁.motion with current := some id }.begin motion)) with
        ⟨err | _, e₂⟩ <;> rw [hconfirmed] at hconfirm <;> simp only [hconfirmed]
      · obtain ⟨l, hcancel, hnothing⟩ := e₂.cancelMotion_beginsNothing
        exact ⟨_, hconfirm.trans hcancel, hopens.append hnothing⟩
      · exact ⟨_, hconfirm.setController _, hopens⟩
    · refine ⟨j, ?_, hopens⟩
      simpa [hreply] using hpassage

/-- A request to stop sends no command, and tries at most one request. -/
theorem stopGenerator_passage (e : Engine) : ∃ j, Passage e j e.stopGenerator.2 ∧
    j.commands = [] ∧
    (j.attempts = [] ∨ j.attempts = [Request.stopMotion.encode e.session.nextId]) := by
  by_cases hrunning : e.motion.status = .running
  · obtain ⟨j, hpassage, hattempts, hcommands, -⟩ :=
      stopGenerator_cases (Prod.eta e.stopGenerator).symm hrunning
    exact ⟨j, hpassage, hcommands, .inr hattempts⟩
  · rw [stopGenerator_of_idle hrunning]
    exact ⟨[], .refl e, rfl, .inl rfl⟩

/-- A start that is not admitted is refused, and that is all. -/
theorem perform_of_not_admits (hcall : call.start? = some request) (h : ¬ e.Admits request) :
    ∃ fault, e.perform call = (.error (.motion fault), e) := by
  cases call with
  | startGenerator type =>
      obtain rfl := Option.some.inj hcall
      exact ⟨_, startGenerator_of_busy h⟩
  | startMotion controller motion path goal =>
      obtain rfl := Option.some.inj hcall
      have hbusy : e.motion.status ≠ .notStarted ∨ e.motion.current.isSome := by
        rw [Option.isSome_iff_ne_none]
        exact Decidable.not_and_iff_not_or_not.1 h
      exact ⟨.alreadyMoving, by simp only [perform, startMotion, if_pos hbusy]; rfl⟩
  | update | stopGenerator | setController | finishMotion | cancelMotion => cases hcall

theorem perform_of_admits (hcall : call.start? = some request) (h : e.Admits request) :
    ∃ j, Passage e j (e.perform call).2 ∧ j.Opens request := by
  cases call with
  | startGenerator type =>
      obtain rfl := Option.some.inj hcall
      exact startGenerator_opens h
  | startMotion controller motion path goal =>
      obtain rfl := Option.some.inj hcall
      exact startMotion_opens h
  | update | stopGenerator | setController | finishMotion | cancelMotion => cases hcall

theorem perform_of_other (hcall : call.start? = none) (e : Engine) :
    ∃ j, Passage e j (e.perform call).2 ∧ j.BeginsNothing := by
  cases call with
  | update motion torques =>
      obtain ⟨j, hpassage, hattempts, -⟩ :=
        update_passage (Prod.eta (e.update motion torques)).symm
      exact ⟨j, hpassage, Journal.beginsNothing_of_attempts_nil hattempts⟩
  | startGenerator | startMotion => cases hcall
  | stopGenerator =>
      obtain ⟨j, hpassage, -, hattempts⟩ := e.stopGenerator_passage
      refine ⟨j, hpassage, ?_⟩
      rcases hattempts with hattempts | hattempts
      · exact Journal.beginsNothing_of_attempts_nil hattempts
      · exact Journal.beginsNothing_of_attempts hattempts nofun
  | setController mode =>
      obtain ⟨j, hpassage, hattempts, -⟩ :=
        setController_cases (Prod.eta (e.setController mode)).symm
      exact ⟨j, hpassage, Journal.beginsNothing_of_attempts hattempts nofun⟩
  | finishMotion id motion torques =>
      obtain ⟨j, hpassage, hattempts⟩ := e.finishMotion_passage id motion torques
      exact ⟨j, hpassage, Journal.beginsNothing_of_attempts_nil hattempts⟩
  | cancelMotion => exact e.cancelMotion_beginsNothing

/-! ### A motion in progress -/

/-- Nothing that reaches the client brings a motion into progress. -/
theorem lasting_current (c : Option UInt32) :
    Motion.Lasting fun m => m.current = c ∨ m.current = none where
  observe mode m h := by
    rcases hobserve : m.observe mode with ⟨result, m'⟩
    rcases Motion.observe_cases hobserve with ⟨-, rfl, -⟩ | ⟨-, -, -, rfl⟩ | ⟨-, -, -, rfl⟩ |
      ⟨-, -, -, -, -, rfl⟩
    · exact h
    · exact h
    · exact h
    · exact h
  handle header reply m h := by
    rcases hhandle : m.handle header reply with ⟨result, m'⟩
    rcases Motion.handle_cases hhandle with ⟨-, rfl⟩ | ⟨-, -, -, rfl⟩ | ⟨-, -, -, -, rfl⟩ |
      ⟨-, -, -, -, rfl⟩
    · exact h
    · exact h
    · exact h
    · exact .inr rfl
  reset h := h
  note _ _ _ h := h

theorem standing_current (c : Option UInt32) :
    Standing fun e => e.motion.current = c ∨ e.motion.current = none where
  toEnduring := (lasting_current c).enduring
  halt h := h
  settle id h := by
    simp only [withMotion, Motion.settle]
    split
    · exact .inr rfl
    · exact .inr rfl
    · split <;> exact h
  clear _ := .inr rfl

theorem startMotion_current {id : UInt32}
    (h : (e.startMotion controller motion path goal).2.motion.current = some id) :
    e.motion.current = some id ∨ (e.startMotion controller motion path goal).1 = .ok id := by
  by_cases hfree : e.motion.status = .notStarted ∧ e.motion.current = none
  · obtain ⟨hstatus, hcurrent⟩ := hfree
    rw [startMotion_eq] at h ⊢
    rcases hlaunch : e.launch controller motion path goal with ⟨launched, e₁⟩
    obtain ⟨j, -, -, -, hlaunched⟩ := launch_cases hlaunch hstatus hcurrent
    rw [hlaunch] at h
    generalize hm : e₁.motion = m₁ at hlaunched
    cases hlaunched with
    | refused =>
        simp only [hm, hcurrent] at h
        cases h
    | accepted _ hawaited =>
        cases hawaited with
        | failed => cases h
        | confirmed =>
            simp only [hm, Motion.begin, Option.some.injEq] at h
            exact .inr (by rw [h])
  · have hrefused : ∃ fault, e.perform (.startMotion controller motion path goal) =
        (.error (.motion fault), e) := perform_of_not_admits rfl hfree
    obtain ⟨fault, hperform⟩ := hrefused
    have hsame : (e.startMotion controller motion path goal).2 = e := congrArg Prod.snd hperform
    exact .inl (hsame ▸ h)

/-- Only the start of a motion brings it into progress. -/
theorem perform_current {id : UInt32} (h : (e.perform call).2.motion.current = some id) :
    e.motion.current = some id ∨ ∃ controller motion path goal,
      call = .startMotion controller motion path goal ∧
      (e.startMotion controller motion path goal).1 = .ok id := by
  have hkept (hsame : (e.perform call).2.motion.current = e.motion.current ∨
      (e.perform call).2.motion.current = none) : e.motion.current = some id := by
    rcases hsame with hsame | hnone
    · rw [← hsame, h]
    · rw [hnone] at h
      cases h
  have hI := standing_current e.motion.current
  cases call with
  | startMotion controller motion path goal =>
      exact (startMotion_current h).imp_right fun hok => ⟨controller, motion, path, goal, rfl, hok⟩
  | startGenerator type =>
      exact .inl (hkept ((lasting_current e.motion.current).startGenerator (fun h => h) (.inl rfl)))
  | update | stopGenerator | setController | finishMotion | cancelMotion =>
      exact .inl (hkept (hI.perform_of_resume (fun h => h) (fun h : False => h) (.inl rfl)))

/-- The motion `id` was started, and has neither ended nor been cancelled since. -/
def InProgress (id : UInt32) : Engine → List Turn → Prop :=
  Since (fun e call => ∃ controller motion path goal,
      call = .startMotion controller motion path goal ∧
      (e.startMotion controller motion path goal).1 = .ok id)
    fun e => e.motion.current = some id

theorem inProgress_iff (h₀ : e₀.motion = {}) (turns : List Turn) (id : UInt32) :
    InProgress id e₀ turns ↔ (e₀.after turns).motion.current = some id := by
  refine ⟨Since.now, fun h => ?_⟩
  induction turns using List.reverseRecOn with
  | nil =>
      change e₀.motion.current = some id at h
      rw [h₀] at h
      cases h
  | append_singleton turns t ih =>
      have hnow := h
      rw [after_concat] at h
      cases t with
      | happen happenings => exact (ih h).concat hnow
      | call call =>
          rcases perform_current h with hbefore | hbegins
          · exact (ih hbefore).concat hnow
          · exact .of_begins hbegins hnow

/-! ### A session -/

/-- A turn that tries to begin something is a call to start it, which the engine admits, and has
done nothing before. -/
theorem turn_of_asked {t : Turn} {entry : Entry} {k l : Journal}
    (hturn : Passage e (k ++ entry :: l) (e.turn t)) (hasked : entry.asked? = some request)
    (hstarts : request.Starts) :
    ∃ call, t = .call call ∧ call.start? = some request ∧ k = [] ∧ e.Admits request := by
  have hother {j : Journal} (hpassage : Passage e j (e.turn t)) (hnothing : j.BeginsNothing) :
      False := by
    obtain rfl := List.append_cancel_left (hpassage.journal.symm.trans hturn.journal)
    exact hnothing request (Journal.mem_asked hasked k l) hstarts
  cases t with
  | happen happenings =>
      obtain ⟨j, hpassage, hsilent, -⟩ := e.passage_witness happenings
      exact (hother hpassage (Journal.beginsNothing_of_attempts_nil hsilent.1)).elim
  | call call =>
      cases hstart : call.start? with
      | none =>
          obtain ⟨j, hpassage, hnothing⟩ := perform_of_other hstart e
          exact (hother hpassage hnothing).elim
      | some first =>
          by_cases hadmits : e.Admits first
          · obtain ⟨j, hpassage, entry', l', rfl, hentry', hnothing⟩ :=
              perform_of_admits hstart hadmits
            have heq := List.append_cancel_left (hpassage.journal.symm.trans hturn.journal)
            cases k with
            | nil =>
                obtain ⟨rfl, -⟩ := List.cons.inj heq
                obtain rfl := Option.some.inj (hentry'.symm.trans hasked)
                exact ⟨call, rfl, hstart, rfl, hadmits⟩
            | cons first k =>
                obtain ⟨-, rfl⟩ := List.cons.inj heq
                exact (hnothing request (Journal.mem_asked hasked k l) hstarts).elim
          · obtain ⟨fault, hperform⟩ := perform_of_not_admits hstart hadmits
            have hsame : e.turn (.call call) = e := congrArg Prod.snd hperform
            have hrefl : Passage e [] (e.turn (.call call)) := hsame.symm ▸ Passage.refl e
            exact (hother hrefl (Journal.beginsNothing_of_attempts_nil rfl)).elim

/-- Every request that begins a generator or a motion was tried by a call to start one, before
anything else has passed in this call, and the engine admitted it; a call whose request is not
admitted fails and changes nothing.  A motion is in progress from its start on. -/
theorem starts_admitted (session : Session) (settings : Settings) (clock : Clock)
    (turns : List Turn) :
    let e₀ := Engine.start session settings clock
    let e := e₀.after turns
    (∀ (a : Journal) entry b request, e.link.journal = e₀.link.journal ++ (a ++ entry :: b) →
      entry.asked? = some request → request.Starts →
      ∃ before call later, turns = before ++ .call call :: later ∧ call.start? = some request ∧
        (e₀.after before).link.journal = e₀.link.journal ++ a ∧
        (e₀.after before).Admits request) ∧
    (∀ (call : Call) request, call.start? = some request →
      (e.Admits request → ∃ j, Passage e j (e.perform call).2 ∧ j.Opens request) ∧
      (¬ e.Admits request → ∃ fault, e.perform call = (.error (.motion fault), e))) ∧
    ∀ id, InProgress id e₀ turns ↔ e.motion.current = some id := by
  intro e₀ e
  refine ⟨?_, ?_, inProgress_iff rfl turns⟩
  · intro a entry b request hjournal hasked hstarts
    obtain ⟨before, t, later, i, k, l, rfl, rfl, hbefore, hturn⟩ := exists_turn hjournal
    obtain ⟨call, rfl, hcall, rfl, hadmits⟩ := turn_of_asked hturn hasked hstarts
    exact ⟨before, call, later, rfl, hcall, by rw [List.append_nil, hbefore], hadmits⟩
  · intro call request hcall
    exact ⟨perform_of_admits hcall, perform_of_not_admits hcall⟩

theorem starts_admitted_startMotion :
    let e₀ := Engine.start { link := { farEnd := .accepting } } {} default
    let call := Call.startMotion .jointImpedance .jointPosition default default
    let e := e₀.after [.call call]
    let request : Request := .move ⟨.jointImpedance, .jointPosition, default, default⟩
    (e₀.Admits request ∧ ∃ j, Passage e₀ j (e₀.perform call).2 ∧ j.Opens request) ∧
    (∃ entry b, e.link.journal = e₀.link.journal ++ ([] ++ entry :: b) ∧
      entry.asked? = some request ∧ request.Starts ∧
      ∃ before call' later, [Turn.call call] = before ++ .call call' :: later ∧
        call'.start? = some request ∧
        (e₀.after before).link.journal = e₀.link.journal ++ [] ∧
        (e₀.after before).Admits request) ∧
    (¬ e.Admits request ∧ ∃ fault, e.perform call = (.error (.motion fault), e)) ∧
    InProgress 0 e₀ [.call call] := by
  intro e₀ call e request
  have hfree : e₀.Admits request := ⟨rfl, rfl⟩
  have hcurrent : e.motion.current = some 0 := by decide +kernel
  have hbusy : ¬ e.Admits request := fun h => by cases hcurrent.symm.trans h.2
  have hjournal : e.link.journal = e₀.link.journal ++ ([] ++
      .request (request.encode 0) :: e.link.journal.tail) := by decide +kernel
  have hasked : (Entry.request (request.encode 0)).asked? = some request := by decide +kernel
  have hnow := starts_admitted { link := { farEnd := .accepting } } {} default []
  have hafter := starts_admitted { link := { farEnd := .accepting } } {} default [.call call]
  exact ⟨⟨hfree, (hnow.2.1 call request rfl).1 hfree⟩,
    ⟨_, _, hjournal, hasked, trivial, hafter.1 _ _ _ request hjournal hasked trivial⟩,
    ⟨hbusy, (hafter.2.1 call request rfl).2 hbusy⟩, (hafter.2.2 0).2 hcurrent⟩

/-- A motion has lost its generator and is still in progress.  Another motion is refused, but the
request to start a generator goes out. -/
theorem start_during_motion :
    let e := (Engine.start { link := { farEnd := .accepting } } {} default).after
      [.call (.startMotion .jointImpedance .jointPosition default default),
        .happen [.say [.nextState State.initial 1]], .call (.update none none)]
    e.motion.current = some 0 ∧
      (e.startMotion .jointImpedance .jointPosition default default).1 =
        .error (.motion .alreadyMoving) ∧
      (e.startGenerator .jointPosition).1 = .error (.link .timeout) ∧
      (e.startGenerator .jointPosition).2.link.requests =
        e.link.requests ++ [(Request.startMotion .jointPosition).encode 1] := by
  decide +kernel

end Engine
end ArmControl
