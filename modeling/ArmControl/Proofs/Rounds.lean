import Mathlib.Data.List.Chain
import ArmControl.Proofs.Beginning
import ArmControl.Proofs.Finiteness
import ArmControl.Proofs.Keying

/-! # What the steering of a motion is shown

The cycles of a motion are `Rounds`: each call of the steering but the last has asked to go on, its
command was sent, and the cycle that sent it has given the state that the next call is shown
(`Succeeds`).  The last call, or the cycle after it, ends them (`Leaves`).

`run_shown` puts this together for every run: the steering is shown the state that has confirmed the
motion and every state that is accepted after that, once and in order, until the cycles end.  Only a
state that contradicts the motion is not shown, since it ends them. -/

namespace ArmControl

/-- What is sent to the state `s` for a command in mid-motion, if the command says anything. -/
def LoopCommand.answerTo (c : LoopCommand) (s : State) : Option Command :=
  if c.motion = none ∧ c.torques = none then none
  else some ⟨s.messageId, c.motion.getD .neutral, c.torques.getD Joints.zero⟩

theorem LoopCommand.messageId_of_answerTo {c : LoopCommand} {s : State} {command : Command}
    (h : c.answerTo s = some command) : command.messageId = s.messageId := by
  unfold answerTo at h
  split at h
  · cases h
  · rw [← Option.some.inj h]

theorem Motion.observe_of_running {m : Motion} (h : m.status = .running) (mode : MotionMode) :
    m.observe mode = if mode = m.expected then (.ok (), m)
      else (.error (.motion (.stoppedUnexpectedly m.expected mode)), m.reset) := by
  simp [Motion.observe, h]

namespace Engine

variable {e e' : Engine} {mode : MotionMode} {s t : State} {c : LoopCommand} {k : Journal}
  {result : Except SessionError (Option State)}

/-! ### A cycle in mid-motion -/

/-- A generator runs in this mode, and `s` is the last state. -/
structure Cruises (mode : MotionMode) (s : State) (e : Engine) : Prop where
  running : e.motion.status = .running
  expected : e.motion.expected = mode
  last : e.lastState = some s

theorem Cruises.lastId (h : e.Cruises mode s) : e.lastId = some s.messageId := by
  rw [Engine.lastId, h.last]
  rfl

/-- Nothing that happens on the link by itself disturbs a motion. -/
theorem Cruises.witness (h : e.Cruises mode s) (hs : List Happening) :
    (e.witness hs).Cruises mode s :=
  ⟨h.running, h.expected, h.last⟩

/-- The motion after the command `c` was sent to the state `s`, with this final status on record. -/
def recording (e : Engine) (c : LoopCommand) (s : State) (outcome : Option MoveStatus) : Motion :=
  { e.motion with outcome, lastCommand := (c.answerTo s).or e.motion.lastCommand }

/-- A cycle in mid-motion fails before it has sent anything, or it sends what there is to send and
then waits for a state. -/
theorem Cruises.update_cases (h : e.Cruises mode s)
    (hupdate : e.update c.motion c.torques = (result, e')) :
    (∃ k err, result = .error err ∧ Passage e k e' ∧ k.Silent ∧ k.accepted e.lastId = []) ∨
    ∃ k outcome, Passage e k e' ∧ k.attempts = [] ∧
      k.commands = (c.answerTo s).toList.map Command.encode ∧ e.motion.Credits k outcome ∧
      Polled (k.accepted e.lastId) (e.recording c s outcome) result e'.motion := by
  cases hdeferred : e.motion.deferred with
  | some err =>
      rw [update_of_deferred hdeferred] at hupdate
      obtain ⟨rfl, rfl⟩ := Prod.mk.inj hupdate
      exact .inl ⟨[], err, rfl, (Passage.refl e).withMotion _, Journal.silent_nil, rfl⟩
  | none =>
      by_cases hmute : c.motion = none ∧ c.torques = none
      · have hnone : c.answerTo s = none := if_pos hmute
        rw [update_of_silent hmute.1 hmute.2 (by simp [h.running]) hdeferred] at hupdate
        obtain ⟨k, outcome, hpassage, hsilent, hcredits, hpolled⟩ := poll_cases hupdate
        refine .inr ⟨k, outcome, hpassage, hsilent.1, ?_, hcredits, ?_⟩
        · rw [hnone, hsilent.2]
          rfl
        · rw [recording, hnone]
          exact hpolled
      · rcases Engine.update_cases hdeferred hupdate with ⟨datagram, rfl, -, hpassage, -⟩ |
          ⟨i, e₁, hsends, hpoll⟩
        · exact .inl ⟨_, _, rfl, hpassage, ⟨rfl, rfl⟩, rfl⟩
        · obtain ⟨k, outcome, hpassage, hsilent, hcredits, hpolled⟩ := poll_cases hpoll
          cases hsends with
          | nothing hnothing =>
              rcases hnothing with hnone | ⟨hmotion, htorques, -⟩
              · rw [h.last] at hnone
                cases hnone
              · exact absurd ⟨hmotion, htorques⟩ hmute
          | @command t command said _ ht hc hmotion hpassage₁ _ =>
              obtain rfl := Option.some.inj (h.last.symm.trans ht)
              have hanswer : c.answerTo s = some command := by
                rw [LoopCommand.answerTo, if_neg hmute, hc]
                simp [compose, h.running]
              rw [hmotion] at hcredits hpolled
              rw [hpassage₁.lastId] at hpolled
              refine .inr ⟨_, outcome, hpassage₁.trans hpassage, hsilent.1, ?_,
                .trans (.inl rfl) hcredits rfl rfl, ?_⟩
              · rw [hanswer, Journal.commands_append_of_nil _ hsilent.2]
                rfl
              · rw [recording, hanswer]
                exact hpolled

/-- A cycle that gives a state has sent what there was to send, and the state agrees with the
motion. -/
theorem Cruises.update_ok (h : e.Cruises mode s)
    (hupdate : e.update c.motion c.torques = (.ok (some t), e')) :
    e'.Cruises mode t ∧ ∃ k outcome, Passage e k e' ∧ k.attempts = [] ∧
      k.commands = (c.answerTo s).toList.map Command.encode ∧ k.accepted e.lastId = [t] ∧
      e.motion.Credits k outcome ∧ e'.motion = e.recording c s outcome := by
  rcases h.update_cases hupdate with ⟨_, _, hresult, -⟩ |
    ⟨k, outcome, hpassage, hattempts, hcommands, hcredits, hpolled⟩
  · cases hresult
  · generalize hm : e'.motion = m' at hpolled
    generalize haccepted : k.accepted e.lastId = accepted at hpolled
    cases hpolled with
    | state hone hobserve =>
        subst hone
        rw [Motion.observe_of_running (m := e.recording c s outcome) h.running] at hobserve
        split at hobserve
        · obtain ⟨-, rfl⟩ := Prod.mk.inj hobserve
          refine ⟨⟨hm ▸ h.running, hm ▸ h.expected, hpassage.lastState_of_accepted haccepted⟩,
            k, outcome, hpassage, hattempts, hcommands, haccepted, hcredits, rfl⟩
        · cases (Prod.mk.inj hobserve).1

/-- What becomes of a cycle that gives no state: at most one was accepted, and then it is the one
that contradicts the motion. -/
theorem Cruises.update_failed (h : e.Cruises mode s)
    (hupdate : e.update c.motion c.torques = (result, e')) (hfailed : ∀ t, result ≠ .ok (some t)) :
    ∃ k, Passage e k e' ∧ k.attempts = [] ∧
      (k.commands = [] ∨ k.commands = (c.answerTo s).toList.map Command.encode) ∧
      (k.accepted e.lastId = [] ∨ ∃ t, k.accepted e.lastId = [t] ∧ t.motionMode ≠ mode ∧
        result = .error (.motion (.stoppedUnexpectedly mode t.motionMode))) := by
  rcases h.update_cases hupdate with ⟨k, _, -, hpassage, hsilent, haccepted⟩ |
    ⟨k, outcome, hpassage, hattempts, hcommands, -, hpolled⟩
  · exact ⟨k, hpassage, hsilent.1, .inl hsilent.2, .inl haccepted⟩
  · refine ⟨k, hpassage, hattempts, .inr hcommands, ?_⟩
    generalize e'.motion = m' at hpolled
    cases hpolled with
    | ended hnone | broken hnone _ | rejected hnone _ => exact .inl hnone
    | @state t _ _ _ => exact absurd rfl (hfailed t)
    | @mismatch t err _ hone hobserve =>
        rw [Motion.observe_of_running (m := e.recording c s outcome) h.running] at hobserve
        split at hobserve
        · cases (Prod.mk.inj hobserve).1
        · rename_i hmode
          obtain ⟨herr, -⟩ := Prod.mk.inj hobserve
          obtain rfl := Except.error.inj herr
          have hexpected : (e.recording c s outcome).expected = mode := h.expected
          exact .inr ⟨t, hone, hexpected ▸ hmode, hexpected ▸ rfl⟩

end Engine

namespace ControlLoop

open Engine

variable {σ : Type} {credit : σ → Nat} {steering : Steering credit} {e e' : Engine} {id : UInt32}
  {mode : MotionMode} {s : State} {tick : Tick} {last : LoopCommand} {calls earlier : List Call}
  {result : Except SessionError Unit} {e₂ : Engine}

/-! ### The rounds of a motion -/

/-- The command that follows a call, if there is one. -/
def sentFor (call : Call) : Option Command :=
  match call.answer with
  | .ok (.proceed command) => command.answerTo call.input.state
  | _ => none

theorem messageId_of_sentFor {call : Call} {command : Command} (h : sentFor call = some command) :
    command.messageId = call.input.state.messageId := by
  unfold sentFor at h
  split at h
  · exact LoopCommand.messageId_of_answerTo h
  · cases h

/-- How the cycles of the motion `id` end after the answer to the last call, before which `last` was
asked for.  They end when the engine is `ended`; what becomes of the motion are the last two. -/
inductive Leaves (id : UInt32) (last : LoopCommand) (e : Engine) :
    Except SessionError (Step LoopCommand) → Engine → Except SessionError Unit → Engine → Prop
  | stopped {result : Except SessionError Unit} {e' : Engine} :
      e.finishMotion id last.motion last.torques = (result, e') →
      Leaves id last e (.ok .stop) e result e'
  | failed {err : SessionError} : Leaves id last e (.error err) e (.error err) e
  | refused {command : LoopCommand} {err : SessionError} : command.validate = .error err →
      Leaves id last e (.ok (.proceed command)) e (.error err) e
  | broken {command : LoopCommand} {err : SessionError} {e' : Engine} :
      command.validate = .ok () → e.update command.motion command.torques = (.error err, e') →
      Leaves id last e (.ok (.proceed command)) e' (.error err) e'
  | ended {command : LoopCommand} {e' : Engine} :
      command.validate = .ok () → e.update command.motion command.torques = (.ok none, e') →
      Leaves id last e (.ok (.proceed command)) e' (.error .closed) e'

/-- The cycles of the motion `id` from the engine `e` on, of which the first shows `tick`: what the
steering is called with and what it answers, and what becomes of the motion. -/
inductive Rounds (id : UInt32) : Engine → Tick → LoopCommand → List Call →
    Except SessionError Unit → Engine → Prop
  | last {e ended e' : Engine} {tick : Tick} {last : LoopCommand} (hs : List Happening)
      {answer : Except SessionError (Step LoopCommand)} {result : Except SessionError Unit} :
      Leaves id last (e.witness hs) answer ended result e' →
      Rounds id e tick last [⟨tick, answer, (e.witness hs).link.journal⟩] result e'
  | next {e e₁ e' : Engine} {tick : Tick} {last : LoopCommand} (hs : List Happening)
      {command : LoopCommand} {s : State} {rest : List Call} {result : Except SessionError Unit} :
      (e.witness hs).update command.motion command.torques = (.ok (some s), e₁) →
      Rounds id e₁ ⟨s, Tick.between tick.state.messageId s.messageId⟩ command rest result e' →
      Rounds id e tick last
        (⟨tick, .ok (.proceed command), (e.witness hs).link.journal⟩ :: rest) result e'

theorem cycles_rounds {previous : UInt64} {p p' : σ × List Call}
    (h : cycles steering.recorded id s previous last e p = (result, p', e')) :
    ∃ calls, p'.2 = p.2 ++ calls ∧
      Rounds id e ⟨s, Tick.between previous s.messageId⟩ last calls result e' := by
  -- what a call leaves behind
  have hcalled {tick : Tick} {e e₁ : Engine} {p p₁ : σ × List Call}
      {answer : Except SessionError (Step LoopCommand)}
      (hcall : steering.recorded.call tick e p = (answer, p₁, e₁)) :
      ∃ hs, e₁ = e.witness hs ∧ p₁.2 = p.2 ++ [⟨tick, answer, (e.witness hs).link.journal⟩] := by
    obtain ⟨hs, heq, -⟩ := steering.recorded.outside tick e p
    rw [hcall] at heq
    obtain rfl : e₁ = e.witness hs := heq
    exact ⟨hs, rfl, Callback.recorded_call hcall⟩
  have hlast {tick : Tick} {last : LoopCommand} {e e₁ e₂ e' : Engine} {p p₁ : σ × List Call}
      {answer : Except SessionError (Step LoopCommand)} {result : Except SessionError Unit}
      (hcall : steering.recorded.call tick e p = (answer, p₁, e₁))
      (hleaves : Leaves id last e₁ answer e₂ result e') :
      ∃ calls, p₁.2 = p.2 ++ calls ∧ Rounds id e tick last calls result e' := by
    obtain ⟨hs, rfl, hp⟩ := hcalled hcall
    exact ⟨_, hp, .last hs hleaves⟩
  fun_induction cycles steering.recorded id s previous last e p with
  | case1 s previous last e p err p₁ e₁ hcall =>
      simp only [Prod.mk.injEq] at h
      obtain ⟨rfl, rfl, rfl⟩ := h
      exact hlast hcall .failed
  | case2 s previous last e p p₁ e₁ hcall finished e₂ hfinish =>
      simp only [Prod.mk.injEq] at h
      obtain ⟨rfl, rfl, rfl⟩ := h
      exact hlast hcall (.stopped hfinish)
  | case3 s previous last e p command p₁ e₁ hcall err hvalid =>
      simp only [Prod.mk.injEq] at h
      obtain ⟨rfl, rfl, rfl⟩ := h
      exact hlast hcall (.refused hvalid)
  | case4 s previous last e p command p₁ e₁ hcall hvalid s' e₂ hupdate ih =>
      obtain ⟨hs, rfl, hp⟩ := hcalled hcall
      obtain ⟨calls, hp', hrounds⟩ := ih h
      refine ⟨_ :: calls, ?_, .next hs hupdate hrounds⟩
      rw [hp', hp, List.append_assoc]
      rfl
  | case5 s previous last e p command p₁ e₁ hcall hvalid e₂ hupdate =>
      simp only [Prod.mk.injEq] at h
      obtain ⟨rfl, rfl, rfl⟩ := h
      exact hlast hcall (.ended hvalid hupdate)
  | case6 s previous last e p command p₁ e₁ hcall hvalid err e₂ hupdate =>
      simp only [Prod.mk.injEq] at h
      obtain ⟨rfl, rfl, rfl⟩ := h
      exact hlast hcall (.broken hvalid hupdate)

/-- What was asked for in the first round was the last thing asked for when the second begins. -/
theorem asked_concat (earlier : List Call) (tick : Tick) (command : LoopCommand)
    (journal : Journal) :
    asked (earlier ++ [⟨tick, .ok (.proceed command), journal⟩]) = command := by
  simp [asked]

/-- The call was made at the engine `e`: while it was answered, nothing was sent or received. -/
structure Opens (e : Engine) (tick : Tick) (call : Call) : Prop where
  input : call.input = tick
  quiet : ∃ k : Journal, call.journal = e.link.journal ++ k ∧ k.Silent ∧ k.events = []

theorem Rounds.head (h : Rounds id e tick last calls result e') :
    ∃ first rest, calls = first :: rest ∧ Opens e tick first := by
  cases h with
  | last hs _ | next hs _ _ =>
      obtain ⟨k, hpassage, hsilent, hevents⟩ := e.passage_witness hs
      exact ⟨_, _, rfl, rfl, k, hpassage.journal, hsilent, hevents⟩

/-- After `call` the steering was called next in `next`: it had asked to go on, what it had asked
for was sent, and of all that was received meanwhile just the state that it is shown was
accepted. -/
structure Succeeds (call next : Call) : Prop where
  proceeds : ∃ command, call.answer = .ok (.proceed command)
  newer : call.input.state.messageId < next.input.state.messageId
  elapsed : next.input.elapsed =
    min (next.input.state.messageId.toNat - call.input.state.messageId.toNat) (UInt32.size - 1)
  between : ∃ k : Journal, next.journal = call.journal ++ k ∧ k.attempts = [] ∧
    k.commands = (sentFor call).toList.map Command.encode ∧
    k.accepted (some call.input.state.messageId) = [next.input.state]

theorem Opens.succeeds {hs : List Happening} {command : LoopCommand} {next : Call}
    (h : Opens e' ⟨s, Tick.between tick.state.messageId s.messageId⟩ next)
    (hcruises : e.Cruises mode tick.state)
    (hupdate : (e.witness hs).update command.motion command.torques = (.ok (some s), e')) :
    Succeeds ⟨tick, .ok (.proceed command), (e.witness hs).link.journal⟩ next := by
  obtain ⟨hinput, i, hjournal, hsilent, hevents⟩ := h
  obtain ⟨-, k, -, hpassage, hattempts, hcommands, haccepted, -⟩ :=
    (hcruises.witness hs).update_ok hupdate
  rw [(hcruises.witness hs).lastId] at haccepted
  refine ⟨⟨command, rfl⟩, ?_, ?_, k ++ i, ?_, ?_, ?_, ?_⟩
  · have hmem : s ∈ k.accepted (some tick.state.messageId) := by
      rw [haccepted]
      exact List.mem_singleton_self s
    rw [hinput]
    simpa [newerThan] using newerThan_of_mem_records hmem
  · rw [hinput]
    exact Nat.one_mul _
  · rw [hjournal, hpassage.journal, List.append_assoc]
  · rw [Journal.attempts_append_of_nil _ hsilent.1, hattempts]
  · rw [Journal.commands_append_of_nil _ hsilent.2, hcommands]
    rfl
  · rw [Journal.accepted_append, haccepted, Journal.accepted_of_events_nil hevents, hinput]
    rfl

theorem Rounds.isChain (h : Rounds id e tick last calls result e')
    (hcruises : e.Cruises mode tick.state) : calls.IsChain Succeeds := by
  induction h with
  | last => exact .singleton _
  | next hs hupdate hrounds ih =>
      have hchain := ih ((hcruises.witness hs).update_ok hupdate).1
      obtain ⟨first, rest, rfl, hopens⟩ := hrounds.head
      exact .cons_cons (hopens.succeeds hcruises hupdate) hchain

/-- What was sent for the first call is the first thing sent. -/
theorem filterMap_sentFor_cons (call : Call) (calls : List Call) :
    (call :: calls).filterMap sentFor = (sentFor call).toList ++ calls.filterMap sentFor := by
  rw [List.filterMap_cons]
  cases sentFor call <;> rfl

/-- The engine `e` has come to `e₁` in the rounds up to the answer to `call`, in which the steering
was shown first `s` and then the states that were accepted, and what it asked for was sent. -/
structure Arrives (mode : MotionMode) (s : State) (e : Engine) (before : List Call) (call : Call)
    (j : Journal) (e₁ : Engine) : Prop where
  passage : Passage e j e₁
  attempts : j.attempts = []
  journal : call.journal = e₁.link.journal
  shown : s :: j.accepted e.lastId = (before ++ [call]).map fun c => c.input.state
  commands : j.commands = (before.filterMap sentFor).map Command.encode
  cruises : e₁.Cruises mode call.input.state
  motion : ∃ outcome, e.motion.Credits j outcome ∧ e₁.motion =
    { e.motion with
      outcome, lastCommand := (before.filterMap sentFor).getLast?.or e.motion.lastCommand }
  path : ∃ ms, Path e ms e₁

/-- The first call is answered while nothing is sent or received. -/
theorem arrives_witness (hcruises : e.Cruises mode tick.state) (hs : List Happening)
    (answer : Except SessionError (Step LoopCommand)) :
    ∃ j, Arrives mode tick.state e [] ⟨tick, answer, (e.witness hs).link.journal⟩ j
      (e.witness hs) := by
  obtain ⟨j, hpassage, hsilent, hevents⟩ := e.passage_witness hs
  refine ⟨j, hpassage, hsilent.1, rfl, ?_, hsilent.2, hcruises.witness hs, ⟨_, .inl rfl, rfl⟩,
    [], .of_act (.happen hs)⟩
  rw [Journal.accepted_of_events_nil hevents]
  rfl

theorem Arrives.cons {hs : List Happening} {command : LoopCommand} {e₁ e₂ : Engine}
    {before : List Call} {call : Call} {j : Journal} (hcruises : e.Cruises mode tick.state)
    (hupdate : (e.witness hs).update command.motion command.torques = (.ok (some s), e₁))
    (h : Arrives mode s e₁ before call j e₂) :
    ∃ j', Arrives mode tick.state e
      (⟨tick, .ok (.proceed command), (e.witness hs).link.journal⟩ :: before) call j' e₂ := by
  obtain ⟨i, hpassage₀, hsilent, hevents⟩ := e.passage_witness hs
  obtain ⟨-, k, outcome, hpassage, hattempts, hcommands, haccepted, hcredits, hmotion⟩ :=
    (hcruises.witness hs).update_ok hupdate
  have hcome := hpassage₀.trans hpassage
  refine ⟨i ++ k ++ j, hcome.trans h.passage, ?_, h.journal, ?_, ?_, h.cruises, ?_, ?_⟩
  · rw [Journal.attempts_append_of_nil _ h.attempts, Journal.attempts_append_of_nil _ hattempts]
    exact hsilent.1
  · have hnone := Journal.accepted_of_events_nil hevents e.lastId
    rw [Journal.accepted_append, ← hcome.lastId, Journal.accepted_append, ← hpassage₀.lastId,
      hnone, haccepted]
    exact congrArg (tick.state :: ·) h.shown
  · rw [Journal.commands_append, Journal.commands_append, hsilent.2, hcommands, h.commands,
      List.nil_append, ← List.map_append]
    rw [filterMap_sentFor_cons]
    rfl
  · obtain ⟨outcome', hcredits', hmotion'⟩ := h.motion
    refine ⟨outcome', ?_, ?_⟩
    · have hcredited : e.motion.Credits (i ++ k) outcome := .trans (.inl rfl) hcredits rfl rfl
      exact hcredited.trans hcredits' (by rw [hmotion]; rfl) (by rw [hmotion]; rfl)
    · have hone (c : Option Command) : c.toList.getLast? = c := by cases c <;> rfl
      rw [hmotion', hmotion, filterMap_sentFor_cons, List.getLast?_append, Option.or_assoc, hone]
      rfl
  · obtain ⟨ms, hpath⟩ := h.path
    have hcycle := path_update command.motion command.torques (e.witness hs)
    rw [hupdate] at hcycle
    exact ⟨_, .act (.happen hs) (hcycle.trans hpath)⟩

theorem Rounds.arrives (h : Rounds id e tick last calls result e')
    (hcruises : e.Cruises mode tick.state) (hasked : asked earlier = last) :
    ∃ before call j e₁ ended, calls = before ++ [call] ∧
      Arrives mode tick.state e before call j e₁ ∧
      Leaves id (asked (earlier ++ before)) e₁ call.answer ended result e' := by
  induction h generalizing earlier with
  | @last e ended e' tick last hs answer result hleaves =>
      obtain ⟨j, harrives⟩ := arrives_witness hcruises hs answer
      refine ⟨[], _, j, _, ended, rfl, harrives, ?_⟩
      rwa [List.append_nil, hasked]
  | @next e e₁ e' tick last hs command s rest result hupdate hrounds ih =>
      have hcruises₁ := ((hcruises.witness hs).update_ok hupdate).1
      obtain ⟨before, call, j, e₂, ended, rfl, harrives, hleaves⟩ :=
        ih hcruises₁ (asked_concat earlier tick command (e.witness hs).link.journal)
      obtain ⟨j', harrives'⟩ := harrives.cons hcruises hupdate
      refine ⟨_ :: before, call, j', e₂, ended, rfl, harrives', ?_⟩
      rwa [List.append_assoc] at hleaves

/-- Between the answer to the last call and the end of the cycles at most one state is accepted, and
then it has contradicted the motion. -/
theorem Leaves.unshown {call : Call} {e₁ ended : Engine}
    (h : Leaves id last e₁ call.answer ended result e') (hcruises : e₁.Cruises mode s)
    (hs : call.input.state = s) :
    ∃ k, Passage e₁ k ended ∧ k.attempts = [] ∧
      (k.commands = [] ∨ k.commands = (sentFor call).toList.map Command.encode) ∧
      (k.accepted e₁.lastId = [] ∨ ∃ t, k.accepted e₁.lastId = [t] ∧ t.motionMode ≠ mode ∧
        result = .error (.motion (.stoppedUnexpectedly mode t.motionMode))) := by
  obtain ⟨tick, answer, journal⟩ := call
  obtain rfl : tick.state = s := hs
  cases h with
  | stopped | failed | refused => exact ⟨[], .refl _, rfl, .inl rfl, .inl rfl⟩
  | broken _ hupdate =>
      obtain ⟨k, hpassage, hattempts, hcommands, haccepted⟩ :=
        hcruises.update_failed hupdate (by simp)
      refine ⟨k, hpassage, hattempts, hcommands, haccepted.imp_right ?_⟩
      rintro ⟨t, hone, hmode, heq⟩
      exact ⟨t, hone, hmode, Except.error.inj heq ▸ rfl⟩
  | ended _ hupdate =>
      obtain ⟨k, hpassage, hattempts, hcommands, haccepted⟩ :=
        hcruises.update_failed hupdate (by simp)
      refine ⟨k, hpassage, hattempts, hcommands, haccepted.imp_right ?_⟩
      rintro ⟨t, -, -, heq⟩
      cases heq

/-! ### The run -/

variable {controller : ControllerMode} {motion : MotionMode} {path goal : Deviation}

/-- A motion that has begun was confirmed by the last state. -/
theorem startMotion_cruises (h : e.startMotion controller motion path goal = (.ok id, e')) :
    ∃ s, e'.Cruises motion s ∧ s.motionMode = motion := by
  have hstatus : e.motion.status = .notStarted := by
    by_contra hbusy
    simp [startMotion, hbusy] at h
  obtain ⟨-, -, -, -, -, hrunning, hexpected, -⟩ := startMotion_ok h
  have hstart : (Engine.Call.startMotion controller motion path goal).Starts := trivial
  have hagrees := agrees_start hstatus hstart fun _ => False
  simp only [perform, h] at hagrees
  obtain ⟨s, hlast, hmode⟩ := hagrees hrunning
  exact ⟨s, ⟨hrunning, hexpected, hlast⟩, (hmode.resolve_right not_false).trans hexpected⟩

/-- A motion that has failed is cancelled. -/
def conclude (ended : Except SessionError Unit × Engine) : Except SessionError Unit × Engine :=
  match ended with
  | (.ok (), e) => (.ok (), e)
  | (.error err, e) => (.error err, e.cancelMotion)

/-- A run starts nothing, or it starts a motion and goes through its rounds. -/
theorem recorded_run_cases {m : σ} {p' : σ × List Call}
    (h : run controller motion steering.recorded e (m, []) = (result, p', e')) :
    (p'.2 = [] ∧ ∃ err, result = .error err ∧ (e.raisePriority = .error err ∧ e' = e ∨
      e.startMotion controller motion e.settings.path e.settings.goal = (.error err, e'))) ∨
    ∃ id e₁ s r e₂, e.startMotion controller motion e.settings.path e.settings.goal = (.ok id, e₁) ∧
      e₁.Cruises motion s ∧ s.motionMode = motion ∧ Rounds id e₁ ⟨s, 0⟩ {} p'.2 r e₂ ∧
      (result, e') = conclude (r, e₂) := by
  unfold run at h
  split at h
  · rename_i err hrealtime
    simp only [Prod.mk.injEq] at h
    obtain ⟨rfl, rfl, rfl⟩ := h
    exact .inl ⟨rfl, err, rfl, .inl ⟨hrealtime, rfl⟩⟩
  · split at h
    · rename_i err e₁ hstart
      simp only [Prod.mk.injEq] at h
      obtain ⟨rfl, rfl, rfl⟩ := h
      exact .inl ⟨rfl, err, rfl, .inr hstart⟩
    · rename_i id e₁ hstart
      obtain ⟨s, hcruises, hmode⟩ := startMotion_cruises hstart
      rcases hspin : spin steering.recorded id e₁ (m, []) with ⟨r, p₁, e₂⟩
      have hcycles := hspin
      simp only [spin, hcruises.last] at hcycles
      obtain ⟨calls, hcalls, hrounds⟩ := cycles_rounds hcycles
      obtain rfl : p₁.2 = calls := hcalls
      have hfirst : Tick.between s.messageId s.messageId = 0 := by
        simp [Tick.between]
      rw [hfirst] at hrounds
      rw [hspin] at h
      cases r with
      | ok _ | error _ =>
          simp only [Prod.mk.injEq] at h
          obtain ⟨rfl, rfl, rfl⟩ := h
          exact .inr ⟨id, e₁, s, _, e₂, hstart, hcruises, hmode, hrounds, rfl⟩

/-- The cycles of the motion `id` came to their end after `call`, and all calls before it asked to
go on.  Since the motion had begun at `e` with the state `s`, `j` has passed up to the answer to
`call`, and `k` from there to the end of the cycles.  Of all states that were accepted the steering
was shown all but `unshown`: at most one, which has ended the cycles since it contradicts the
motion. -/
structure Closes (mode : MotionMode) (id : UInt32) (s : State) (e : Engine) (before : List Call)
    (call : Call) (j k : Journal) (unshown : List State) (result : Except SessionError Unit)
    (e' : Engine) : Prop where
  proceeds : ∀ c ∈ before, ∃ command, c.answer = .ok (.proceed command)
  answered : call.journal = e.link.journal ++ j
  leaves : ∃ e₁ e₂ r e₃, e₁.link.journal = call.journal ∧
    Leaves id (asked before) e₁ call.answer e₂ r e₃ ∧ e₂.link.journal = call.journal ++ k ∧
    (result, e') = conclude (r, e₃)
  accepted : s :: Journal.accepted (some s.messageId) (j ++ k) =
    (before ++ [call]).map (fun c => c.input.state) ++ unshown
  contradicted : unshown = [] ∨ ∃ t, unshown = [t] ∧ t.motionMode ≠ mode ∧
    result = .error (.motion (.stoppedUnexpectedly mode t.motionMode))
  sent : j.commands = (before.filterMap sentFor).map Command.encode
  sentLast : k.commands = [] ∨ k.commands = (sentFor call).toList.map Command.encode

/-- What the steering of the motion `id` is shown in `calls` when the motion has begun at `e` with
the state `s`, and what becomes of the run. -/
structure Shown (mode : MotionMode) (id : UInt32) (s : State) (e : Engine) (calls : List Call)
    (result : Except SessionError Unit) (e' : Engine) : Prop where
  first : calls.head?.map (fun c => c.input) = some ⟨s, 0⟩
  successive : calls.IsChain Succeeds
  increasing : calls.Pairwise fun c c' => c.input.state.messageId < c'.input.state.messageId
  elapsed : ∀ call ∈ calls, call.input.elapsed < UInt32.size
  keyed : ∀ call ∈ calls, ∀ command, sentFor call = some command →
    command.messageId = call.input.state.messageId
  closes : ∃ before call j k unshown, calls = before ++ [call] ∧
    Closes mode id s e before call j k unshown result e'

/-- What one call and the next have in common, all calls before and after have. -/
theorem pairwise_of_succeeds (h : calls.IsChain Succeeds) :
    calls.Pairwise fun c c' => (∃ command, c.answer = .ok (.proceed command)) ∧
      c.input.state.messageId < c'.input.state.messageId ∧ c'.input.elapsed < UInt32.size := by
  let R (c c' : Call) : Prop := (∃ command, c.answer = .ok (.proceed command)) ∧
    c.input.state.messageId < c'.input.state.messageId ∧ c'.input.elapsed < UInt32.size
  have : Trans R R R :=
    ⟨fun h h' => ⟨h.1, UInt64.lt_trans h.2.1 h'.2.1, h'.2.2⟩⟩
  have hchain : calls.IsChain R := by
    refine h.imp fun c c' hnext => ⟨hnext.proceeds, hnext.newer, ?_⟩
    rw [hnext.elapsed]
    exact Nat.lt_succ_of_le (Nat.min_le_right _ _)
  exact hchain.pairwise

theorem Rounds.shown {r : Except SessionError Unit} (h : Rounds id e ⟨s, 0⟩ {} calls r e₂)
    (hcruises : e.Cruises mode s) (hend : (result, e') = conclude (r, e₂)) :
    Shown mode id s e calls result e' := by
  have hchain := h.isChain hcruises
  have hpairwise := pairwise_of_succeeds hchain
  have hnothing : asked [] = {} := rfl
  obtain ⟨first, rest, hfirst, hopens⟩ := h.head
  obtain ⟨before, call, j, e₁, ended, hcalls, harrives, hleaves⟩ :=
    h.arrives hcruises hnothing
  obtain ⟨k, hpassage, -, hcommands, haccepted⟩ := hleaves.unshown harrives.cruises rfl
  refine ⟨?_, hchain, hpairwise.imp fun hnext => hnext.2.1, ?_,
    fun call _ command hsent => messageId_of_sentFor hsent, ?_⟩
  · rw [hfirst]
    exact congrArg some hopens.input
  · rw [hfirst] at hpairwise ⊢
    refine List.forall_mem_cons.2 ⟨?_, fun c hc => (List.rel_of_pairwise_cons hpairwise hc).2.2⟩
    rw [hopens.input]
    exact (by decide : 0 < UInt32.size)
  · refine ⟨before, call, j, k, k.accepted e₁.lastId, hcalls, ?_, ?_, ?_, ?_, ?_,
      harrives.commands, hcommands⟩
    · rw [hcalls, List.pairwise_append] at hpairwise
      exact fun c hc => (hpairwise.2.2 c hc call (List.mem_singleton_self call)).1
    · rw [harrives.journal, harrives.passage.journal]
    · refine ⟨e₁, ended, r, e₂, harrives.journal.symm, hleaves, ?_, hend⟩
      rw [hpassage.journal, harrives.journal]
    · rw [← harrives.shown, ← hcruises.lastId, Journal.accepted_append, harrives.passage.lastId]
      rfl
    · refine haccepted.imp_right ?_
      rintro ⟨t, hone, hmode, rfl⟩
      exact ⟨t, hone, hmode, (Prod.mk.inj hend).1⟩

/-- All calls of a run but the last have asked to go on. -/
theorem proceeds_of_run {m : σ} {p' : σ × List Call}
    (h : run controller motion steering.recorded e (m, []) = (result, p', e')) :
    ∀ call ∈ p'.2.dropLast, ∃ command, call.answer = .ok (.proceed command) := by
  rcases recorded_run_cases h with ⟨hnone, -⟩ | ⟨id, e₁, s, r, e₂, -, hcruises, -, hrounds, hend⟩
  · simp [hnone]
  · obtain ⟨before, call, j, k, unshown, hcalls, hcloses⟩ := (hrounds.shown hcruises hend).closes
    rw [hcalls, List.dropLast_concat]
    exact hcloses.proceeds

/-- The steering of a motion is called only once the motion has begun.  Then it is shown the state
that has confirmed the motion, and after it, once and in order, every state that is accepted until
it does not ask to go on or something goes wrong; a state that contradicts the motion is the only
one that is not shown. -/
theorem run_shown (controller : ControllerMode) (motion : MotionMode) (steering : Steering credit)
    (e : Engine) (m : σ) :
    ∃ result m' calls e', run controller motion steering e m = (result, m', e') ∧
      run controller motion steering.recorded e (m, []) = (result, (m', calls), e') ∧
      ((calls = [] ∧ ∃ err, result = .error err ∧
          (e.raisePriority = .error err ∧ e' = e ∨
            e.startMotion controller motion e.settings.path e.settings.goal = (.error err, e'))) ∨
        ∃ id e₁ s,
          e.startMotion controller motion e.settings.path e.settings.goal = (.ok id, e₁) ∧
          e₁.lastState = some s ∧ s.motionMode = motion ∧
          Shown motion id s e₁ calls result e') := by
  have hplain := run_erase steering.recorded_erases controller motion e (m, [])
  rcases hrun : run controller motion steering.recorded e (m, []) with ⟨result, ⟨m', calls⟩, e'⟩
  rw [hrun] at hplain
  refine ⟨_, _, calls, _, hplain, rfl, (recorded_run_cases hrun).imp_right ?_⟩
  rintro ⟨id, e₁, s, r, e₂, hstart, hcruises, hmode, hrounds, hend⟩
  exact ⟨id, e₁, s, hstart, hcruises.last, hmode, hrounds.shown hcruises hend⟩

end ControlLoop
end ArmControl
