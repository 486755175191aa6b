import ArmControl.Proofs.Quiescence

/-! # What a user is shown

An operation hands states out: to its callbacks, or as its result.  `Robot.deliver` carries out an
operation and gives these states too; it does nothing else than the operation (`deliver_eq`).

An operation shows a state only after the engine has accepted it, and never one that was accepted
before the operation has begun (`deliver_shows`).  Readings show all that is accepted.  So over a
whole session the states that are shown are newer and newer, and none is lost while the user only
reads (`delivered_in_order`). -/

namespace ArmControl

open Engine

namespace Engine

/-- The states that were shown are among those that were accepted, each at most once and in
order. -/
def Shows (e : Engine) (j : Journal) (shown : List State) : Prop :=
  shown.Sublist (j.accepted e.lastId)

theorem Shows.append {e e₁ : Engine} {a b : Journal} {s t : List State} (h₁ : Shows e a s)
    (hpassage : Passage e a e₁) (h₂ : Shows e₁ b t) : Shows e (a ++ b) (s ++ t) := by
  unfold Shows at *
  rw [Journal.accepted_append, ← hpassage.lastId]
  exact h₁.append h₂

theorem Shows.nil (e : Engine) (j : Journal) : Shows e j [] := List.nil_sublist _

end Engine

/-! ### Shown in a loop -/

namespace ControlLoop

variable {σ κ : Type} {credit : σ → Nat} {steering : Steering credit} {log : σ → List κ}
  {f : State → List κ} {e e' : Engine} {m m' : σ} {result : Except SessionError Unit}

theorem cycles_shows (hlogs : steering.Logs log fun tick => f tick.state) {id : UInt32} {s : State}
    {previous : UInt64} {last : LoopCommand}
    (h : cycles steering id s previous last e m = (result, m', e')) :
    ∃ j shown, Passage e j e' ∧ log m' = log m ++ (s :: shown).flatMap f ∧ Shows e j shown := by
  have hcalled {s : State} {previous : UInt64} {e e₁ : Engine} {m m₁ : σ}
      {answer : Except SessionError (Step LoopCommand)}
      (hcall : steering.call ⟨s, Tick.between previous s.messageId⟩ e m = (answer, m₁, e₁)) :
      log m₁ = log m ++ f s ∧ ∃ j, Passage e j e₁ := by
    have hlog := hlogs ⟨s, Tick.between previous s.messageId⟩ e m
    rw [hcall] at hlog
    obtain ⟨j, hpassage, -⟩ := Callback.call_passage hcall
    exact ⟨hlog, j, hpassage⟩
  fun_induction cycles steering id s previous last e m with
  | case1 s previous last e m err m₁ e₁ hcall =>
      simp only [Prod.mk.injEq] at h
      obtain ⟨rfl, rfl, rfl⟩ := h
      obtain ⟨hlog, j, hpassage⟩ := hcalled hcall
      exact ⟨j, [], hpassage, by simp [hlog], .nil _ _⟩
  | case2 s previous last e m m₁ e₁ hcall finished e₂ hfinish =>
      simp only [Prod.mk.injEq] at h
      obtain ⟨rfl, rfl, rfl⟩ := h
      obtain ⟨hlog, j₁, hpassage₁⟩ := hcalled hcall
      obtain ⟨j₂, hpassage₂, -⟩ := e₁.finishMotion_passage id last.motion last.torques
      rw [hfinish] at hpassage₂
      exact ⟨_, [], hpassage₁.trans hpassage₂, by simp [hlog], .nil _ _⟩
  | case3 s previous last e m command m₁ e₁ hcall err hvalid =>
      simp only [Prod.mk.injEq] at h
      obtain ⟨rfl, rfl, rfl⟩ := h
      obtain ⟨hlog, j, hpassage⟩ := hcalled hcall
      exact ⟨j, [], hpassage, by simp [hlog], .nil _ _⟩
  | case4 s previous last e m command m₁ e₁ hcall hvalid s' e₂ hupdate ih =>
      obtain ⟨hlog, j₁, hpassage₁⟩ := hcalled hcall
      obtain ⟨j₂, hpassage₂, -, haccepted⟩ := update_passage hupdate
      obtain ⟨j₃, shown, hpassage₃, hlog₃, hshows⟩ := ih h
      have hshows₂ : Shows e₁ j₂ [s'] := haccepted s' rfl ▸ List.Sublist.refl _
      refine ⟨_, s' :: shown, (hpassage₁.trans hpassage₂).trans hpassage₃, ?_, ?_⟩
      · rw [hlog₃, hlog, List.append_assoc]
        rfl
      · rw [List.append_assoc]
        exact (Shows.nil _ _).append hpassage₁ (hshows₂.append hpassage₂ hshows)
  | case5 s previous last e m command m₁ e₁ hcall hvalid e₂ hupdate =>
      simp only [Prod.mk.injEq] at h
      obtain ⟨rfl, rfl, rfl⟩ := h
      obtain ⟨hlog, j₁, hpassage₁⟩ := hcalled hcall
      obtain ⟨j₂, hpassage₂, -⟩ := update_passage hupdate
      exact ⟨_, [], hpassage₁.trans hpassage₂, by simp [hlog], .nil _ _⟩
  | case6 s previous last e m command m₁ e₁ hcall hvalid err e₂ hupdate =>
      simp only [Prod.mk.injEq] at h
      obtain ⟨rfl, rfl, rfl⟩ := h
      obtain ⟨hlog, j₁, hpassage₁⟩ := hcalled hcall
      obtain ⟨j₂, hpassage₂, -⟩ := update_passage hupdate
      exact ⟨_, [], hpassage₁.trans hpassage₂, by simp [hlog], .nil _ _⟩

theorem run_shows (hlogs : steering.Logs log fun tick => f tick.state) {controller : ControllerMode}
    {motion : MotionMode} (hidle : e.motion = {})
    (h : run controller motion steering e m = (result, m', e')) :
    ∃ j shown, Passage e j e' ∧ log m' = log m ++ shown.flatMap f ∧ Shows e j shown := by
  unfold run at h
  split at h
  · simp only [Prod.mk.injEq] at h
    obtain ⟨rfl, rfl, rfl⟩ := h
    exact ⟨[], [], .refl e, by simp, .nil _ _⟩
  · rw [startMotion_eq] at h
    rcases hlaunch : e.launch controller motion e.settings.path e.settings.goal with ⟨launched, e₁⟩
    obtain ⟨j₁, hpassage₁, -, -, hlaunched⟩ := launch_cases hlaunch (by rw [hidle]) (by rw [hidle])
    rw [hlaunch] at h
    generalize e₁.motion = m₁ at hlaunched
    cases hlaunched with
    | refused =>
        simp only [Prod.mk.injEq] at h
        obtain ⟨rfl, rfl, rfl⟩ := h
        exact ⟨j₁, [], hpassage₁, by simp, .nil _ _⟩
    | accepted _ hawaited =>
        cases hawaited with
        | failed =>
            obtain ⟨j₃, hpassage₃, -⟩ := e₁.cancelMotion_cases
            simp only [Prod.mk.injEq] at h
            obtain ⟨rfl, rfl, rfl⟩ := h
            exact ⟨_, [], hpassage₁.trans hpassage₃, by simp, .nil _ _⟩
        | confirmed _ hrunning =>
            obtain ⟨s, hs, -⟩ := hrunning.resolve_left (by simp [Motion.begin])
            obtain ⟨t, ht, hmem⟩ := hpassage₁.lastState_mem (List.ne_nil_of_mem hs)
            have hshows₁ : Shows e j₁ [t] := List.singleton_sublist.2 hmem
            rcases hspin : spin steering e.session.nextId e₁ m with ⟨spun, m₂, e₂⟩
            obtain ⟨j₂, shown, hpassage₂, hlog, hshows⟩ :=
              cycles_shows hlogs (by simpa only [spin, ht] using hspin)
            have hpassage := hpassage₁.trans hpassage₂
            have hshows := hshows₁.append hpassage₁ hshows
            simp only [hspin] at h
            cases spun with
            | ok _ =>
                simp only [Prod.mk.injEq] at h
                obtain ⟨rfl, rfl, rfl⟩ := h
                exact ⟨_, t :: shown, hpassage, hlog, hshows⟩
            | error err =>
                simp only [Prod.mk.injEq] at h
                obtain ⟨rfl, rfl, rfl⟩ := h
                obtain ⟨j₄, hpassage₄, -⟩ := e₂.cancelMotion_cases
                refine ⟨_, t :: shown, hpassage.trans hpassage₄, hlog, ?_⟩
                simpa using hshows.append hpassage (.nil e₂ j₄)

end ControlLoop
namespace Robot

/-! ### Shown by an operation -/

/-- Carries out an operation, and gives the states that are handed out on the way as well, in order:
those that its callbacks get and the one that it returns. -/
def deliver (r : Robot) : Call → Except RobotError Unit × List State × Robot
  | .read cb m =>
    let (result, p, r) := r.read (cb.noted id) (m, [])
    (result, p.2, r)
  | .readOnce =>
    let (result, r) := r.readOnce
    (result.map fun _ => (), result.toOption.toList, r)
  | .controlIdle controller cb m =>
    let (result, p, r) := r.controlIdle controller (cb.noted id) (m, [])
    (result, p.2, r)
  | .controlMotion controller cb m =>
    let (result, p, r) := r.controlMotion controller (cb.noted Tick.state) (m, [])
    (result, p.2, r)
  | .controlTorques cb m =>
    let (result, p, r) := r.controlTorques (cb.noted Tick.state) (m, [])
    (result, p.2, r)
  | .controlTorquesWithMotion torqueCallback motionCallback m =>
    let (result, p, r) := r.controlTorquesWithMotion (torqueCallback.noted Tick.state)
      (motionCallback.noted Tick.state) (m, [])
    (result, p.2, r)

/-- How many callbacks an operation hands each state to. -/
def Call.voices : Call → Nat
  | .controlTorquesWithMotion .. => 2
  | _ => 1

/-- The operation does nothing but show states to the user, or give one. -/
def Call.IsReading : Call → Prop
  | .read .. | .readOnce => True
  | _ => False

theorem Call.voices_of_isReading {call : Call} (h : call.IsReading) : call.voices = 1 := by
  cases call <;> first | rfl | cases h

variable {r : Robot} {σ : Type} {credit : σ → Nat}

/-- Noting what is handed out changes nothing. -/
theorem deliver_eq (r : Robot) (call : Call) :
    r.perform call = ((r.deliver call).1, (r.deliver call).2.2) := by
  cases call with
  | read cb m =>
      simp only [perform, deliver, read_erase (cb.noted_erases id) r (m, [])]
      rfl
  | readOnce => rfl
  | controlIdle controller cb m =>
      simp only [perform, deliver, controlIdle_erase (cb.noted_erases id) controller r (m, [])]
      rfl
  | controlMotion controller cb m =>
      simp only [perform, deliver,
        controlMotion_erase (cb.noted_erases Tick.state) controller r (m, [])]
      rfl
  | controlTorques cb m =>
      simp only [perform, deliver, controlTorques_erase (cb.noted_erases Tick.state) r (m, [])]
      rfl
  | controlTorquesWithMotion torqueCallback motionCallback m =>
      simp only [perform, deliver,
        controlTorquesWithMotion_erase (torqueCallback.noted_erases Tick.state)
          (motionCallback.noted_erases Tick.state) r (m, [])]
      rfl

theorem read_shows (h : r.Quiescent) (cb : Callback credit State Bool) (m : σ) :
    ∃ j, Passage r.engine j (r.read (cb.noted id) (m, [])).2.2.engine ∧
      (r.read (cb.noted id) (m, [])).2.1.2 =
        (j.accepted r.engine.lastId).flatMap (List.replicate 1) := by
  obtain ⟨j, hpassage, -, hlog, -⟩ := showStates_of_idle (cb.noted_logs id) h.idle
    (Prod.eta (showStates _ r.engine (.reading, m, []))).symm
  refine ⟨j, ?_, ?_⟩
  · rw [read, operate_of_free h.slot]
    exact hpassage
  · rw [read, operate_of_free h.slot]
    exact hlog

theorem readOnce_shows (h : r.Quiescent) :
    ∃ j, Passage r.engine j r.readOnce.2.engine ∧
      r.readOnce.1.toOption.toList = (j.accepted r.engine.lastId).flatMap (List.replicate 1) := by
  rcases hupdate : r.engine.update none none with ⟨result, e⟩
  have hpoll := hupdate
  rw [update_of_idle h.idle] at hpoll
  obtain ⟨j, hpassage, -, -, hquiet⟩ := poll_of_idle h.idle hpoll
  refine ⟨j, ?_⟩
  simp only [readOnce, operate_of_free h.slot, hupdate]
  cases hquiet with
  | state haccepted =>
      refine ⟨hpassage, ?_⟩
      rw [haccepted]
      rfl
  | ended hnone =>
      refine ⟨hpassage, ?_⟩
      rw [hnone]
      rfl
  | broken hnone _ =>
      refine ⟨hpassage, ?_⟩
      rw [hnone]
      rfl

theorem controlIdle_shows (h : r.Quiescent) (controller : ControllerMode)
    (cb : Callback credit State Bool) (m : σ) :
    ∃ j shown, Passage r.engine j (r.controlIdle controller (cb.noted id) (m, [])).2.2.engine ∧
      (r.controlIdle controller (cb.noted id) (m, [])).2.1.2 = shown.flatMap (List.replicate 1) ∧
      Shows r.engine j shown := by
  have hidle := setController_of_idle controller h.idle
  rcases hset : r.engine.setController controller with ⟨result, e⟩
  obtain ⟨j₁, hpassage₁, -, -, hresult⟩ := setController_cases hset
  rw [hset] at hidle
  simp only [controlIdle, operate_of_free h.slot, hset]
  rcases hresult with ⟨rfl, s, hs, hmem, -⟩ | ⟨err, rfl, -⟩
  · simp only [hs]
    have hshows₁ : Shows r.engine j₁ [s] := List.singleton_sublist.2 hmem
    rcases hcall : (cb.noted id).onEngine.call s e (.controlling controller .idle, m, []) with
      ⟨more, p, e₁⟩
    obtain ⟨j₂, hpassage₂, -, hevents, hmotion⟩ := ArmControl.Callback.call_passage hcall
    have hlog := cb.noted_logs id s e (.controlling controller .idle, m, [])
    rw [hcall] at hlog
    have hpassage := hpassage₁.trans hpassage₂
    have hshows : Shows r.engine (j₁ ++ j₂) ([s] ++ []) := hshows₁.append hpassage₁ (.nil e j₂)
    cases more with
    | false => exact ⟨_, [s], hpassage, hlog, hshows⟩
    | true =>
        obtain ⟨j₃, hpassage₃, -, hlog₃, -⟩ := showStates_of_idle (cb.noted_logs id)
          (hmotion.trans hidle) (Prod.eta (showStates _ e₁ p)).symm
        refine ⟨_, s :: j₃.accepted e₁.lastId, hpassage.trans hpassage₃, ?_,
          hshows.append hpassage (List.Sublist.refl _)⟩
        rw [hlog₃, show p.2.2 = [s] from hlog]
        rfl
  · exact ⟨j₁, [], hpassage₁, rfl, .nil _ _⟩

theorem steer_shows (h : r.Quiescent) (controller : ControllerMode) (motion : MotionMode)
    {steering : ControlLoop.Steering fun p : Operation × (σ × List State) => credit p.2.1} (n : Nat)
    (hlogs : steering.Logs (fun p => p.2.2) fun tick => List.replicate n tick.state) (m : σ) :
    ∃ j shown, Passage r.engine j (@steer _ (fun p : σ × List State => credit p.1) controller motion
        steering r (m, [])).2.2.engine ∧
      (@steer _ (fun p : σ × List State => credit p.1) controller motion steering r (m, [])).2.1.2 =
        shown.flatMap (List.replicate n) ∧ Shows r.engine j shown := by
  obtain ⟨j, shown, hpassage, hlog, hshows⟩ := ControlLoop.run_shows hlogs h.idle
    (Prod.eta (ControlLoop.run controller motion steering r.engine
      (.controlling controller motion, m, []))).symm
  refine ⟨j, shown, ?_, ?_, hshows⟩
  · rw [steer, operate_of_free h.slot]
    exact hpassage
  · rw [steer, operate_of_free h.slot]
    exact hlog

/-- An operation hands out states that are accepted while it lasts, to each of its callbacks; a
reading hands out all of them. -/
theorem deliver_shows (h : r.Quiescent) (call : Call) :
    ∃ j shown, Passage r.engine j (r.perform call).2.engine ∧
      (r.deliver call).2.1 = shown.flatMap (List.replicate call.voices) ∧ Shows r.engine j shown ∧
      (call.IsReading → shown = j.accepted r.engine.lastId) := by
  rw [deliver_eq]
  cases call with
  | read cb m =>
      obtain ⟨j, hpassage, hlog⟩ := read_shows h cb m
      exact ⟨j, _, hpassage, hlog, List.Sublist.refl _, fun _ => rfl⟩
  | readOnce =>
      obtain ⟨j, hpassage, hlog⟩ := readOnce_shows h
      exact ⟨j, _, hpassage, hlog, List.Sublist.refl _, fun _ => rfl⟩
  | controlIdle controller cb m =>
      obtain ⟨j, shown, hpassage, hlog, hshows⟩ := controlIdle_shows h controller cb m
      exact ⟨j, shown, hpassage, hlog, hshows, False.elim⟩
  | controlMotion controller cb m =>
      obtain ⟨j, shown, hpassage, hlog, hshows⟩ :=
        steer_shows h controller _ 1 ((cb.noted_logs Tick.state).map _) m
      exact ⟨j, shown, hpassage, hlog, hshows, False.elim⟩
  | controlTorques cb m =>
      obtain ⟨j, shown, hpassage, hlog, hshows⟩ :=
        steer_shows h .external .idle 1 ((cb.noted_logs Tick.state).map _) m
      exact ⟨j, shown, hpassage, hlog, hshows, False.elim⟩
  | controlTorquesWithMotion torqueCallback motionCallback m =>
      have hlogs := (motionCallback.noted_logs Tick.state).both
        (torqueCallback.noted_logs Tick.state)
      obtain ⟨j, shown, hpassage, hlog, hshows⟩ := steer_shows h .external _ 2 (hlogs.map _) m
      exact ⟨j, shown, hpassage, hlog, hshows, False.elim⟩

/-! ### Shown in a session -/

/-- The operations among some turns, each with the states that it hands out. -/
def delivered (r : Robot) : List Turn → List (Call × List State)
  | [] => []
  | .call call :: rest => (call, (r.deliver call).2.1) :: (r.turn (.call call)).delivered rest
  | .happen happenings :: rest => (r.turn (.happen happenings)).delivered rest

/-- All states that are handed out, in order. -/
def handed (r : Robot) (turns : List Turn) : List State := (r.delivered turns).flatMap Prod.snd

/-- The user does nothing but read. -/
def Turn.IsReading : Turn → Prop
  | .call c => c.IsReading
  | .happen _ => True

theorem delivered_shows (h : r.Quiescent) (turns : List Turn) :
    ∃ (j : Journal) (shown : List (Call × List State)),
      Passage r.engine j (r.after turns).engine ∧
      r.delivered turns = shown.map (fun p => (p.1, p.2.flatMap (List.replicate p.1.voices))) ∧
      Shows r.engine j (shown.flatMap Prod.snd) ∧
      ((∀ t ∈ turns, t.IsReading) → r.handed turns = j.accepted r.engine.lastId) := by
  induction turns generalizing r with
  | nil => exact ⟨[], [], .refl _, rfl, .nil _ _, fun _ => rfl⟩
  | cons t rest ih =>
      cases t with
      | call call =>
          obtain ⟨j₁, shown₁, hpassage₁, hhanded, hshows₁, hreading₁⟩ := deliver_shows h call
          obtain ⟨j₂, shown₂, hpassage₂, hdelivered, hshows₂, hreading₂⟩ :=
            ih (perform_endsWell h call).1
          refine ⟨_, (call, shown₁) :: shown₂, hpassage₁.trans hpassage₂, ?_,
            hshows₁.append hpassage₁ hshows₂, fun hreading => ?_⟩
          · simp only [delivered, List.map_cons, hhanded]
            exact congrArg _ hdelivered
          · have hshown := hreading₁ (hreading _ List.mem_cons_self)
            have hrest := hreading₂ fun t ht => hreading t (List.mem_cons_of_mem _ ht)
            have hone : call.voices = 1 := Call.voices_of_isReading (hreading _ List.mem_cons_self)
            have hall : shown₁.flatMap (List.replicate 1) = shown₁ := List.flatMap_singleton' shown₁
            change (r.deliver call).2.1 ++ handed _ rest = _
            rw [hhanded, hone, hall, hshown, Journal.accepted_append, ← hpassage₁.lastId, ← hrest]
            rfl
      | happen happenings =>
          obtain ⟨j₁, hpassage₁, -, hevents⟩ := r.engine.passage_witness happenings
          obtain ⟨j₂, shown, hpassage₂, hdelivered, hshows, hreading⟩ := ih (h.witness happenings)
          refine ⟨_, shown, hpassage₁.trans hpassage₂, hdelivered,
            (Shows.nil _ _).append hpassage₁ hshows, fun hall => ?_⟩
          rw [Journal.accepted_append, Journal.accepted_of_events_nil hevents, ← hpassage₁.lastId]
          exact hreading fun t ht => hall t (List.mem_cons_of_mem _ ht)

/-- Over a whole session each operation shows its states to all of its callbacks, and the states
that are shown are newer and newer.  While the user only reads, exactly the states that the engine
accepts are handed out. -/
theorem delivered_in_order (link : Link) (settings : Settings) (clock : Clock) (turns : List Turn) :
    let r := (connect link settings clock).2
    (∃ shown : List (Call × List State),
      r.delivered turns = shown.map (fun p => (p.1, p.2.flatMap (List.replicate p.1.voices))) ∧
        (shown.flatMap Prod.snd).Pairwise fun s t => s.messageId < t.messageId) ∧
    ∀ reading : List Turn, (∀ t ∈ reading, t.IsReading) → ∃ j : Journal,
      ((r.after turns).after reading).engine.link.journal =
        (r.after turns).engine.link.journal ++ j ∧
      (r.after turns).handed reading = j.accepted (r.after turns).engine.lastId := by
  intro r
  have h : r.Quiescent := connect_quiescent link settings clock
  refine ⟨?_, fun reading hreading => ?_⟩
  · obtain ⟨j, shown, -, hdelivered, hshows, -⟩ := delivered_shows h turns
    exact ⟨shown, hdelivered, (records_pairwise _ _).sublist hshows⟩
  · obtain ⟨j, -, hpassage, -, -, hhanded⟩ := delivered_shows (h.after turns) reading
    exact ⟨j, hpassage.journal, hhanded hreading⟩

/-- Two readings of one state each; between the two states the first one comes once more. -/
def readings : List Turn :=
  [.happen [.say [.nextState State.initial 1, .nextState State.initial 0,
      .nextState State.initial 1]],
    .call (.read (Callback.ofPure fun _ m => (false, m)) ()), .call .readOnce]

/-- The second reading goes on where the first one has ended. -/
theorem delivered_in_order_readOnce :
    let r := (connect { farEnd := .accepting } {} default).2
    (∀ t ∈ readings, t.IsReading) ∧
    (r.delivered readings).map (fun p => p.2.map State.messageId) = [[1], [2]] ∧
    ∃ j : Journal,
      ((r.after []).after readings).engine.link.journal = (r.after []).engine.link.journal ++ j ∧
      (r.after []).handed readings = j.accepted (r.after []).engine.lastId := by
  intro r
  have hreading : ∀ t ∈ readings, t.IsReading := by
    intro t ht
    simp only [readings, List.mem_cons, List.not_mem_nil, or_false] at ht
    rcases ht with rfl | rfl | rfl <;> trivial
  exact ⟨hreading, by decide +kernel,
    (delivered_in_order { farEnd := .accepting } {} default []).2 _ hreading⟩

/-- A motion that stays where it is, with torques that are no numbers. -/
def strayTorques : Call :=
  .controlTorquesWithMotion
    (Callback.ofPure fun _ m => (.proceed (Vector.replicate _ ⟨0x7ff8000000000000⟩), m))
    (Callback.ofPure fun tick m => (.proceed (.jointPositions tick.state), m)) ()

/-- Where two callbacks share a motion, both get the same state: what is handed out is not strictly
newer each time. -/
theorem handed_twice :
    ¬ ((connect { farEnd := .accepting } {} default).2.handed [.call strayTorques]).Pairwise
      fun s t => s.messageId < t.messageId := by
  have hids : ((connect { farEnd := .accepting } {} default).2.handed [.call strayTorques]).map
      State.messageId = [1, 1] := by decide +kernel
  rw [← List.pairwise_map, hids]
  decide

end Robot
end ArmControl
