import ArmControl.Proofs.Inert

/-! # Runs beside each other

Procedures are `Parallel` if alike engines that carry them out come to the same result and remain
alike, as long as the far ends say the same but for extra messages that mean nothing when they are
taken.  A procedure that is parallel to itself is `Steady`.

All that an engine does is steady: `agree_wait` passes over the extra messages one by one, and the
operations follow from the procedures that they are made of. -/

namespace ArmControl

open Engine

namespace Procedure

variable {α β γ : Type} {extra : Nat → Bool} {start₁ start₂ : Link} {e₁ e₂ : Engine}

/-- If the engines are alike, the far ends say the same but for the extra messages, and these mean
nothing when they are taken, both procedures have the same result and leave the engines alike. -/
def Agree (extra : Nat → Bool) (start₁ start₂ : Link) (P₁ P₂ : Procedure α) (e₁ e₂ : Engine) :
    Prop :=
  Alike extra start₁ start₂ e₁ e₂ →
    Echoes extra start₁ start₂ (P₁.run e₁).2.link (P₂.run e₂).2.link →
    (∀ m ∈ P₂.moments e₂, extra m.number → m.Inert) →
    (P₁.run e₁).1 = (P₂.run e₂).1 ∧ Alike extra start₁ start₂ (P₁.run e₁).2 (P₂.run e₂).2

/-- The procedures agree wherever they are carried out. -/
def Parallel (P₁ P₂ : Procedure α) : Prop :=
  ∀ extra start₁ start₂ e₁ e₂, Agree extra start₁ start₂ P₁ P₂ e₁ e₂

/-- Extra messages make no difference to the procedure. -/
def Steady (P : Procedure α) : Prop := Parallel P P

variable {P₁ P₂ : Procedure α} {K₁ K₂ : α → Procedure β}

/-! ### One procedure after the other -/

theorem Agree.bind (h : Agree extra start₁ start₂ P₁ P₂ e₁ e₂)
    (hK : ∀ a e₁' e₂', P₂.run e₂ = (a, e₂') → Agree extra start₁ start₂ (K₁ a) (K₂ a) e₁' e₂') :
    Agree extra start₁ start₂ (P₁ >>= K₁) (P₂ >>= K₂) e₁ e₂ := by
  intro halike hecho hinert
  rw [run_bind, run_bind] at hecho ⊢
  rw [moments_bind] at hinert
  obtain ⟨i₁, hi₁⟩ := P₁.grows e₁
  obtain ⟨i₂, hi₂⟩ := P₂.grows e₂
  obtain ⟨j₁, hj₁⟩ := (K₁ (P₁.run e₁).1).grows (P₁.run e₁).2
  obtain ⟨j₂, hj₂⟩ := (K₂ (P₂.run e₂).1).grows (P₂.run e₂).2
  have hgrown₁ : start₁.journal <+: (P₁.run e₁).2.link.journal :=
    hi₁ ▸ halike.linked.grown₁.trans (List.prefix_append _ _)
  have hgrown₂ : start₂.journal <+: (P₂.run e₂).2.link.journal :=
    hi₂ ▸ halike.linked.grown₂.trans (List.prefix_append _ _)
  obtain ⟨hvalue, hafter⟩ := h halike (hecho.of_append hgrown₁ hgrown₂ hj₁ hj₂)
    fun m hm => hinert m (List.mem_append_left _ hm)
  rw [hvalue] at hecho ⊢
  exact hK _ _ _ rfl hafter hecho fun m hm => hinert m (List.mem_append_right _ hm)

theorem Parallel.bind (h : Parallel P₁ P₂) (hK : ∀ a, Parallel (K₁ a) (K₂ a)) :
    Parallel (P₁ >>= K₁) (P₂ >>= K₂) :=
  fun extra start₁ start₂ _ _ =>
    (h extra start₁ start₂ _ _).bind fun a _ _ _ => hK a extra start₁ start₂ _ _

theorem Steady.bind {P : Procedure α} {K : α → Procedure β} (h : Steady P)
    (hK : ∀ a, Steady (K a)) : Steady (P >>= K) :=
  Parallel.bind h hK

theorem Steady.parallel {P : Procedure α} (h : Steady P) : Parallel P P := h

theorem steady_pure (a : α) : Steady (pure a) :=
  fun _ _ _ _ _ halike _ _ => ⟨rfl, halike⟩

/-- Loops agree if each round of them does. -/
theorem parallel_of_rank {P₁ P₂ : β → Procedure α} (rank : β → Engine → Nat)
    (hround : ∀ extra start₁ start₂ b e₁ e₂,
      (∀ b' e₁' e₂', rank b' e₂' < rank b e₂ →
        Agree extra start₁ start₂ (P₁ b') (P₂ b') e₁' e₂') →
      Agree extra start₁ start₂ (P₁ b) (P₂ b) e₁ e₂) (b : β) : Parallel (P₁ b) (P₂ b) := by
  intro extra start₁ start₂ e₁ e₂
  induction hn : rank b e₂ using Nat.strongRecOn generalizing b e₁ e₂ with
  | ind n ih =>
      subst hn
      exact hround _ _ _ _ _ _ fun b' e₁' e₂' hlt => ih _ hlt b' e₁' e₂' rfl

theorem steady_of_rank {P : Procedure α} (rank : Engine → Nat)
    (hround : ∀ extra start₁ start₂ e₁ e₂,
      (∀ e₁' e₂', rank e₂' < rank e₂ → Agree extra start₁ start₂ P P e₁' e₂') →
      Agree extra start₁ start₂ P P e₁ e₂) : Steady P :=
  parallel_of_rank (fun _ => rank)
    (fun _ _ _ _ _ _ ih => hround _ _ _ _ _ fun e₁' e₂' hlt => ih () e₁' e₂' hlt) ()

theorem parallel_repetition {R₁ R₂ : Repetition β α}
    (h : ∀ b, Parallel (R₁.body b) (R₂.body b)) (b : β) :
    Parallel (R₁.procedure b) (R₂.procedure b) := by
  refine parallel_of_rank R₂.rank (fun extra start₁ start₂ b e₁ e₂ ih => ?_) b
  rw [R₁.procedure_eq, R₂.procedure_eq]
  refine (h b extra start₁ start₂ e₁ e₂).bind fun a e₁' e₂' hrun => ?_
  cases a with
  | inl b' => exact ih b' e₁' e₂' (R₂.rank_lt hrun)
  | inr a => exact steady_pure a extra start₁ start₂ e₁' e₂'

/-! ### The smallest procedures -/

theorem steady_of_plain {P : Procedure α} (hplain : Plain P.run)
    (hlink : ∀ e, (P.run e).2.link = e.link) : Steady P := by
  intro extra start₁ start₂ e₁ e₂ halike _ _
  obtain ⟨hvalue, hbare⟩ := hplain.bare_eq halike.bare
  refine ⟨hvalue, hbare, ?_⟩
  rw [hlink, hlink]
  exact halike.linked

theorem steady_see {v : Engine → γ} (hv : ∀ e, v e.bare = v e) : Steady (see v) :=
  steady_of_plain (fun e => ⟨hv e, rfl⟩) fun _ => rfl

theorem steady_check (f : Motion → α × Motion) : Steady (check f) :=
  steady_of_plain (fun _ => ⟨rfl, rfl⟩) fun _ => rfl

theorem steady_modify (f : Motion → Motion) : Steady (modify f) := steady_check _

theorem steady_confirm (mode : ControllerMode) : Steady (confirm mode) :=
  steady_of_plain (fun _ => ⟨rfl, rfl⟩) fun _ => rfl

theorem steady_look : Steady look :=
  steady_of_plain (fun _ => ⟨rfl, rfl⟩) fun _ => rfl

theorem steady_transmit (request : Request) : Steady (transmit request) := by
  intro extra start₁ start₂ e₁ e₂ halike hecho _
  have hid : e₁.session.nextId = e₂.session.nextId := by
    change e₁.bare.session.nextId = e₂.bare.session.nextId
    rw [halike.bare]
  simp only [transmit_run, hid] at hecho ⊢
  rw [posted_link, posted_link] at hecho
  obtain ⟨hsent, hlinked⟩ := halike.linked.sendRequest _ hecho
  rw [hsent]
  exact halike.withLink hlinked (plain_posted _) (posted_link _)

theorem steady_command (motion : Option MotionCommand) (torques : Option Torques) :
    Steady (command motion torques) := by
  intro extra start₁ start₂ e₁ e₂ halike hecho _
  have hstate : e₁.lastState = e₂.lastState := by
    change e₁.bare.lastState = e₂.bare.lastState
    rw [halike.bare]
  have hmotion := motion_of_bare halike.bare
  simp only [command_run, hstate, hmotion] at hecho ⊢
  cases hs : e₂.lastState with
  | none => exact ⟨rfl, halike⟩
  | some s =>
      simp only [hs] at hecho ⊢
      rw [commanded_link, commanded_link] at hecho
      obtain ⟨hsent, hlinked⟩ := halike.linked.sendDatagram _ hecho
      rw [hsent]
      exact halike.withLink hlinked (plain_commanded _ _) (commanded_link _ _)

/-! ### Waiting -/

/-- Whatever a wait does, it receives first. -/
theorem wait_grows (judge : Judge α) (ended : Except SessionError α) (e : Engine) :
    ∃ j : Journal, (e.wait judge ended).2.link.journal = e.link.receive.2.journal ++ j := by
  have hlink := e.attend_link judge ended
  rw [wait_attend]
  generalize e.attend judge ended = attended at hlink
  obtain ⟨_ | result, e'⟩ := attended
  · obtain ⟨j, hj⟩ := (wait none judge ended).grows e'
    exact ⟨j, hj.trans (congrArg (fun l : Link => l.journal ++ j) hlink)⟩
  · exact ⟨[], (congrArg Link.journal hlink).trans (List.append_nil _).symm⟩

theorem echoes_receive (halike : Alike extra start₁ start₂ e₁ e₂) {judge : Judge α}
    {ended : Except SessionError α}
    (hecho : Echoes extra start₁ start₂ (e₁.wait judge ended).2.link
      (e₂.wait judge ended).2.link) :
    Echoes extra start₁ start₂ e₁.link.receive.2 e₂.link.receive.2 := by
  obtain ⟨i₁, hi₁, -⟩ := e₁.link.receive_entry
  obtain ⟨i₂, hi₂, -⟩ := e₂.link.receive_entry
  obtain ⟨j₁, hj₁⟩ := wait_grows judge ended e₁
  obtain ⟨j₂, hj₂⟩ := wait_grows judge ended e₂
  have hgrown₁ := hi₁ ▸ halike.linked.grown₁.trans (List.prefix_append _ [i₁])
  have hgrown₂ := hi₂ ▸ halike.linked.grown₂.trans (List.prefix_append _ [i₂])
  exact hecho.of_append hgrown₁ hgrown₂ hj₁ hj₂

/-- Where an extra message is next, it is passed over by the second engine alone; everything else
is taken by both. -/
theorem agree_wait {awaited : Option (FrameKind × UInt32)} {judge : Judge α} {I : Motion → Prop}
    (hdeaf : Deaf awaited judge I) (ended : Except SessionError α) (hI : I e₂.motion) :
    Agree extra start₁ start₂ (wait awaited judge ended) (wait awaited judge ended) e₁ e₂ := by
  induction hn : e₂.link.pending.length using Nat.strongRecOn generalizing e₁ e₂ with
  | ind n ih =>
      subst hn
      intro halike hecho hinert
      change Echoes _ _ _ (e₁.wait judge ended).2.link (e₂.wait judge ended).2.link at hecho
      change ∀ m ∈ Moments.wait awaited judge e₂, _ at hinert
      change (e₁.wait judge ended).1 = (e₂.wait judge ended).1 ∧
        Alike _ _ _ (e₁.wait judge ended).2 (e₂.wait judge ended).2
      rw [Moments.wait_eq] at hinert
      -- The second engine goes on from `e₂'`, the first one from `e₁'`, which may still be `e₁`.
      have hgo {e₁' e₂'} (h₁ : e₁.wait judge ended = e₁'.wait judge ended)
          (h₂ : e₂.attend judge ended = (none, e₂'))
          (hafter : Alike extra start₁ start₂ e₁' e₂') :
          (e₁.wait judge ended).1 = (e₂.wait judge ended).1 ∧
            Alike extra start₁ start₂ (e₁.wait judge ended).2 (e₂.wait judge ended).2 := by
        have hpasses : e₂.passes judge = some e₂' := by rw [passes_attend judge ended, h₂]
        have hI' : I e₂'.motion := attend_keeps hdeaf hI h₂
        rw [hpasses] at hinert
        rw [h₁, wait_of_passes hpasses] at hecho ⊢
        exact ih _ (passes_length_lt hpasses) hI' rfl hafter hecho
          fun m hm => hinert m (List.mem_cons_of_mem _ hm)
      by_cases hextra : e₂.link.OffersExtra extra
      · obtain ⟨e₂', hattend, hafter⟩ := halike.attend_extra hdeaf hI hextra
          (hinert _ List.mem_cons_self hextra.2.2)
        exact hgo rfl hattend hafter
      · obtain ⟨hverdict, hafter⟩ := halike.attend hextra (echoes_receive halike hecho) judge ended
        have h₁ := wait_attend judge ended e₁
        have h₂ := wait_attend judge ended e₂
        rcases hattend₁ : e₁.attend judge ended with ⟨verdict, e₁'⟩
        rcases hattend₂ : e₂.attend judge ended with ⟨verdict', e₂'⟩
        rw [hattend₁] at h₁ hverdict hafter
        rw [hattend₂] at h₂ hverdict hafter
        obtain rfl : verdict = verdict' := hverdict
        cases verdict with
        | some result =>
            rw [h₁, h₂]
            exact ⟨rfl, hafter⟩
        | none => exact hgo h₁ hattend₂ hafter

theorem steady_poll : Steady poll :=
  fun _ _ _ _ _ => agree_wait deaf_judgeState (.ok none) trivial

/-! ### The operations of the engine -/

theorem steady_execute (request : Request) : Steady (execute request) := by
  rw [execute_eq]
  refine (steady_transmit request).bind fun sent => ?_
  rcases sent with err | id
  · exact steady_pure _
  · have hwait : Steady (wait (some (request.kind, id)) (judgeReply request.kind id)
        (.error .closed)) :=
      fun _ _ _ _ _ => agree_wait (deaf_judgeReply request.kind id) _ trivial
    refine hwait.bind fun result => ?_
    rcases result with err | reply <;> exact steady_pure _

theorem steady_update (motion : Option MotionCommand) (torques : Option Torques) :
    Steady (update motion torques) := by
  rw [update_eq]
  refine (steady_see fun _ => rfl).bind fun m => ?_
  cases m.deferred with
  | some err => exact (steady_modify _).bind fun _ => steady_pure _
  | none =>
      simp only
      split
      · refine (steady_command motion torques).bind fun sent => ?_
        rcases sent with err | ⟨⟩
        · exact steady_pure _
        · exact steady_poll
      · exact steady_poll

theorem steady_awaitGenerator : Steady awaitGenerator := by
  refine steady_of_rank (fun e => e.link.pending.length) fun extra start₁ start₂ e₁ e₂ ih => ?_
  have hclose (failure : SessionError) : Steady (do
      modify Motion.reset
      return (.error failure : Except SessionError Unit)) :=
    (steady_modify _).bind fun _ => steady_pure _
  have hidle : Steady (do
      let m ← see Engine.motion
      modify fun m => { m with deferred := none }
      return (.error (m.deferred.getD (.motion .stoppedBeforeConfirmed)) :
        Except SessionError Unit)) :=
    (steady_see fun _ => rfl).bind fun _ => (steady_modify _).bind fun _ => steady_pure _
  rw [awaitGenerator_eq]
  refine (steady_see (fun _ => rfl) _ _ _ _ _).bind fun status e₁ e₂' hsee => ?_
  obtain ⟨-, rfl⟩ := Prod.mk.inj hsee
  cases status with
  | running => exact steady_pure _ _ _ _ _ _
  | notStarted | stopping => exact hidle _ _ _ _ _
  | starting =>
      refine (steady_look _ _ _ _ _).bind fun late e₁ e₂' hlook => ?_
      obtain rfl : e₂.look.2 = e₂' := congrArg Prod.snd hlook
      cases late with
      | true =>
          have hlate : Steady (do
              let m ← see Engine.motion
              modify Motion.reset
              return (.error (.motion (.unconfirmed m.expected)) : Except SessionError Unit)) :=
            (steady_see fun _ => rfl).bind fun _ => (steady_modify _).bind fun _ => steady_pure _
          exact hlate _ _ _ _ _
      | false =>
          refine (steady_poll _ _ _ _ _).bind fun polled e₁ e₂' hpoll => ?_
          rcases polled with err | _ | s
          · exact hclose err _ _ _ _ _
          · exact hclose .closed _ _ _ _ _
          · exact ih _ _ (poll_length_lt (e := e₂.look.2) hpoll)

theorem steady_confirmGenerator (since : Option UInt64) : Steady (confirmGenerator since) := by
  rw [confirmGenerator_eq]
  refine (steady_see fun _ => rfl).bind fun s => ?_
  cases s with
  | none => exact steady_awaitGenerator
  | some s =>
      simp only
      split
      · refine (steady_check _).bind fun checked => ?_
        rcases checked with err | ⟨⟩
        · exact steady_pure _
        · exact steady_awaitGenerator
      · exact steady_awaitGenerator

theorem steady_startGenerator (type : MotionType) : Steady (startGenerator type) := by
  rw [startGenerator_eq]
  refine (steady_see fun _ => rfl).bind fun status => ?_
  split
  · exact steady_pure _
  · refine (steady_see fun _ => rfl).bind fun since => ?_
    refine (steady_execute _).bind fun result => ?_
    split
    · exact steady_pure _
    · exact (steady_modify _).bind fun _ => steady_confirmGenerator since
    · exact steady_pure _

theorem steady_stopGenerator : Steady stopGenerator := by
  rw [stopGenerator_eq]
  refine (steady_see fun _ => rfl).bind fun status => ?_
  split
  · exact steady_pure _
  · refine (steady_modify _).bind fun _ => (steady_execute _).bind fun result => ?_
    split
    · exact (steady_modify _).bind fun _ => steady_pure _
    · exact steady_pure _
    · exact (steady_modify _).bind fun _ => steady_pure _

theorem steady_awaitController (mode : ControllerMode) (since : Option UInt64) :
    Steady (awaitController mode since) := by
  refine steady_of_rank (fun e => e.link.pending.length) fun extra start₁ start₂ e₁ e₂ ih => ?_
  rw [awaitController_eq]
  refine (steady_see (fun _ => rfl) _ _ _ _ _).bind fun confirmed e₁ e₂' hsee => ?_
  obtain ⟨-, rfl⟩ := Prod.mk.inj hsee
  cases confirmed with
  | true =>
      have hconfirm : Steady (do
          confirm mode
          return (.ok () : Except SessionError Unit)) :=
        (steady_confirm mode).bind fun _ => steady_pure _
      exact hconfirm _ _ _ _ _
  | false =>
      refine (steady_look _ _ _ _ _).bind fun late e₁ e₂' hlook => ?_
      obtain rfl : e₂.look.2 = e₂' := congrArg Prod.snd hlook
      cases late with
      | true => exact steady_pure _ _ _ _ _ _
      | false =>
          refine (steady_poll _ _ _ _ _).bind fun polled e₁ e₂' hpoll => ?_
          rcases polled with err | _ | s
          · exact steady_pure _ _ _ _ _ _
          · exact steady_pure _ _ _ _ _ _
          · exact ih _ _ (poll_length_lt (e := e₂.look.2) hpoll)

theorem steady_setController (mode : ControllerMode) : Steady (setController mode) := by
  rw [setController_eq]
  refine (steady_see fun _ => rfl).bind fun since => ?_
  refine (steady_execute _).bind fun result => ?_
  split
  · exact steady_pure _
  · exact steady_awaitController mode since
  · exact steady_pure _

theorem steady_cancelMotion : Steady cancelMotion := by
  rw [cancelMotion_eq]
  exact (steady_execute _).bind fun _ => steady_modify _

theorem steady_launch (controller : ControllerMode) (motion : MotionMode) (path goal : Deviation) :
    Steady (launch controller motion path goal) := by
  rw [launch_eq]
  refine (steady_see fun _ => rfl).bind fun m => ?_
  split
  · exact steady_pure _
  · refine (steady_see fun _ => rfl).bind fun since => ?_
    refine (steady_modify _).bind fun _ => (steady_execute _).bind fun result => ?_
    split
    · exact steady_pure _
    · refine (steady_modify _).bind fun _ => (steady_confirmGenerator since).bind fun result => ?_
      rcases result with err | ⟨⟩
      · exact steady_pure _
      · exact (steady_confirm _).bind fun _ => steady_pure _
    · exact steady_pure _

theorem steady_startMotion (controller : ControllerMode) (motion : MotionMode)
    (path goal : Deviation) : Steady (startMotion controller motion path goal) := by
  rw [startMotion_eq]
  refine (steady_launch controller motion path goal).bind fun launched => ?_
  rcases launched with err | ⟨id, err | ⟨⟩⟩
  · exact steady_pure _
  · exact steady_cancelMotion.bind fun _ => steady_pure _
  · exact steady_pure _

theorem steady_drain (finishing : MotionCommand) (torques : Option Torques) :
    Steady (drain finishing torques) := by
  refine steady_of_rank Engine.supply fun extra start₁ start₂ e₁ e₂ ih => ?_
  rw [drain_eq]
  refine (steady_see (fun _ => rfl) _ _ _ _ _).bind fun status e₁ e₂' hsee => ?_
  obtain ⟨-, rfl⟩ := Prod.mk.inj hsee
  by_cases hstopping : status = .stopping
  · simp only [hstopping, if_true]
    refine (steady_update (some finishing) torques _ _ _ _ _).bind fun updated e₁ e₂' hupdate => ?_
    rcases updated with err | _ | s
    · exact steady_pure _ _ _ _ _ _
    · exact steady_pure _ _ _ _ _ _
    · exact ih _ _ (update_supply_lt hupdate)
  · simp only [hstopping, if_false]
    exact steady_pure _ _ _ _ _ _

theorem steady_awaitOutcome (id : UInt32) : Steady (awaitOutcome id) := by
  rw [awaitOutcome_eq]
  intro extra start₁ start₂ e₁ e₂
  refine (steady_check _ extra start₁ start₂ e₁ e₂).bind fun settled e₁' e₂' hrun => ?_
  cases settled with
  | some result => exact steady_pure result extra start₁ start₂ e₁' e₂'
  | none =>
      refine agree_wait (deaf_judgeOutcome id) _ ?_
      obtain ⟨hnone, rfl⟩ := Prod.mk.inj hrun
      exact Motion.settle_of_none (Prod.ext hnone rfl)

theorem steady_finishMotion (id : UInt32) (motion : Option MotionCommand)
    (torques : Option Torques) : Steady (finishMotion id motion torques) := by
  rw [finishMotion_eq]
  refine (steady_see fun _ => rfl).bind fun current => ?_
  split
  · exact steady_pure _
  · refine (steady_modify _).bind fun _ => (steady_see fun _ => rfl).bind fun s => ?_
    refine (steady_drain _ torques).bind fun drained => ?_
    rcases drained with err | ⟨⟩
    · exact steady_pure _
    · exact steady_awaitOutcome id

end Procedure
end ArmControl
