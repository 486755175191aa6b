import ArmControl.Proofs.Accounts

/-! # Every operation ends

Each message that an operation takes was pending when the operation began, or the far end had it
still to say, or something that happened while a callback ran has caused it.  A receipt that takes
nothing ends a wait, and with it the operation, but for one more wait that may follow: the one to
hear that a motion is cancelled.

An `Allowance` is what an operation may use of both: the credit for messages that may still be
caused, and the receipts that may still take nothing.  `Frugal P start rest` says that the procedure
`P` keeps to the allowance `start`, whatever it finds, and leaves `rest`.  This is preserved by the
composition of procedures (`Frugal.bind`) and by loops, so it is shown of all operations along their
equations.  `every_operation_ends` states what follows for their receipts. -/

namespace ArmControl

/-! ### Receipts that take something, and others -/

/-- How many messages are taken at these moments. -/
def hits (ms : List Moment) : Nat := (ms.filterMap Moment.event?).length

/-- At how many of these moments nothing is taken. -/
def misses (ms : List Moment) : Nat := ms.countP fun m => m.event?.isNone

@[simp] theorem hits_append (a b : List Moment) : hits (a ++ b) = hits a + hits b := by
  simp [hits]

@[simp] theorem misses_append (a b : List Moment) : misses (a ++ b) = misses a + misses b := by
  simp [misses]

theorem hits_add_misses (ms : List Moment) : hits ms + misses ms = ms.length := by
  induction ms with
  | nil => rfl
  | cons m rest ih =>
      have hone : hits [m] + misses [m] = 1 := by
        cases h : m.event? <;> simp [hits, misses, h]
      rw [← List.singleton_append, hits_append, misses_append, List.length_append, ← ih]
      simp only [List.length_singleton]
      omega

/-- Whatever is taken was asked for. -/
theorem Journal.taken_length_le (j : Journal) : j.taken.length ≤ j.receipts := by
  unfold taken receipts
  rw [List.length_filterMap_eq_countP]
  refine List.countP_mono_left fun entry _ htaken => ?_
  cases entry with
  | taken | drained | idle | cut => rfl
  | _ => cases htaken

namespace Engine

variable {α : Type} {e e' : Engine} {judge : Judge α} {ended : Except SessionError α}

/-- What a receipt has to do with its moment. -/
theorem receipt_at (e : Engine) (awaited : Option (FrameKind × UInt32)) :
    ∃ entry, Receipt e.link.receive.1 entry ∧ entry.taken? = Moment.event? ⟨e, awaited⟩ ∧
      e.link.pending = Journal.taken [entry] ++ e.link.receive.2.pending := by
  obtain ⟨entry, hreceipt, hjournal, hpending⟩ := e.link.receive_receipt
  obtain ⟨entry', hjournal', htaken⟩ := e.link.receive_entry
  obtain rfl : entry' = entry :=
    List.singleton_inj.1 (List.append_cancel_left (hjournal'.symm.trans hjournal))
  exact ⟨entry', hreceipt, htaken, hpending⟩

/-- What is taken can no longer reach the client. -/
theorem received_supply (e : Engine) (awaited : Option (FrameKind × UInt32)) :
    hits [⟨e, awaited⟩] + e.received.supply = e.supply := by
  obtain ⟨entry, -, htaken, hpending⟩ := e.receipt_at awaited
  have hhits : hits [⟨e, awaited⟩] = (Journal.taken [entry]).length := by
    simp [hits, Journal.taken, List.filterMap_cons, htaken]
  have hlength := congrArg List.length hpending
  have hfarEnd := e.link.receive_farEnd
  rw [List.length_append] at hlength
  unfold supply Link.supply
  rw [received_link, hfarEnd]
  omega

/-- A receipt that takes nothing ends a wait, and not with an answer. -/
theorem wait_of_miss (judge : Judge α) (ended : Except SessionError α)
    {awaited : Option (FrameKind × UInt32)} (h : Moment.event? ⟨e, awaited⟩ = none) :
    e.passes judge = none ∧
      ((e.wait judge ended).1 = ended ∨ ∃ err, (e.wait judge ended).1 = .error err) := by
  obtain ⟨entry, hreceipt, htaken, -⟩ := e.receipt_at awaited
  rw [h] at htaken
  rw [wait_eq]
  unfold passes
  rcases hr : e.link.receive with ⟨err | incoming, link⟩
  · exact ⟨rfl, .inr ⟨_, rfl⟩⟩
  · rw [hr] at hreceipt
    cases hreceipt with
    | taken => cases htaken
    | drained => exact ⟨rfl, .inl rfl⟩

theorem wait_hits (awaited : Option (FrameKind × UInt32)) (judge : Judge α)
    (ended : Except SessionError α) (e : Engine) :
    hits (Moments.wait awaited judge e) + (e.wait judge ended).2.supply = e.supply := by
  induction hn : e.link.pending.length using Nat.strongRecOn generalizing e with
  | ind n ih =>
      have hreceived := e.received_supply awaited
      rw [Moments.wait_eq, ← List.singleton_append, hits_append]
      cases hpasses : e.passes judge with
      | some e₁ =>
          have hrest := ih _ (hn ▸ passes_length_lt hpasses) e₁ rfl
          obtain ⟨m, rfl⟩ := passes_eq hpasses
          have hsame : (e.received.withMotion m).supply = e.received.supply := rfl
          rw [wait_of_passes hpasses]
          simp only
          omega
      | none =>
          obtain ⟨m, hm⟩ := wait_of_decided ended hpasses
          have hsame : (e.received.withMotion m).supply = e.received.supply := rfl
          rw [hm, hsame]
          exact hreceived

/-- A wait takes nothing once at most, and never if it has an answer. -/
theorem wait_misses (awaited : Option (FrameKind × UInt32)) (judge : Judge α)
    (ended : Except SessionError α) (e : Engine) :
    misses (Moments.wait awaited judge e) ≤ 1 ∧
      ∀ a, (e.wait judge ended).1 = .ok a → ended ≠ .ok a →
        misses (Moments.wait awaited judge e) = 0 := by
  induction hn : e.link.pending.length using Nat.strongRecOn generalizing e with
  | ind n ih =>
      rw [Moments.wait_eq, ← List.singleton_append, misses_append]
      cases hevent : Moment.event? ⟨e, awaited⟩ with
      | none =>
          obtain ⟨hpasses, hresult⟩ := wait_of_miss judge ended hevent
          have hone : misses [⟨e, awaited⟩] = 1 := by simp [misses, hevent]
          rw [hpasses]
          refine ⟨Nat.le_of_eq hone, fun a ha hne => ?_⟩
          rcases hresult with hended | ⟨err, herr⟩
          · exact absurd (hended.symm.trans ha) hne
          · cases herr.symm.trans ha
      | some event =>
          have hnone : misses [⟨e, awaited⟩] = 0 := by simp [misses, hevent]
          rw [hnone, Nat.zero_add]
          cases hpasses : e.passes judge with
          | some e₁ =>
              rw [wait_of_passes hpasses]
              exact ih _ (hn ▸ passes_length_lt hpasses) e₁ rfl
          | none => exact ⟨Nat.zero_le 1, fun _ _ _ => rfl⟩

end Engine

/-! ### Allowances -/

/-- What an operation may still use. -/
structure Allowance where
  /-- How many messages may still be caused. -/
  credit : Nat
  /-- How many receipts may still take nothing. -/
  spare : Nat

namespace Allowance

instance : LE Allowance := ⟨fun a b => a.credit ≤ b.credit ∧ a.spare ≤ b.spare⟩

protected theorem le_refl (a : Allowance) : a ≤ a := ⟨Nat.le_refl _, Nat.le_refl _⟩

/-- What is left after a wait: a success has spared the receipt that takes nothing. -/
def after {ε α : Type} (credit spare : Nat) : Except ε α → Allowance
  | .ok _ => ⟨credit, spare + 1⟩
  | .error _ => ⟨credit, spare⟩

theorem after_le {ε α : Type} {credit spare : Nat} (result : Except ε α) :
    after credit spare result ≤ ⟨credit, spare + 1⟩ := by
  cases result
  · exact ⟨Nat.le_refl _, Nat.le_succ _⟩
  · exact Allowance.le_refl _

end Allowance

namespace Procedure

open Engine

variable {α β : Type} {P : Procedure α} {K : α → Procedure β} {start : Allowance}
  {rest : α → Allowance} {left : β → Allowance} {e : Engine}

/-- From the engine `e` on the procedure keeps to the allowance `start`, and leaves `rest`. -/
structure Affords (P : Procedure α) (start : Allowance) (rest : α → Allowance) (e : Engine) :
    Prop where
  credit : hits (P.moments e) + (P.run e).2.supply + (rest (P.run e).1).credit ≤
    e.supply + start.credit
  spare : misses (P.moments e) + (rest (P.run e).1).spare ≤ start.spare

/-- The procedure keeps to the allowance `start`, and leaves `rest`. -/
def Frugal (P : Procedure α) (start : Allowance) (rest : α → Allowance) : Prop :=
  ∀ e, Affords P start rest e

theorem Affords.bind (h : Affords P start rest e)
    (hK : ∀ a e', P.run e = (a, e') → Affords (K a) (rest a) left e') :
    Affords (P >>= K) start left e := by
  obtain ⟨hcredit, hspare⟩ := h
  obtain ⟨hcredit', hspare'⟩ := hK (P.run e).1 (P.run e).2 rfl
  constructor
  · rw [moments_bind, run_bind, hits_append]
    omega
  · rw [moments_bind, run_bind, misses_append]
    omega

theorem Frugal.bind (h : Frugal P start rest) (hK : ∀ a, Frugal (K a) (rest a) left) :
    Frugal (P >>= K) start left :=
  fun e => (h e).bind fun a e' _ => hK a e'

theorem frugal_pure {a : α} (h : rest a ≤ start) : Frugal (pure a) start rest := by
  intro e
  obtain ⟨hcredit, hspare⟩ := h
  constructor
  · change 0 + e.supply + (rest a).credit ≤ _
    omega
  · change 0 + (rest a).spare ≤ _
    omega

/-- What keeps to an allowance keeps to a greater one, and may be thought to leave less. -/
theorem Frugal.mono {start' : Allowance} {rest' : α → Allowance} (h : Frugal P start rest)
    (hstart : start ≤ start') (hrest : ∀ a, rest' a ≤ rest a) : Frugal P start' rest' := by
  intro e
  obtain ⟨hcredit, hspare⟩ := h e
  obtain ⟨hcredit₁, hspare₁⟩ := hstart
  obtain ⟨hcredit₂, hspare₂⟩ := hrest (P.run e).1
  constructor
  · omega
  · omega

/-- A loop of which each round keeps to what the rounds before have left. -/
theorem frugal_of_rank {P : β → Procedure α} {start : β → Allowance} (rank : β → Engine → Nat)
    (hround : ∀ b e, (∀ b' e', rank b' e' < rank b e → Affords (P b') (start b') rest e') →
      Affords (P b) (start b) rest e) (b : β) : Frugal (P b) (start b) rest := by
  intro e
  induction hn : rank b e using Nat.strongRecOn generalizing b e with
  | ind n ih =>
      subst hn
      exact hround b e fun b' e' hlt => ih _ hlt b' e' rfl

theorem frugal_of_loop (rank : Engine → Nat)
    (hround : ∀ e, (∀ e', rank e' < rank e → Affords P start rest e') → Affords P start rest e) :
    Frugal P start rest :=
  frugal_of_rank (fun _ : Unit => rank) (fun _ e ih => hround e fun e' hlt => ih () e' hlt) ()

theorem frugal_repetition {R : Repetition β α} {start : β → Allowance}
    (h : ∀ b, Frugal (R.body b) (start b) (Sum.elim start rest)) (b : β) :
    Frugal (R.procedure b) (start b) rest := by
  refine frugal_of_rank R.rank (fun b e ih => ?_) b
  rw [R.procedure_eq]
  refine (h b e).bind fun a e' hrun => ?_
  cases a with
  | inl b' => exact ih b' e' (R.rank_lt hrun)
  | inr a => exact frugal_pure (Allowance.le_refl _) e'

/-! ### The smallest procedures -/

/-- What takes nothing and adds nothing uses nothing up. -/
theorem frugal_of_still (hmoments : ∀ e, P.moments e = [])
    (hsupply : ∀ e, (P.run e).2.supply = e.supply) (start : Allowance) :
    Frugal P start fun _ => start := by
  intro e
  constructor
  · rw [hmoments, hsupply]
    exact Nat.le_of_eq (congrArg (· + _) (Nat.zero_add _))
  · rw [hmoments]
    exact Nat.le_of_eq (Nat.zero_add _)

variable (start)

theorem frugal_see {γ : Type} (v : Engine → γ) : Frugal (see v) start fun _ => start :=
  frugal_of_still (fun _ => rfl) (fun _ => rfl) start

theorem frugal_check (f : Motion → α × Motion) : Frugal (check f) start fun _ => start :=
  frugal_of_still (fun _ => rfl) (fun _ => rfl) start

theorem frugal_modify (f : Motion → Motion) : Frugal (modify f) start fun _ => start :=
  frugal_check start _

theorem frugal_confirm (mode : ControllerMode) : Frugal (confirm mode) start fun _ => start :=
  frugal_of_still (fun _ => rfl) (fun _ => rfl) start

theorem frugal_look : Frugal look start fun _ => start :=
  frugal_of_still (fun _ => rfl) (fun _ => rfl) start

theorem frugal_transmit (request : Request) : Frugal (transmit request) start fun _ => start :=
  frugal_of_still (P := transmit request) (fun _ => rfl) (fun e => send_supply request e.session)
    start

theorem frugal_command (motion : Option MotionCommand) (torques : Option Torques) :
    Frugal (command motion torques) start fun _ => start :=
  frugal_of_still (fun _ => rfl) (fun e => e.sendCommand_supply motion torques) start

variable {start} {c n : Nat}

theorem frugal_done (result : Except SessionError α) :
    Frugal (pure result) (Allowance.after c n result) (Allowance.after c n) :=
  frugal_pure (Allowance.le_refl _)

theorem frugal_return (result : Except SessionError α) :
    Frugal (pure result) ⟨c, n + 1⟩ (Allowance.after c n) :=
  frugal_pure (Allowance.after_le result)

/-- A wait that has no answer at the end of the channel. -/
theorem frugal_wait (awaited : Option (FrameKind × UInt32)) (judge : Judge α)
    (err : SessionError) :
    Frugal (wait awaited judge (.error err)) ⟨c, n + 1⟩ (Allowance.after c n) := by
  intro e
  have hhits := wait_hits awaited judge (.error err) e
  obtain ⟨hmisses, hnone⟩ := wait_misses awaited judge (.error err) e
  constructor
  · change hits (Moments.wait awaited judge e) + (e.wait judge (.error err)).2.supply + _ ≤ _
    rw [hhits]
    cases hresult : ((wait awaited judge (.error err)).run e).1 <;> exact Nat.le_refl _
  · change misses (Moments.wait awaited judge e) + _ ≤ _
    cases hresult : ((wait awaited judge (.error err)).run e).1 with
    | error _ =>
        change _ + n ≤ n + 1
        omega
    | ok a =>
        rw [hnone a hresult (by simp)]
        exact Nat.le_of_eq (Nat.zero_add _)

/-- What is left after a wait for a state. -/
def polled (c n : Nat) : Except SessionError (Option State) → Allowance
  | .ok (some _) => ⟨c, n + 1⟩
  | _ => ⟨c, n⟩

theorem frugal_poll : Frugal poll ⟨c, n + 1⟩ (polled c n) := by
  intro e
  have hhits := wait_hits none judgeState (.ok none) e
  obtain ⟨hmisses, hnone⟩ := wait_misses none judgeState (.ok none) e
  constructor
  · change hits (Moments.wait none judgeState e) + (e.wait judgeState (.ok none)).2.supply + _ ≤ _
    rw [hhits]
    rcases hresult : (poll.run e).1 with err | _ | s <;> exact Nat.le_refl _
  · change misses (Moments.wait none judgeState e) + _ ≤ _
    rcases hresult : (poll.run e).1 with err | _ | s
    · change _ + n ≤ n + 1
      omega
    · change _ + n ≤ n + 1
      omega
    · rw [hnone (some s) hresult (by simp)]
      exact Nat.le_of_eq (Nat.zero_add _)

/-! ### The operations of the engine -/

theorem frugal_execute (request : Request) :
    Frugal (execute request) ⟨c, n + 1⟩ (Allowance.after c n) := by
  rw [execute_eq]
  refine (frugal_transmit _ request).bind fun sent => ?_
  rcases sent with err | id
  · exact frugal_return _
  · refine (frugal_wait _ _ _).bind fun result => ?_
    rcases result with err | reply <;> exact frugal_pure (Allowance.le_refl _)

theorem frugal_update (motion : Option MotionCommand) (torques : Option Torques) :
    Frugal (update motion torques) ⟨c, n + 1⟩ (polled c n) := by
  have hfail (err : SessionError) : Frugal (pure (.error err)) ⟨c, n + 1⟩ (polled c n) :=
    frugal_pure ⟨Nat.le_refl c, Nat.le_succ n⟩
  rw [update_eq]
  refine (frugal_see _ _).bind fun m => ?_
  split
  · exact (frugal_modify _ _).bind fun _ => hfail _
  · split
    · refine (frugal_command _ motion torques).bind fun sent => ?_
      rcases sent with err | ⟨⟩
      · exact hfail err
      · exact frugal_poll
    · exact frugal_poll

theorem frugal_awaitGenerator : Frugal awaitGenerator ⟨c, n + 1⟩ (Allowance.after c n) := by
  refine frugal_of_loop (fun e => e.link.pending.length) fun e ih => ?_
  have hclose (err : SessionError) : Frugal (do
      modify Motion.reset
      return (.error err : Except SessionError Unit)) ⟨c, n⟩ (Allowance.after c n) :=
    (frugal_modify _ _).bind fun _ => frugal_pure (Allowance.le_refl _)
  have hidle : Frugal (do
      let m ← see Engine.motion
      modify fun m => { m with deferred := none }
      return (.error (m.deferred.getD (.motion .stoppedBeforeConfirmed)) :
        Except SessionError Unit)) ⟨c, n + 1⟩ (Allowance.after c n) :=
    (frugal_see _ _).bind fun _ => (frugal_modify _ _).bind fun _ =>
      frugal_return _
  rw [awaitGenerator_eq]
  refine (frugal_see _ _ e).bind fun status e' hsee => ?_
  obtain ⟨-, rfl⟩ := Prod.mk.inj hsee
  cases status with
  | running => exact frugal_return (.ok ()) e
  | notStarted | stopping => exact hidle e
  | starting =>
      refine (frugal_look _ e).bind fun late e' hlook => ?_
      obtain rfl : e.look.2 = e' := congrArg Prod.snd hlook
      cases late with
      | true =>
          have hlate : Frugal (do
              let m ← see Engine.motion
              modify Motion.reset
              return (.error (.motion (.unconfirmed m.expected)) : Except SessionError Unit))
              ⟨c, n + 1⟩ (Allowance.after c n) :=
            (frugal_see _ _).bind fun _ => (frugal_modify _ _).bind fun _ =>
              frugal_return _
          exact hlate _
      | false =>
          refine (frugal_poll _).bind fun polled e' hpoll => ?_
          rcases polled with err | _ | s
          · exact hclose err _
          · exact hclose .closed _
          · exact ih _ (poll_length_lt (e := e.look.2) hpoll)

theorem frugal_confirmGenerator (since : Option UInt64) :
    Frugal (confirmGenerator since) ⟨c, n + 1⟩ (Allowance.after c n) := by
  rw [confirmGenerator_eq]
  refine (frugal_see _ _).bind fun s => ?_
  cases s with
  | none => exact frugal_awaitGenerator
  | some s =>
      simp only
      split
      · refine (frugal_check _ _).bind fun checked => ?_
        rcases checked with err | ⟨⟩
        · exact frugal_return _
        · exact frugal_awaitGenerator
      · exact frugal_awaitGenerator

theorem frugal_startGenerator (type : MotionType) :
    Frugal (startGenerator type) ⟨c, n + 1⟩ (Allowance.after c n) := by
  rw [startGenerator_eq]
  refine (frugal_see _ _).bind fun status => ?_
  split
  · exact frugal_return _
  · refine (frugal_see _ _).bind fun since => (frugal_execute _).bind fun result => ?_
    split
    · exact frugal_pure (Allowance.le_refl _)
    · exact (frugal_modify _ _).bind fun _ => frugal_confirmGenerator since
    · exact frugal_return _

theorem frugal_stopGenerator : Frugal stopGenerator ⟨c, n + 1⟩ (Allowance.after c n) := by
  rw [stopGenerator_eq]
  refine (frugal_see _ _).bind fun status => ?_
  split
  · exact frugal_return _
  · refine (frugal_modify _ _).bind fun _ => (frugal_execute _).bind fun result => ?_
    split
    · exact (frugal_modify _ _).bind fun _ => frugal_pure (Allowance.le_refl _)
    · exact frugal_pure (Allowance.le_refl _)
    · exact (frugal_modify _ _).bind fun _ => frugal_return _

theorem frugal_awaitController (mode : ControllerMode) (since : Option UInt64) :
    Frugal (awaitController mode since) ⟨c, n + 1⟩ (Allowance.after c n) := by
  refine frugal_of_loop (fun e => e.link.pending.length) fun e ih => ?_
  rw [awaitController_eq]
  refine (frugal_see _ _ e).bind fun confirmed e' hsee => ?_
  obtain ⟨-, rfl⟩ := Prod.mk.inj hsee
  cases confirmed with
  | true =>
      have hconfirm : Frugal (do
          confirm mode
          return (.ok () : Except SessionError Unit)) ⟨c, n + 1⟩ (Allowance.after c n) :=
        (frugal_confirm _ mode).bind fun _ => frugal_pure (Allowance.le_refl _)
      exact hconfirm e
  | false =>
      refine (frugal_look _ e).bind fun late e' hlook => ?_
      obtain rfl : e.look.2 = e' := congrArg Prod.snd hlook
      cases late with
      | true => exact frugal_return _ _
      | false =>
          refine (frugal_poll _).bind fun polled e' hpoll => ?_
          rcases polled with err | _ | s
          · exact frugal_done (.error err) _
          · exact frugal_done (.error .closed) _
          · exact ih _ (poll_length_lt (e := e.look.2) hpoll)

theorem frugal_setController (mode : ControllerMode) :
    Frugal (setController mode) ⟨c, n + 1⟩ (Allowance.after c n) := by
  rw [setController_eq]
  refine (frugal_see _ _).bind fun since => (frugal_execute _).bind fun result => ?_
  split
  · exact frugal_pure (Allowance.le_refl _)
  · exact frugal_awaitController mode since
  · exact frugal_return _

/-- A cancellation uses up the receipt that takes nothing, whether it needs it or not. -/
theorem frugal_cancelMotion : Frugal cancelMotion ⟨c, n + 1⟩ fun _ => ⟨c, n⟩ := by
  rw [cancelMotion_eq]
  refine (frugal_execute _).bind fun result => ?_
  refine (frugal_modify (Allowance.after c n result) Motion.clear).mono (Allowance.le_refl _) ?_
  intro _
  cases result with
  | error _ => exact Allowance.le_refl _
  | ok _ => exact ⟨Nat.le_refl c, Nat.le_succ n⟩

theorem frugal_drain (finishing : MotionCommand) (torques : Option Torques) :
    Frugal (drain finishing torques) ⟨c, n + 1⟩ (Allowance.after c n) := by
  refine frugal_of_loop Engine.supply fun e ih => ?_
  rw [drain_eq]
  refine (frugal_see _ _ e).bind fun status e' hsee => ?_
  obtain ⟨-, rfl⟩ := Prod.mk.inj hsee
  by_cases hstopping : status = .stopping
  · simp only [hstopping, if_true]
    refine (frugal_update (some finishing) torques _).bind fun updated e' hupdate => ?_
    rcases updated with err | _ | s
    · exact frugal_done (.error err) _
    · exact frugal_done (.error .closed) _
    · exact ih _ (update_supply_lt hupdate)
  · simp only [hstopping, if_false]
    exact frugal_return (.ok ()) _

theorem frugal_awaitOutcome (id : UInt32) :
    Frugal (awaitOutcome id) ⟨c, n + 1⟩ (Allowance.after c n) := by
  rw [awaitOutcome_eq]
  refine (frugal_check _ _).bind fun settled => ?_
  cases settled with
  | some result => exact frugal_return _
  | none => exact frugal_wait _ _ _

theorem frugal_finishMotion (id : UInt32) (motion : Option MotionCommand)
    (torques : Option Torques) :
    Frugal (finishMotion id motion torques) ⟨c, n + 1⟩ (Allowance.after c n) := by
  rw [finishMotion_eq]
  refine (frugal_see _ _).bind fun current => ?_
  split
  · exact frugal_return _
  · refine (frugal_modify _ _).bind fun _ => (frugal_see _ _).bind fun s => ?_
    refine (frugal_drain _ torques).bind fun drained => ?_
    rcases drained with err | ⟨⟩
    · exact frugal_pure (Allowance.le_refl _)
    · exact frugal_awaitOutcome id

/-- What is left after a launch: one more receipt if it is confirmed. -/
def launched (c n : Nat) : Except SessionError (UInt32 × Except SessionError Unit) → Allowance
  | .ok (_, .ok _) => ⟨c, n + 1⟩
  | _ => ⟨c, n⟩

theorem frugal_launch (controller : ControllerMode) (motion : MotionMode) (path goal : Deviation) :
    Frugal (launch controller motion path goal) ⟨c, n + 1⟩ (launched c n) := by
  have hfail (err : SessionError) : Frugal (pure (.error err)) ⟨c, n + 1⟩ (launched c n) :=
    frugal_pure ⟨Nat.le_refl c, Nat.le_succ n⟩
  rw [launch_eq]
  refine (frugal_see _ _).bind fun m => ?_
  split
  · exact hfail _
  · refine (frugal_see _ _).bind fun since => (frugal_modify _ _).bind fun _ => ?_
    refine (frugal_execute _).bind fun result => ?_
    split
    · exact frugal_pure (Allowance.le_refl _)
    · refine (frugal_modify _ _).bind fun _ =>
        (frugal_confirmGenerator since).bind fun result => ?_
      rcases result with err | ⟨⟩
      · exact frugal_pure (Allowance.le_refl _)
      · exact (frugal_confirm _ _).bind fun _ => frugal_pure (Allowance.le_refl _)
    · exact hfail _

/-- What is left after a start that is cancelled if it fails. -/
def started {α : Type} (c n : Nat) : Except SessionError α → Allowance
  | .ok _ => ⟨c, n + 2⟩
  | .error _ => ⟨c, n⟩

theorem frugal_startMotion (controller : ControllerMode) (motion : MotionMode)
    (path goal : Deviation) :
    Frugal (startMotion controller motion path goal) ⟨c, n + 2⟩ (started c n) := by
  rw [startMotion_eq]
  refine (frugal_launch controller motion path goal).bind fun launched => ?_
  rcases launched with err | ⟨id, err | ⟨⟩⟩
  · exact frugal_pure ⟨Nat.le_refl c, Nat.le_succ n⟩
  · exact frugal_cancelMotion.bind fun _ => frugal_pure (Allowance.le_refl _)
  · exact frugal_pure (Allowance.le_refl _)

/-! ### Loops with callbacks -/

section

variable {σ ι ρ : Type} {credit : σ → Nat}

/-- What happens while a callback runs is paid for by its memory. -/
theorem frugal_callback (cb : Callback credit ι ρ) (input : ι) (m : σ) :
    Frugal (callback cb input m) ⟨credit m, n⟩ fun p => ⟨credit p.2, n⟩ := by
  intro e
  have hcall := cb.call_supply_le input e m
  constructor
  · change 0 + (cb.call input e m).2.2.supply + credit (cb.call input e m).2.1 ≤ _ + credit m
    omega
  · exact Nat.le_of_eq (Nat.zero_add n)

/-- What is left after a loop that has ended with this result and left this memory. -/
def settled (credit : σ → Nat) (n : Nat) (p : Except SessionError Unit × σ) : Allowance :=
  Allowance.after (credit p.2) n p.1

theorem frugal_cycle (steering : ControlLoop.Steering credit) (id : UInt32) (c : Cycle σ) :
    Frugal (cycle steering id c) ⟨credit c.memory, n + 1⟩
      (Sum.elim (fun c => ⟨credit c.memory, n + 1⟩) (settled credit n)) := by
  refine (frugal_callback steering _ c.memory).bind fun answered => ?_
  have hrefused (err : SessionError) (m : σ) : Frugal (pure (.inr (.error err, m)))
      ⟨credit m, n + 1⟩
      (Sum.elim (fun c : Cycle σ => ⟨credit c.memory, n + 1⟩) (settled credit n)) :=
    frugal_pure ⟨Nat.le_refl _, Nat.le_succ n⟩
  rcases answered with ⟨err | ⟨command⟩ | _, m⟩
  · exact hrefused err m
  · simp only
    cases command.validate with
    | error err => exact hrefused err m
    | ok _ =>
        refine (frugal_update _ _).bind fun updated => ?_
        rcases updated with err | _ | s <;> exact frugal_pure (Allowance.le_refl _)
  · exact (frugal_finishMotion _ _ _).bind fun _ => frugal_pure (Allowance.le_refl _)

theorem frugal_cycling (steering : ControlLoop.Steering credit) (id : UInt32) (c : Cycle σ) :
    Frugal ((cycling steering id).procedure c) ⟨credit c.memory, n + 1⟩ (settled credit n) :=
  frugal_repetition (R := cycling steering id) (frugal_cycle steering id) c

theorem frugal_spinning (steering : ControlLoop.Steering credit) (id : UInt32) (m : σ) :
    Frugal (spinning steering id m) ⟨credit m, n + 1⟩ (settled credit n) := by
  refine (frugal_see _ _).bind fun s => ?_
  cases s with
  | some s => exact frugal_cycling steering id _
  | none =>
      refine (frugal_update _ _).bind fun updated => ?_
      rcases updated with err | _ | s
      · exact frugal_pure (Allowance.le_refl _)
      · exact frugal_pure (Allowance.le_refl _)
      · exact frugal_cycling steering id _

theorem frugal_running (controller : ControllerMode) (motion : MotionMode)
    (steering : ControlLoop.Steering credit) (m : σ) :
    Frugal (running controller motion steering m) ⟨credit m, n + 2⟩ fun p => ⟨credit p.2, n⟩ := by
  have hspare : n ≤ n + 2 := Nat.le_add_right n 2
  refine (frugal_see _ _).bind fun raised => ?_
  cases raised with
  | error err => exact frugal_pure ⟨Nat.le_refl _, hspare⟩
  | ok _ =>
      refine (frugal_see _ _).bind fun settings => ?_
      refine (frugal_startMotion _ _ _ _).bind fun started => ?_
      rcases started with err | id
      · exact frugal_pure (Allowance.le_refl _)
      · refine (frugal_spinning steering id m).bind fun spun => ?_
        rcases spun with ⟨err | ⟨⟩, m⟩
        · exact frugal_cancelMotion.bind fun _ => frugal_pure (Allowance.le_refl _)
        · exact frugal_pure ⟨Nat.le_refl _, hspare⟩

theorem frugal_showing (cb : Callback credit State Bool) (m : σ) :
    Frugal ((showing cb).procedure m) ⟨credit m, n + 1⟩ fun p => ⟨credit p.2, n⟩ := by
  have hround (m : σ) : Frugal (display cb m) ⟨credit m, n + 1⟩
      (Sum.elim (fun m => ⟨credit m, n + 1⟩) fun p => ⟨credit p.2, n⟩) := by
    refine (frugal_update _ _).bind fun updated => ?_
    rcases updated with err | _ | s
    · exact frugal_pure (Allowance.le_refl _)
    · exact frugal_pure (Allowance.le_refl _)
    · refine (frugal_callback cb s m).bind fun answered => ?_
      rcases answered with ⟨_ | _, m⟩
      · exact frugal_pure ⟨Nat.le_refl _, Nat.le_succ n⟩
      · exact frugal_pure (Allowance.le_refl _)
  exact frugal_repetition (R := showing cb) hround m

theorem frugal_idling (controller : ControllerMode) (cb : Callback credit State Bool) (m : σ) :
    Frugal (idling controller cb m) ⟨credit m, n + 1⟩ fun p => ⟨credit p.2, n⟩ := by
  refine (frugal_setController controller).bind fun chosen => ?_
  rcases chosen with err | ⟨⟩
  · exact frugal_pure (Allowance.le_refl _)
  · refine (frugal_see _ _).bind fun s => ?_
    cases s with
    | none => exact frugal_showing cb m
    | some s =>
        refine (frugal_callback cb s m).bind fun answered => ?_
        rcases answered with ⟨_ | _, m⟩
        · exact frugal_pure ⟨Nat.le_refl _, Nat.le_succ n⟩
        · exact frugal_showing cb m

theorem frugal_reading (p : Operation × Unit) :
    Frugal (reading p) ⟨c, n + 1⟩ fun _ => ⟨c, n⟩ := by
  refine (frugal_update _ _).bind fun updated => ?_
  rcases updated with err | _ | s
  · exact frugal_pure (Allowance.le_refl _)
  · exact frugal_pure (Allowance.le_refl _)
  · exact frugal_pure ⟨Nat.le_refl _, Nat.le_succ n⟩

/-- What is left of an allowance does not matter in the end. -/
theorem Frugal.within {P : Procedure α} {rest : α → Allowance} (h : Frugal P ⟨c, n⟩ rest)
    {n' : Nat} (hle : n ≤ n') : Frugal P ⟨c, n'⟩ fun _ => ⟨0, 0⟩ :=
  h.mono ⟨Nat.le_refl c, hle⟩ fun _ => ⟨Nat.zero_le _, Nat.zero_le _⟩

theorem frugal_operating (credit : σ → Nat) {op : Operation}
    {P : Operation × σ → Procedure (Except SessionError α × Operation × σ)} {m : σ}
    (h : ∀ p, Frugal (P p) ⟨credit p.2, n⟩ fun _ => ⟨0, 0⟩) (slot : Slot) :
    Frugal (operating op P m slot) ⟨credit m, n⟩ fun _ => ⟨0, 0⟩ := by
  unfold operating
  cases slot.claim (some op) with
  | error err => exact frugal_pure ⟨Nat.zero_le _, Nat.zero_le _⟩
  | ok _ => exact (h (op, m)).bind fun _ => frugal_pure (Allowance.le_refl _)

end

theorem frugal_order {α : Type} (order : Order α) :
    Frugal order.procedure ⟨0, 2⟩ fun _ => ⟨0, 0⟩ := by
  have hle : 0 + 1 ≤ 2 := Nat.le_succ 1
  cases order with
  | update motion torques => exact (frugal_update motion torques).within hle
  | startGenerator type => exact (frugal_startGenerator type).within hle
  | stopGenerator => exact frugal_stopGenerator.within hle
  | setController mode => exact (frugal_setController mode).within hle
  | startMotion controller motion path goal =>
      exact (frugal_startMotion controller motion path goal).within (Nat.le_refl (0 + 2))
  | finishMotion id motion torques => exact (frugal_finishMotion id motion torques).within hle
  | cancelMotion => exact frugal_cancelMotion.within hle

end Procedure

/-! ### Errands -/

namespace Robot

open Engine Procedure

variable {α : Type}

/-- How many messages may be caused while an errand is carried out. -/
def Errand.credit : Errand α → Nat
  | .order _ => 0
  | @Errand.run _ credit _ _ _ m => credit m
  | @Errand.read _ credit _ m => credit m
  | .readOnce => 0
  | @Errand.controlIdle _ credit _ _ m => credit m
  | @Errand.controlMotion _ credit _ _ _ m => credit m
  | @Errand.controlTorques _ credit _ m => credit m
  | @Errand.controlTorquesWithMotion _ credit _ _ _ m => credit m
  | .happen happenings => Happening.totalCost happenings

/-- The control loops of the robot, whatever steers them. -/
theorem frugal_steering {σ : Type} (credit : σ → Nat) (controller : ControllerMode)
    (motion : MotionMode) (steering : ControlLoop.Steering fun p : Operation × σ => credit p.2)
    (m : σ) (slot : Slot) :
    Frugal (operating (.controlling controller motion) (running controller motion steering) m slot)
      ⟨credit m, 2⟩ fun _ => ⟨0, 0⟩ :=
  frugal_operating credit
    (fun p => (frugal_running controller motion steering p).within (Nat.le_refl (0 + 2))) slot

theorem frugal_errand (t : Errand α) (slot : Slot) :
    Frugal (t.procedure slot) ⟨t.credit, 2⟩ fun _ => ⟨0, 0⟩ := by
  have hle : 0 + 1 ≤ 2 := Nat.le_succ 1
  cases t with
  | order asked => exact (frugal_order asked).bind fun _ => frugal_pure (Allowance.le_refl _)
  | run controller motion steering m =>
      refine Frugal.bind ?_ fun _ => frugal_pure (Allowance.le_refl _)
      exact (frugal_running controller motion steering.logged (m, [])).within (Nat.le_refl (0 + 2))
  | @read σ credit cb m =>
      exact frugal_operating (fun p : σ × List State => credit p.1)
        (fun p => (frugal_showing cb.logged.onEngine p).within hle) slot
  | readOnce =>
      refine Frugal.bind ?_ fun _ => frugal_pure (Allowance.le_refl _)
      exact frugal_operating (fun _ => 0) (fun p => (frugal_reading p).within hle) slot
  | @controlIdle σ credit controller cb m =>
      exact frugal_operating (fun p : σ × List State => credit p.1)
        (fun p => (frugal_idling controller cb.logged.onEngine p).within hle) slot
  | @controlMotion σ credit type controller cb m =>
      exact frugal_steering (fun p : σ × List Tick => credit p.1) _ _ _ _ slot
  | @controlTorques σ credit cb m =>
      exact frugal_steering (fun p : σ × List Tick => credit p.1) _ _ _ _ slot
  | @controlTorquesWithMotion σ credit type torqueCallback motionCallback m =>
      exact frugal_steering (fun p : σ × List Tick => credit p.1) _ _ _ _ slot
  | happen happenings =>
      intro e
      have hsupply := e.witness_supply_le happenings
      constructor
      · change 0 + (e.witness happenings).supply + 0 ≤ e.supply + Happening.totalCost happenings
        omega
      · exact Nat.zero_le 2

end Robot

/-! ### The handshake -/

/-- The receipts of a stretch that leads from one link to another: what was taken can no longer
reach the client, and it took nothing once at most. -/
structure Link.Spends (l : Link) (j : Journal) (l' : Link) : Prop where
  journal : l'.journal = l.journal ++ j
  supply : j.taken.length + l'.supply = l.supply
  receipts : j.receipts ≤ j.taken.length + 1

namespace Session

theorem spends_receive {l l' : Link} {result : Except LinkError Incoming}
    (h : l.receive = (result, l')) :
    ∃ j, l.Spends j l' ∧ ∀ message, result = .ok message → message ≠ .closed →
      j.receipts = j.taken.length := by
  obtain ⟨entry, hreceipt, hjournal, hpending⟩ := l.receive_receipt
  have hfarEnd := l.receive_farEnd
  rw [h] at hreceipt hjournal hpending hfarEnd
  simp only at hreceipt hjournal hpending hfarEnd
  have hlength := congrArg List.length hpending
  have hone := hreceipt.receipts
  rw [List.length_append] at hlength
  refine ⟨[entry], ⟨hjournal, ?_, by omega⟩, fun message hresult hmessage => ?_⟩
  · unfold Link.supply
    rw [hfarEnd]
    omega
  · cases hreceipt with
    | taken => rfl
    | drained => exact absurd (Except.ok.inj hresult).symm hmessage
    | idle | cut => cases hresult

theorem spends_awaitConnect (id : UInt32) (s : Session) :
    ∃ j, s.link.Spends j (s.awaitConnect id).2.link := by
  -- a message that was passed over was taken off the queue
  have hpassed {s s' : Session} {message : Incoming} {link : Link}
      (hr : s.link.receive = (.ok message, link)) (hmessage : message ≠ .closed)
      (hrest : ∃ j, link.Spends j s'.link) : ∃ j, s.link.Spends j s'.link := by
    obtain ⟨i, ⟨hjournal, hsupply, -⟩, htaken⟩ := spends_receive hr
    obtain ⟨j, hjournal', hsupply', hreceipts'⟩ := hrest
    have hone := htaken message rfl hmessage
    refine ⟨i ++ j, by rw [hjournal', hjournal, List.append_assoc], ?_, ?_⟩
    · rw [Journal.taken_append, List.length_append]
      omega
    · rw [Journal.taken_append, List.length_append, Journal.receipts_append]
      omega
  fun_induction awaitConnect id s with
  | case1 s err link hr | case2 s link hr | case4 s frame link hr s₁ err hdecode
  | case5 s frame link hr s₁ header status version hdecode hid =>
      obtain ⟨j, hspends, -⟩ := spends_receive hr
      exact ⟨j, hspends⟩
  | case3 s datagram link hr ih | case6 s frame link hr s₁ header status version hdecode hid ih
  | case7 s frame link hr s₁ answer hother hdecode ih => exact hpassed hr (by simp) ih

/-- A handshake takes what is pending and what the far end says to its request, and asks the link
once more at most. -/
theorem spends_handshake (start : Link) : ∃ j, start.Spends j (handshake start).2.link := by
  obtain ⟨i, haccount, hreceipts⟩ :=
    account_send (.connect protocolVersion Link.statePort) { link := start }
  have hsupply := Engine.send_supply (.connect protocolVersion Link.statePort) { link := start }
  have hjournal := haccount.journal
  have htaken : i.taken.length ≤ i.receipts := Journal.taken_length_le i
  unfold handshake
  generalize send { link := start } _ = sent at hjournal hsupply ⊢
  rcases sent with ⟨err | id, s⟩
  · exact ⟨i, hjournal, by simp only at hsupply ⊢; omega, by omega⟩
  · obtain ⟨j, hjournal', hsupply', hreceipts'⟩ := spends_awaitConnect id s
    simp only at hjournal hsupply ⊢
    have hspends : start.Spends (i ++ j) (s.awaitConnect id).2.link := by
      refine ⟨by rw [hjournal', hjournal, List.append_assoc], ?_, ?_⟩
      · rw [Journal.taken_append, List.length_append]
        omega
      · rw [Journal.taken_append, List.length_append, Journal.receipts_append]
        omega
    generalize s.awaitConnect id = awaited at hspends ⊢
    rcases awaited with ⟨err | version, s'⟩ <;> exact ⟨i ++ j, hspends⟩

end Session

/-! ### Receipts -/

namespace Robot

open Engine Procedure

/-- Whatever is asked of a robot, and whatever its callbacks answer, it comes to an end, and so does
the handshake.  The messages that are taken were pending at the beginning, or were still to be said
by the far end, or have been caused while a callback ran; and the link is asked for an event at most
two more times than it gives one. -/
theorem every_operation_ends :
    (∀ start : Link,
      let j := (Session.handshake start).2.link.since start
      j.taken.length ≤ start.supply ∧ j.receipts ≤ j.taken.length + 2) ∧
    ∀ {α : Type} (t : Errand α) (r : Robot),
      let j := (r.carryOut t).2.engine.link.since r.engine.link
      j.taken.length ≤ r.engine.supply + t.credit ∧ j.receipts ≤ j.taken.length + 2 := by
  refine ⟨fun start => ?_, fun t r => ?_⟩
  · intro j
    obtain ⟨j', hspends⟩ := Session.spends_handshake start
    have hsupply := hspends.supply
    have hreceipts := hspends.receipts
    have hj : j = j' := Link.since_eq hspends.journal
    rw [hj]
    omega
  · intro j
    have hpath := path_carryOut t r
    obtain ⟨i, haccount, hreceipts⟩ := hpath.account
    obtain ⟨i', hpassage, htaken⟩ := hpath.passage
    obtain rfl : i' = i :=
      List.append_cancel_left (hpassage.journal.symm.trans haccount.journal)
    obtain ⟨hcredit, hspare⟩ := frugal_errand t r.slot r.engine
    have hsum := hits_add_misses (t.moments r)
    have hhits : i'.taken.length = hits (t.moments r) := by rw [htaken, hits]
    have hj : j = i' := Link.since_eq haccount.journal
    change hits (t.moments r) + _ + 0 ≤ _ at hcredit
    change misses (t.moments r) + 0 ≤ 2 at hspare
    simp only at hcredit
    rw [hj]
    omega

end Robot
end ArmControl
