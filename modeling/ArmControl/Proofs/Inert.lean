import ArmControl.Proofs.Procedure
import ArmControl.Proofs.Thinning

/-! # Messages that mean nothing

Some messages mean nothing to an engine at the moment at which it takes them (`Moment.Inert`): a
state that is no newer than the last one, and a reply that the engine neither waits for nor has to
act on.  A wait passes over them (`digest_of_inert`), if its judge is `Deaf` to such replies.

Two engines are `Alike` if they differ in nothing but the extra messages that are still pending on
the second link and in what is counted of them.  They remain alike when the same is done to both
links and the rest is `Plain` (`Alike.withLink`): what an engine makes of a message (`digest`) and
of an attempt to send something (`posted`, `commanded`) is plain.  So they remain alike in a wait,
whether both take the next message (`Alike.attend`) or the second engine alone takes an extra one
(`Alike.attend_extra`). -/

namespace ArmControl

instance : DecidablePred Reply.Withdraws := fun reply =>
  decidable_of_iff (reply.kind = .startMotion ∧ reply ≠ .startMotion .success) <| by
    cases reply <;> simp [Reply.kind, Reply.Withdraws]

namespace Motion

variable {m m' : Motion} {header : Header} {reply : Reply}

/-- Nothing comes of a reply that neither withdraws the generator nor concerns the motion. -/
theorem handle_of_foreign (hwithdraws : ¬ reply.Withdraws)
    (hmove : reply.kind = .move → m.current ≠ some header.id) :
    m.handle header reply = (.ok (), m) := by
  cases reply with
  | startMotion status =>
      cases status with
      | success => rfl
      | rejected | aborted => exact absurd ⟨_, by decide, rfl⟩ hwithdraws
  | move status => simp [handle, hmove rfl]
  | connect | stopMotion | setController | stopMove => rfl

/-- A motion that is not settled stays as it is. -/
theorem settle_of_none {id : UInt32} (h : m.settle id = (none, m')) :
    m'.settle id = (none, m') := by
  have heq : m' = m := by
    unfold settle at h
    split at h
    · cases h
    · cases h
    · split at h
      · exact (Prod.mk.inj h).2.symm
      · cases h
  rwa [← heq] at h

end Motion

namespace Moment

/-- The number of the message that is taken, in the order in which they reach the client. -/
def number (m : Moment) : Nat := m.engine.link.taken.length

/-- The message that is taken means nothing to the engine. -/
def Inert (m : Moment) : Prop :=
  match m.event? with
  | none => True
  | some (.state datagram) =>
    match State.decode datagram with
    | .ok s => ∃ last ∈ m.engine.lastId, s.messageId ≤ last
    | .error _ => False
  | some (.reply frame) =>
    match Reply.decode frame with
    | .ok (header, reply) =>
      ¬ reply.Withdraws ∧ m.awaited ≠ some (header.kind, header.id) ∧
        (reply.kind = .move → m.engine.motion.current ≠ some header.id)
    | .error _ => False
  | some .closed => False

instance : DecidablePred Inert := fun m => by
  unfold Inert
  split <;> try split
  all_goals infer_instance

end Moment

namespace Engine

/-! ### Engines that are alike -/

/-- The engine without its link, and without the numbers of stale states and of replies. -/
def bare (e : Engine) : Engine :=
  { e with
    session := { e.session with
      link := {}
      metrics := { e.session.metrics with statesStale := 0, repliesReceived := 0 } } }

/-- The engines differ in their extra messages at most. -/
structure Alike (extra : Nat → Bool) (start₁ start₂ : Link) (e₁ e₂ : Engine) : Prop where
  bare : e₁.bare = e₂.bare
  linked : Linked extra start₁ start₂ e₁.link e₂.link

/-- What is done has nothing to do with the link and with those two numbers. -/
def Plain {α : Type} (f : Engine → α × Engine) : Prop :=
  ∀ e, (f e.bare).1 = (f e).1 ∧ (f e.bare).2.bare = (f e).2.bare

variable {α : Type} {extra : Nat → Bool} {start₁ start₂ : Link} {e₁ e₂ : Engine}

theorem Plain.bare_eq {f : Engine → α × Engine} (hf : Plain f) (h : e₁.bare = e₂.bare) :
    (f e₁).1 = (f e₂).1 ∧ (f e₁).2.bare = (f e₂).2.bare := by
  obtain ⟨hvalue₁, hbare₁⟩ := hf e₁
  obtain ⟨hvalue₂, hbare₂⟩ := hf e₂
  rw [h] at hvalue₁ hbare₁
  exact ⟨hvalue₁.symm.trans hvalue₂, hbare₁.symm.trans hbare₂⟩

theorem motion_of_bare (h : e₁.bare = e₂.bare) : e₁.motion = e₂.motion := by
  change e₁.bare.motion = e₂.bare.motion
  rw [h]

theorem withMotion_bare (h : e₁.bare = e₂.bare) (m : Motion) :
    (e₁.withMotion m).bare = (e₂.withMotion m).bare := by
  change e₁.bare.withMotion m = e₂.bare.withMotion m
  rw [h]

/-- Something is done to the links, and with what came of it something plain. -/
theorem Alike.withLink {f : Engine → α × Engine} {l₁ l₂ : Link}
    (h : Alike extra start₁ start₂ e₁ e₂) (hlinked : Linked extra start₁ start₂ l₁ l₂)
    (hplain : Plain f) (hlink : ∀ e, (f e).2.link = e.link) :
    (f (e₁.withLink l₁)).1 = (f (e₂.withLink l₂)).1 ∧
      Alike extra start₁ start₂ (f (e₁.withLink l₁)).2 (f (e₂.withLink l₂)).2 := by
  have hbare : (e₁.withLink l₁).bare = (e₂.withLink l₂).bare := h.bare
  obtain ⟨hvalue, hbare⟩ := hplain.bare_eq hbare
  refine ⟨hvalue, hbare, ?_⟩
  rw [hlink, hlink]
  exact hlinked

/-! ### One message of a wait -/

/-- What a wait makes of what the link gives; nothing, if it goes on. -/
def digest (judge : Judge α) (ended : Except SessionError α) :
    Except LinkError Incoming → Engine → Option (Except SessionError α) × Engine
  | .error err, e => (some (.error (.link err)), e.starve err e.link)
  | .ok incoming, e =>
    match e.intake incoming with
    | (.error err, e') => (some (.error err), e')
    | (.ok .ended, e') => (some ended, e')
    | (.ok .stale, e') => (none, e')
    | (.ok (.event event), e') =>
      ((judge event e'.motion).1, e'.withMotion (judge event e'.motion).2)

/-- What a wait makes of the next message; nothing, if it goes on. -/
def attend (judge : Judge α) (ended : Except SessionError α) (e : Engine) :
    Option (Except SessionError α) × Engine :=
  digest judge ended e.link.receive.1 (e.withLink e.link.receive.2)

variable {judge : Judge α} {ended : Except SessionError α}

theorem wait_attend (judge : Judge α) (ended : Except SessionError α) (e : Engine) :
    e.wait judge ended =
      match e.attend judge ended with
      | (some result, e') => (result, e')
      | (none, e') => e'.wait judge ended := by
  rw [wait_eq, attend]
  rcases e.link.receive with ⟨err | incoming, link⟩
  · rfl
  · simp only [digest]
    rcases (e.withLink link).intake incoming with ⟨err | event | _ | _, e'⟩
    · rfl
    · simp only
      rcases judge event e'.motion with ⟨_ | result, m⟩ <;> rfl
    · rfl
    · rfl

theorem passes_attend (judge : Judge α) (ended : Except SessionError α) (e : Engine) :
    e.passes judge =
      match e.attend judge ended with
      | (some _, _) => none
      | (none, e') => some e' := by
  unfold passes attend
  rcases e.link.receive with ⟨err | incoming, link⟩
  · rfl
  · simp only [digest]
    rcases (e.withLink link).intake incoming with ⟨err | event | _ | _, e'⟩
    · rfl
    · simp only
      rcases judge event e'.motion with ⟨_ | result, m⟩ <;> rfl
    · rfl
    · rfl

theorem digest_link (judge : Judge α) (ended : Except SessionError α)
    (given : Except LinkError Incoming) (e : Engine) :
    (digest judge ended given e).2.link = e.link := by
  cases given with
  | error err => exact starve_link e err e.link
  | ok incoming =>
      have hlink := e.intake_link incoming
      simp only [digest]
      split <;> (rename_i ha; rw [ha] at hlink; exact hlink)

theorem attend_link (judge : Judge α) (ended : Except SessionError α) (e : Engine) :
    (e.attend judge ended).2.link = e.link.receive.2 :=
  digest_link judge ended e.link.receive.1 _

theorem plain_intake (incoming : Incoming) : Plain (intake · incoming) := by
  intro e
  cases incoming with
  | state datagram =>
      have hfresh : ∀ s, e.bare.isFresh s = e.isFresh s := fun _ => rfl
      simp only [intake, hfresh]
      cases State.decode datagram with
      | error err => exact ⟨rfl, rfl⟩
      | ok s =>
          simp only
          split <;> exact ⟨rfl, rfl⟩
  | reply frame =>
      simp only [intake]
      cases Reply.decode frame <;> exact ⟨rfl, rfl⟩
  | closed => exact ⟨rfl, rfl⟩

theorem plain_digest (judge : Judge α) (ended : Except SessionError α)
    (given : Except LinkError Incoming) : Plain (digest judge ended given) := by
  intro e
  cases given with
  | error err => cases err <;> exact ⟨rfl, rfl⟩
  | ok incoming =>
      have hplain := plain_intake incoming e
      simp only [digest] at hplain ⊢
      generalize e.intake incoming = a at hplain ⊢
      generalize e.bare.intake incoming = b at hplain ⊢
      obtain ⟨taken, e'⟩ := a
      obtain ⟨taken', e''⟩ := b
      obtain ⟨rfl, hbare⟩ : taken' = taken ∧ e''.bare = e'.bare := hplain
      rcases taken' with err | event | _ | _
      · exact ⟨rfl, hbare⟩
      · have hmotion := motion_of_bare hbare
        simp only [hmotion]
        exact ⟨trivial, withMotion_bare hbare _⟩
      · exact ⟨rfl, hbare⟩
      · exact ⟨rfl, hbare⟩

/-! ### What is sent -/

/-- What the engine makes of an attempt to send a request. -/
def posted (sent : Except LinkError Unit) (e : Engine) : Except LinkError UInt32 × Engine :=
  let numbered := { e with session := { e.session with nextId := e.session.nextId + 1 } }
  match sent with
  | .error err => (.error err, numbered)
  | .ok () => (.ok e.session.nextId, numbered.count Metrics.countRequest)

theorem transmit_run (request : Request) (e : Engine) : (Procedure.transmit request).run e =
    posted (e.link.sendRequest (request.encode e.session.nextId)).1
      (e.withLink (e.link.sendRequest (request.encode e.session.nextId)).2) := by
  simp only [Procedure.transmit, Session.send]
  change _ = posted (e.session.link.sendRequest _).1 (e.withLink (e.session.link.sendRequest _).2)
  generalize e.session.link.sendRequest _ = sent
  rcases sent with ⟨err | ⟨⟩, link⟩ <;> rfl

theorem plain_posted (sent : Except LinkError Unit) : Plain (posted sent) := by
  intro e
  cases sent <;> exact ⟨rfl, rfl⟩

theorem posted_link (sent : Except LinkError Unit) (e : Engine) :
    (posted sent e).2.link = e.link := by
  cases sent <;> rfl

/-- What the engine makes of an attempt to send a command. -/
def commanded (command : Command) (sent : Except LinkError Unit) (e : Engine) :
    Except SessionError Unit × Engine :=
  match sent with
  | .error .noPeer => (.ok (), e)
  | .error err => (.error (.link err), e)
  | .ok () =>
    (.ok (), (e.count Metrics.countCommand).withMotion
      { e.motion with lastCommand := some command })

theorem command_run (motion : Option MotionCommand) (torques : Option Torques) (e : Engine) :
    (Procedure.command motion torques).run e =
      match e.lastState with
      | none => (.ok (), e)
      | some s =>
        let command := compose s (e.motion.status = .stopping) e.motion.lastCommand motion torques
        let (sent, link) := e.link.sendDatagram command.encode
        commanded command sent (e.withLink link) := by
  change e.sendCommand motion torques = _
  unfold sendCommand
  cases e.lastState with
  | none => rfl
  | some s =>
      simp only
      generalize e.link.sendDatagram _ = sent
      rcases sent with ⟨err | ⟨⟩, link⟩
      · cases err <;> rfl
      · rfl

theorem plain_commanded (command : Command) (sent : Except LinkError Unit) :
    Plain (commanded command sent) := by
  intro e
  rcases sent with err | ⟨⟩
  · cases err <;> exact ⟨rfl, rfl⟩
  · exact ⟨rfl, rfl⟩

theorem commanded_link (command : Command) (sent : Except LinkError Unit) (e : Engine) :
    (commanded command sent e).2.link = e.link := by
  rcases sent with err | ⟨⟩
  · cases err <;> rfl
  · rfl

/-! ### Judges that are deaf -/

/-- A judge makes nothing of a reply that is not awaited and need not be acted on, while the motion
satisfies `I`. -/
structure Deaf (awaited : Option (FrameKind × UInt32)) (judge : Judge α) (I : Motion → Prop) :
    Prop where
  reply : ∀ {header reply m}, I m → ¬ reply.Withdraws → awaited ≠ some (header.kind, header.id) →
    (reply.kind = .move → m.current ≠ some header.id) → judge (.reply header reply) m = (none, m)
  keeps : ∀ {event m m'}, I m → judge event m = (none, m') → I m'

theorem deaf_judgeState : Deaf none judgeState fun _ => True where
  reply _ hwithdraws _ hmove := by simp only [judgeState, Motion.handle_of_foreign hwithdraws hmove]
  keeps _ _ := trivial

theorem deaf_judgeReply (kind : FrameKind) (id : UInt32) :
    Deaf (some (kind, id)) (judgeReply kind id) fun _ => True where
  reply {header _ _} _ hwithdraws hawaited hmove := by
    have hother : ¬ (header.kind = kind ∧ header.id = id) := by
      rintro ⟨rfl, rfl⟩
      exact hawaited rfl
    simp only [judgeReply, if_neg hother, Motion.handle_of_foreign hwithdraws hmove]
    rfl
  keeps _ _ := trivial

/-- While a motion is not settled, it is settled by nothing that does not concern it. -/
theorem deaf_judgeOutcome (id : UInt32) :
    Deaf none (judgeOutcome id) fun m => m.settle id = (none, m) where
  reply hsettle hwithdraws _ hmove := by
    simp only [judgeOutcome, Motion.handle_of_foreign hwithdraws hmove, hsettle]
  keeps {event m _} _ h := by
    cases event with
    | state s =>
        simp only [judgeOutcome] at h
        split at h
        · cases h
        · exact Motion.settle_of_none h
    | reply header reply =>
        simp only [judgeOutcome] at h
        split at h
        · cases h
        · exact Motion.settle_of_none h

/-! ### Extra messages -/

/-- An inert message is passed over. -/
theorem digest_of_inert {awaited : Option (FrameKind × UInt32)} {I : Motion → Prop}
    {incoming : Incoming} {link : Link} (hdeaf : Deaf awaited judge I) (hI : I e₂.motion)
    (hevent : Moment.event? ⟨e₂, awaited⟩ = some incoming)
    (hinert : Moment.Inert ⟨e₂, awaited⟩) :
    ∃ e', digest judge ended (.ok incoming) (e₂.withLink link) = (none, e') ∧
      e'.bare = e₂.bare := by
  unfold Moment.Inert at hinert
  rw [hevent] at hinert
  cases incoming with
  | state datagram =>
      cases hdecode : State.decode datagram with
      | error err => simp [hdecode] at hinert
      | ok s =>
          simp only [hdecode] at hinert
          obtain ⟨last, hlast, hle⟩ := hinert
          have hfresh : (e₂.withLink link).isFresh s = false := by
            change e₂.isFresh s = false
            rw [isFresh, Option.mem_def.1 hlast]
            exact decide_eq_false (UInt64.not_lt.2 hle)
          refine ⟨(e₂.withLink link).count Metrics.countStale, ?_, rfl⟩
          simp [digest, intake, hdecode, hfresh]
  | reply frame =>
      cases hdecode : Reply.decode frame with
      | error err => simp [hdecode] at hinert
      | ok decoded =>
          obtain ⟨header, reply⟩ := decoded
          simp only [hdecode] at hinert
          obtain ⟨hwithdraws, hawaited, hmove⟩ := hinert
          have hjudge := hdeaf.reply hI hwithdraws hawaited hmove
          refine ⟨(e₂.withLink link).count Metrics.countReply, ?_, rfl⟩
          have hmotion : ((e₂.withLink link).count Metrics.countReply).motion = e₂.motion := rfl
          simp only [digest, intake, hdecode, hmotion, hjudge]
          rfl
  | closed => exact hinert.elim

theorem intake_motion (e : Engine) (incoming : Incoming) :
    (e.intake incoming).2.motion = e.motion := by
  unfold intake
  split
  · split
    · rfl
    · split <;> rfl
  · simp only
    split <;> rfl
  · rfl

/-- What a deaf judge keeps is still true when the wait goes on. -/
theorem digest_keeps {awaited : Option (FrameKind × UInt32)} {I : Motion → Prop} {e e' : Engine}
    {given : Except LinkError Incoming} (hdeaf : Deaf awaited judge I) (hI : I e.motion)
    (h : digest judge ended given e = (none, e')) : I e'.motion := by
  cases given with
  | error err => cases h
  | ok incoming =>
      have hmotion := e.intake_motion incoming
      simp only [digest] at h
      generalize e.intake incoming = a at hmotion h
      obtain ⟨taken, e₁⟩ := a
      replace hmotion : e₁.motion = e.motion := hmotion
      rcases taken with err | event | _ | _
      · cases h
      · obtain ⟨hjudge, rfl⟩ := Prod.mk.inj h
        exact hdeaf.keeps (hmotion ▸ hI) (Prod.ext hjudge rfl)
      · obtain ⟨-, rfl⟩ := Prod.mk.inj h
        exact hmotion ▸ hI
      · cases h

theorem attend_keeps {awaited : Option (FrameKind × UInt32)} {I : Motion → Prop} {e e' : Engine}
    (hdeaf : Deaf awaited judge I) (hI : I e.motion) (h : e.attend judge ended = (none, e')) :
    I e'.motion :=
  digest_keeps (e := e.withLink e.link.receive.2) hdeaf hI h

/-- The next message is an extra one, and the second engine alone passes over it. -/
theorem Alike.attend_extra {awaited : Option (FrameKind × UInt32)} {I : Motion → Prop}
    (h : Alike extra start₁ start₂ e₁ e₂) (hdeaf : Deaf awaited judge I) (hI : I e₂.motion)
    (hextra : e₂.link.OffersExtra extra) (hinert : Moment.Inert ⟨e₂, awaited⟩) :
    ∃ e', e₂.attend judge ended = (none, e') ∧ Alike extra start₁ start₂ e₁ e' := by
  obtain ⟨hopen, hne, hextra⟩ := hextra
  obtain ⟨incoming, rest, hpending⟩ := List.exists_cons_of_ne_nil hne
  have hevent : Moment.event? ⟨e₂, awaited⟩ = some incoming := by
    simp [Moment.event?, hopen, hpending]
  have hreceive := Link.receive_of_pending hopen hpending
  obtain ⟨e', hdigest, hbare⟩ := digest_of_inert hdeaf hI hevent hinert
  have hattend : e₂.attend judge ended = (none, e') := by rw [attend, hreceive, hdigest]
  have hlink := e₂.attend_link judge ended
  rw [hattend, hreceive] at hlink
  refine ⟨e', hattend, h.bare.trans hbare.symm, ?_⟩
  exact hlink ▸ h.linked.take_extra hpending hextra

/-- Any other message is taken by both engines, and they make the same of it. -/
theorem Alike.attend (h : Alike extra start₁ start₂ e₁ e₂) (hplain : ¬ e₂.link.OffersExtra extra)
    (hecho : Echoes extra start₁ start₂ e₁.link.receive.2 e₂.link.receive.2)
    (judge : Judge α) (ended : Except SessionError α) :
    (e₁.attend judge ended).1 = (e₂.attend judge ended).1 ∧
      Alike extra start₁ start₂ (e₁.attend judge ended).2 (e₂.attend judge ended).2 := by
  obtain ⟨hreceive, hlinked⟩ := h.linked.receive hplain hecho
  rw [Engine.attend, Engine.attend, hreceive]
  exact h.withLink hlinked (plain_digest judge ended _) (digest_link judge ended _)

end Engine

end ArmControl
