import ArmControl.Proofs.Growth
import ArmControl.Proofs.Unreadable

/-! # Which states an engine accepts

Of the states that it takes, an engine accepts those whose number is greater than the numbers of all
that it took before (`strictRecords`); nothing else plays a part in this.  Along every path the
engine's own books tell so (`Path.ledger`): what it has counted as received or as stale, what it
keeps as the last state and what it shows to others.

A state datagram that cannot be read changes nothing of this, and the call that has taken it fails
with just this error, unless it was about to cancel a motion (`perform_reports`).
`accepts_strict_records` states both for every engine that can be reached. -/

namespace ArmControl

/-! ### Strict records -/

/-- The states whose number is greater than those of all before them. -/
def strictRecords (states : List State) : List State :=
  (states.zipIdx.filter fun p => (states.take p.2).all fun t => t.messageId < p.1.messageId).map
    Prod.fst

theorem strictRecords_concat (states : List State) (s : State) :
    strictRecords (states ++ [s]) = strictRecords states ++
      if states.all fun t => t.messageId < s.messageId then [s] else [] := by
  have htake : ∀ p ∈ states.zipIdx, (states ++ [s]).take p.2 = states.take p.2 := by
    intro p hp
    exact List.take_append_of_le_length (Nat.le_of_lt (List.snd_lt_of_mem_zipIdx hp))
  simp only [strictRecords, List.zipIdx_append, List.filter_append, List.map_append]
  congr 1
  · congr 1
    exact List.filter_congr fun p hp => by rw [htake p hp]
  · simp only [List.zipIdx_cons, List.zipIdx_nil, List.filter_cons, List.filter_nil,
      Nat.zero_add, List.take_left]
    split <;> rfl

/-- A state is newer than the last record if it is newer than all that went before. -/
theorem newerThan_latest_iff {last : Option UInt64} {states : List State} {s : State} :
    Engine.newerThan (latest last states) s ↔
      Engine.newerThan last s ∧ ∀ t ∈ states, t.messageId < s.messageId := by
  induction states generalizing last with
  | nil => simp [latest, records]
  | cons t rest ih =>
      by_cases ht : Engine.newerThan last t
      · rw [latest_cons_of_newer ht, ih]
        constructor
        · rintro ⟨hs, hrest⟩
          refine ⟨newerThan_trans ht hs, fun u hu => ?_⟩
          rcases List.mem_cons.1 hu with rfl | hu
          · simpa [Engine.newerThan] using hs
          · exact hrest u hu
        · rintro ⟨-, hall⟩
          refine ⟨?_, fun u hu => hall u (List.mem_cons_of_mem t hu)⟩
          simpa [Engine.newerThan] using hall t List.mem_cons_self
      · rw [latest_cons_of_stale ht, ih]
        refine and_congr_right fun hs => ⟨fun hrest u hu => ?_, fun hall u hu => ?_⟩
        · rcases List.mem_cons.1 hu with rfl | hu
          · cases last with
            | none => exact absurd rfl ht
            | some id =>
                simp only [Engine.newerThan, decide_eq_true_eq, UInt64.not_lt] at ht hs
                exact UInt64.lt_of_le_of_lt ht hs
          · exact hrest u hu
        · exact hall u (List.mem_cons_of_mem t hu)

/-- What a client keeps that starts without a state. -/
theorem records_eq_strictRecords (states : List State) :
    records none states = strictRecords states := by
  induction states using List.reverseRecOn with
  | nil => rfl
  | append_singleton states s ih =>
      rw [records_append, strictRecords_concat, ih, records, records]
      have hiff : Engine.newerThan (latest none states) s ↔
          (states.all fun t => t.messageId < s.messageId) = true := by
        rw [newerThan_latest_iff, List.all_eq_true]
        simp [Engine.newerThan]
      simp only [hiff]
      split <;> rfl

theorem records_sublist (last : Option UInt64) (states : List State) :
    (records last states).Sublist states := by
  induction states generalizing last with
  | nil => exact .slnil
  | cons s rest ih =>
      unfold records
      split
      · exact (ih _).cons_cons s
      · exact (ih last).cons s

/-! ### The books -/

/-- The state that is accepted: it counts as received, and is the last one from then on. -/
def Moment.accepted? (m : Moment) : Option State :=
  if m.engine.received.metrics.statesReceived = m.engine.metrics.statesReceived then none
  else m.engine.received.lastState

namespace Engine

variable {e e₁ e' : Engine} {a b : List Moment} {i j : Journal}

/-- What the engine has kept of the states that it took at the moments `ms`, while `j` was
written. -/
structure Ledger (e : Engine) (ms : List Moment) (j : Journal) (e' : Engine) : Prop where
  passage : Passage e j e'
  taken : j.taken = ms.filterMap Moment.event?
  accepted : ms.filterMap Moment.accepted? = j.accepted e.lastId
  published : e.published = e.lastState → e'.published = e'.lastState
  received : e'.metrics.statesReceived =
    e.metrics.statesReceived + UInt64.ofNat (j.accepted e.lastId).length
  stale : e'.metrics.statesReceived + e'.metrics.statesStale =
    e.metrics.statesReceived + e.metrics.statesStale + UInt64.ofNat j.states.length

theorem Ledger.refl (e : Engine) : Ledger e [] [] e where
  passage := .refl e
  taken := rfl
  accepted := rfl
  published h := h
  received := (UInt64.add_zero _).symm
  stale := (UInt64.add_zero _).symm

theorem Ledger.trans (h₁ : Ledger e a i e₁) (h₂ : Ledger e₁ b j e') :
    Ledger e (a ++ b) (i ++ j) e' where
  passage := h₁.passage.trans h₂.passage
  taken := by rw [Journal.taken_append, List.filterMap_append, h₁.taken, h₂.taken]
  accepted := by
    rw [List.filterMap_append, Journal.accepted_append, h₁.accepted, h₂.accepted,
      h₁.passage.lastId]
  published h := h₂.published (h₁.published h)
  received := by
    rw [h₂.received, h₁.received, Journal.accepted_append, List.length_append, UInt64.ofNat_add,
      h₁.passage.lastId, UInt64.add_assoc]
  stale := by
    rw [h₂.stale, h₁.stale, Journal.states_append, List.length_append, UInt64.ofNat_add,
      UInt64.add_assoc]

/-- What is known of the states is the same, and so are their counts. -/
structure SameBooks (e e' : Engine) : Prop where
  lastState : e'.lastState = e.lastState
  published : e'.published = e.published
  received : e'.metrics.statesReceived = e.metrics.statesReceived
  stale : e'.metrics.statesStale = e.metrics.statesStale

theorem SameBooks.ledger (h : SameBooks e e') (hpassage : Passage e j e')
    (hstates : j.states = []) {ms : List Moment} (htaken : j.taken = ms.filterMap Moment.event?)
    (hnone : ms.filterMap Moment.accepted? = []) : Ledger e ms j e' where
  passage := hpassage
  taken := htaken
  accepted := by rw [hnone, Journal.accepted, hstates]; rfl
  published hsame := by rw [h.published, h.lastState, hsame]
  received := by
    rw [h.received, Journal.accepted, hstates]
    exact (UInt64.add_zero _).symm
  stale := by
    rw [h.received, h.stale, hstates]
    exact (UInt64.add_zero _).symm

theorem sendCommand_sameBooks (motion : Option MotionCommand) (torques : Option Torques)
    (e : Engine) : SameBooks e (e.sendCommand motion torques).2 := by
  unfold sendCommand
  split
  · exact ⟨rfl, rfl, rfl, rfl⟩
  · simp only
    split <;> exact ⟨rfl, rfl, rfl, rfl⟩

theorem Act.sameBooks (h : Act e e') : SameBooks e e' := by
  cases h with
  | motion | look | controller | happen => exact ⟨rfl, rfl, rfl, rfl⟩
  | send request =>
      have hmetrics : (e.session.send request).2.metrics = e.metrics ∨
          (e.session.send request).2.metrics = e.metrics.countRequest := by
        unfold Session.send
        simp only
        split
        · exact .inl rfl
        · exact .inr rfl
      refine ⟨rfl, rfl, ?_, ?_⟩ <;>
        rcases hmetrics with hmetrics | hmetrics <;>
          simp only [metrics] at hmetrics ⊢ <;> rw [hmetrics] <;> rfl
  | command motion torques => exact e.sendCommand_sameBooks motion torques

theorem states_of_taken_nil (h : j.taken = []) : j.states = [] := by
  suffices hevents : j.events = [] by rw [Journal.states, hevents]; rfl
  unfold Journal.taken at h
  unfold Journal.events
  rw [List.filterMap_eq_nil_iff] at h ⊢
  intro entry hentry
  have hnone := h entry hentry
  unfold Entry.event?
  split
  · cases hnone
  · cases hnone
  · rfl

/-- An act that takes no message leaves the books alone. -/
theorem Act.ledger (h : Act e e') : ∃ j, Ledger e [] j e' := by
  obtain ⟨j, hpassage, htaken⟩ := h.passage
  exact ⟨j, h.sameBooks.ledger hpassage (states_of_taken_nil htaken) htaken rfl⟩

/-- What the books say of a message depends on what was made of it. -/
inductive Booked (e e' : Engine) : Except SessionError Intake → Prop
  | accepted {s : State} (last : e'.lastState = some s) (published : e'.published = some s)
      (received : e'.metrics.statesReceived = e.metrics.statesReceived + 1)
      (stale : e'.metrics.statesStale = e.metrics.statesStale) :
      Booked e e' (.ok (.event (.state s)))
  | stale (last : e'.lastState = e.lastState) (published : e'.published = e.published)
      (received : e'.metrics.statesReceived = e.metrics.statesReceived)
      (stale : e'.metrics.statesStale = e.metrics.statesStale + 1) : Booked e e' (.ok .stale)
  | other {result : Except SessionError Intake} (hstale : result ≠ .ok .stale)
      (hstate : ∀ s, result ≠ .ok (.event (.state s))) (same : SameBooks e e') : Booked e e' result

theorem booked_intake {incoming : Incoming} {link : Link} {result : Except SessionError Intake}
    (h : (e.withLink link).intake incoming = (result, e')) : Booked e e' result := by
  unfold intake at h
  split at h
  · split at h
    · obtain ⟨rfl, rfl⟩ := Prod.mk.inj h
      exact .other nofun nofun ⟨rfl, rfl, rfl, rfl⟩
    · split at h
      · obtain ⟨rfl, rfl⟩ := Prod.mk.inj h
        exact .accepted rfl rfl rfl rfl
      · obtain ⟨rfl, rfl⟩ := Prod.mk.inj h
        exact .stale rfl rfl rfl rfl
  · simp only at h
    split at h
    · obtain ⟨rfl, rfl⟩ := Prod.mk.inj h
      exact .other nofun nofun ⟨rfl, rfl, rfl, rfl⟩
    · obtain ⟨rfl, rfl⟩ := Prod.mk.inj h
      exact .other nofun nofun ⟨rfl, rfl, rfl, rfl⟩
  · obtain ⟨rfl, rfl⟩ := Prod.mk.inj h
    exact .other nofun nofun ⟨rfl, rfl, rfl, rfl⟩

theorem states_of_event {entry : Entry} (h : ∀ s, entry.event? ≠ some (.state s)) :
    Journal.states [entry] = [] := by
  cases hevent : entry.event? with
  | none => simp [Journal.states, Journal.events, hevent]
  | some event =>
      cases event with
      | state s => exact absurd hevent (h s)
      | reply => simp [Journal.states, Journal.events, hevent, Event.state?]

theorem states_of_state {entry : Entry} {s : State} (h : entry.event? = some (.state s)) :
    Journal.states [entry] = [s] := by
  simp [Journal.states, Journal.events, h, Event.state?]

theorem accepted_of_sameBooks {m : Moment} (h : SameBooks m.engine m.engine.received) :
    [m].filterMap Moment.accepted? = [] := by
  simp [Moment.accepted?, h.received]

/-- The books agree with what the journal documents of the message. -/
theorem Booked.ledger {m : Moment} {entry : Entry} {result : Except SessionError Intake}
    (h : Booked m.engine m.engine.received result)
    (hpassage : Passage m.engine [entry] m.engine.received)
    (htaken : Journal.taken [entry] = [m].filterMap Moment.event?)
    (hdocuments : Documents m.engine.lastId entry result) :
    Ledger m.engine [m] [entry] m.engine.received := by
  cases h with
  | accepted hlast hpublished hreceived hstale =>
      obtain ⟨hevent, hnew⟩ := hdocuments
      have haccepted := accepted_of_newer hevent hnew
      refine ⟨hpassage, htaken, ?_, fun _ => ?_, ?_, ?_⟩
      · rw [haccepted]
        simp [Moment.accepted?, hreceived, hlast]
      · rw [hpublished, hlast]
      · rw [haccepted]
        exact hreceived
      · rw [states_of_state hevent, hreceived, hstale]
        change _ + 1 + m.engine.metrics.statesStale = _ + 1
        ac_rfl
  | stale hlast hpublished hreceived hstale =>
      obtain ⟨s, hevent, hold⟩ := hdocuments
      have haccepted := accepted_of_stale hevent hold
      refine ⟨hpassage, htaken, ?_, fun h => ?_, ?_, ?_⟩
      · rw [haccepted]
        simp [Moment.accepted?, hreceived]
      · rw [hpublished, hlast]
        exact h
      · rw [haccepted, hreceived]
        exact (UInt64.add_zero _).symm
      · rw [states_of_state hevent, hreceived, hstale, ← UInt64.add_assoc]
        rfl
  | other hnostale hnostate hsame =>
      refine hsame.ledger hpassage (states_of_event fun s hevent => ?_) htaken
        (accepted_of_sameBooks hsame)
      rcases result with err | event | _ | _
      · cases hdocuments.1.symm.trans hevent
      · exact hnostate s (by rw [Option.some.inj (hdocuments.1.symm.trans hevent)])
      · exact hnostale rfl
      · cases Eq.trans (Eq.symm hdocuments) hevent

/-- A receipt is booked. -/
theorem ledger_received (e : Engine) (awaited : Option (FrameKind × UInt32)) :
    ∃ j, Ledger e [⟨e, awaited⟩] j e.received := by
  obtain ⟨entry, hreceives, htaken⟩ := receives_received e awaited
  have htakens : Journal.taken [entry] = [(⟨e, awaited⟩ : Moment)].filterMap Moment.event? := by
    rw [Journal.taken, List.filterMap_cons, List.filterMap_cons, htaken]
    rfl
  have hentry {entry' : Entry} (h : Receives e entry' e.received) : entry' = entry :=
    List.singleton_inj.1 (List.append_cancel_left
      (h.passage.journal.symm.trans hreceives.passage.journal))
  refine ⟨[entry], ?_⟩
  rcases hr : e.link.receive with ⟨err | incoming, link⟩
  · have hreceived : e.received = e.starve err link := by simp only [received, hr]
    obtain ⟨entry', hreceives', hevent⟩ := receives_starve hr
    obtain rfl := hentry (hreceived ▸ hreceives')
    have hsame : SameBooks e e.received := by
      rw [hreceived]
      cases err <;> exact ⟨rfl, rfl, rfl, rfl⟩
    exact hsame.ledger hreceives.passage (states_of_event (by simp [hevent])) htakens
      (accepted_of_sameBooks hsame)
  · rcases ha : (e.withLink link).intake incoming with ⟨result, e'⟩
    obtain rfl : e.received = e' := by simp only [received, hr, ha]
    obtain ⟨entry', hreceives', hdocuments⟩ := receives_intake hr ha
    obtain rfl := hentry hreceives'
    exact (booked_intake ha).ledger hreceives.passage htakens hdocuments

theorem Path.ledger {ms : List Moment} (h : Path e ms e') : ∃ j, Ledger e ms j e' := by
  induction h with
  | refl e => exact ⟨[], .refl e⟩
  | act hact _ ih =>
      obtain ⟨i, hact⟩ := hact.ledger
      obtain ⟨j, hrest⟩ := ih
      exact ⟨i ++ j, hact.trans hrest⟩
  | take awaited _ ih =>
      obtain ⟨i, hreceived⟩ := ledger_received _ awaited
      obtain ⟨j, hrest⟩ := ih
      exact ⟨i ++ j, hreceived.trans hrest⟩

/-- What was not received of what was taken has been stale. -/
theorem Ledger.stale_eq {ms : List Moment} (h : Ledger e ms j e') :
    e'.metrics.statesStale = e.metrics.statesStale +
      UInt64.ofNat (j.states.length - (j.accepted e.lastId).length) := by
  have hle : (j.accepted e.lastId).length ≤ j.states.length :=
    (records_sublist e.lastId j.states).length_le
  obtain ⟨rest, hrest⟩ := Nat.exists_eq_add_of_le hle
  have hsum := h.stale
  rw [h.received, hrest, UInt64.ofNat_add] at hsum
  rw [hrest, Nat.add_sub_cancel_left]
  refine (UInt64.add_right_inj (e.metrics.statesReceived +
    UInt64.ofNat (j.accepted e.lastId).length)).1 (hsum.trans ?_)
  ac_rfl

/-! ### A session -/

/-- What an engine has accepted, counted, kept and shown are the strict records among all states
that it took and could read, whatever call has taken them.  A datagram that cannot be read changes
nothing, and the call that takes it fails with this error, unless it waited to cancel a motion. -/
theorem accepts_strict_records (session : Session) (settings : Settings) (clock : Clock)
    (turns : List Turn) :
    let e₀ := Engine.start session settings clock
    let e := e₀.after turns
    let ms := Moments.after turns e₀
    (∃ j : Journal, e.link.journal = e₀.link.journal ++ j ∧
      j.taken = ms.filterMap Moment.event? ∧
      ms.filterMap Moment.accepted? = strictRecords j.states ∧
      e.lastState = (strictRecords j.states).getLast? ∧ e.published = e.lastState ∧
      e.metrics.statesReceived =
        e₀.metrics.statesReceived + UInt64.ofNat (strictRecords j.states).length ∧
      e.metrics.statesStale = e₀.metrics.statesStale +
        UInt64.ofNat (j.states.length - (strictRecords j.states).length)) ∧
    (∀ call, ∃ asked, Moments.perform call e = asked ++ Moments.cancelling call e ∧
      ∀ m ∈ asked, ∀ err, m.unreadable? = some err → (e.perform call).1 = .error (.wire err)) ∧
    ∀ m ∈ ms, ∀ err, m.unreadable? = some err →
      ∃ link, m.engine.received = m.engine.withLink link := by
  intro e₀ e ms
  obtain ⟨j, hledger⟩ := (path_after turns e₀).ledger
  have haccepted : j.accepted e₀.lastId = strictRecords j.states :=
    records_eq_strictRecords j.states
  refine ⟨⟨j, hledger.passage.journal, hledger.taken, ?_, ?_, hledger.published rfl, ?_, ?_⟩,
    fun call => perform_reports call e, fun m _ err => received_of_unreadable⟩
  · rw [hledger.accepted, haccepted]
  · rw [← haccepted, hledger.passage.lastState]
    exact Option.or_none
  · rw [← haccepted, hledger.received]
  · rw [← haccepted, hledger.stale_eq]

theorem accepts_strict_records_update :
    let e₀ := Engine.start default {} default
    let turns := [Turn.happen [.say [.nextState State.initial 5, .rawState [],
      .nextState State.initial 0, .nextState State.initial 2]], .call (.update none none)]
    let e := e₀.after turns
    let call := Call.update none none
    (∃ j : Journal, e.link.journal = e₀.link.journal ++ j ∧
      e.lastState = (strictRecords j.states).getLast? ∧ e.published = e.lastState) ∧
    (∃ m ∈ Moments.perform call e, m.unreadable? = some (.invalidLength State.size 0) ∧
      (e.perform call).1 = .error (.wire (.invalidLength State.size 0))) ∧
    ∃ m ∈ Moments.after (turns ++ [.call call]) e₀,
      m.unreadable? = some (.invalidLength State.size 0) ∧
      ∃ link, m.engine.received = m.engine.withLink link := by
  intro e₀ turns e call
  have htaken : (Moments.perform call e).any fun m =>
      m.unreadable? = some (.invalidLength State.size 0) := by decide +kernel
  have hlater : (Moments.after (turns ++ [.call call]) e₀).any fun m =>
      m.unreadable? = some (.invalidLength State.size 0) := by decide +kernel
  simp only [List.any_eq_true, decide_eq_true_eq] at htaken hlater
  obtain ⟨m, hm, herr⟩ := htaken
  obtain ⟨m', hm', herr'⟩ := hlater
  obtain ⟨⟨j, hjournal, -, -, hlast, hpublished, -⟩, hcall, -⟩ :=
    accepts_strict_records default {} default turns
  obtain ⟨asked, hasked, hreports⟩ := hcall call
  refine ⟨⟨j, hjournal, hlast, hpublished⟩, ⟨m, hm, herr, ?_⟩, m', hm', herr', ?_⟩
  · have hmoments : Moments.perform call e = asked := hasked.trans (List.append_nil asked)
    exact hreports m (hmoments ▸ hm) _ herr
  · exact (accepts_strict_records default {} default (turns ++ [.call call])).2.2 m' hm' _ herr'

end Engine
end ArmControl
