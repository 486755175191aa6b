import ArmControl.Proofs.Growth

/-! # Links that differ by extra messages

Two sessions are compared whose far ends say the same but for some extra messages in the second
one.  The messages of the second link are numbered in the order in which they reach it, and
`extra n` tells whether the n-th is an extra one; `thin` leaves out the extra messages of a list.

A link's `Talk` tells what was said between the acts of the client: its attempts to send something
and to receive something, of which those that give an extra message do not count.  `Echoes` says
that between any two acts the same was said in both sessions, but for the extra messages, and the
same flags were set.

`Linked` says that two links are in step: the same requests and commands have been sent, the queue of
the first one is that of the second without the extra messages, and their flags are the same, up to
what has been said since the last act.  Links stay in step when the same is sent over them
(`Linked.sendRequest`, `Linked.sendDatagram`), when the far ends speak (`Linked.witness`) and when a
message is taken off both (`Linked.receive`); when an extra one is next, it is taken off the second
link alone (`Linked.take_extra`). -/

namespace ArmControl

/-! ### Lists without their extra elements -/

section

variable {α : Type} (extra : Nat → Bool)

/-- The list without its extra elements; the first element has the number `n`. -/
def thin (n : Nat) : List α → List α
  | [] => []
  | x :: rest => if extra n then thin (n + 1) rest else x :: thin (n + 1) rest

theorem thin_append (n : Nat) (xs ys : List α) :
    thin extra n (xs ++ ys) = thin extra n xs ++ thin extra (n + xs.length) ys := by
  induction xs generalizing n with
  | nil => rfl
  | cons x rest ih =>
      have hcount : n + 1 + rest.length = n + (x :: rest).length := by
        rw [List.length_cons]
        omega
      simp only [List.cons_append, thin, ih, hcount]
      split <;> rfl

/-- Nothing is extra. -/
def plain : Nat → Bool := fun _ => false

@[simp] theorem thin_plain (n : Nat) (xs : List α) : thin plain n xs = xs := by
  induction xs generalizing n with
  | nil => rfl
  | cons x rest ih => exact congrArg (x :: ·) (ih (n + 1))

end

/-! ### What is sent -/

/-- The client sent something, or tried to. -/
def Entry.isSent : Entry → Bool
  | request _ | requestRefused _ | command _ | commandRefused _ => true
  | _ => false

namespace Journal

/-- What the client sent or tried to send. -/
def sent (j : Journal) : Journal := j.filter Entry.isSent

@[simp] theorem sent_append (a b : Journal) : sent (a ++ b) = a.sent ++ b.sent := by
  simp [sent]

end Journal

/-! ### What is said -/

namespace Saying

variable (extra : Nat → Bool)

/-- The saying without its extra messages; the first one has the number `n`. -/
def thin (n : Nat) (said : Saying) : Saying :=
  { said with events := ArmControl.thin extra n said.events }

theorem thin_append (n : Nat) (a b : Saying) :
    (a ++ b).thin extra n = a.thin extra n ++ b.thin extra (n + a.events.length) := by
  rcases a with ⟨events, _, _⟩
  rcases b with ⟨events', _, _⟩
  exact congrArg (Saying.mk · _ _) (ArmControl.thin_append extra n events events')

@[simp] theorem thin_plain (n : Nat) (said : Saying) : said.thin plain n = said :=
  congrArg (Saying.mk · _ _) (ArmControl.thin_plain n said.events)

end Saying

/-- What was said in a session, without what is extra. -/
structure Talk where
  /-- What was said before the acts of the client, act by act. -/
  acts : List Saying := []
  /-- What has been said since the last act. -/
  fresh : Saying := {}
  /-- How many messages have reached the client. -/
  heard : Nat
  /-- How many messages the client has taken. -/
  taken : Nat

namespace Talk

variable (extra : Nat → Bool)

/-- The client acts. -/
def act (t : Talk) : Talk := { t with acts := t.acts ++ [t.fresh], fresh := {} }

/-- Goes on by one entry of the journal. -/
def follow (t : Talk) : Entry → Talk
  | .queued said =>
    { t with fresh := t.fresh ++ said.thin extra t.heard, heard := t.heard + said.events.length }
  | .taken _ =>
    let counted := { t with taken := t.taken + 1 }
    if extra t.taken then counted else counted.act
  | _ => t.act

theorem prefix_acts (t : Talk) (j : Journal) : t.acts <+: (j.foldl (follow extra) t).acts := by
  induction j generalizing t with
  | nil => exact List.prefix_rfl
  | cons entry rest ih =>
      refine List.IsPrefix.trans ?_ (ih (t.follow extra entry))
      cases entry with
      | queued said => exact List.prefix_rfl
      | taken event =>
          simp only [follow]
          split
          · exact List.prefix_rfl
          · exact List.prefix_append _ _
      | request | requestRefused | command | commandRefused | drained | idle | cut =>
          exact List.prefix_append _ _

/-- What was said between the acts of the client, before the first one and after the last one. -/
def parts (t : Talk) : List Saying := t.acts ++ [t.fresh]

end Talk

namespace Link

/-- All that was said and still stands: what is pending, and the flags. -/
def standing (l : Link) : Saying := ⟨l.pending, l.farClosed, l.shutdown⟩

theorem standing_eq {extra : Nat → Bool} {n : Nat} {l₁ l₂ : Link}
    (hpending : l₁.pending = ArmControl.thin extra n l₂.pending)
    (hfarClosed : l₁.farClosed = l₂.farClosed) (hshutdown : l₁.shutdown = l₂.shutdown) :
    l₁.standing = l₂.standing.thin extra n := by
  rw [standing, hpending, hfarClosed, hshutdown]
  rfl

/-- How many messages have reached the client's end of the link. -/
def heard (l : Link) : Nat := l.taken.length + l.pending.length

/-- What has passed since the link was as `start`. -/
def since (l start : Link) : Journal := l.journal.drop start.journal.length

/-- What was said since the link was as `start`. -/
def talk (extra : Nat → Bool) (l start : Link) : Talk :=
  (l.since start).foldl (Talk.follow extra) { heard := start.heard, taken := start.taken.length }

theorem since_append {l l' start : Link} {j : Journal} (hstart : start.journal <+: l.journal)
    (h : l'.journal = l.journal ++ j) : l'.since start = l.since start ++ j := by
  rw [since, h, List.drop_append_of_le_length hstart.length_le, since]

theorem talk_append {extra : Nat → Bool} {l l' start : Link} {j : Journal}
    (hstart : start.journal <+: l.journal) (h : l'.journal = l.journal ++ j) :
    l'.talk extra start = j.foldl (Talk.follow extra) (l.talk extra start) := by
  rw [talk, since_append hstart h, List.foldl_append]
  rfl

theorem talk_concat {extra : Nat → Bool} {l l' start : Link} (entry : Entry)
    (hstart : start.journal <+: l.journal) (h : l'.journal = l.journal ++ [entry]) :
    l'.talk extra start = (l.talk extra start).follow extra entry := talk_append hstart h

theorem taken_of_journal {l l' : Link} {j : Journal} (h : l'.journal = l.journal ++ j) :
    l'.taken = l.taken ++ j.taken := by
  simp only [taken, h, List.filterMap_append]
  rfl

/-- The link after the message `incoming` was taken off the queue, of which `rest` is left. -/
def take (l : Link) (incoming : Incoming) (rest : List Incoming) : Link :=
  { l with pending := rest }.note (.taken incoming)

theorem receive_of_pending {l : Link} {incoming : Incoming} {rest : List Incoming}
    (hopen : (l.closed || l.shutdown) = false) (hpending : l.pending = incoming :: rest) :
    l.receive = (.ok incoming, l.take incoming rest) := by
  simp [receive, take, hopen, hpending]

/-- The next message that the link gives is an extra one. -/
def OffersExtra (extra : Nat → Bool) (l : Link) : Prop :=
  (l.closed || l.shutdown) = false ∧ l.pending ≠ [] ∧ extra l.taken.length

theorem taken_take (l : Link) (incoming : Incoming) (rest : List Incoming) :
    (l.take incoming rest).taken.length = l.taken.length + 1 := by
  rw [taken_of_journal (l := l) (j := [.taken incoming]) rfl, List.length_append]
  rfl

theorem heard_take {l : Link} {incoming : Incoming} {rest : List Incoming}
    (hpending : l.pending = incoming :: rest) : (l.take incoming rest).heard = l.heard := by
  rw [heard, taken_take, heard, hpending, List.length_cons]
  change _ + rest.length = _
  omega

end Link

/-- Before each act of the clients the same was said in both sessions, but for the extra
messages. -/
def Echoes (extra : Nat → Bool) (start₁ start₂ l₁ l₂ : Link) : Prop :=
  ∀ p ∈ (l₁.talk plain start₁).acts.zip (l₂.talk extra start₂).acts, p.1 = p.2

/-- Between any two acts of the clients, before the first one and after the last one, the same was
said in both sessions, but for the extra messages, and the same flags were set. -/
def EchoesThroughout (extra : Nat → Bool) (start₁ start₂ l₁ l₂ : Link) : Prop :=
  ∀ p ∈ (l₁.talk plain start₁).parts.zip (l₂.talk extra start₂).parts, p.1 = p.2

instance (extra : Nat → Bool) (start₁ start₂ l₁ l₂ : Link) :
    Decidable (EchoesThroughout extra start₁ start₂ l₁ l₂) :=
  inferInstanceAs (Decidable (∀ p ∈ (_ : List (Saying × Saying)), p.1 = p.2))

/-- Longer lists have the same pairs to begin with. -/
theorem prefix_zip {α β : Type} {a x : List α} {b y : List β} (ha : a <+: x) (hb : b <+: y) :
    a.zip b <+: x.zip y := by
  induction a generalizing b x y with
  | nil => exact List.nil_prefix
  | cons _ a ih =>
      cases b with
      | nil => exact List.nil_prefix
      | cons _ b =>
          obtain ⟨x, rfl⟩ := ha
          obtain ⟨y, rfl⟩ := hb
          exact (List.prefix_cons_inj _).2 (ih (List.prefix_append _ _) (List.prefix_append _ _))

/-- What has passed over two links since they were `start₁` and `start₂` is the same. -/
structure Abreast (extra : Nat → Bool) (start₁ start₂ l₁ l₂ : Link) : Prop where
  grown₁ : start₁.journal <+: l₁.journal
  grown₂ : start₂.journal <+: l₂.journal
  sent : (l₁.since start₁).sent = (l₂.since start₂).sent
  acts : (l₁.talk plain start₁).acts.length = (l₂.talk extra start₂).acts.length
  heard : (l₂.talk extra start₂).heard = l₂.heard
  taken : (l₂.talk extra start₂).taken = l₂.taken.length
  /-- The same stands on both links, up to what has been said since the last act. -/
  standing : ∃ known, l₁.standing = known ++ (l₁.talk plain start₁).fresh ∧
    l₂.standing.thin extra l₂.taken.length = known ++ (l₂.talk extra start₂).fresh

/-- Two links are in step since they were `start₁` and `start₂`. -/
structure Linked (extra : Nat → Bool) (start₁ start₂ l₁ l₂ : Link) : Prop extends
    Abreast extra start₁ start₂ l₁ l₂ where
  closed : l₁.closed = l₂.closed

variable {extra : Nat → Bool} {start₁ start₂ l₁ l₂ l₁' l₂' : Link} {j₁ j₂ : Journal}

/-- What was said before is echoed if all is that was said in the end. -/
theorem Echoes.of_append (h : Echoes extra start₁ start₂ l₁' l₂')
    (hstart₁ : start₁.journal <+: l₁.journal) (hstart₂ : start₂.journal <+: l₂.journal)
    (hj₁ : l₁'.journal = l₁.journal ++ j₁) (hj₂ : l₂'.journal = l₂.journal ++ j₂) :
    Echoes extra start₁ start₂ l₁ l₂ := by
  intro p hp
  refine h p ?_
  rw [Link.talk_append hstart₁ hj₁, Link.talk_append hstart₂ hj₂]
  exact (prefix_zip (Talk.prefix_acts _ _ _) (Talk.prefix_acts _ _ _)).subset hp

theorem EchoesThroughout.echoes (h : EchoesThroughout extra start₁ start₂ l₁ l₂) :
    Echoes extra start₁ start₂ l₁ l₂ := fun p hp =>
  h p ((prefix_zip (List.prefix_append _ _) (List.prefix_append _ _)).subset hp)

namespace Abreast

/-- Links that have heard and sent nothing yet. -/
theorem refl_of (h : start₁.standing = start₂.standing.thin extra start₂.taken.length) :
    Abreast extra start₁ start₂ start₁ start₂ where
  grown₁ := List.prefix_rfl
  grown₂ := List.prefix_rfl
  sent := by simp [Link.since]
  acts := by simp [Link.talk, Link.since]
  heard := by simp [Link.talk, Link.since]
  taken := by simp [Link.talk, Link.since]
  standing := ⟨start₁.standing, by simp [Link.talk, Link.since], by
    simp [Link.talk, Link.since, h]⟩

/-! ### What is said -/

/-- The far end of the first link speaks. -/
theorem queue₁ (h : Abreast extra start₁ start₂ l₁ l₂) (said : Saying × FarEnd) :
    Abreast extra start₁ start₂ (l₁.queue said) l₂ := by
  have hsince : (l₁.queue said).since start₁ = l₁.since start₁ ++ [.queued said.1] :=
    Link.since_append h.grown₁ rfl
  have htalk : (l₁.queue said).talk plain start₁ =
      (l₁.talk plain start₁).follow plain (.queued said.1) := Link.talk_concat _ h.grown₁ rfl
  obtain ⟨known, hstanding₁, hstanding₂⟩ := h.standing
  refine ⟨?_, h.grown₂, ?_, ?_, h.heard, h.taken, known, ?_, hstanding₂⟩
  · exact h.grown₁.trans (List.prefix_append _ _)
  · rw [hsince, Journal.sent_append, ← h.sent]
    exact List.append_nil _
  · rw [htalk]
    exact h.acts
  · rw [htalk]
    simp only [Talk.follow, Saying.thin_plain, ← Saying.append_assoc, ← hstanding₁]
    rfl

/-- The far end of the second link speaks. -/
theorem queue₂ (h : Abreast extra start₁ start₂ l₁ l₂) (said : Saying × FarEnd) :
    Abreast extra start₁ start₂ l₁ (l₂.queue said) := by
  have hsince : (l₂.queue said).since start₂ = l₂.since start₂ ++ [.queued said.1] :=
    Link.since_append h.grown₂ rfl
  have htalk : (l₂.queue said).talk extra start₂ =
      (l₂.talk extra start₂).follow extra (.queued said.1) := Link.talk_concat _ h.grown₂ rfl
  have hcount : (l₂.queue said).taken = l₂.taken := by
    rw [Link.taken_of_journal (l := l₂) (j := [.queued said.1]) rfl]
    exact List.append_nil _
  obtain ⟨known, hstanding₁, hstanding₂⟩ := h.standing
  refine ⟨h.grown₁, ?_, ?_, ?_, ?_, ?_, known, hstanding₁, ?_⟩
  · exact h.grown₂.trans (List.prefix_append _ _)
  · rw [hsince, Journal.sent_append, h.sent]
    exact (List.append_nil _).symm
  · rw [htalk]
    exact h.acts
  · rw [htalk, Link.heard, hcount]
    change (l₂.talk extra start₂).heard + said.1.events.length =
      _ + (l₂.pending ++ said.1.events).length
    rw [h.heard, Link.heard, List.length_append, Nat.add_assoc]
  · rw [htalk, hcount]
    exact h.taken
  · rw [htalk, hcount]
    change (l₂.standing ++ said.1).thin extra _ =
      known ++ ((l₂.talk extra start₂).fresh ++ said.1.thin extra (l₂.talk extra start₂).heard)
    rw [Saying.thin_append, hstanding₂, h.heard, Saying.append_assoc]
    rfl

theorem witness₁ (h : Abreast extra start₁ start₂ l₁ l₂) (hs : List Happening) :
    Abreast extra start₁ start₂ (l₁.witness hs) l₂ := by
  induction hs generalizing l₁ with
  | nil => exact h
  | cons happening rest ih =>
      have hfirst : Abreast extra start₁ start₂ (l₁.happen happening) l₂ := by
        cases happening with
        | say cues => exact h.queue₁ _
        | rescript => exact { h with }
      exact ih hfirst

theorem witness₂ (h : Abreast extra start₁ start₂ l₁ l₂) (hs : List Happening) :
    Abreast extra start₁ start₂ l₁ (l₂.witness hs) := by
  induction hs generalizing l₂ with
  | nil => exact h
  | cons happening rest ih =>
      have hfirst : Abreast extra start₁ start₂ l₁ (l₂.happen happening) := by
        cases happening with
        | say cues => exact h.queue₂ _
        | rescript => exact { h with }
      exact ih hfirst

/-! ### Acts -/

/-- The same stands on both links if the same has been said since the last act. -/
theorem aligned (h : Abreast extra start₁ start₂ l₁ l₂)
    (hecho : EchoesThroughout extra start₁ start₂ l₁ l₂) :
    l₁.standing = l₂.standing.thin extra l₂.taken.length := by
  obtain ⟨known, hstanding₁, hstanding₂⟩ := h.standing
  have hfresh : (l₁.talk plain start₁).fresh = (l₂.talk extra start₂).fresh := by
    refine hecho ((l₁.talk plain start₁).fresh, (l₂.talk extra start₂).fresh) ?_
    rw [Talk.parts, Talk.parts, List.zip_append h.acts]
    exact List.mem_append_right _ List.mem_cons_self
  rw [hstanding₁, hstanding₂, hfresh]

/-- Both clients act, and nothing is taken. -/
theorem note (h : Abreast extra start₁ start₂ l₁ l₂) (entry : Entry)
    (hact : ∀ extra t, Talk.follow extra t entry = t.act) (htaken : entry.taken? = none)
    (hecho : Echoes extra start₁ start₂ (l₁.note entry) (l₂.note entry)) :
    Abreast extra start₁ start₂ (l₁.note entry) (l₂.note entry) := by
  have htalk₁ : (l₁.note entry).talk plain start₁ = (l₁.talk plain start₁).act :=
    (Link.talk_concat entry h.grown₁ rfl).trans (hact _ _)
  have htalk₂ : (l₂.note entry).talk extra start₂ = (l₂.talk extra start₂).act :=
    (Link.talk_concat entry h.grown₂ rfl).trans (hact _ _)
  have hsince₁ : (l₁.note entry).since start₁ = l₁.since start₁ ++ [entry] :=
    Link.since_append h.grown₁ rfl
  have hsince₂ : (l₂.note entry).since start₂ = l₂.since start₂ ++ [entry] :=
    Link.since_append h.grown₂ rfl
  have hcount : (l₂.note entry).taken = l₂.taken := by
    rw [Link.taken_of_journal (l := l₂) (j := [entry]) rfl]
    simp [Journal.taken, htaken]
  have hthroughout : EchoesThroughout extra start₁ start₂ l₁ l₂ := by
    unfold Echoes at hecho
    rwa [htalk₁, htalk₂] at hecho
  have haligned := h.aligned hthroughout
  refine ⟨?_, ?_, ?_, ?_, ?_, ?_, l₁.standing, ?_, ?_⟩
  · exact h.grown₁.trans (List.prefix_append _ _)
  · exact h.grown₂.trans (List.prefix_append _ _)
  · rw [hsince₁, hsince₂, Journal.sent_append, Journal.sent_append, h.sent]
  · simp only [htalk₁, htalk₂, Talk.act, List.length_append, h.acts, List.length_singleton]
  · rw [htalk₂, Link.heard, hcount]
    exact h.heard
  · rw [htalk₂, hcount]
    exact h.taken
  · rw [htalk₁]
    exact (Saying.append_nothing _).symm
  · rw [htalk₂, hcount]
    exact haligned.symm.trans (Saying.append_nothing _).symm

/-- A message is taken off the second link that is extra: the first one never had it. -/
theorem take_extra {incoming : Incoming} {rest : List Incoming}
    (h : Abreast extra start₁ start₂ l₁ l₂) (hpending : l₂.pending = incoming :: rest)
    (hextra : extra l₂.taken.length) :
    Abreast extra start₁ start₂ l₁ (l₂.take incoming rest) := by
  have hsince : (l₂.take incoming rest).since start₂ = l₂.since start₂ ++ [.taken incoming] :=
    Link.since_append h.grown₂ rfl
  have htalk : (l₂.take incoming rest).talk extra start₂ =
      { l₂.talk extra start₂ with taken := l₂.taken.length + 1 } := by
    rw [Link.talk_concat (.taken incoming) h.grown₂ rfl, Talk.follow, h.taken]
    exact if_pos hextra
  obtain ⟨known, hstanding₁, hstanding₂⟩ := h.standing
  refine ⟨h.grown₁, ?_, ?_, ?_, ?_, ?_, known, hstanding₁, ?_⟩
  · exact h.grown₂.trans (List.prefix_append _ _)
  · rw [hsince, Journal.sent_append, h.sent]
    exact (List.append_nil _).symm
  · rw [htalk]
    exact h.acts
  · rw [htalk, Link.heard_take hpending]
    exact h.heard
  · rw [htalk, Link.taken_take]
  · have hthin : thin extra (l₂.taken.length + 1) rest = thin extra l₂.taken.length l₂.pending := by
      rw [hpending, thin, if_pos hextra]
    rw [htalk, Link.taken_take, ← hstanding₂]
    exact congrArg (Saying.mk · _ _) hthin

/-- The same message is taken off both links. -/
theorem take_both {incoming : Incoming} {rest : List Incoming}
    (h : Abreast extra start₁ start₂ l₁ l₂) (hpending : l₂.pending = incoming :: rest)
    (hplain : extra l₂.taken.length = false) (hfarClosed : l₁.farClosed = l₂.farClosed)
    (hshutdown : l₁.shutdown = l₂.shutdown) :
    Abreast extra start₁ start₂ (l₁.take incoming (thin extra (l₂.taken.length + 1) rest))
      (l₂.take incoming rest) := by
  have hsince₁ : (l₁.take incoming (thin extra (l₂.taken.length + 1) rest)).since start₁ =
      l₁.since start₁ ++ [.taken incoming] := Link.since_append h.grown₁ rfl
  have hsince₂ : (l₂.take incoming rest).since start₂ = l₂.since start₂ ++ [.taken incoming] :=
    Link.since_append h.grown₂ rfl
  have htalk₁ : (l₁.take incoming (thin extra (l₂.taken.length + 1) rest)).talk plain start₁ =
      { l₁.talk plain start₁ with taken := (l₁.talk plain start₁).taken + 1 }.act :=
    Link.talk_concat (.taken incoming) h.grown₁ rfl
  have htalk₂ : (l₂.take incoming rest).talk extra start₂ =
      { l₂.talk extra start₂ with taken := l₂.taken.length + 1 }.act := by
    rw [Link.talk_concat (.taken incoming) h.grown₂ rfl, Talk.follow, h.taken, hplain]
    rfl
  refine ⟨?_, ?_, ?_, ?_, ?_, ?_, (l₂.take incoming rest).standing.thin extra (l₂.taken.length + 1),
    ?_, ?_⟩
  · exact h.grown₁.trans (List.prefix_append _ _)
  · exact h.grown₂.trans (List.prefix_append _ _)
  · rw [hsince₁, hsince₂, Journal.sent_append, Journal.sent_append, h.sent]
  · simp only [htalk₁, htalk₂, Talk.act, List.length_append, h.acts, List.length_singleton]
  · rw [htalk₂, Link.heard_take hpending]
    exact h.heard
  · rw [htalk₂, Link.taken_take]
    rfl
  · rw [htalk₁]
    exact (congrArg₂ (Saying.mk _) hfarClosed hshutdown).trans (Saying.append_nothing _).symm
  · rw [htalk₂, Link.taken_take]
    exact (Saying.append_nothing _).symm

end Abreast

namespace Link

theorem witness_closed (l : Link) (hs : List Happening) : (l.witness hs).closed = l.closed := by
  induction hs generalizing l with
  | nil => rfl
  | cons happening rest ih =>
      refine (ih (l.happen happening)).trans ?_
      cases happening <;> rfl

/-- Sending is an act, whatever comes of it. -/
theorem sendRequest_acts {l start : Link} (hstart : start.journal <+: l.journal) (frame : Bytes) :
    ((l.sendRequest frame).2.talk extra start).acts = (l.talk extra start).parts := by
  unfold sendRequest
  split
  · rw [talk_concat (.requestRefused frame) hstart rfl]
    rfl
  · rw [talk_append (j := [.request frame, .queued (l.farEnd.onRequest frame).1]) hstart
      (List.append_assoc _ _ _)]
    rfl

/-- Receiving is an act, unless what is received is extra. -/
theorem receive_acts {l start : Link} (hstart : start.journal <+: l.journal)
    (hplain : (l.closed || l.shutdown) = false → l.pending ≠ [] →
      extra (l.talk extra start).taken = false) :
    (l.receive.2.talk extra start).acts = (l.talk extra start).parts := by
  cases hopen : l.closed || l.shutdown with
  | true =>
      simp only [receive, hopen, if_true]
      rw [talk_concat .cut hstart rfl]
      rfl
  | false =>
      cases hpending : l.pending with
      | nil =>
          simp only [receive, hopen, hpending, Bool.false_eq_true, if_false]
          split
          · rw [talk_concat .drained hstart rfl]
            rfl
          · rw [talk_concat .idle hstart rfl]
            rfl
      | cons incoming rest =>
          rw [receive_of_pending hopen hpending, talk_concat (.taken incoming) hstart rfl,
            Talk.follow, hplain hopen (hpending ▸ List.cons_ne_nil _ _)]
          rfl

end Link

namespace Linked

/-! ### What the clients and the far ends do -/

theorem witness (h : Linked extra start₁ start₂ l₁ l₂) (hs₁ hs₂ : List Happening) :
    Linked extra start₁ start₂ (l₁.witness hs₁) (l₂.witness hs₂) where
  toAbreast := (h.toAbreast.witness₁ hs₁).witness₂ hs₂
  closed := by rw [Link.witness_closed, Link.witness_closed, h.closed]

/-- Both clients send something, and the far ends answer. -/
theorem send (h : Linked extra start₁ start₂ l₁ l₂) (entry : Entry)
    (hact : ∀ extra t, Talk.follow extra t entry = t.act) (htaken : entry.taken? = none)
    (said₁ said₂ : Saying × FarEnd)
    (hecho : Echoes extra start₁ start₂ ((l₁.note entry).queue said₁)
      ((l₂.note entry).queue said₂)) :
    Linked extra start₁ start₂ ((l₁.note entry).queue said₁) ((l₂.note entry).queue said₂) := by
  have hnoted : Echoes extra start₁ start₂ (l₁.note entry) (l₂.note entry) :=
    hecho.of_append (h.grown₁.trans (List.prefix_append _ _))
      (h.grown₂.trans (List.prefix_append _ _)) rfl rfl
  exact ⟨((h.toAbreast.note entry hact htaken hnoted).queue₁ said₁).queue₂ said₂, h.closed⟩

theorem note (h : Linked extra start₁ start₂ l₁ l₂) (entry : Entry)
    (hact : ∀ extra t, Talk.follow extra t entry = t.act) (htaken : entry.taken? = none)
    (hecho : Echoes extra start₁ start₂ (l₁.note entry) (l₂.note entry)) :
    Linked extra start₁ start₂ (l₁.note entry) (l₂.note entry) :=
  ⟨h.toAbreast.note entry hact htaken hecho, h.closed⟩

theorem sendRequest (h : Linked extra start₁ start₂ l₁ l₂) (frame : Bytes)
    (hecho : Echoes extra start₁ start₂ (l₁.sendRequest frame).2 (l₂.sendRequest frame).2) :
    (l₁.sendRequest frame).1 = (l₂.sendRequest frame).1 ∧
      Linked extra start₁ start₂ (l₁.sendRequest frame).2 (l₂.sendRequest frame).2 := by
  have hthroughout : EchoesThroughout extra start₁ start₂ l₁ l₂ := by
    unfold Echoes at hecho
    rwa [Link.sendRequest_acts h.grown₁, Link.sendRequest_acts h.grown₂] at hecho
  have hfarClosed : l₁.farClosed = l₂.farClosed :=
    congrArg Saying.hangsUp (h.aligned hthroughout)
  unfold Link.sendRequest at hecho ⊢
  rw [h.closed, hfarClosed] at hecho ⊢
  cases hshut : l₂.closed || l₂.farClosed with
  | true =>
      simp only [hshut, if_true] at hecho ⊢
      exact ⟨trivial, h.note _ (fun _ _ => rfl) rfl hecho⟩
  | false =>
      simp only [hshut, Bool.false_eq_true, if_false] at hecho ⊢
      exact ⟨trivial, h.send _ (fun _ _ => rfl) rfl _ _ hecho⟩

theorem sendDatagram (h : Linked extra start₁ start₂ l₁ l₂) (datagram : Bytes)
    (hecho : Echoes extra start₁ start₂ (l₁.sendDatagram datagram).2
      (l₂.sendDatagram datagram).2) :
    (l₁.sendDatagram datagram).1 = (l₂.sendDatagram datagram).1 ∧
      Linked extra start₁ start₂ (l₁.sendDatagram datagram).2 (l₂.sendDatagram datagram).2 := by
  unfold Link.sendDatagram at hecho ⊢
  rw [h.closed] at hecho ⊢
  cases hshut : l₂.closed with
  | true =>
      simp only [hshut, if_true] at hecho ⊢
      exact ⟨trivial, h.note _ (fun _ _ => rfl) rfl hecho⟩
  | false =>
      simp only [hshut, Bool.false_eq_true, if_false] at hecho ⊢
      exact ⟨trivial, h.send _ (fun _ _ => rfl) rfl _ _ hecho⟩

theorem take_extra {incoming : Incoming} {rest : List Incoming}
    (h : Linked extra start₁ start₂ l₁ l₂) (hpending : l₂.pending = incoming :: rest)
    (hextra : extra l₂.taken.length) :
    Linked extra start₁ start₂ l₁ (l₂.take incoming rest) :=
  ⟨h.toAbreast.take_extra hpending hextra, h.closed⟩

/-- If the next message is not extra, both links give the same. -/
theorem receive (h : Linked extra start₁ start₂ l₁ l₂) (hextra : ¬ l₂.OffersExtra extra)
    (hecho : Echoes extra start₁ start₂ l₁.receive.2 l₂.receive.2) :
    l₁.receive.1 = l₂.receive.1 ∧ Linked extra start₁ start₂ l₁.receive.2 l₂.receive.2 := by
  have hplain (hopen : (l₂.closed || l₂.shutdown) = false) (hne : l₂.pending ≠ []) :
      extra l₂.taken.length = false := by
    simpa [Link.OffersExtra, hopen, hne] using hextra
  have hthroughout : EchoesThroughout extra start₁ start₂ l₁ l₂ := by
    unfold Echoes at hecho
    rwa [Link.receive_acts h.grown₁ fun _ _ => rfl,
      Link.receive_acts h.grown₂ (by rwa [h.taken])] at hecho
  have haligned := h.aligned hthroughout
  have hqueue : l₁.pending = thin extra l₂.taken.length l₂.pending :=
    congrArg Saying.events haligned
  have hfarClosed : l₁.farClosed = l₂.farClosed := congrArg Saying.hangsUp haligned
  have hshutdown : l₁.shutdown = l₂.shutdown := congrArg Saying.interrupts haligned
  have hsame : (l₁.closed || l₁.shutdown) = (l₂.closed || l₂.shutdown) := by
    rw [h.closed, hshutdown]
  cases hopen : l₂.closed || l₂.shutdown with
  | true =>
      simp only [Link.receive, hsame, hopen, if_true] at hecho ⊢
      exact ⟨trivial, h.note .cut (fun _ _ => rfl) rfl hecho⟩
  | false =>
      cases hpending : l₂.pending with
      | nil =>
          have hpending₁ : l₁.pending = [] := by rw [hqueue, hpending, thin]
          cases hfar : l₂.farClosed with
          | true =>
              simp only [Link.receive, hsame, hopen, hpending, hpending₁, hfarClosed, hfar,
                Bool.false_eq_true, if_false, if_true] at hecho ⊢
              exact ⟨trivial, h.note .drained (fun _ _ => rfl) rfl hecho⟩
          | false =>
              simp only [Link.receive, hsame, hopen, hpending, hpending₁, hfarClosed, hfar,
                Bool.false_eq_true, if_false] at hecho ⊢
              exact ⟨trivial, h.note .idle (fun _ _ => rfl) rfl hecho⟩
      | cons incoming rest =>
          have hnext := hplain hopen (hpending ▸ List.cons_ne_nil _ _)
          have hpending₁ : l₁.pending = incoming :: thin extra (l₂.taken.length + 1) rest := by
            rw [hqueue, hpending, thin, hnext]
            rfl
          rw [Link.receive_of_pending (hsame.trans hopen) hpending₁,
            Link.receive_of_pending hopen hpending]
          exact ⟨rfl, h.toAbreast.take_both hpending hnext hfarClosed hshutdown, h.closed⟩

end Linked
end ArmControl
