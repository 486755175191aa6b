import ArmControl.Proofs.Interference
import ArmControl.Proofs.Ledger

/-! # What the counters tell

A session counts the requests and the commands that it sends and the replies that it takes, and an
engine also the states that it takes and its waits that end without an event.  `Session.Account` and
`Engine.Account` say that the counters have grown by what a stretch of the journal tells, and that
no message was lost or taken twice: those that were pending and those that were said meanwhile are
those that were taken and those that are pending still.

Every act and every receipt has its account, hence every path has one (`Path.account`), and so has
the handshake (`account_handshake`).  `metrics_account_for_messages` states it for a robot that has
been connected and has then carried out any errands. -/

namespace ArmControl

namespace Incoming

def isReply : Incoming → Bool
  | reply _ => true
  | _ => false

/-- A state that can be read. -/
def isReadable : Incoming → Bool
  | state datagram => (State.decode datagram).toOption.isSome
  | _ => false

/-- A state that cannot be read. -/
def isUnreadable : Incoming → Bool
  | state datagram => (State.decode datagram).toOption.isNone
  | _ => false

/-- A message is a state, readable or not, or a reply, or the end of the channel. -/
theorem length_eq_sum (messages : List Incoming) : messages.length =
    messages.countP isReadable + messages.countP isUnreadable + messages.countP isReply +
      messages.count .closed := by
  induction messages with
  | nil => rfl
  | cons message rest ih =>
      simp only [List.length_cons, ih, List.countP_cons, List.count_cons]
      cases message with
      | reply frame => simp [isReadable, isUnreadable, isReply]; omega
      | state datagram =>
          cases hdecode : (State.decode datagram).toOption <;>
            simp [isReadable, isUnreadable, isReply, hdecode] <;> omega
      | closed => simp [isReadable, isUnreadable, isReply]; omega

end Incoming

namespace Entry

/-- The request that the client sent. -/
def request? : Entry → Option Bytes
  | request frame => some frame
  | _ => none

/-- What the far end said. -/
def said : Entry → List Incoming
  | queued said => said.events
  | _ => []

/-- The client asked the link for an event, whether it got one or not. -/
def isReceipt : Entry → Bool
  | taken _ | drained | idle | cut => true
  | _ => false

end Entry

namespace Journal

/-- The requests that the client sent. -/
def requests (j : Journal) : List Bytes := j.filterMap Entry.request?

/-- What the far end said, in order. -/
def said (j : Journal) : List Incoming := j.flatMap Entry.said

/-- How often the client asked the link for an event. -/
def receipts (j : Journal) : Nat := j.countP Entry.isReceipt

variable (a b : Journal)

@[simp] theorem requests_append : requests (a ++ b) = a.requests ++ b.requests := by
  simp [requests]

@[simp] theorem said_append : said (a ++ b) = a.said ++ b.said := by
  simp [said]

@[simp] theorem receipts_append : receipts (a ++ b) = a.receipts + b.receipts :=
  List.countP_append

variable {a}

theorem idle_not_mem (h : a.receipts = 0) : Entry.idle ∉ a := by
  intro hidle
  exact List.countP_eq_zero.1 h _ hidle rfl

/-- The states that were read are the readable ones among the messages that were taken. -/
theorem states_length (j : Journal) : j.states.length = j.taken.countP Incoming.isReadable := by
  induction j with
  | nil => rfl
  | cons entry rest ih =>
      have hrest : states (entry :: rest) = states [entry] ++ states rest :=
        states_append [entry] rest
      have htaken : taken (entry :: rest) = taken [entry] ++ taken rest :=
        taken_append [entry] rest
      rw [hrest, htaken, List.length_append, List.countP_append, ih]
      congr 1
      cases entry with
      | taken message =>
          cases message with
          | state datagram =>
              cases hdecode : (State.decode datagram).toOption <;>
                simp [states, events, taken, Entry.event?, Entry.taken?, Incoming.isReadable,
                  Event.state?, hdecode]
          | reply frame =>
              cases hdecode : (Reply.decode frame).toOption <;>
                simp [states, events, taken, Entry.event?, Entry.taken?, Incoming.isReadable,
                  Event.state?, hdecode]
          | closed => rfl
      | _ => rfl

end Journal

/-! ### The link -/

/-- What the journal says of a receipt. -/
inductive Receipt : Except LinkError Incoming → Entry → Prop
  | taken (message : Incoming) : Receipt (.ok message) (.taken message)
  | drained : Receipt (.ok .closed) .drained
  | idle : Receipt (.error .timeout) .idle
  | cut : Receipt (.error .closed) .cut

theorem Receipt.receipts {result : Except LinkError Incoming} {entry : Entry}
    (h : Receipt result entry) : Journal.receipts [entry] = 1 := by
  cases h <;> rfl

namespace Link

/-- What was taken was the first message that was pending, and the others are pending still. -/
theorem receive_receipt (l : Link) : ∃ entry, Receipt l.receive.1 entry ∧
    l.receive.2.journal = l.journal ++ [entry] ∧
    l.pending = Journal.taken [entry] ++ l.receive.2.pending := by
  unfold receive
  split
  · exact ⟨.cut, .cut, rfl, rfl⟩
  · cases hpending : l.pending with
    | nil =>
        simp only
        split
        · exact ⟨.drained, .drained, rfl, hpending.symm⟩
        · exact ⟨.idle, .idle, rfl, hpending.symm⟩
    | cons message rest => exact ⟨.taken message, .taken message, rfl, rfl⟩

/-- What happens by itself is at most that the far end speaks, and all it says becomes pending. -/
theorem witness_queue (l : Link) (hs : List Happening) : ∃ said : List Saying,
    (l.witness hs).journal = l.journal ++ said.map Entry.queued ∧
    (l.witness hs).pending = l.pending ++ said.flatMap Saying.events := by
  induction hs generalizing l with
  | nil => exact ⟨[], by simp⟩
  | cons h rest ih =>
      obtain ⟨said, hjournal, hpending⟩ := ih (l.happen h)
      cases h with
      | say cues =>
          refine ⟨(l.farEnd.playAll cues).1 :: said, ?_, ?_⟩
          · simpa [witness, happen, queue] using hjournal
          · simpa [witness, happen, queue] using hpending
      | rescript triggers entries => exact ⟨said, hjournal, hpending⟩

end Link

/-! ### The account of a session -/

/-- What a session has counted while `j` was written, and what has become of the messages. -/
structure Session.Account (s : Session) (j : Journal) (s' : Session) : Prop where
  journal : s'.link.journal = s.link.journal ++ j
  queue : s.link.pending ++ j.said = j.taken ++ s'.link.pending
  requests : s'.metrics.requestsSent = s.metrics.requestsSent + .ofNat j.requests.length
  commands : s'.metrics.commandsSent = s.metrics.commandsSent + .ofNat j.commands.length
  replies : s'.metrics.repliesReceived =
    s.metrics.repliesReceived + .ofNat (j.taken.countP Incoming.isReply)

namespace Session

variable {s s₁ s' : Session} {i j : Journal} {entry : Entry}
  {result : Except LinkError Incoming}

theorem Account.refl (s : Session) : Account s [] s where
  journal := (List.append_nil _).symm
  queue := List.append_nil _
  requests := (UInt64.add_zero _).symm
  commands := (UInt64.add_zero _).symm
  replies := (UInt64.add_zero _).symm

theorem Account.trans (h₁ : Account s i s₁) (h₂ : Account s₁ j s') : Account s (i ++ j) s' where
  journal := by rw [h₂.journal, h₁.journal, List.append_assoc]
  queue := by
    rw [Journal.said_append, Journal.taken_append, List.append_assoc, ← h₂.queue,
      ← List.append_assoc, ← List.append_assoc, h₁.queue]
  requests := by
    rw [h₂.requests, h₁.requests, Journal.requests_append, List.length_append, UInt64.ofNat_add,
      UInt64.add_assoc]
  commands := by
    rw [h₂.commands, h₁.commands, Journal.commands_append, List.length_append, UInt64.ofNat_add,
      UInt64.add_assoc]
  replies := by
    rw [h₂.replies, h₁.replies, Journal.taken_append, List.countP_append, UInt64.ofNat_add,
      UInt64.add_assoc]

theorem Account.withVersion (h : Account s j s') (serverVersion : UInt16) :
    Account s j { s' with serverVersion } :=
  ⟨h.journal, h.queue, h.requests, h.commands, h.replies⟩

theorem account_send (request : Request) (s : Session) :
    ∃ j : Journal, Account s j (s.send request).2 ∧ j.receipts = 0 := by
  by_cases hclosed : s.link.closed || s.link.farClosed
  · refine ⟨[.requestRefused (request.encode s.nextId)], ?_, rfl⟩
    simp only [send, Link.sendRequest, if_pos hclosed]
    refine ⟨rfl, List.append_nil _, ?_, ?_, ?_⟩ <;> exact (UInt64.add_zero _).symm
  · refine ⟨[.request (request.encode s.nextId),
      .queued (s.link.farEnd.onRequest (request.encode s.nextId)).1], ?_, rfl⟩
    simp only [send, Link.sendRequest, if_neg hclosed]
    refine ⟨List.append_assoc _ [_] [_], ?_, rfl, ?_, ?_⟩
    · simp [Journal.said, Entry.said, Journal.taken, Entry.taken?, Link.queue]
    all_goals exact (UInt64.add_zero _).symm

/-- A receipt has its account if the replies are counted and nothing else. -/
theorem account_of_receipt (h : Receipt result entry) {link : Link} {metrics : Metrics}
    (hjournal : link.journal = s.link.journal ++ [entry])
    (hpending : s.link.pending = Journal.taken [entry] ++ link.pending)
    (hrequests : metrics.requestsSent = s.metrics.requestsSent)
    (hcommands : metrics.commandsSent = s.metrics.commandsSent)
    (hreplies : metrics.repliesReceived = s.metrics.repliesReceived +
      .ofNat ((Journal.taken [entry]).countP Incoming.isReply)) :
    Account s [entry] { s with link, metrics } where
  journal := hjournal
  queue := by
    have hsaid : Journal.said [entry] = [] := by cases h <;> rfl
    rw [hsaid, List.append_nil]
    exact hpending
  requests := by
    have hnone : Journal.requests [entry] = [] := by cases h <;> rfl
    rw [hnone, List.length_nil]
    exact hrequests.trans (UInt64.add_zero _).symm
  commands := by
    have hnone : Journal.commands [entry] = [] := by cases h <;> rfl
    rw [hnone, List.length_nil]
    exact hcommands.trans (UInt64.add_zero _).symm
  replies := hreplies

end Session

/-! ### The account of an engine -/

namespace Engine

/-- What an engine has counted while `j` was written, apart from the states. -/
structure Account (e : Engine) (j : Journal) (e' : Engine) : Prop extends
    Session.Account e.session j e'.session where
  timeouts : e'.metrics.receiveTimeouts = e.metrics.receiveTimeouts + .ofNat (j.count .idle)

variable {e e₁ e' : Engine} {i j : Journal} {ms : List Moment}

theorem Account.refl (e : Engine) : Account e [] e :=
  ⟨.refl e.session, (UInt64.add_zero _).symm⟩

theorem Account.trans (h₁ : Account e i e₁) (h₂ : Account e₁ j e') : Account e (i ++ j) e' where
  toAccount := h₁.toAccount.trans h₂.toAccount
  timeouts := by
    rw [h₂.timeouts, h₁.timeouts, List.count_append, UInt64.ofNat_add, UInt64.add_assoc]

/-- The account of a session is that of its engine if the engine has found the link empty at no
time. -/
theorem Account.of_session (h : Session.Account e.session j e'.session)
    (hidle : Entry.idle ∉ j) (htimeouts : e'.metrics.receiveTimeouts = e.metrics.receiveTimeouts) :
    Account e j e' where
  toAccount := h
  timeouts := by
    rw [htimeouts, List.count_eq_zero_of_not_mem hidle]
    exact (UInt64.add_zero _).symm

theorem account_command (motion : Option MotionCommand) (torques : Option Torques) (e : Engine) :
    ∃ j, Account e j (e.sendCommand motion torques).2 ∧ j.receipts = 0 := by
  unfold sendCommand
  split
  · exact ⟨[], .refl e, rfl⟩
  · rename_i s _
    simp only
    generalize (compose s _ _ motion torques).encode = datagram
    by_cases hclosed : e.link.closed
    · simp only [Link.sendDatagram, if_pos hclosed]
      refine ⟨[.commandRefused datagram], .of_session ⟨rfl, List.append_nil _, ?_, ?_, ?_⟩
        (by simp) rfl, rfl⟩ <;> exact (UInt64.add_zero _).symm
    · simp only [Link.sendDatagram, if_neg hclosed]
      refine ⟨[.command datagram, .queued (e.link.farEnd.onCommand datagram).1],
        .of_session ⟨List.append_assoc _ [_] [_], ?_, ?_, rfl, ?_⟩ (by simp) rfl, rfl⟩
      · simp [Journal.said, Entry.said, Journal.taken, Entry.taken?, Link.queue, withMotion, count,
          withLink, Link.note, link]
      all_goals exact (UInt64.add_zero _).symm

theorem account_witness (hs : List Happening) (e : Engine) :
    ∃ j, Account e j (e.witness hs) ∧ j.receipts = 0 := by
  obtain ⟨said, hjournal, hpending⟩ := e.link.witness_queue hs
  have hsaid : Journal.said (said.map .queued) = said.flatMap Saying.events := by
    simp [Journal.said, List.flatMap, Entry.said, Function.comp_def]
  have hnone {α : Type} {f : Entry → Option α} (hf : ∀ events, f (.queued events) = none) :
      (said.map Entry.queued).filterMap f = [] := by
    simp [hf]
  have htaken : Journal.taken (said.map .queued) = [] := hnone fun _ => rfl
  have hreceipts : Journal.receipts (said.map .queued) = 0 := by
    simp [Journal.receipts, Entry.isReceipt]
  refine ⟨said.map .queued,
    .of_session ⟨hjournal, ?_, ?_, ?_, ?_⟩ (Journal.idle_not_mem hreceipts) rfl, hreceipts⟩
  · rw [hsaid, htaken]
    exact hpending.symm
  · rw [Journal.requests, hnone fun _ => rfl]
    exact (UInt64.add_zero _).symm
  · rw [Journal.commands, hnone fun _ => rfl]
    exact (UInt64.add_zero _).symm
  · rw [htaken]
    exact (UInt64.add_zero _).symm

/-- What is done without taking a message has its account. -/
theorem Act.account (h : Act e e') : ∃ j, Account e j e' ∧ j.receipts = 0 := by
  cases h with
  | motion m | look | controller mode =>
      exact ⟨[], .of_session (.refl e.session) (by simp) rfl, rfl⟩
  | send request =>
      obtain ⟨j, haccount, hreceipts⟩ := e.session.account_send request
      refine ⟨j, .of_session haccount (Journal.idle_not_mem hreceipts) ?_, hreceipts⟩
      simp only [metrics, Session.send]
      split <;> rfl
  | command motion torques => exact account_command motion torques e
  | happen hs => exact account_witness hs e

/-- The session counts a message if it is a reply, whatever becomes of it. -/
theorem intake_counts (message : Incoming) (e : Engine) :
    let e' := (e.intake message).2
    e'.session = { e.session with metrics := e'.metrics } ∧
    e'.metrics.requestsSent = e.metrics.requestsSent ∧
    e'.metrics.commandsSent = e.metrics.commandsSent ∧
    e'.metrics.receiveTimeouts = e.metrics.receiveTimeouts ∧
    e'.metrics.repliesReceived =
      e.metrics.repliesReceived + .ofNat ([message].countP Incoming.isReply) := by
  cases message with
  | state datagram =>
      simp only [intake]
      split
      · exact ⟨rfl, rfl, rfl, rfl, (UInt64.add_zero _).symm⟩
      · split <;> exact ⟨rfl, rfl, rfl, rfl, (UInt64.add_zero _).symm⟩
  | reply frame =>
      simp only [intake]
      split <;> exact ⟨rfl, rfl, rfl, rfl, rfl⟩
  | closed => exact ⟨rfl, rfl, rfl, rfl, (UInt64.add_zero _).symm⟩

/-- A receipt has its account. -/
theorem account_received (e : Engine) : ∃ j, Account e j e.received ∧ j.receipts = 1 := by
  obtain ⟨entry, hreceipt, hjournal, hpending⟩ := e.link.receive_receipt
  refine ⟨[entry], ?_, hreceipt.receipts⟩
  unfold received
  rcases hr : e.link.receive with ⟨result, link⟩
  rw [hr] at hreceipt hjournal hpending
  have hquiet {metrics : Metrics} (hsame : metrics = e.metrics ∨ metrics = e.metrics.countTimeout)
      (htaken : Journal.taken [entry] = []) :
      Session.Account e.session [entry] { e.session with link, metrics } := by
    refine Session.account_of_receipt hreceipt hjournal hpending ?_ ?_ ?_
    · rcases hsame with rfl | rfl <;> rfl
    · rcases hsame with rfl | rfl <;> rfl
    · rw [htaken]
      rcases hsame with rfl | rfl <;> exact (UInt64.add_zero _).symm
  cases hreceipt with
  | taken message =>
      obtain ⟨hsession, hrequests, hcommands, htimeouts, hreplies⟩ :=
        (e.withLink link).intake_counts message
      refine .of_session ?_ (by simp) htimeouts
      rw [hsession]
      exact Session.account_of_receipt (.taken message) hjournal hpending hrequests hcommands
        hreplies
  | drained => exact .of_session (hquiet (.inl rfl) rfl) (by simp) rfl
  | idle => exact ⟨hquiet (.inr rfl) rfl, rfl⟩
  | cut => exact .of_session (hquiet (.inl rfl) rfl) (by simp) rfl

/-- Whatever is done has its account, and the link was asked for an event once at each moment. -/
theorem Path.account (h : Path e ms e') : ∃ j, Account e j e' ∧ j.receipts = ms.length := by
  induction h with
  | refl e => exact ⟨[], .refl e, rfl⟩
  | act hact _ ih =>
      obtain ⟨i, hact, hnone⟩ := hact.account
      obtain ⟨j, hrest, hreceipts⟩ := ih
      refine ⟨i ++ j, hact.trans hrest, ?_⟩
      rw [Journal.receipts_append, hnone, hreceipts, Nat.zero_add]
  | take awaited _ ih =>
      obtain ⟨i, hreceived, hone⟩ := account_received _
      obtain ⟨j, hrest, hreceipts⟩ := ih
      refine ⟨i ++ j, hreceived.trans hrest, ?_⟩
      rw [Journal.receipts_append, hone, hreceipts, List.length_cons, Nat.add_comm]

end Engine

/-! ### The handshake -/

namespace Session

variable {s s' : Session}

/-- The counters of a handshake after a receipt. -/
def counted (result : Except LinkError Incoming) (metrics : Metrics) : Metrics :=
  match result with
  | .ok (.reply _) => metrics.countReply
  | _ => metrics

theorem account_receive {result : Except LinkError Incoming} {link : Link}
    (h : s.link.receive = (result, link)) :
    ∃ j, Account s j { s with link, metrics := counted result s.metrics } := by
  obtain ⟨entry, hreceipt, hjournal, hpending⟩ := s.link.receive_receipt
  rw [h] at hreceipt hjournal hpending
  refine ⟨[entry], account_of_receipt hreceipt hjournal hpending ?_ ?_ ?_⟩
  · unfold counted
    split <;> rfl
  · unfold counted
    split <;> rfl
  · cases hreceipt with
    | taken message =>
        cases message with
        | reply frame => rfl
        | state | closed => exact (UInt64.add_zero _).symm
    | drained | idle | cut => exact (UInt64.add_zero _).symm

/-- A handshake counts the replies that it takes, and nothing else. -/
theorem account_awaitConnect (id : UInt32) (s : Session) :
    ∃ j, Account s j (s.awaitConnect id).2 ∧ ∃ repliesReceived,
      (s.awaitConnect id).2.metrics = { s.metrics with repliesReceived } := by
  fun_induction awaitConnect id s with
  | case1 s err link hr | case2 s link hr | case4 s frame link hr s₁ err hdecode
  | case5 s frame link hr s₁ header status version hdecode hid =>
      obtain ⟨j, haccount⟩ := account_receive hr
      exact ⟨j, haccount, _, rfl⟩
  | case3 s datagram link hr ih | case6 s frame link hr s₁ header status version hdecode hid ih
  | case7 s frame link hr s₁ answer hother hdecode ih =>
      obtain ⟨i, haccount⟩ := account_receive hr
      obtain ⟨j, hrest, hmetrics⟩ := ih
      exact ⟨i ++ j, haccount.trans hrest, hmetrics⟩

/-- A handshake counts its request and the replies that it takes, and nothing else. -/
theorem account_handshake (start : Link) :
    ∃ j, Account { link := start } j (handshake start).2 ∧ ∃ requestsSent repliesReceived,
      (handshake start).2.metrics = { requestsSent, repliesReceived } := by
  obtain ⟨i, hsend, -⟩ :=
    account_send (.connect protocolVersion Link.statePort) { link := start }
  have hrequests : ∃ requestsSent,
      (send { link := start } (.connect protocolVersion Link.statePort)).2.metrics =
        { requestsSent } := by
    simp only [send]
    split <;> exact ⟨_, rfl⟩
  unfold handshake
  generalize send { link := start } _ = sent at hsend hrequests ⊢
  obtain ⟨requestsSent, hmetrics⟩ := hrequests
  rcases sent with ⟨err | id, s⟩
  · exact ⟨i, hsend, requestsSent, 0, hmetrics⟩
  · obtain ⟨j, hawait, repliesReceived, hreplies⟩ := account_awaitConnect id s
    have haccount := hsend.trans hawait
    simp only at hmetrics ⊢
    rw [hmetrics] at hreplies
    generalize s.awaitConnect id = awaited at haccount hreplies ⊢
    rcases awaited with ⟨err | version, s'⟩
    · exact ⟨i ++ j, haccount, requestsSent, repliesReceived, hreplies⟩
    · exact ⟨i ++ j, haccount.withVersion version, requestsSent, repliesReceived, hreplies⟩

end Session

/-! ### A robot from the start -/

theorem Link.since_eq {l l' : Link} {j : Journal} (h : l'.journal = l.journal ++ j) :
    l'.since l = j := by
  rw [since, h, List.drop_left]

/-- A far end that agrees to the version of the protocol, and tells of a state before. -/
def FarEnd.agreeing : FarEnd where
  script := [(.request .connect,
    [.state State.initial, .reply (.connect .success protocolVersion) none 0])]

/-- There are fewer of each kind of entry that is counted than a counter can tell. -/
structure Journal.Countable (j : Journal) : Prop where
  requests : j.requests.length < UInt64.size
  commands : j.commands.length < UInt64.size
  taken : j.taken.length < UInt64.size
  idle : j.count .idle < UInt64.size

theorem counter_toNat {counter : UInt64} {n : Nat} (h : counter = 0 + .ofNat n)
    (hn : n < UInt64.size) : counter.toNat = n := by
  rw [h, UInt64.zero_add, UInt64.toNat_ofNat_of_lt' hn]

/-- An engine that has counted no states before counts each that it can read. -/
theorem Engine.Ledger.taken_length {e e' : Engine} {ms : List Moment} {j : Journal}
    (h : Ledger e ms j e') (hreceived : e.metrics.statesReceived = 0)
    (hstale : e.metrics.statesStale = 0) (hfew : j.taken.length < UInt64.size) :
    j.taken.length = e'.metrics.statesReceived.toNat + e'.metrics.statesStale.toNat +
      j.taken.countP Incoming.isUnreadable + j.taken.countP Incoming.isReply +
      j.taken.count .closed := by
  have hsum := Incoming.length_eq_sum j.taken
  have hle : (j.accepted e.lastId).length ≤ j.states.length := (records_sublist _ _).length_le
  rw [← Journal.states_length] at hsum
  rw [counter_toNat (hreceived ▸ h.received) (by omega),
    counter_toNat (hstale ▸ h.stale_eq) (by omega)]
  omega

namespace Robot

open Engine

/-- Whatever is asked of a robot, its engine goes along a path with the moments of the errand. -/
theorem path_carryOut {α : Type} (t : Errand α) (r : Robot) :
    Path r.engine (t.moments r) (r.carryOut t).2.engine := by
  have hpath := (t.procedure r.slot).path r.engine
  rwa [t.procedure_run] at hpath

theorem path_complete (agenda : Agenda) (r : Robot) :
    Path r.engine (r.moments agenda) (r.complete agenda).engine := by
  induction agenda generalizing r with
  | nil => exact .refl r.engine
  | cons t rest ih => exact (path_carryOut t.2 r).trans (ih (r.carryOut t.2).2)

/-- From the handshake on, whatever is asked of a robot, no message is lost, taken twice or taken
out of turn.  As long as they can, its counters tell how many requests and commands it has sent, how
many replies it has taken, and how often it has found the link empty since the handshake.  Every
message that was taken since then is counted as a new state, a stale state or a reply, or else it
was a state that could not be read or the end of the channel. -/
theorem metrics_account_for_messages (start : Link) (settings : Settings) (clock : Clock)
    (agenda : Agenda) :
    let connected := (connect start settings clock).2
    let r := connected.complete agenda
    let run := r.engine.link.since start
    let later := r.engine.link.since connected.engine.link
    start.pending ++ run.said = run.taken ++ r.engine.link.pending ∧
    (run.Countable →
      r.metrics.requestsSent.toNat = run.requests.length ∧
      r.metrics.commandsSent.toNat = run.commands.length ∧
      r.metrics.repliesReceived.toNat = run.taken.countP Incoming.isReply ∧
      r.metrics.receiveTimeouts.toNat = later.count .idle ∧
      later.taken.length = r.metrics.statesReceived.toNat + r.metrics.statesStale.toNat +
        later.taken.countP Incoming.isUnreadable + later.taken.countP Incoming.isReply +
        later.taken.count .closed) := by
  intro connected r run later
  obtain ⟨i, hhandshake, requestsSent, repliesReceived, hmetrics⟩ :=
    Session.account_handshake start
  have hpath : Path connected.engine (connected.moments agenda) r.engine :=
    path_complete agenda connected
  obtain ⟨j, haccount, -⟩ := hpath.account
  obtain ⟨j', hledger⟩ := hpath.ledger
  obtain rfl : j' = j :=
    List.append_cancel_left (hledger.passage.journal.symm.trans haccount.journal)
  have hall : Session.Account { link := start } (i ++ j') r.engine.session :=
    hhandshake.trans haccount.toAccount
  have hrun : run = i ++ j' := Link.since_eq hall.journal
  have hlater : later = j' := Link.since_eq haccount.journal
  have hmetrics : connected.engine.metrics = { requestsSent, repliesReceived } := hmetrics
  rw [hrun, hlater]
  refine ⟨hall.queue, fun hfew => ⟨counter_toNat hall.requests hfew.requests,
    counter_toNat hall.commands hfew.commands,
    counter_toNat hall.replies (Nat.lt_of_le_of_lt List.countP_le_length hfew.taken), ?_, ?_⟩⟩
  · have htimeouts := haccount.timeouts
    have hidle := hfew.idle
    rw [hmetrics] at htimeouts
    rw [List.count_append] at hidle
    exact counter_toNat htimeouts (by omega)
  · have htaken := hfew.taken
    rw [Journal.taken_append, List.length_append] at htaken
    exact hledger.taken_length (by rw [hmetrics]) (by rw [hmetrics]) (by omega)

theorem metrics_account_for_messages_reading :
    let start : Link := { farEnd := .agreeing }
    let agenda : Agenda :=
      [⟨_, .happen [.say [.nextState State.initial 5, .nextState State.initial 0, .rawState [],
          .rawReply [], .nextState State.initial 1]]⟩,
        ⟨_, .order (.update none none)⟩, ⟨_, .order (.update none none)⟩, ⟨_, .readOnce⟩,
        ⟨_, .order (.update none (some Joints.zero))⟩, ⟨_, .order .stopGenerator⟩, ⟨_, .readOnce⟩]
    let connected := (connect start {} default).2
    let r := connected.complete agenda
    let run := r.engine.link.since start
    let later := r.engine.link.since connected.engine.link
    r.metrics = ⟨2, 1, 1, 1, 2, 1⟩ ∧ run.Countable ∧
    r.metrics.requestsSent.toNat = run.requests.length ∧
    later.taken.length = r.metrics.statesReceived.toNat + r.metrics.statesStale.toNat +
      later.taken.countP Incoming.isUnreadable + later.taken.countP Incoming.isReply +
      later.taken.count .closed := by
  intro start agenda connected r run later
  have hcounts : run.requests.length = 1 ∧ run.commands.length = 1 ∧ run.taken.length = 7 ∧
      run.count .idle = 1 := by decide +kernel
  obtain ⟨hrequests, hcommands, htaken, hidle⟩ := hcounts
  have hsize : 7 < UInt64.size := by decide
  have hfew : run.Countable := ⟨by omega, by omega, by omega, by omega⟩
  obtain ⟨hsent, -, -, -, hsorted⟩ :=
    (metrics_account_for_messages start {} default agenda).2 hfew
  exact ⟨by decide +kernel, hfew, hsent, hsorted⟩

end Robot
end ArmControl
