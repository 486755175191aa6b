import ArmControl.Engine.Callback

/-! # What a journal tells

A stretch of the journal of a link is a `Journal`.  It tells which requests the client tried to send
(`attempts`), which commands it sent (`commands`), and which messages it took off the link and could
read (`events`), among them states and replies.

Of the states a client keeps the `records`: those that are newer than all before them.  Records are
strictly increasing (`records_pairwise`), and the records of two stretches in a row are the records
of the first and then those of the second, counted from where the first has ended
(`Journal.accepted_append`). -/

namespace ArmControl

/-! ### Records -/

/-- The states that are newer than `last` and than all before them. -/
def records (last : Option UInt64) : List State → List State
  | [] => []
  | s :: rest =>
    if Engine.newerThan last s then s :: records (some s.messageId) rest else records last rest

/-- The number of the last record, or else `last`. -/
def latest (last : Option UInt64) (states : List State) : Option UInt64 :=
  ((records last states).getLast?.map State.messageId).or last

theorem latest_cons_of_newer {last : Option UInt64} {s : State} (h : Engine.newerThan last s)
    (rest : List State) : latest last (s :: rest) = latest (some s.messageId) rest := by
  simp only [latest, records, h, if_true, List.getLast?_cons]
  cases (records (some s.messageId) rest).getLast? <;> rfl

theorem latest_cons_of_stale {last : Option UInt64} {s : State} (h : ¬ Engine.newerThan last s)
    (rest : List State) : latest last (s :: rest) = latest last rest := by
  simp only [latest, records, h]
  rfl

theorem records_append (last : Option UInt64) (a b : List State) :
    records last (a ++ b) = records last a ++ records (latest last a) b := by
  induction a generalizing last with
  | nil => rfl
  | cons s rest ih =>
      by_cases h : Engine.newerThan last s
      · rw [latest_cons_of_newer h]
        simp [records, h, ih]
      · rw [latest_cons_of_stale h]
        simp [records, h, ih]

theorem latest_append (last : Option UInt64) (a b : List State) :
    latest last (a ++ b) = latest (latest last a) b := by
  induction a generalizing last with
  | nil => rfl
  | cons s rest ih =>
      by_cases h : Engine.newerThan last s
      · rw [List.cons_append, latest_cons_of_newer h, latest_cons_of_newer h, ih]
      · rw [List.cons_append, latest_cons_of_stale h, latest_cons_of_stale h, ih]

theorem newerThan_trans {last : Option UInt64} {s t : State} (hs : Engine.newerThan last s)
    (ht : Engine.newerThan (some s.messageId) t) : Engine.newerThan last t := by
  cases last with
  | none => rfl
  | some id =>
      simp only [Engine.newerThan, decide_eq_true_eq] at hs ht ⊢
      exact UInt64.lt_trans hs ht

theorem newerThan_of_mem_records {last : Option UInt64} {states : List State} {s : State}
    (h : s ∈ records last states) : Engine.newerThan last s := by
  induction states generalizing last with
  | nil => cases h
  | cons t rest ih =>
      by_cases ht : Engine.newerThan last t
      · simp only [records, ht, if_true, List.mem_cons] at h
        rcases h with rfl | h
        · exact ht
        · exact newerThan_trans ht (ih h)
      · simp only [records, ht] at h
        exact ih h

/-- Records are newer and newer. -/
theorem records_pairwise (last : Option UInt64) (states : List State) :
    (records last states).Pairwise fun s t => s.messageId < t.messageId := by
  induction states generalizing last with
  | nil => exact .nil
  | cons s rest ih =>
      by_cases h : Engine.newerThan last s
      · simp only [records, h, if_true]
        refine .cons (fun t ht => ?_) (ih _)
        simpa [Engine.newerThan] using newerThan_of_mem_records ht
      · simp only [records, h]
        exact ih last

/-! ### Events -/

theorem Reply.kind_ofPayload {kind : FrameKind} {payload : Bytes} {reply : Reply}
    (h : Reply.ofPayload kind payload = .ok reply) : reply.kind = kind := by
  have hmap {α : Type} {f : α → Reply} {r : Except WireError α} (hf : ∀ a, (f a).kind = kind)
      (hr : r.map f = .ok reply) : reply.kind = kind := by
    cases r with
    | error err => cases hr
    | ok a => exact (Except.ok.inj hr) ▸ hf a
  unfold Reply.ofPayload at h
  cases kind <;> exact hmap (fun _ => rfl) h

/-- The kind of a frame is the kind of the reply in it. -/
theorem Reply.kind_of_decode {frame : Bytes} {p : Header × Reply} (h : Reply.decode frame = .ok p) :
    p.2.kind = p.1.kind := by
  unfold Reply.decode at h
  split at h
  · cases h
  · rename_i header payload hframe
    cases hreply : Reply.ofPayload header.kind payload with
    | error err => simp [hreply, Except.map] at h
    | ok reply =>
        simp only [hreply, Except.map, Except.ok.injEq] at h
        subst h
        exact Reply.kind_ofPayload hreply

namespace Event

def state? : Event → Option State
  | state s => some s
  | reply .. => none

def reply? : Event → Option (Header × Reply)
  | state _ => none
  | reply header answer => some (header, answer)

end Event

namespace Entry

/-- The request that the client tried to send. -/
def attempt? : Entry → Option Bytes
  | request frame => some frame
  | requestRefused frame => some frame
  | _ => none

/-- The command that the client sent. -/
def command? : Entry → Option Bytes
  | command datagram => some datagram
  | _ => none

/-- The message that the client took and could read. -/
def event? : Entry → Option Event
  | taken (.state datagram) => (State.decode datagram).toOption.map .state
  | taken (.reply frame) => (Reply.decode frame).toOption.map fun p => .reply p.1 p.2
  | _ => none

/-- A reply is of the kind that its header names. -/
theorem kind_of_event? {entry : Entry} {header : Header} {reply : Reply}
    (h : entry.event? = some (.reply header reply)) : reply.kind = header.kind := by
  unfold event? at h
  split at h
  · simp at h
  · rename_i frame
    cases hdecode : Reply.decode frame with
    | error err => simp [hdecode, Except.toOption] at h
    | ok p =>
        simp only [hdecode, Except.toOption, Option.map_some, Option.some.injEq,
          Event.reply.injEq] at h
        obtain ⟨rfl, rfl⟩ := h
        exact Reply.kind_of_decode hdecode
  · cases h

end Entry

/-- A stretch of what has passed over a link, the oldest entry first. -/
abbrev Journal := List Entry

namespace Journal

/-- The requests that the client tried to send. -/
def attempts (j : Journal) : List Bytes := j.filterMap Entry.attempt?

/-- The commands that the client sent. -/
def commands (j : Journal) : List Bytes := j.filterMap Entry.command?

/-- The messages that the client took and could read. -/
def events (j : Journal) : List Event := j.filterMap Entry.event?

def states (j : Journal) : List State := j.events.filterMap Event.state?

def replies (j : Journal) : List (Header × Reply) := j.events.filterMap Event.reply?

/-- What was said in reply to the request with this kind and id. -/
def repliesTo (kind : FrameKind) (id : UInt32) (j : Journal) : List Reply :=
  (j.replies.filter fun p => p.1.kind = kind ∧ p.1.id = id).map Prod.snd

/-- The states that a client accepts whose last one had the number `last`. -/
def accepted (last : Option UInt64) (j : Journal) : List State := records last j.states

/-- The number of the last state that such a client has accepted in the end. -/
def lastId (last : Option UInt64) (j : Journal) : Option UInt64 := latest last j.states

/-- Nothing was sent, and nothing was tried to be sent. -/
def Silent (j : Journal) : Prop := j.attempts = [] ∧ j.commands = []

variable (a b : Journal)

@[simp] theorem attempts_append : attempts (a ++ b) = a.attempts ++ b.attempts := by
  simp [attempts]

@[simp] theorem commands_append : commands (a ++ b) = a.commands ++ b.commands := by
  simp [commands]

@[simp] theorem events_append : events (a ++ b) = a.events ++ b.events := by
  simp [events]

@[simp] theorem states_append : states (a ++ b) = a.states ++ b.states := by
  simp [states]

@[simp] theorem replies_append : replies (a ++ b) = a.replies ++ b.replies := by
  simp [replies]

@[simp] theorem repliesTo_append (kind : FrameKind) (id : UInt32) :
    repliesTo kind id (a ++ b) = a.repliesTo kind id ++ b.repliesTo kind id := by
  simp [repliesTo]

theorem accepted_append (last : Option UInt64) :
    accepted last (a ++ b) = a.accepted last ++ b.accepted (a.lastId last) := by
  simp [accepted, lastId, records_append]

theorem lastId_append (last : Option UInt64) :
    lastId last (a ++ b) = b.lastId (a.lastId last) := by
  simp [lastId, latest_append]

variable {b}

/-- A stretch in which no request was tried adds none. -/
theorem attempts_append_of_nil (h : b.attempts = []) : attempts (a ++ b) = a.attempts := by
  rw [attempts_append, h, List.append_nil]

theorem commands_append_of_nil (h : b.commands = []) : commands (a ++ b) = a.commands := by
  rw [commands_append, h, List.append_nil]

variable {a}

theorem mem_repliesTo_left {kind : FrameKind} {id : UInt32} {reply : Reply}
    (h : reply ∈ a.repliesTo kind id) (b : Journal) : reply ∈ repliesTo kind id (a ++ b) := by
  rw [repliesTo_append]
  exact List.mem_append_left _ h

theorem mem_repliesTo_right {kind : FrameKind} {id : UInt32} {reply : Reply} (a : Journal)
    (h : reply ∈ b.repliesTo kind id) : reply ∈ repliesTo kind id (a ++ b) := by
  rw [repliesTo_append]
  exact List.mem_append_right _ h

theorem mem_accepted_left {last : Option UInt64} {s : State} (h : s ∈ a.accepted last)
    (b : Journal) : s ∈ accepted last (a ++ b) := by
  rw [accepted_append]
  exact List.mem_append_left _ h

theorem accepted_of_events_nil (h : a.events = []) (last : Option UInt64) :
    a.accepted last = [] := by
  simp [accepted, states, h, records]

theorem lastId_of_events_nil (h : a.events = []) (last : Option UInt64) : a.lastId last = last := by
  simp [lastId, states, h, latest, records]

theorem silent_nil : Silent [] := ⟨rfl, rfl⟩

theorem Silent.append (ha : a.Silent) (hb : b.Silent) : Silent (a ++ b) :=
  ⟨(attempts_append_of_nil a hb.1).trans ha.1, (commands_append_of_nil a hb.2).trans ha.2⟩

end Journal
end ArmControl
