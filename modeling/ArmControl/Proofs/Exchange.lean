import ArmControl.Proofs.Cycle

/-! # What a request can do

`execute_cases` says how a request ends: with the one reply to it, or without any.  What arrives in
between is observed and handled, and the errors of that are deferred.  While no generator is active
and no motion is in progress this leaves the motion as it is (`execute_motion_of_inert`). -/

namespace ArmControl

namespace Engine

variable {e e' : Engine} {j : Journal} {entry : Entry} {request : Request}

/-- How a request ends whose id is `id` and to which `replies` came. -/
inductive Executed (kind : FrameKind) (id : UInt32) (replies : List Reply) :
    Except SessionError (UInt32 × Reply) → Prop
  | answered {reply} : replies = [reply] → reply.kind = kind →
      Executed kind id replies (.ok (id, reply))
  | broken {err} : replies = [] → err.isFatal → Executed kind id replies (.error err)

theorem judgeReply_none {kind : FrameKind} {id : UInt32} {event : Event} {m m' : Motion}
    (h : judgeReply kind id event m = (none, m')) :
    (∃ s, event = .state s ∧ m' = Motion.defer (m.observe s.motionMode)) ∨
    ∃ header reply, event = .reply header reply ∧ ¬ (header.kind = kind ∧ header.id = id) ∧
      m' = Motion.defer (m.handle header reply) := by
  cases event with
  | state s => exact .inl ⟨s, rfl, (Prod.mk.inj h).2.symm⟩
  | reply header reply =>
      simp only [judgeReply] at h
      split at h
      · simp at h
      · rename_i hother
        exact .inr ⟨header, reply, rfl, hother, (Prod.mk.inj h).2.symm⟩

theorem judgeReply_some {kind : FrameKind} {id : UInt32} {event : Event} {m m' : Motion}
    {result : Except SessionError Reply} (h : judgeReply kind id event m = (some result, m')) :
    ∃ header reply, event = .reply header reply ∧ header.kind = kind ∧ header.id = id ∧
      result = .ok reply ∧ m' = m := by
  cases event with
  | state s => cases (Prod.mk.inj h).1
  | reply header reply =>
      simp only [judgeReply] at h
      split at h
      · rename_i hmatch
        simp only [Prod.mk.injEq, Option.some.injEq] at h
        exact ⟨header, reply, rfl, hmatch.1, hmatch.2, h.1.symm, h.2.symm⟩
      · simp at h

theorem awaitReply_cases {kind : FrameKind} {id : UInt32} {result : Except SessionError Reply}
    (h : e.awaitReply kind id = (result, e')) :
    ∃ j, Passage e j e' ∧ j.Silent ∧
      Executed kind id (j.repliesTo kind id) (result.map fun reply => (id, reply)) := by
  have hwait := wait_rule (judgeReply kind id) (.error .closed) e
    (I := fun j _ => j.repliesTo kind id = [])
    (Q := fun result j _ =>
      Executed kind id (j.repliesTo kind id) (result.map fun reply => (id, reply)))
    ?broken ?stale ?passed ?decided [] rfl
  · obtain ⟨j, hpassage, hsilent, hexecuted⟩ := hwait
    change e.wait (judgeReply kind id) (.error .closed) = _ at h
    rw [h] at hpassage hexecuted
    exact ⟨j, hpassage, hsilent, hexecuted⟩
  case broken =>
    intro j e₁ entry e₂ result hnone hreceives hevent hbroken
    have hreplies : Journal.repliesTo kind id (j ++ [entry]) = [] := by
      rw [Journal.repliesTo_append, hnone, repliesTo_of_event_none hevent]
      rfl
    rcases hbroken with rfl | ⟨err, rfl, hfatal⟩
    · exact .broken hreplies rfl
    · exact .broken hreplies hfatal
  case stale =>
    intro j e₁ entry e₂ s hnone hreceives hevent hstale
    rw [Journal.repliesTo_append, hnone, repliesTo_of_state hevent]
    rfl
  case passed =>
    intro j e₁ entry e₂ event m hnone hreceives hevent hnews hj
    rw [Journal.repliesTo_append, hnone]
    rcases judgeReply_none hj with ⟨s, rfl, -⟩ | ⟨header, reply, rfl, hother, -⟩
    · exact repliesTo_of_state hevent kind id
    · rw [repliesTo_of_reply hevent, Entry.kind_of_event? hevent, if_neg hother]
      rfl
  case decided =>
    intro j e₁ entry e₂ event result m hnone hreceives hevent hnews hj
    obtain ⟨header, reply, rfl, hkind, hid, rfl, -⟩ := judgeReply_some hj
    have hkind' : reply.kind = kind := (Entry.kind_of_event? hevent).trans hkind
    rw [Journal.repliesTo_append, hnone, repliesTo_of_reply hevent, if_pos ⟨hkind', hid⟩]
    exact .answered rfl hkind'

/-- A request tries one frame under the next id and sends no command; it ends with the only reply to
it, or else there was none. -/
theorem execute_cases {result : Except SessionError (UInt32 × Reply)}
    (h : e.execute request = (result, e')) :
    ∃ j, Passage e j e' ∧ j.attempts = [request.encode e.session.nextId] ∧ j.commands = [] ∧
      Executed request.kind e.session.nextId (j.repliesTo request.kind e.session.nextId)
        result := by
  obtain ⟨j₁, hpassage₁, hattempts, hcommands, hevents⟩ := passage_send request e
  have hreplies : j₁.repliesTo request.kind e.session.nextId = [] := by
    simp [Journal.repliesTo, Journal.replies, hevents]
  unfold execute at h
  split at h
  · rename_i err session hsend
    rw [hsend] at hpassage₁
    obtain ⟨rfl, rfl⟩ := Prod.mk.inj h
    exact ⟨j₁, hpassage₁, hattempts, hcommands, .broken hreplies rfl⟩
  · rename_i id session hsend
    rw [hsend] at hpassage₁
    obtain rfl := send_id hsend
    rcases hwait : awaitReply request.kind e.session.nextId { e with session } with ⟨answer, e₁⟩
    rw [hwait] at h
    obtain ⟨j₂, hpassage₂, hsilent, hexecuted⟩ := awaitReply_cases hwait
    have hresult : result = answer.map fun reply => (e.session.nextId, reply) := by
      cases answer <;> exact (Prod.mk.inj h).1.symm
    have hengine : e₁ = e' := by
      cases answer <;> exact (Prod.mk.inj h).2
    subst hresult hengine
    refine ⟨j₁ ++ j₂, hpassage₁.trans hpassage₂, ?_, ?_, ?_⟩
    · exact (Journal.attempts_append_of_nil j₁ hsilent.1).trans hattempts
    · exact (Journal.commands_append_of_nil j₁ hsilent.2).trans hcommands
    · rw [Journal.repliesTo_append, hreplies]
      exact hexecuted

/-! ### The motion after a request -/

theorem execute_motion {P : Motion → Prop} (request : Request) (e : Engine)
    (hjudge : ∀ kind id event m, P m → P (judgeReply kind id event m).2) (h : P e.motion) :
    P (e.execute request).2.motion := by
  unfold execute
  split
  · exact h
  · rename_i id session hsend
    have hwait := wait_motion (judgeReply request.kind id) (.error .closed) { e with session }
      (hjudge request.kind id) h
    change P (awaitReply request.kind id { e with session }).2.motion at hwait
    split <;> (rename_i hanswer; rw [hanswer] at hwait; exact hwait)

theorem judgeReply_of_inert {m : Motion} (hstatus : m.status = .notStarted)
    (hcurrent : m.current = none) (kind : FrameKind) (id : UInt32) (event : Event) :
    (judgeReply kind id event m).2 = m := by
  cases event with
  | state s => simp [judgeReply, Motion.observe_of_notStarted hstatus, Motion.defer]
  | reply header reply =>
      simp only [judgeReply, Motion.handle_of_inert hstatus hcurrent, Motion.defer]
      split <;> rfl

/-- Without a generator and a motion in progress, a request leaves the motion alone. -/
theorem execute_motion_of_inert {e : Engine} (hstatus : e.motion.status = .notStarted)
    (hcurrent : e.motion.current = none) (request : Request) :
    (e.execute request).2.motion = e.motion := by
  refine e.execute_motion request (P := fun m => m = e.motion) ?_ rfl
  rintro kind id event m rfl
  exact judgeReply_of_inert hstatus hcurrent kind id event

end Engine
end ArmControl
