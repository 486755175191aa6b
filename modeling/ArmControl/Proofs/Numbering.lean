import ArmControl.Proofs.Accounts

/-! # How requests are numbered

A session tries its requests under the ids that follow one another, whether the link takes them or
not: `Session.Numbers` says so of a stretch of the journal.  Every act and every receipt numbers the
requests that it tries, so every path does (`Path.numbers`), and so does the handshake
(`numbers_handshake`), whose request has the id 0.

As long as the ids do not run out, the requests on record have strictly increasing ids
(`Journal.sorted_requests`). -/

namespace ArmControl

/-- The ids below `n` are all different, and in order. -/
theorem sorted_ids {n : Nat} (h : n ≤ UInt32.size) :
    ((List.range n).map UInt32.ofNat).Pairwise (· < ·) := by
  rw [List.pairwise_map]
  refine List.pairwise_lt_range.imp_of_mem fun {a b} ha hb hlt => ?_
  rw [List.mem_range] at ha hb
  rw [UInt32.lt_iff_toNat_lt, UInt32.toNat_ofNat_of_lt' (by omega),
    UInt32.toNat_ofNat_of_lt' (by omega)]
  exact hlt

namespace Journal

/-- What was sent was tried. -/
theorem requests_sublist (j : Journal) : List.Sublist j.requests j.attempts := by
  induction j with
  | nil => exact .slnil
  | cons entry rest ih =>
      cases entry with
      | request frame => exact ih.cons_cons frame
      | requestRefused frame => exact ih.cons frame
      | _ => exact ih

/-- If requests are tried under consecutive ids that start at 0, those that were sent have strictly
increasing ids. -/
theorem sorted_requests {j : Journal} {requests : List Request}
    (h : j.attempts = requests.mapIdx fun n r => r.encode (.ofNat n))
    (hfew : requests.length ≤ UInt32.size) :
    ∃ recorded : List (UInt32 × Request), j.requests = recorded.map (fun p => p.2.encode p.1) ∧
      (recorded.map Prod.fst).Pairwise (· < ·) := by
  let tried := requests.mapIdx fun n r => (UInt32.ofNat n, r)
  have hattempts : j.attempts = tried.map fun p => p.2.encode p.1 := by
    rw [h]
    exact List.ext_getElem (by simp [tried]) fun n _ _ => by simp [tried]
  have hids : tried.map Prod.fst = (List.range requests.length).map UInt32.ofNat := by
    refine List.ext_getElem (by simp [tried]) fun n _ _ => ?_
    simp [tried]
  have hsublist := j.requests_sublist
  rw [hattempts, List.sublist_map_iff] at hsublist
  obtain ⟨recorded, hrecorded, hrequests⟩ := hsublist
  refine ⟨recorded, hrequests, .sublist (hrecorded.map Prod.fst) ?_⟩
  rw [hids]
  exact sorted_ids hfew

end Journal

/-! ### Sessions -/

namespace Session

/-- The session has tried these requests under its next ids while `j` was written. -/
structure Numbers (s : Session) (j : Journal) (requests : List Request) (s' : Session) : Prop where
  journal : s'.link.journal = s.link.journal ++ j
  attempts : j.attempts = requests.mapIdx fun n r => r.encode (s.nextId + .ofNat n)
  nextId : s'.nextId = s.nextId + .ofNat requests.length

variable {s s₁ s' : Session} {i j : Journal} {a b : List Request}

theorem Numbers.trans (h₁ : Numbers s i a s₁) (h₂ : Numbers s₁ j b s') :
    Numbers s (i ++ j) (a ++ b) s' where
  journal := by rw [h₂.journal, h₁.journal, List.append_assoc]
  attempts := by
    have hid (n : Nat) : s₁.nextId + .ofNat n = s.nextId + .ofNat (n + a.length) := by
      rw [h₁.nextId, UInt32.add_assoc, ← UInt32.ofNat_add, Nat.add_comm]
    simp only [Journal.attempts_append, h₁.attempts, h₂.attempts, List.mapIdx_append, hid]
  nextId := by rw [h₂.nextId, h₁.nextId, List.length_append, UInt32.ofNat_add, UInt32.add_assoc]

/-- Nothing was tried, and no id was used up. -/
theorem Numbers.of_attempts_nil (hjournal : s'.link.journal = s.link.journal ++ j)
    (hattempts : j.attempts = []) (hid : s'.nextId = s.nextId) : Numbers s j [] s' :=
  ⟨hjournal, hattempts, hid.trans (UInt32.add_zero _).symm⟩

theorem numbers_send (request : Request) (s : Session) :
    ∃ j, Numbers s j [request] (s.send request).2 := by
  obtain ⟨j, hpassage, hattempts, -⟩ := Engine.passage_send request (.start s {} default)
  refine ⟨j, hpassage.journal, ?_, ?_⟩
  · rw [hattempts]
    simp [Engine.start]
  · have hid := hpassage.nextId
    rwa [hattempts] at hid

/-- Receipts try nothing. -/
theorem numbers_receive {result : Except LinkError Incoming} {link : Link} {metrics : Metrics}
    (h : s.link.receive = (result, link)) : ∃ j, Numbers s j [] { s with link, metrics } := by
  obtain ⟨entry, hreceipt, hjournal, -⟩ := s.link.receive_receipt
  rw [h] at hreceipt hjournal
  refine ⟨[entry], .of_attempts_nil hjournal ?_ rfl⟩
  cases hreceipt <;> rfl

theorem numbers_awaitConnect (id : UInt32) (s : Session) :
    ∃ j, Numbers s j [] (s.awaitConnect id).2 := by
  fun_induction awaitConnect id s with
  | case1 s err link hr | case2 s link hr | case4 s frame link hr s₁ err hdecode
  | case5 s frame link hr s₁ header status version hdecode hid => exact numbers_receive hr
  | case3 s datagram link hr ih | case6 s frame link hr s₁ header status version hdecode hid ih
  | case7 s frame link hr s₁ answer hother hdecode ih =>
      obtain ⟨i, hnumbers⟩ := numbers_receive hr
      obtain ⟨j, hrest⟩ := ih
      exact ⟨i ++ j, hnumbers.trans hrest⟩

/-- The handshake tries one request, under the id 0. -/
theorem numbers_handshake (start : Link) :
    ∃ j, Numbers { link := start } j [.connect protocolVersion Link.statePort]
      (handshake start).2 := by
  obtain ⟨i, hsend⟩ := numbers_send (.connect protocolVersion Link.statePort) { link := start }
  unfold handshake
  generalize send { link := start } _ = sent at hsend ⊢
  rcases sent with ⟨err | id, s⟩
  · exact ⟨i, hsend⟩
  · obtain ⟨j, hawait⟩ := numbers_awaitConnect id s
    have hnumbers := hsend.trans hawait
    simp only
    generalize s.awaitConnect id = awaited at hnumbers ⊢
    rcases awaited with ⟨err | version, s'⟩
    · exact ⟨i ++ j, hnumbers⟩
    · exact ⟨i ++ j, hnumbers.journal, hnumbers.attempts, hnumbers.nextId⟩

end Session

/-! ### Engines -/

namespace Engine

variable {e e' : Engine} {j : Journal} {ms : List Moment}

theorem Passage.numbers (h : Passage e j e') (hattempts : j.attempts = []) :
    Session.Numbers e.session j [] e'.session := by
  refine .of_attempts_nil h.journal hattempts ?_
  rw [h.nextId, hattempts]
  exact UInt32.add_zero _

theorem Act.numbers (h : Act e e') :
    ∃ j requests, Session.Numbers e.session j requests e'.session := by
  cases h with
  | motion | look | controller => exact ⟨[], [], (Passage.refl e).numbers rfl⟩
  | send request =>
      obtain ⟨j, hnumbers⟩ := e.session.numbers_send request
      exact ⟨j, [request], hnumbers⟩
  | command motion torques =>
      rcases e.sendCommand_cases motion torques with ⟨-, hsend⟩ |
        ⟨s, c, -, -, ⟨-, e₁, hsend, -, hpassage⟩ | ⟨-, e₁, said, hsend, -, hpassage⟩⟩ <;> rw [hsend]
      · exact ⟨[], [], (Passage.refl e).numbers rfl⟩
      · exact ⟨_, [], hpassage.numbers rfl⟩
      · exact ⟨_, [], hpassage.numbers rfl⟩
  | happen happenings =>
      obtain ⟨j, hpassage, hsilent, -⟩ := e.passage_witness happenings
      exact ⟨j, [], hpassage.numbers hsilent.1⟩

theorem Path.numbers (h : Path e ms e') :
    ∃ j requests, Session.Numbers e.session j requests e'.session := by
  induction h with
  | refl e => exact ⟨[], [], (Passage.refl e).numbers rfl⟩
  | act hact _ ih =>
      obtain ⟨i, a, hnumbers⟩ := hact.numbers
      obtain ⟨j, b, hrest⟩ := ih
      exact ⟨i ++ j, a ++ b, hnumbers.trans hrest⟩
  | take awaited _ ih =>
      obtain ⟨entry, hreceives, -⟩ := receives_received _ awaited
      obtain ⟨j, b, hrest⟩ := ih
      exact ⟨[entry] ++ j, b, (hreceives.passage.numbers hreceives.silent.1).trans hrest⟩

end Engine

/-! ### A robot from the start -/

/-- From the handshake on, whatever is asked of a robot, the requests are tried under the ids 0, 1,
2 and so on. -/
theorem Robot.numbers (start : Link) (settings : Settings) (clock : Clock) (agenda : Agenda) :
    let r := (connect start settings clock).2.complete agenda
    ∃ requests : List Request,
      Journal.attempts (r.engine.link.since start) =
        requests.mapIdx fun n r => r.encode (.ofNat n) := by
  intro r
  obtain ⟨i, hhandshake⟩ := Session.numbers_handshake start
  obtain ⟨j, requests, hpath⟩ := (path_complete agenda (connect start settings clock).2).numbers
  have hall := hhandshake.trans hpath
  have hsince : r.engine.link.since start = i ++ j := Link.since_eq hall.journal
  refine ⟨[.connect protocolVersion Link.statePort] ++ requests, ?_⟩
  rw [hsince, hall.attempts]
  simp

end ArmControl
