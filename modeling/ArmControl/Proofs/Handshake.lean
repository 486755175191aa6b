import ArmControl.Proofs.Queue

/-! # The handshake

A handshake sends one `connect` request, and then goes along the queue up to the first message that
`Settles` it: a reply that cannot be read, the reply to its request, or the end of the channel.  All
messages before this one are passed over (`Skips`): states, whether they can be read or not, replies
to other requests, and replies of its own kind to requests with other ids.

`handshake_settled` states this for every link, those included that refuse the request, or that hang
up or are shut down before or after it, together with the condition under which a version is agreed
on. -/

namespace ArmControl
namespace Session

/-! ### The messages of a handshake -/

/-- A handshake whose request has this id passes over the message. -/
inductive Skips (id : UInt32) : Incoming → Prop
  | state (datagram : Bytes) : Skips id (.state datagram)
  | foreign {frame : Bytes} {header : Header} {reply : Reply} :
      Reply.decode frame = .ok (header, reply) →
      (∀ status version, reply ≠ .connect status version) → Skips id (.reply frame)
  | stale {frame : Bytes} {header : Header} {status : ConnectStatus} {version : UInt16} :
      Reply.decode frame = .ok (header, .connect status version) → header.id ≠ id →
      Skips id (.reply frame)

/-- The message decides a handshake whose request has this id, in this way. -/
inductive Settles (id : UInt32) : Incoming → Except SessionError UInt16 → Prop
  | closed : Settles id .closed (.error .closed)
  | unreadable {frame : Bytes} {err : WireError} :
      Reply.decode frame = .error err → Settles id (.reply frame) (.error (.wire err))
  | accepted {frame : Bytes} {header : Header} {version : UInt16} :
      Reply.decode frame = .ok (header, .connect .success version) → header.id = id →
      Settles id (.reply frame) (.ok version)
  | incompatible {frame : Bytes} {header : Header} {version : UInt16} :
      Reply.decode frame = .ok (header, .connect .incompatibleVersion version) → header.id = id →
      Settles id (.reply frame) (.error (.incompatibleVersion version protocolVersion))
  | rejected {frame : Bytes} {header : Header} {version : UInt16} :
      Reply.decode frame = .ok (header, .connect .rejected version) → header.id = id →
      Settles id (.reply frame) (.error (.refused (.connection .rejected)))

variable {id : UInt32} {incoming : Incoming} {verdict : Except SessionError UInt16}

theorem settles_judgeConnect {frame : Bytes} {header : Header} {status : ConnectStatus}
    {version : UInt16} (hdecode : Reply.decode frame = .ok (header, .connect status version))
    (hid : header.id = id) : Settles id (.reply frame) (judgeConnect status version) := by
  cases status with
  | success => exact .accepted hdecode hid
  | incompatibleVersion => exact .incompatible hdecode hid
  | rejected => exact .rejected hdecode hid

/-- A message that is passed over decides nothing. -/
theorem Skips.not_settles (h : Skips id incoming) : ¬ Settles id incoming verdict := by
  intro hsettles
  cases h with
  | state => cases hsettles
  | foreign hdecode hother =>
      cases hsettles with
      | unreadable herr => cases hdecode.symm.trans herr
      | accepted h _ | incompatible h _ | rejected h _ =>
          obtain ⟨-, rfl⟩ := Prod.mk.inj (Except.ok.inj (hdecode.symm.trans h))
          exact hother _ _ rfl
  | stale hdecode hne =>
      cases hsettles with
      | unreadable herr => cases hdecode.symm.trans herr
      | accepted h hid | incompatible h hid | rejected h hid =>
          obtain ⟨rfl, -⟩ := Prod.mk.inj (Except.ok.inj (hdecode.symm.trans h))
          exact hne hid

theorem Settles.unique {verdict' : Except SessionError UInt16} (h : Settles id incoming verdict)
    (h' : Settles id incoming verdict') : verdict = verdict' := by
  cases h with
  | closed =>
      cases h'
      rfl
  | unreadable hdecode | accepted hdecode _ | incompatible hdecode _ | rejected hdecode _ =>
      cases h' with
      | unreadable hdecode' | accepted hdecode' _ | incompatible hdecode' _ | rejected hdecode' _ =>
          cases hdecode.symm.trans hdecode' <;> rfl

/-- The first message that decides is the same wherever the queue is split before it. -/
theorem first_settled {skipped skipped' later later' : List Incoming} {incoming' : Incoming}
    {verdict' : Except SessionError UInt16}
    (h : skipped ++ incoming :: later = skipped' ++ incoming' :: later')
    (hskipped : ∀ x ∈ skipped, Skips id x) (hskipped' : ∀ x ∈ skipped', Skips id x)
    (hsettles : Settles id incoming verdict) (hsettles' : Settles id incoming' verdict') :
    skipped = skipped' ∧ incoming = incoming' := by
  induction skipped generalizing skipped' with
  | nil =>
      cases skipped' with
      | nil => exact ⟨rfl, (List.cons.inj h).1⟩
      | cons x rest =>
          obtain ⟨rfl, -⟩ := List.cons.inj h
          exact absurd hsettles (hskipped' _ List.mem_cons_self).not_settles
  | cons y skipped ih =>
      cases skipped' with
      | nil =>
          obtain ⟨rfl, -⟩ := List.cons.inj h
          exact absurd hsettles' (hskipped _ List.mem_cons_self).not_settles
      | cons x rest =>
          obtain ⟨rfl, hrest⟩ := List.cons.inj h
          obtain ⟨rfl, rfl⟩ := ih hrest (fun z hz => hskipped z (List.mem_cons_of_mem _ hz))
            fun z hz => hskipped' z (List.mem_cons_of_mem _ hz)
          exact ⟨rfl, rfl⟩

/-! ### The wait for the reply -/

/-- How the wait for the reply to the request with this id ends on a link that listens. -/
inductive Awaited (id : UInt32) (l : Link) : Except SessionError UInt16 → Link → Prop
  | starved : (∀ x ∈ l.pending, Skips id x) → l.farClosed = false →
      Awaited id l (.error (.link .timeout)) ((l.taking l.pending).note .idle)
  | drained : (∀ x ∈ l.pending, Skips id x) → l.farClosed = true →
      Awaited id l (.error .closed) ((l.taking l.pending).note .drained)
  | settled {skipped : List Incoming} {incoming : Incoming} {later : List Incoming}
      {verdict : Except SessionError UInt16} :
      l.pending = skipped ++ incoming :: later → (∀ x ∈ skipped, Skips id x) →
      Settles id incoming verdict → Awaited id l verdict (l.taking (skipped ++ [incoming]))

variable {s : Session} {rest : List Incoming}

theorem Awaited.skip {l l' : Link} (h : Awaited id (l.taking [incoming]) verdict l')
    (hskips : Skips id incoming) (hpending : l.pending = incoming :: rest) :
    Awaited id l verdict l' := by
  have htaken : (l.taking [incoming]).pending = rest := Link.pending_taking _ hpending
  cases h with
  | starved hall hfar =>
      rw [← Link.taking_cons, htaken, ← hpending]
      rw [htaken] at hall
      exact .starved (by rw [hpending]; exact List.forall_mem_cons.2 ⟨hskips, hall⟩) hfar
  | drained hall hfar =>
      rw [← Link.taking_cons, htaken, ← hpending]
      rw [htaken] at hall
      exact .drained (by rw [hpending]; exact List.forall_mem_cons.2 ⟨hskips, hall⟩) hfar
  | settled hsplit hall hsettles =>
      rw [← Link.taking_cons]
      rw [htaken] at hsplit
      exact .settled (by rw [hpending, hsplit]; rfl) (List.forall_mem_cons.2 ⟨hskips, hall⟩)
        hsettles

/-- A message that is passed over leaves nothing behind but the account of it. -/
theorem awaitConnect_skips (hlistens : s.link.Listens)
    (hpending : s.link.pending = incoming :: rest) (h : Skips id incoming) :
    ∃ metrics, s.awaitConnect id =
      awaitConnect id { s with link := s.link.taking [incoming], metrics } := by
  rw [awaitConnect, hlistens.receive hpending]
  cases h with
  | state datagram => exact ⟨_, rfl⟩
  | @foreign frame header reply hdecode hother =>
      simp only [hdecode]
      cases reply with
      | connect status version => exact absurd rfl (hother status version)
      | _ => exact ⟨_, rfl⟩
  | stale hdecode hne =>
      simp only [hdecode, if_neg hne]
      exact ⟨_, rfl⟩

theorem awaitConnect_settles (hlistens : s.link.Listens)
    (hpending : s.link.pending = incoming :: rest) (h : Settles id incoming verdict) :
    ∃ metrics, s.awaitConnect id =
      (verdict, { s with link := s.link.taking [incoming], metrics }) := by
  rw [awaitConnect, hlistens.receive hpending]
  cases h with
  | closed => exact ⟨_, rfl⟩
  | unreadable hdecode =>
      simp only [hdecode]
      exact ⟨_, rfl⟩
  | accepted hdecode hid | incompatible hdecode hid | rejected hdecode hid =>
      simp only [hdecode, if_pos hid]
      exact ⟨_, rfl⟩

/-- Every message is passed over or decides. -/
theorem skips_or_settles (id : UInt32) (incoming : Incoming) :
    Skips id incoming ∨ ∃ verdict, Settles id incoming verdict := by
  cases incoming with
  | closed => exact .inr ⟨_, .closed⟩
  | state datagram => exact .inl (.state datagram)
  | reply frame =>
      rcases hdecode : Reply.decode frame with err | ⟨header, reply⟩
      · exact .inr ⟨_, .unreadable hdecode⟩
      · cases reply with
        | connect status version =>
            by_cases hid : header.id = id
            · exact .inr ⟨_, settles_judgeConnect hdecode hid⟩
            · exact .inl (.stale hdecode hid)
        | _ => exact .inl (.foreign hdecode (by simp))

theorem awaitConnect_awaited (id : UInt32) (hlistens : s.link.Listens) :
    Awaited id s.link (s.awaitConnect id).1 (s.awaitConnect id).2.link := by
  generalize hpending : s.link.pending = messages
  induction messages generalizing s with
  | nil =>
      have hnone : ∀ x ∈ s.link.pending, Skips id x := by simp [hpending]
      rw [awaitConnect, hlistens.receive_nil hpending]
      cases hfar : s.link.farClosed with
      | false => simpa [hpending] using Awaited.starved hnone hfar
      | true => simpa [hpending] using Awaited.drained hnone hfar
  | cons incoming rest ih =>
      rcases skips_or_settles id incoming with hskips | ⟨verdict, hsettles⟩
      · obtain ⟨metrics, heq⟩ := awaitConnect_skips hlistens hpending hskips
        have hrest := ih (s := { s with link := s.link.taking [incoming], metrics })
          (hlistens.taking _) (Link.pending_taking _ hpending)
        rw [heq]
        exact hrest.skip hskips hpending
      · obtain ⟨metrics, heq⟩ := awaitConnect_settles hlistens hpending hsettles
        have hsplit : s.link.pending = [] ++ incoming :: rest := hpending
        rw [heq]
        exact .settled hsplit (by simp) hsettles

/-! ### The handshake -/

/-- The request of a handshake. -/
def greeting : Bytes := (Request.connect protocolVersion Link.statePort).encode 0

/-- The link after the request of a handshake has been sent. -/
def introduced (link : Link) : Link :=
  (link.note (.request greeting)).queue (link.farEnd.onRequest greeting)

/-- How a handshake over a link ends. -/
inductive Shaken (link : Link) : Except SessionError Unit → Session → Prop
  | refused {s : Session} : link.closed = true ∨ link.farClosed = true →
      s.link = link.note (.requestRefused greeting) → Shaken link (.error .closed) s
  | unheard {s : Session} : link.closed = false → link.farClosed = false →
      (introduced link).shutdown = true → s.link = (introduced link).note .cut →
      Shaken link (.error .closed) s
  | starved {s : Session} : (introduced link).Listens → (introduced link).farClosed = false →
      (∀ x ∈ (introduced link).pending, Skips 0 x) →
      s.link = ((introduced link).taking (introduced link).pending).note .idle →
      Shaken link (.error (.link .timeout)) s
  | abandoned {s : Session} : (introduced link).Listens → link.farClosed = false →
      (introduced link).farClosed = true → (∀ x ∈ (introduced link).pending, Skips 0 x) →
      s.link = ((introduced link).taking (introduced link).pending).note .drained →
      Shaken link (.error .closed) s
  | failed {s : Session} {skipped : List Incoming} {incoming : Incoming} {later : List Incoming}
      {err : SessionError} : (introduced link).Listens → link.farClosed = false →
      (introduced link).pending = skipped ++ incoming :: later → (∀ x ∈ skipped, Skips 0 x) →
      Settles 0 incoming (.error err) → s.link = (introduced link).taking (skipped ++ [incoming]) →
      Shaken link (.error err) s
  | agreed {s : Session} {skipped : List Incoming} {incoming : Incoming} {later : List Incoming} :
      (introduced link).Listens → link.farClosed = false →
      (introduced link).pending = skipped ++ incoming :: later → (∀ x ∈ skipped, Skips 0 x) →
      Settles 0 incoming (.ok s.serverVersion) →
      s.link = (introduced link).taking (skipped ++ [incoming]) → Shaken link (.ok ()) s

theorem send_greeting {link : Link} (hclosed : link.closed = false)
    (hfar : link.farClosed = false) :
    ∃ s, send { link } (.connect protocolVersion Link.statePort) = (.ok 0, s) ∧
      s.link = introduced link := by
  simp only [send, Link.sendRequest, hclosed, hfar]
  exact ⟨_, rfl, rfl⟩

theorem send_greeting_refused {link : Link} (h : link.closed = true ∨ link.farClosed = true) :
    ∃ s, send { link } (.connect protocolVersion Link.statePort) = (.error .closed, s) ∧
      s.link = link.note (.requestRefused greeting) := by
  have hor : (link.closed || link.farClosed) = true := by simpa using h
  simp only [send, Link.sendRequest, hor, if_true]
  exact ⟨_, rfl, rfl⟩

theorem awaitConnect_of_not_listens (h : ¬ s.link.Listens) :
    s.awaitConnect id = (.error .closed, { s with link := s.link.note .cut }) := by
  rw [awaitConnect, Link.receive_of_not_listens h]
  rfl

theorem handshake_shaken (link : Link) : Shaken link (handshake link).1 (handshake link).2 := by
  unfold handshake
  by_cases hrefused : link.closed = true ∨ link.farClosed = true
  · obtain ⟨s, hsend, hlink⟩ := send_greeting_refused hrefused
    rw [hsend]
    exact .refused hrefused hlink
  · obtain ⟨hclosed, hfar⟩ : link.closed = false ∧ link.farClosed = false := by
      simpa using hrefused
    obtain ⟨s, hsend, hlink⟩ := send_greeting hclosed hfar
    rw [hsend]
    dsimp only
    cases hshutdown : (introduced link).shutdown with
    | true =>
        -- the link has taken the request, but gives nothing any more
        have hdeaf : ¬ s.link.Listens := by
          rw [hlink]
          exact fun hlistens => absurd (hlistens.2.symm.trans hshutdown) (by decide)
        rw [awaitConnect_of_not_listens hdeaf]
        exact .unheard hclosed hfar hshutdown (congrArg (Link.note · .cut) hlink)
    | false =>
        have hlistens : s.link.Listens := by
          rw [hlink]
          exact ⟨hclosed, hshutdown⟩
        have hawaited := awaitConnect_awaited 0 hlistens
        rw [hlink] at hawaited
        generalize s.awaitConnect 0 = awaited at hawaited ⊢
        rcases awaited with ⟨err | version, s'⟩
        · dsimp only at hawaited ⊢
          generalize hl : s'.link = l at hawaited
          cases hawaited with
          | starved hall hthere => exact .starved ⟨hclosed, hshutdown⟩ hthere hall hl
          | drained hall hgone => exact .abandoned ⟨hclosed, hshutdown⟩ hfar hgone hall hl
          | settled hsplit hall hsettles =>
              exact .failed ⟨hclosed, hshutdown⟩ hfar hsplit hall hsettles hl
        · dsimp only at hawaited ⊢
          generalize hl : s'.link = l at hawaited
          cases hawaited with
          | settled hsplit hall hsettles =>
              exact .agreed ⟨hclosed, hshutdown⟩ hfar hsplit hall hsettles rfl

theorem introduced_journal (link : Link) : (introduced link).journal =
    link.journal ++ [.request greeting, .queued (link.farEnd.onRequest greeting).1] :=
  List.append_assoc _ _ _

theorem silent_taken (messages : List Incoming) : Journal.Silent (messages.map .taken) := by
  induction messages with
  | nil => exact ⟨rfl, rfl⟩
  | cons incoming rest ih => exact ih

/-- A handshake tries its request and sends nothing else. -/
theorem Shaken.attempts {link : Link} {result : Except SessionError Unit}
    (h : Shaken link result s) :
    ∃ j : Journal, s.link.journal = link.journal ++ j ∧ j.attempts = [greeting] ∧
      j.commands = [] := by
  have hsent (k : Journal) (hk : k.Silent)
      (hjournal : s.link.journal = (introduced link).journal ++ k) :
      ∃ j : Journal, s.link.journal = link.journal ++ j ∧ j.attempts = [greeting] ∧
        j.commands = [] := by
    rw [introduced_journal, List.append_assoc] at hjournal
    refine ⟨_, hjournal, ?_, ?_⟩
    · rw [Journal.attempts_append_of_nil _ hk.1]
      rfl
    · rw [Journal.commands_append_of_nil _ hk.2]
      rfl
  -- the whole queue was taken, and then the link was found empty
  have hended (entry : Entry) (hentry : Journal.Silent [entry])
      (hlink : s.link = ((introduced link).taking (introduced link).pending).note entry) :=
    hsent ((introduced link).pending.map .taken ++ [entry]) ((silent_taken _).append hentry)
      (hlink ▸ List.append_assoc _ _ _)
  cases h with
  | refused _ hlink =>
      rw [hlink]
      exact ⟨[.requestRefused greeting], rfl, rfl, rfl⟩
  | unheard _ _ _ hlink => exact hsent [.cut] ⟨rfl, rfl⟩ (by rw [hlink]; rfl)
  | starved _ _ _ hlink => exact hended .idle ⟨rfl, rfl⟩ hlink
  | abandoned _ _ _ _ hlink => exact hended .drained ⟨rfl, rfl⟩ hlink
  | failed _ _ _ _ _ hlink | agreed _ _ _ _ _ hlink =>
      exact hsent _ (silent_taken _) (by rw [hlink]; rfl)

/-- Every handshake tries one request, and what decides it is the first message that settles
it.  A version is agreed on just if this is a reply to the request that reports success. -/
theorem handshake_settled (link : Link) :
    Shaken link (handshake link).1 (handshake link).2 ∧
    (∃ j : Journal, (handshake link).2.link.journal = link.journal ++ j ∧
      j.attempts = [greeting] ∧ j.commands = []) ∧
    ∀ version, ((handshake link).1 = .ok () ∧ (handshake link).2.serverVersion = version ↔
      (introduced link).Listens ∧ link.farClosed = false ∧ ∃ skipped frame later header,
        (introduced link).pending = skipped ++ .reply frame :: later ∧
        (∀ x ∈ skipped, Skips 0 x) ∧
        Reply.decode frame = .ok (header, .connect .success version) ∧ header.id = 0) := by
  have hshaken := handshake_shaken link
  refine ⟨hshaken, hshaken.attempts, fun version => ⟨?_, ?_⟩⟩
  · rintro ⟨hok, rfl⟩
    generalize handshake link = shaken at hshaken hok ⊢
    rcases shaken with ⟨result, s⟩
    dsimp only at hshaken hok ⊢
    cases hshaken with
    | agreed hlistens hfar hsplit hall hsettles _ =>
        cases hsettles with
        | accepted hdecode hid => exact ⟨hlistens, hfar, _, _, _, _, hsplit, hall, hdecode, hid⟩
    | refused | unheard | starved | abandoned | failed => cases hok
  · rintro ⟨hlistens, hfar, skipped, frame, later, header, hsplit, hall, hdecode, hid⟩
    have haccepted : Settles 0 (.reply frame) (.ok version) := .accepted hdecode hid
    generalize handshake link = shaken at hshaken ⊢
    rcases shaken with ⟨result, s⟩
    dsimp only at hshaken ⊢
    cases hshaken with
    | refused hrefused _ =>
        have hclosed : link.closed = false := hlistens.1
        rw [hclosed, hfar] at hrefused
        simp at hrefused
    | unheard _ _ hshutdown _ => cases hlistens.2.symm.trans hshutdown
    | starved _ _ hnone _ | abandoned _ _ _ hnone _ =>
        rw [hsplit] at hnone
        exact absurd haccepted (hnone _ (by simp)).not_settles
    | failed _ _ hsplit' hall' hsettles _ =>
        obtain ⟨rfl, rfl⟩ := first_settled (hsplit.symm.trans hsplit') hall hall' haccepted hsettles
        cases haccepted.unique hsettles
    | agreed _ _ hsplit' hall' hsettles _ =>
        obtain ⟨rfl, rfl⟩ := first_settled (hsplit.symm.trans hsplit') hall hall' haccepted hsettles
        exact ⟨rfl, Except.ok.inj (hsettles.unique haccepted)⟩

example :
    let late := Reply.encode (.connect .success 9) 100
    let timely := Reply.encode (.connect .success 3) 0
    let shaken := handshake { pending := [.state [], .reply late, .reply timely, .closed] }
    shaken.1.isOk = true ∧ shaken.2.serverVersion = 3 ∧ shaken.2.link.pending = [.closed] := by
  decide +kernel

end Session
end ArmControl
