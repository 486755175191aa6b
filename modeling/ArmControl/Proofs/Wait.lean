import ArmControl.Proofs.Passage

/-! # What holds after a wait

A wait takes events off the link one by one, and each of them is stale, passed over by the judge,
or decides the wait.  `wait_rule` is the induction along these events, with everything that was
received so far at hand; `wait_passage` and `wait_motion` are its special cases for what concerns
the journal alone and the motion alone. -/

namespace ArmControl.Engine

variable {α : Type} (judge : Judge α) (ended : Except SessionError α) (e : Engine)

/-- The result of a wait that no event has decided: the far end has closed the channel, the link
gave nothing, or a message could not be read. -/
def IsBroken (ended result : Except SessionError α) : Prop :=
  result = ended ∨ ∃ err, result = .error err ∧ err.isFatal

/-- Induction along the events of a wait.  `I` is what holds between two events, of what has passed
so far and of the engine, and `Q` is what holds in the end. -/
theorem wait_rule {I : Journal → Engine → Prop}
    {Q : Except SessionError α → Journal → Engine → Prop}
    (broken : ∀ {j e entry e' result}, I j e → Receives e entry e' → entry.event? = none →
      IsBroken ended result → Q result (j ++ [entry]) e')
    (stale : ∀ {j e entry e' s}, I j e → Receives e entry e' → entry.event? = some (.state s) →
      ¬ newerThan e.lastId s → I (j ++ [entry]) e')
    (passed : ∀ {j e entry e' event m}, I j e → Receives e entry e' → entry.event? = some event →
      IsNews e.lastId event → judge event e.motion = (none, m) → I (j ++ [entry]) (e'.withMotion m))
    (decided : ∀ {j e entry e' event result m}, I j e → Receives e entry e' →
      entry.event? = some event → IsNews e.lastId event → judge event e.motion = (some result, m) →
      Q result (j ++ [entry]) (e'.withMotion m))
    (j₀ : Journal) (h : I j₀ e) :
    ∃ j, Passage e j (e.wait judge ended).2 ∧ j.Silent ∧
      Q (e.wait judge ended).1 (j₀ ++ j) (e.wait judge ended).2 := by
  fun_induction wait judge ended e generalizing j₀ with
  | case1 e err link hr =>
      obtain ⟨entry, hreceives, hevent⟩ := receives_starve hr
      exact ⟨[entry], hreceives.passage, hreceives.silent,
        broken h hreceives hevent (.inr ⟨_, rfl, rfl⟩)⟩
  | case2 e incoming link hr err e' ha =>
      obtain ⟨entry, hreceives, hevent, hfatal⟩ := receives_intake hr ha
      exact ⟨[entry], hreceives.passage, hreceives.silent,
        broken h hreceives hevent (.inr ⟨err, rfl, hfatal⟩)⟩
  | case3 e incoming link hr e' ha =>
      obtain ⟨entry, hreceives, hevent⟩ := receives_intake hr ha
      exact ⟨[entry], hreceives.passage, hreceives.silent, broken h hreceives hevent (.inl rfl)⟩
  | case4 e incoming link hr e' ha ih =>
      obtain ⟨entry, hreceives, s, hevent, hstale⟩ := receives_intake hr ha
      obtain ⟨j, hpassage, hsilent, hQ⟩ := ih _ (stale h hreceives hevent hstale)
      refine ⟨[entry] ++ j, hreceives.passage.trans hpassage, hreceives.silent.append hsilent, ?_⟩
      rwa [← List.append_assoc]
  | case5 e incoming link hr event e' ha result m hj =>
      obtain ⟨entry, hreceives, hevent, hnews⟩ := receives_intake hr ha
      rw [hreceives.motion] at hj
      exact ⟨[entry], hreceives.passage.withMotion m, hreceives.silent,
        decided h hreceives hevent hnews hj⟩
  | case6 e incoming link hr event e' ha m hj ih =>
      obtain ⟨entry, hreceives, hevent, hnews⟩ := receives_intake hr ha
      rw [hreceives.motion] at hj
      obtain ⟨j, hpassage, hsilent, hQ⟩ := ih _ (passed h hreceives hevent hnews hj)
      refine ⟨[entry] ++ j, (hreceives.passage.withMotion m).trans hpassage,
        hreceives.silent.append hsilent, ?_⟩
      rwa [← List.append_assoc]

theorem wait_passage : ∃ j, Passage e j (e.wait judge ended).2 ∧ j.Silent := by
  obtain ⟨j, hpassage, hsilent, -⟩ := wait_rule judge ended e
    (I := fun _ _ => True) (Q := fun _ _ _ => True) (fun _ _ _ _ => trivial)
    (fun _ _ _ _ => trivial) (fun _ _ _ _ _ => trivial) (fun _ _ _ _ _ => trivial) [] trivial
  exact ⟨j, hpassage, hsilent⟩

/-- What the judge keeps, whatever it is asked, a wait keeps. -/
theorem wait_motion {P : Motion → Prop} (hjudge : ∀ event m, P m → P (judge event m).2)
    (h : P e.motion) : P (e.wait judge ended).2.motion := by
  have hstep {event m result m'} (hj : judge event m = (result, m')) (hm : P m) : P m' := by
    have := hjudge event m hm
    rwa [hj] at this
  obtain ⟨-, -, -, hP⟩ := wait_rule judge ended e
    (I := fun _ e => P e.motion) (Q := fun _ _ e => P e.motion)
    (fun hP hreceives _ _ => hreceives.motion ▸ hP) (fun hP hreceives _ _ => hreceives.motion ▸ hP)
    (fun hP _ _ _ hj => hstep hj hP) (fun hP _ _ _ hj => hstep hj hP) [] h
  exact hP

end ArmControl.Engine
