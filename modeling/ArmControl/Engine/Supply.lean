import ArmControl.Engine.Basic

/-!
# What a wait takes from the link

A wait only takes events, and it leaves the far end alone (`wait_farEnd`).  When it succeeds with
anything but the end of the channel, at least one event is gone (`wait_length_lt`); this is why the
loops of the engine come to an end.
-/

namespace ArmControl.Engine

variable {α : Type}

theorem starve_link (e : Engine) (err : LinkError) (link : Link) :
    (e.starve err link).link = link := by
  cases err <;> rfl

@[simp] theorem withMotion_link (e : Engine) (m : Motion) : (e.withMotion m).link = e.link := rfl

theorem wait_length_lt {judge : Judge α} {ended : Except SessionError α} {e e' : Engine} {a : α}
    (h : e.wait judge ended = (.ok a, e'))
    (hne : ended ≠ .ok a) : e'.link.pending.length < e.link.pending.length := by
  fun_induction wait judge ended e with
  | case1 e err link hr => simp at h
  | case2 e incoming link hr err e' ha => simp at h
  | case3 e incoming link hr e' ha => exact absurd (congrArg Prod.fst h) hne
  | case4 e incoming link hr e₁ ha ih =>
    have := intake_length_lt hr ha (by simp)
    have := ih h
    omega
  | case5 e incoming link hr event e₁ ha result m hj =>
    have := intake_length_lt hr ha (by simp)
    obtain rfl := congrArg Prod.snd h
    simpa using this
  | case6 e incoming link hr event e₁ ha m hj ih =>
    have := intake_length_lt hr ha (by simp)
    have := ih h
    simp only [withMotion_link] at this
    omega

theorem intake_farEnd (e : Engine) {incoming : Incoming} {link : Link}
    (hr : e.link.receive = (.ok incoming, link)) :
    ((e.withLink link).intake incoming).2.link.farEnd = e.link.farEnd := by
  rw [intake_link]
  have := e.link.receive_farEnd
  rwa [hr] at this

theorem wait_farEnd (judge : Judge α) (ended : Except SessionError α) (e : Engine) :
    (e.wait judge ended).2.link.farEnd = e.link.farEnd := by
  fun_induction wait judge ended e with
  | case1 e err link hr =>
    have := e.link.receive_farEnd
    rw [hr] at this
    simpa [starve_link] using this
  | case2 e incoming link hr err e' ha => simpa [ha] using e.intake_farEnd hr
  | case3 e incoming link hr e' ha => simpa [ha] using e.intake_farEnd hr
  | case4 e incoming link hr e' ha ih => rw [ih]; simpa [ha] using e.intake_farEnd hr
  | case5 e incoming link hr event e' ha result m hj => simpa [ha] using e.intake_farEnd hr
  | case6 e incoming link hr event e' ha m hj ih => rw [ih]; simpa [ha] using e.intake_farEnd hr

theorem wait_supply_lt {judge : Judge α} {ended : Except SessionError α} {e e' : Engine} {a : α}
    (h : e.wait judge ended = (.ok a, e'))
    (hne : ended ≠ .ok a) : e'.supply < e.supply := by
  have h₁ := wait_length_lt h hne
  have h₂ := wait_farEnd judge ended e
  rw [h] at h₂
  simp only [supply, Link.supply, h₂]
  omega

end ArmControl.Engine
