import ParticleAutomaton.Proofs.Likeness

namespace ParticleAutomaton

variable {R : Type}

/-- Two outcomes, each with its own registry, are the same by name. -/
structure Outcome.Alike (r s : Registry R) (o p : Outcome R) : Prop where
  newSource : r.Namesakes s o.newSource p.newSource
  newTarget : r.Namesakes s o.newTarget p.newTarget
  verb : p.verb = o.verb
  rule : p.rule = o.rule

theorem Outcome.Alike.isIdle {r s : Registry R} {o p : Outcome R} (h : Outcome.Alike r s o p) :
    p.isIdle = o.isIdle := by
  rw [Outcome.isIdle, Outcome.isIdle, h.rule]

/-- Sums and registries that two scenes have come to by the same bonds. -/
structure Scene.Weighed [Scalar R] (x y : Scene R) (s t : R × Registry R) : Prop extends
    Scene.Learned x y s.2 t.2 where
  sum : t.1 = s.1

theorem Scene.Alike.weighed [Scalar R] {x y : Scene R} (a : x.Alike y) :
    x.Weighed y (0, x.2) (0, y.2) := ⟨⟨a.left, a.right, .refl _, .refl _⟩, rfl⟩

/-- The energy of a bond between particles of the same names. -/
theorem Scene.Weighed.add [Scalar R] {x y : Scene R} {s t : R × Registry R} (w : x.Weighed y s t)
    (a : x.Alike y) {i j k l : ParticleId} (hij : x.2.Namesakes y.2 i j)
    (hkl : x.2.Namesakes y.2 k l) (bond : String) (offset : Point) (previous : Option Point) :
    let u := s.2.bondEnergy i bond k offset previous
    let v := t.2.bondEnergy j bond l offset previous
    x.Weighed y (s.1 + u.1, u.2) (t.1 + v.1, v.2) := by
  have hij' := hij.learned a w.toLearned
  obtain ⟨name, hk, hl⟩ := hkl.learned a w.toLearned
  have hks := w.left.serial_lt hk
  have hls := w.right.serial_lt hl
  obtain ⟨hu, eu⟩ := w.left.bondEnergy hks i bond offset previous
  obtain ⟨hv, ev⟩ := w.right.bondEnergy hls j bond offset previous
  refine ⟨⟨hu, hv, w.leftExtends.trans eu, w.rightExtends.trans ev⟩, ?_⟩
  change t.1 + (t.2.bondEnergy j bond l offset previous).1 =
    s.1 + (s.2.bondEnergy i bond k offset previous).1
  rw [Registry.bondEnergy_eq w.left hks, Registry.bondEnergy_eq w.right hls, hij'.name,
    Registry.name_of hk, Registry.name_of hl, w.sum, w.rightExtends.rules, w.leftExtends.rules,
    a.rules]

namespace UpdateEvent

/-- Two changes, each with its own registry, are the same by name. -/
structure Alike (r s : Registry R) (e f : UpdateEvent R) : Prop where
  source : f.source = e.source
  target : f.target = e.target
  dir : f.dir = e.dir
  oldSource : r.Namesakes s e.oldSource f.oldSource
  oldTarget : r.Namesakes s e.oldTarget f.oldTarget
  outcome : Outcome.Alike r s e.outcome f.outcome
  remote : f.remote = e.remote
  bound : f.bound = e.bound
  labels : f.labels = e.labels
  plan : f.plan = e.plan

section

variable {r s : Registry R} {i j k l : ParticleId} {o o' : Outcome R} (p q : Point)
  (dir : Direction) (hs : r.Namesakes s i j) (ht : r.Namesakes s k l)
  (ho : Outcome.Alike r s o o')

include hs ht ho

theorem alike_new : Alike r s (.new p q dir i k o) (.new p q dir j l o') :=
  ⟨rfl, rfl, rfl, hs, ht, ho, rfl, rfl, rfl, rfl⟩

theorem alike_ofRemote : Alike r s (.ofRemote p q dir i k o) (.ofRemote p q dir j l o') :=
  ⟨rfl, rfl, rfl, hs, ht, ho, rfl, rfl, rfl, rfl⟩

end

namespace Alike

theorem ends {r s : Registry R} {e f : UpdateEvent R} (h : Alike r s e f) : f.ends = e.ends := by
  unfold UpdateEvent.ends
  rw [h.source, h.target, h.remote]

theorem bind_to {r s : Registry R} {e f : UpdateEvent R} (h : Alike r s e f) (labels : Labels)
    {plan plan' : Plan} (hp : plan' = plan) :
    Alike r s { e with bound := true, labels, plan }
      { f with bound := true, labels, plan := plan' } :=
  ⟨h.source, h.target, h.dir, h.oldSource, h.oldTarget, h.outcome, h.remote, rfl, rfl, hp⟩

variable [Scalar R]

variable {x y : Scene R} {e f : UpdateEvent R}

theorem sourceChanges (h : Alike x.2 y.2 e f) (a : x.Alike y) :
    f.sourceChanges = e.sourceChanges := by
  have hi := h.outcome.newSource.eq_iff h.oldSource a.left a.right
  unfold UpdateEvent.sourceChanges UpdateEvent.newSource
  rw [Bool.eq_iff_iff, bne_iff_ne, bne_iff_ne]
  exact not_congr hi.symm

theorem targetChanges (h : Alike x.2 y.2 e f) (a : x.Alike y) :
    f.targetChanges = e.targetChanges := by
  have hi := h.outcome.newTarget.eq_iff h.oldTarget a.left a.right
  unfold UpdateEvent.targetChanges UpdateEvent.newTarget
  rw [Bool.eq_iff_iff, bne_iff_ne, bne_iff_ne]
  exact not_congr hi.symm

theorem changesAt (h : Alike x.2 y.2 e f) (a : x.Alike y) (p : Point) :
    f.changesAt p = e.changesAt p := by
  unfold UpdateEvent.changesAt
  rw [h.sourceChanges a, h.targetChanges a, h.source, h.target, h.remote]

theorem droppedAt (h : Alike x.2 y.2 e f) (a : x.Alike y) (l : Labels) (p : Point) :
    f.droppedAt y.1 l p = e.droppedAt x.1 l p := by
  unfold UpdateEvent.droppedAt
  cases hc : x.1.get? p with
  | none => rw [a.get?_none hc]
  | some c =>
    obtain ⟨d, hd, hcd⟩ := a.cell hc
    simp only [hd, hcd.bonds, h.changesAt a]

theorem planFor? (h : Alike x.2 y.2 e f) (a : x.Alike y) (l : Labels) (created : List BondExpr) :
    f.planFor? y.1 l created = e.planFor? x.1 l created := by
  have hd : f.droppedAt y.1 l = e.droppedAt x.1 l := funext (h.droppedAt a l)
  unfold UpdateEvent.planFor?
  rw [h.ends, hd, Plan.drop_congr a.sameBonds, Plan.add_congr a.sameBonds]

theorem planRule (h : Alike x.2 y.2 e f) (a : x.Alike y) (l : Labels) (rule : TransformRule R) :
    f.planRule y.1 l rule = e.planRule x.1 l rule := by
  unfold UpdateEvent.planRule
  simp only [h.remote, Labels.resolve_congr a.sameBonds, Labels.look_congr a.sameBonds,
    h.planFor? a]

/-- A change is bound alike. -/
theorem bind (h : Alike x.2 y.2 e f) (a : x.Alike y) :
    Agree (fun s t => t.1 = s.1 ∧ Alike x.2 y.2 s.2 t.2) (e.bind x.1) (f.bind y.1) := by
  have hl : Labels.ofEnds f.source f.target = Labels.ofEnds e.source e.target := by
    rw [h.source, h.target]
  unfold UpdateEvent.bind
  simp only [h.bound, h.outcome.rule, hl, h.planRule a]
  split
  · exact .error nofun
  · split
    next => exact .ok ⟨rfl, h.bind_to _ h.plan⟩
    next =>
      split
      next => exact .ok ⟨rfl, h.bind_to _ rfl⟩
      next => exact .ok ⟨rfl, h.bind_to _ h.plan⟩

theorem bondsAt (h : Alike x.2 y.2 e f) (a : x.Alike y) (after : Bool) (p : Point) :
    f.bondsAt y.1 after p = e.bondsAt x.1 after p := by
  unfold UpdateEvent.bondsAt
  rw [h.plan, Plan.bondsAt_congr a.sameBonds, a.sameBonds.bonds]

theorem nearBonds (h : Alike x.2 y.2 e f) (a : x.Alike y) (after : Bool) :
    f.nearBonds y.1 after = e.nearBonds x.1 after := by
  unfold UpdateEvent.nearBonds
  simp only [h.ends, h.plan, h.bondsAt a]

theorem particleAt (h : Alike x.2 y.2 e f) (a : x.Alike y) (after : Bool) (p : Point) :
    (e.particleAt x.1 after p = none ∧ f.particleAt y.1 after p = none) ∨
      ∃ i j, e.particleAt x.1 after p = some i ∧ f.particleAt y.1 after p = some j ∧
        x.2.Namesakes y.2 i j := by
  unfold UpdateEvent.particleAt
  rw [h.target, h.source, h.remote]
  split
  next =>
    refine Or.inr ⟨_, _, rfl, rfl, ?_⟩
    cases after
    · exact h.oldTarget
    · exact h.outcome.newTarget
  next =>
    split
    next =>
      refine Or.inr ⟨_, _, rfl, rfl, ?_⟩
      cases after
      · exact h.oldSource
      · exact h.outcome.newSource
    next =>
      cases hc : x.1.get? p with
      | none => exact Or.inl ⟨rfl, by rw [a.get?_none hc]; rfl⟩
      | some c =>
        obtain ⟨d, hd, hcd⟩ := a.cell hc
        exact Or.inr ⟨c.particle, d.particle, rfl, by rw [hd]; rfl, hcd.particle⟩

theorem addEnergy (h : Alike x.2 y.2 e f) (a : x.Alike y) (after : Bool) {s t : R × Registry R}
    (w : x.Weighed y s t) (b : Bond) :
    x.Weighed y (e.addEnergy x.1 after s b) (f.addEnergy y.1 after t b) := by
  obtain ⟨sum, r⟩ := s
  obtain ⟨sum', r'⟩ := t
  unfold UpdateEvent.addEnergy
  simp only [h.bondsAt a, a.contains]
  rcases h.particleAt a after b.origin with ⟨hi, hj⟩ | ⟨i, j, hi, hj, hij⟩
  · rw [hi, hj]
    exact w
  · rcases h.particleAt a after b.destination with ⟨hk, hl⟩ | ⟨k, l, hk, hl, hkl⟩
    · rw [hi, hj, hk, hl]
      exact w
    · rw [hi, hj, hk, hl]
      simp only
      split
      · exact w.add a hij hkl b.name _ _
      · exact w

theorem localEnergy (h : Alike x.2 y.2 e f) (a : x.Alike y) (after : Bool) {s t : R × Registry R}
    (w : x.Weighed y s t) :
    x.Weighed y ((e.nearBonds x.1 after).foldl (e.addEnergy x.1 after) s)
      ((f.nearBonds y.1 after).foldl (f.addEnergy y.1 after) t) := by
  rw [h.nearBonds a]
  generalize e.nearBonds x.1 after = bonds
  induction bonds generalizing s t with
  | nil => exact w
  | cons b bonds ih => exact ih (h.addEnergy a after w b)

/-- The energy of a change is told alike. -/
theorem energyDelta (h : Alike x.2 y.2 e f) (a : x.Alike y) (barrier : R) :
    x.Weighed y (e.energyDelta x.1 x.2 barrier) (f.energyDelta y.1 y.2 barrier) := by
  unfold UpdateEvent.energyDelta
  rw [h.sourceChanges a, h.targetChanges a, h.plan]
  split
  · exact a.weighed
  · have wold := h.localEnergy a false a.weighed
    have wnew := h.localEnergy a true (s := (0, (e.localEnergy x.1 x.2 false).2))
      (t := (0, (f.localEnergy y.1 y.2 false).2)) ⟨wold.toLearned, rfl⟩
    refine ⟨wnew.toLearned, ?_⟩
    exact congrArg₂ (fun new old => (if e.sourceChanges then barrier else 0) + new - old) wnew.sum
      wold.sum

end Alike

variable [Scalar R]

/-- What two scenes have come to by the same writes. -/
structure Written (x y : Scene R) (s t : List Point × Scene R) : Prop where
  touched : t.1 = s.1
  twins : s.2.Twins t.2
  left : x.2.Keeps s.2.2
  right : y.2.Keeps t.2.2

/-- The same particle by name is written to a cell that holds the same particle by name. -/
theorem Written.write {x y : Scene R} {s t : List Point × Scene R} (w : Written x y s t) {p : Point}
    {old old' new new' : ParticleId} (hold : ∀ c, s.2.1.get? p = some c → c.particle = old)
    (hold' : ∀ d, t.2.1.get? p = some d → d.particle = old') (hnew : x.2.Namesakes y.2 new new')
    (hx : x.2.Sound) (hy : y.2.Sound) :
    ∃ s' t', UpdateEvent.write s p old new = .ok s' ∧ UpdateEvent.write t p old' new' = .ok t' ∧
      Written x y s' t' ∧ s'.2.1 = s.2.1.put p new ∧ t'.2.1 = t.2.1.put p new' := by
  obtain ⟨touched, u⟩ := s
  obtain ⟨touched', v⟩ := t
  simp only at hold hold' ⊢
  rw [write_eq, write_eq, w.twins.contains]
  cases hp : u.1.contains p with
  | false =>
    have hq : v.1.contains p = false := (w.twins.contains p).trans hp
    exact ⟨_, _, rfl, rfl, w, (Grid.put_of_not_contains hp new).symm,
      (Grid.put_of_not_contains hq new').symm⟩
  | true =>
    obtain ⟨c, hc⟩ := Grid.get?_of_contains hp
    obtain ⟨d, hd, hcd⟩ := w.twins.cell hc
    obtain ⟨r, r', hr, hr', kr, kr', htwins⟩ :=
      w.twins.write hc hd (hnew.of_keeps hx hy w.left w.right)
    rw [hold c hc] at hr
    rw [hold' d hd] at hr'
    rw [if_pos rfl, if_pos rfl]
    simp only at hr hr' ⊢
    rw [hr, hr']
    exact ⟨_, _, rfl, rfl,
      ⟨congrArg (· ++ [p]) w.touched, htwins, w.left.trans kr, w.right.trans kr'⟩, rfl, rfl⟩

/-- A change is written alike, and never fails. -/
theorem Alike.commit {x y : Scene R} {e f : UpdateEvent R} (h : Alike x.2 y.2 e f) (a : x.Twins y)
    (he : e.Meets x.1) (hf : f.Meets y.1) :
    ∃ s t, e.commit x.1 x.2 = .ok s ∧ f.commit y.1 y.2 = .ok t ∧ Written x y s t := by
  have start : Written x y ([], x) ([], y) := ⟨rfl, a, .refl _, .refl _⟩
  have hnewSource : x.2.Namesakes y.2 e.newSource f.newSource := h.outcome.newSource
  have hnewTarget : x.2.Namesakes y.2 e.newTarget f.newTarget := h.outcome.newTarget
  have hsource : ∃ s t, e.writeSource ([], x) = .ok s ∧ f.writeSource ([], y) = .ok t ∧
      Written x y s t ∧ (∀ c, s.2.1.get? e.target = some c → c.particle = e.oldTarget) ∧
        ∀ d, t.2.1.get? e.target = some d → d.particle = f.oldTarget := by
    unfold writeSource
    rw [h.remote]
    split
    next => exact ⟨_, _, rfl, rfl, start, he.target, h.target ▸ hf.target⟩
    next hr =>
      have hr : e.remote = false := by simpa using hr
      rw [h.source]
      obtain ⟨s, t, hs, ht, w, hgs, hgt⟩ := start.write (p := e.source) (he.source hr)
        (h.source ▸ hf.source (h.remote.trans hr)) hnewSource a.left a.right
      refine ⟨s, t, hs, ht, w, fun c hc => ?_, fun d hd => ?_⟩
      · rw [hgs, Grid.get?_put, if_neg he.apart.symm] at hc
        exact he.target c hc
      · rw [hgt, Grid.get?_put, if_neg he.apart.symm] at hd
        exact hf.target d (h.target ▸ hd)
  obtain ⟨s, t, hs, ht, w, hst, htt⟩ := hsource
  obtain ⟨s', t', hs', ht', w', -, -⟩ := w.write hst htt hnewTarget a.left a.right
  have hplan : f.touchPlan t'.1 = e.touchPlan s'.1 := by
    unfold touchPlan
    rw [h.plan, w'.touched]
  have htwins : Scene.Twins (e.plan.carryOut s'.2.1, s'.2.2) (f.plan.carryOut t'.2.1, t'.2.2) := by
    refine w'.twins.rebond (e.plan.sameStates_carryOut _) (f.plan.sameStates_carryOut _) ?_
    rw [h.plan]
    exact (w'.twins.sameBonds.carryOut e.plan).field
  refine ⟨(e.touchPlan s'.1, e.plan.carryOut s'.2.1, s'.2.2),
    (f.touchPlan t'.1, f.plan.carryOut t'.2.1, t'.2.2), ?_, ?_, hplan, htwins, w'.left, w'.right⟩
  · rw [commit_eq, hs, ok_bind, hs', ok_bind]
  · rw [commit_eq, ht, ok_bind, h.target, ht', ok_bind]

end UpdateEvent

end ParticleAutomaton
