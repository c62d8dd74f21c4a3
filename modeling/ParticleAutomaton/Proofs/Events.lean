import ParticleAutomaton.Proofs.Plans
import ParticleAutomaton.Proofs.Results
import ParticleAutomaton.Update.Event

namespace ParticleAutomaton

namespace Grid

/-- Puts a particle into a cell, which counts as a write. -/
def put (g : Grid) (p : Point) (particle : ParticleId) : Grid :=
  g.modify p fun c => { c with particle, writes := c.writes + 1 }

theorem field_put (g : Grid) (p : Point) (particle : ParticleId) :
    (g.put p particle).field = g.field := field_modify fun _ => rfl

theorem contains_put (g : Grid) (p q : Point) (particle : ParticleId) :
    (g.put p particle).contains q = g.contains q := contains_modify ..

theorem get?_put (g : Grid) (p q : Point) (particle : ParticleId) :
    (g.put p particle).get? q =
      if q = p then (g.get? q).map fun c => { c with particle, writes := c.writes + 1 }
      else g.get? q := get?_modify ..

theorem put_of_not_contains {g : Grid} {p : Point} (h : g.contains p = false)
    (particle : ParticleId) : g.put p particle = g := by
  have hi : g.index? p = none := by simpa [contains] using h
  simp [put, modify, hi]

end Grid

namespace UpdateEvent

variable {R : Type}

/-- All bonds of an end go if its particle changes, and otherwise those that were found. -/
theorem mem_droppedAt {e : UpdateEvent R} {g : Grid} {l : Labels} {p : Point} {c : Cell}
    (hc : g.get? p = some c) {k : Bond} :
    k ∈ e.droppedAt g l p ↔ (e.changesAt p = true ∨ (k.origin, k.name) ∈ l.found) ∧
      (k.origin = p ∧ g.field.Leaves k ∨ k.destination = p ∧ g.field.Enters k) := by
  unfold droppedAt
  simp only [hc, List.mem_append, List.mem_map, List.mem_filter, Prod.exists, Bool.or_eq_true,
    List.contains_iff_mem]
  constructor
  · rintro (⟨name, offset, ⟨hmem, hgoes⟩, rfl⟩ | ⟨name, offset, ⟨hmem, hgoes⟩, rfl⟩)
    · refine ⟨hgoes, Or.inl ⟨rfl, (Grid.mem_outgoing_iff hc).mp ?_⟩⟩
      rwa [Point.add_sub_self]
    · refine ⟨hgoes, Or.inr ⟨rfl, (Grid.mem_incoming_iff hc).mp ?_⟩⟩
      rwa [Point.add_sub_self]
  · rintro ⟨hgoes, ⟨rfl, hk⟩ | ⟨rfl, hk⟩⟩
    · refine Or.inl ⟨_, _, ⟨(Grid.mem_outgoing_iff hc).mpr hk, hgoes⟩, ?_⟩
      rw [Point.add_sub_cancel]
    · refine Or.inr ⟨_, _, ⟨(Grid.mem_incoming_iff hc).mpr hk, ?_⟩, ?_⟩
      · rwa [Point.add_sub_cancel]
      · rw [Point.add_sub_cancel]

/-- A plan that a rule makes: some bonds are dropped and then some are added. -/
def Planned (g : Grid) (plan : Plan) : Prop :=
  ∃ dropped created : List Bond,
    plan = created.foldl (Plan.add g) (dropped.foldl (Plan.drop g) .empty)

theorem planned_empty (g : Grid) : Planned g .empty := ⟨[], [], rfl⟩

theorem Planned.wellFormed {g : Grid} {plan : Plan} (h : Planned g plan) : plan.WellFormed g := by
  obtain ⟨dropped, created, rfl⟩ := h
  exact Plan.wellFormed_adds _ (Plan.wellFormed_drops _ (Plan.wellFormed_empty g))

theorem Planned.mirrored {g : Grid} {plan : Plan} (h : Planned g plan) (hm : g.field.Mirrored) :
    (plan.field g).Mirrored := by
  obtain ⟨dropped, created, rfl⟩ := h
  exact Plan.mirrored_adds _ (Plan.mirrored_drops _ (Plan.field_empty g ▸ hm))

theorem planned_planFor? {e : UpdateEvent R} {g : Grid} {l : Labels} {created : List BondExpr}
    {plan : Plan} (h : e.planFor? g l created = some plan) : Planned g plan := by
  obtain ⟨bonds, -, h⟩ := Option.bind_eq_some_iff.mp h
  cases Option.some.inj h
  exact ⟨e.ends.flatMap (e.droppedAt g l), bonds, rfl⟩

theorem planned_planRule {e : UpdateEvent R} {g : Grid} {l l' : Labels} {rule : TransformRule R}
    {plan : Plan} (h : e.planRule g l rule = (some plan, l')) : Planned g plan := by
  unfold planRule at h
  split at h
  next => simp at h
  next =>
    split at h
    next => simp at h
    next =>
      simp only at h
      split at h
      next => simp at h
      next => exact planned_planFor? (Prod.mk.inj h).1

/-- Binding leaves a change as it is but for its labels and its plan. -/
theorem bind_eq_ok {e e' : UpdateEvent R} {g : Grid} {bound : Bool}
    (h : e.bind g = .ok (bound, e')) :
    ∃ labels plan, e' = { e with bound := true, labels, plan } ∧
      (plan = e.plan ∨ Planned g plan) := by
  unfold bind at h
  split at h
  next => simp at h
  next =>
    simp only at h
    split at h
    next =>
      cases h
      exact ⟨_, _, rfl, Or.inl rfl⟩
    next =>
      split at h
      next hp =>
        cases h
        exact ⟨_, _, rfl, Or.inr (planned_planRule hp)⟩
      next =>
        cases h
        exact ⟨_, _, rfl, Or.inl rfl⟩

/-- The old particles of a change are those of the cells at its ends. -/
structure Meets (e : UpdateEvent R) (g : Grid) : Prop where
  apart : e.source ≠ e.target
  source : e.remote = false → ∀ c, g.get? e.source = some c → c.particle = e.oldSource
  target : ∀ c, g.get? e.target = some c → c.particle = e.oldTarget

theorem meets_new {g : Grid} {p q : Point} {c d : Cell} (hpq : p ≠ q) (hc : g.get? p = some c)
    (hd : g.get? q = some d) (dir : Direction) (o : Outcome R) :
    (UpdateEvent.new p q dir c.particle d.particle o).Meets g := by
  refine ⟨hpq, fun _ x hx => ?_, fun x hx => ?_⟩
  · cases hc.symm.trans hx
    rfl
  · cases hd.symm.trans hx
    rfl

theorem Meets.bind {e e' : UpdateEvent R} {g g' : Grid} {bound : Bool} (h : e.Meets g)
    (he : e.bind g' = .ok (bound, e')) : e'.Meets g := by
  obtain ⟨labels, plan, rfl, -⟩ := bind_eq_ok he
  exact ⟨h.apart, h.source, h.target⟩

/-- The grid with the new particles of a change at those of its ends that are on the board. -/
def putEnds (e : UpdateEvent R) (g : Grid) : Grid :=
  (if e.remote then g else g.put e.source e.newSource).put e.target e.newTarget

theorem field_putEnds (e : UpdateEvent R) (g : Grid) : (e.putEnds g).field = g.field := by
  unfold putEnds
  rw [Grid.field_put]
  split
  · rfl
  · exact Grid.field_put ..

theorem contains_putEnds (e : UpdateEvent R) (g : Grid) (p : Point) :
    (e.putEnds g).contains p = g.contains p := by
  unfold putEnds
  rw [Grid.contains_put]
  split
  · rfl
  · exact Grid.contains_put ..

/-- The grid after a change. -/
def applied (e : UpdateEvent R) (g : Grid) : Grid := e.plan.carryOut (e.putEnds g)

theorem field_applied {e : UpdateEvent R} {g : Grid} (h : e.plan.WellFormed g) :
    (e.applied g).field = e.plan.field g := by
  have hw : e.plan.WellFormed (e.putEnds g) :=
    ⟨h.ordered, fun d hd => (e.contains_putEnds g d.1).trans (h.onGrid d hd)⟩
  rw [applied, Plan.field_carryOut hw]
  funext p
  have hf : ((e.putEnds g).get? p).map (·.bonds) = (g.get? p).map (·.bonds) :=
    congrFun (e.field_putEnds g) p
  simp only [Plan.field, Plan.bondsAt, hf]

theorem contains_applied (e : UpdateEvent R) (g : Grid) (p : Point) :
    (e.applied g).contains p = g.contains p :=
  ((e.plan.sameStates_carryOut _).contains p).trans (e.contains_putEnds g p)

/-- What a change makes of a cell. -/
theorem get?_applied {e : UpdateEvent R} {g : Grid} (ha : e.source ≠ e.target)
    (hw : e.plan.WellFormed g) {p : Point} {c : Cell} (hc : g.get? p = some c) :
    ∃ c', (e.applied g).get? p = some c' ∧
      c'.particle =
        (if p = e.target then e.newTarget else if p ∈ e.ends then e.newSource else c.particle) ∧
      c'.writes = (if p ∈ e.ends then c.writes + 1 else c.writes) ∧
      c'.bonds = (e.plan.get? p).getD c.bonds := by
  have hput : ∃ d, (e.putEnds g).get? p = some d ∧
      d.particle =
        (if p = e.target then e.newTarget else if p ∈ e.ends then e.newSource else c.particle) ∧
      d.writes = (if p ∈ e.ends then c.writes + 1 else c.writes) := by
    unfold putEnds ends
    by_cases ht : p = e.target
    · subst ht
      cases e.remote <;> simp [Grid.get?_put, hc, ha.symm]
    · by_cases hs : p = e.source
      · subst hs
        cases e.remote <;> simp [Grid.get?_put, hc, ha]
      · cases e.remote <;> simp [Grid.get?_put, hc, hs, ht]
  obtain ⟨d, hd, hparticle, hwrites⟩ := hput
  obtain ⟨c', hc', hp, hws⟩ := (e.plan.sameStates_carryOut (e.putEnds g)).get? hd
  refine ⟨c', hc', hp.trans hparticle, hws.trans hwrites, ?_⟩
  have hfield := congrFun (field_applied hw) p
  rw [Grid.field, applied, hc', Plan.field, Plan.bondsAt, hc] at hfield
  cases hplan : e.plan.get? p with
  | none => simpa [hplan] using hfield
  | some bonds => simpa [hplan] using hfield

theorem write_eq_ok {s s' : List Point × Grid × Registry R} {p : Point} {old new : ParticleId}
    (h : write s p old new = .ok s') : s'.2.1 = s.2.1.put p new := by
  obtain ⟨touched, g, r⟩ := s
  unfold write at h
  simp only at h
  split at h
  next hc =>
    cases h
    exact (Grid.put_of_not_contains (by simpa using hc) new).symm
  next =>
    split at h
    next =>
      obtain ⟨r', -, h⟩ := ParticleAutomaton.bind_eq_ok.mp h
      cases h
      rfl
    next =>
      cases h
      rfl

/-- Writes the new source, unless it is on another board. -/
def writeSource (e : UpdateEvent R) (s : List Point × Grid × Registry R) :
    Except Fault (List Point × Grid × Registry R) :=
  if e.remote then .ok s else write s e.source e.oldSource e.newSource

/-- The places that a change tells besides its ends. -/
def touchPlan (e : UpdateEvent R) (touched : List Point) : List Point :=
  e.plan.edits.foldl (fun touched (p, _) =>
    if touched.contains p then touched else touched ++ [p]) touched

theorem commit_eq (e : UpdateEvent R) (g : Grid) (r : Registry R) :
    e.commit g r = e.writeSource ([], g, r) >>= fun s =>
      write s e.target e.oldTarget e.newTarget >>= fun s =>
        .ok (e.touchPlan s.1, e.plan.carryOut s.2.1, s.2.2) := by
  unfold commit writeSource
  split <;> rfl

theorem commit_eq_ok {e : UpdateEvent R} {g g' : Grid} {r r' : Registry R} {touched : List Point}
    (h : e.commit g r = .ok (touched, g', r')) : g' = e.applied g := by
  rw [commit_eq] at h
  obtain ⟨s, hs, h⟩ := ParticleAutomaton.bind_eq_ok.mp h
  obtain ⟨t, ht, h⟩ := ParticleAutomaton.bind_eq_ok.mp h
  have hg : e.plan.carryOut t.2.1 = g' := by
    cases h
    rfl
  rw [← hg, write_eq_ok ht, applied, putEnds]
  unfold writeSource at hs
  split at hs
  next hr =>
    cases hs
    rw [if_pos hr]
  next hr => rw [if_neg hr, write_eq_ok hs]

end UpdateEvent

end ParticleAutomaton
