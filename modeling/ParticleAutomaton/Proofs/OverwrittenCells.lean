import ParticleAutomaton.Proofs.BoardLikeness
import ParticleAutomaton.Proofs.RemovedBonds

namespace ParticleAutomaton.Grid

/-- A particle has been written to a cell, and the bonds that ended there are gone. -/
structure Overwrites (g : Grid) (p : Point) (i : ParticleId) (h : Grid) : Prop where
  width : h.width = g.width
  height : h.height = g.height
  cell : ∀ {c}, g.get? p = some c →
    ∃ c', h.get? p = some c' ∧ c'.particle = i ∧ c'.writes = c.writes + 1
  other : ∀ {q c}, q ≠ p → g.get? q = some c →
    ∃ c', h.get? q = some c' ∧ c'.particle = c.particle ∧ c'.writes = c.writes
  leaves : ∀ k, h.field.Leaves k ↔ g.field.Leaves k ∧ ¬ k.EndsAt p
  enters : ∀ k, h.field.Enters k ↔ g.field.Enters k ∧ ¬ k.EndsAt p

theorem Overwrites.contains {g h : Grid} {p : Point} {i : ParticleId} (o : g.Overwrites p i h)
    (q : Point) : h.contains q = g.contains q := by
  simp [Grid.contains, Grid.index?, o.width, o.height]

theorem overwrites_overwritten {g : Grid} (hm : g.field.Mirrored) {p : Point}
    (hp : g.contains p = true) (i : ParticleId) :
    g.Overwrites p i (Board.overwritten g p i) := by
  have hbare := unbonded_removeBonds hm hp
  have hfield : (Board.overwritten g p i).field = (g.removeBonds p).2.field := field_put ..
  have hget : ∀ q, (Board.overwritten g p i).get? q =
      if q = p then ((g.removeBonds p).2.get? q).map fun c =>
        { c with particle := i, writes := c.writes + 1 }
      else (g.removeBonds p).2.get? q := fun q => get?_put ..
  refine ⟨(width_modify ..).trans hbare.states.width, (height_modify ..).trans hbare.states.height,
    fun hc => ?_, fun {q} _ hq hc => ?_, hfield ▸ hbare.leaves, hfield ▸ hbare.enters⟩
  · obtain ⟨c', hc', -, hw⟩ := hbare.states.get? hc
    refine ⟨{ c' with particle := i, writes := c'.writes + 1 }, ?_, rfl, congrArg (· + 1) hw⟩
    rw [hget, if_pos rfl, hc']
    rfl
  · obtain ⟨c', hc', hparticle, hw⟩ := hbare.states.get? hc
    exact ⟨c', (hget q).trans ((if_neg hq).trans hc'), hparticle, hw⟩

end ParticleAutomaton.Grid

namespace ParticleAutomaton.Board

/-- A cell that keeps its particle shows the same name. -/
theorem Alike.same_cell {R γ : Type} [Scalar R] {b c : Board R γ} (hb : b.Alike b)
    (hr : b.registry.Retains c.registry) {p : Point}
    (hp : c.grid.contains p = b.grid.contains p)
    (h : ∀ {cell}, b.grid.get? p = some cell → ∃ cell', c.grid.get? p = some cell' ∧
      cell'.particle = cell.particle ∧ cell'.writes = cell.writes) :
    c.particleName? p = b.particleName? p ∧ c.writes? p = b.writes? p := by
  unfold particleName? writes?
  cases hcell : b.grid.get? p with
  | none =>
    have hout : c.grid.get? p = none := by
      rw [Grid.get?_eq_none_iff, hp]
      exact Grid.get?_eq_none_iff.mp hcell
    rw [hout]
    exact ⟨rfl, rfl⟩
  | some cell =>
    obtain ⟨cell', hcell', hparticle, hwrites⟩ := h hcell
    obtain ⟨n, hname⟩ := hb.named hcell
    simp only [hcell', Option.map_some, hparticle, hwrites, Registry.name_of hname,
      Registry.name_of (hr.name? hname), and_self]

end ParticleAutomaton.Board
