import ParticleAutomaton.Proofs.Counts
import ParticleAutomaton.Proofs.Eviction
import ParticleAutomaton.Proofs.SameBonds

namespace ParticleAutomaton

/-- A grid with the registry of its particles. -/
abbrev Scene (R : Type) := Grid × Registry R

variable {R : Type}

/-- The registry counts the cells of each particle. -/
def Scene.Counted (x : Scene R) : Prop := ∀ id, x.2.held id = x.1.particles.count id

/-- Two particles, each of its own registry, have one name. -/
def Registry.Namesakes (r s : Registry R) (i j : ParticleId) : Prop :=
  ∃ name, r.name? i = some name ∧ s.name? j = some name

/-- Two cells, each with its own registry, have the same contents by name. -/
structure Registry.CellsAlike (r s : Registry R) (c d : Cell) : Prop where
  particle : r.Namesakes s c.particle d.particle
  writes : d.writes = c.writes
  bonds : d.bonds = c.bonds

theorem Registry.Namesakes.name {r s : Registry R} {i j : ParticleId} (h : r.Namesakes s i j) :
    s.name j = r.name i := by
  obtain ⟨name, hi, hj⟩ := h
  rw [Registry.name_of hi, Registry.name_of hj]

theorem Scene.Counted.extends {x : Scene R} (h : x.Counted) {r : Registry R} (he : x.2.Extends r) :
    Scene.Counted (x.1, r) := fun id => (he.held id).trans (h id)

theorem Scene.Counted.rebond {x : Scene R} (h : x.Counted) {g : Grid} (hg : Grid.SameStates x.1 g) :
    Scene.Counted (g, x.2) := fun id => hg.particles ▸ h id

variable [Scalar R]

/-- Two scenes are the same by name. -/
structure Scene.Alike (x y : Scene R) : Prop where
  left : x.2.Sound
  right : y.2.Sound
  rules : y.2.rules = x.2.rules
  maxNameLen : y.2.maxNameLen = x.2.maxNameLen
  width : y.1.width = x.1.width
  height : y.1.height = x.1.height
  cell : ∀ {p : Point} {c : Cell}, x.1.get? p = some c →
    ∃ d, y.1.get? p = some d ∧ x.2.CellsAlike y.2 c d

/-- What the registries of two scenes have come to by learning. -/
structure Scene.Learned (x y : Scene R) (r s : Registry R) : Prop where
  left : r.Sound
  right : s.Sound
  leftExtends : x.2.Extends r
  rightExtends : y.2.Extends s

/-- Besides, both registries count the cells of each particle. -/
structure Scene.Twins (x y : Scene R) : Prop extends Scene.Alike x y where
  leftCounted : x.Counted
  rightCounted : y.Counted

namespace Registry

variable {r s r' s' : Registry R} {i j k l : ParticleId}

theorem Namesakes.of_keeps (h : r.Namesakes s i j) (hr : r.Sound) (hs : s.Sound) (kr : r.Keeps r')
    (ks : s.Keeps s') : r'.Namesakes s' i j := by
  obtain ⟨name, hi, hj⟩ := h
  exact ⟨name, hr.name?_of_keeps kr hi, hs.name?_of_keeps ks hj⟩

/-- To tell particles apart their names do. -/
theorem Namesakes.eq_iff (h : r.Namesakes s i j) (h' : r.Namesakes s k l) (hr : r.Sound)
    (hs : s.Sound) : i = k ↔ j = l := by
  obtain ⟨name, hi, hj⟩ := h
  obtain ⟨name', hk, hl⟩ := h'
  constructor
  · rintro rfl
    cases hi.symm.trans hk
    exact hs.name_inj hj hl
  · rintro rfl
    cases hj.symm.trans hl
    exact hr.name_inj hi hk

end Registry

theorem Registry.Namesakes.learned {x y : Scene R} {r s : Registry R} {i j : ParticleId}
    (h : x.2.Namesakes y.2 i j) (a : x.Alike y) (l : x.Learned y r s) : r.Namesakes s i j :=
  h.of_keeps a.left a.right l.leftExtends.toKeeps l.rightExtends.toKeeps

namespace Scene

namespace Alike

variable {x y : Scene R} (h : x.Alike y)

include h

theorem contains (p : Point) : y.1.contains p = x.1.contains p := by
  simp [Grid.contains, Grid.index?, h.width, h.height]

theorem points : y.1.points = x.1.points := by
  simp [Grid.points, h.width, h.height]

theorem get?_none {p : Point} (hn : x.1.get? p = none) : y.1.get? p = none := by
  rw [Grid.get?_eq_none_iff, h.contains]
  exact Grid.get?_eq_none_iff.mp hn

theorem field : y.1.field = x.1.field := by
  funext p
  unfold Grid.field
  cases hc : x.1.get? p with
  | none => rw [h.get?_none hc]
  | some c =>
    obtain ⟨d, hd, hcd⟩ := h.cell hc
    rw [hd, Option.map_some, Option.map_some, hcd.bonds]

theorem sameBonds : Grid.SameBonds x.1 y.1 := ⟨h.width, h.height, h.field⟩

/-- What a registry learns makes no difference. -/
theorem learn {r s : Registry R} (hr : r.Sound) (hs : s.Sound) (kr : x.2.Keeps r)
    (ks : y.2.Keeps s) : Alike (x.1, r) (y.1, s) := by
  refine ⟨hr, hs, ks.rules.trans (h.rules.trans kr.rules.symm),
    ks.maxNameLen.trans (h.maxNameLen.trans kr.maxNameLen.symm), h.width, h.height, fun hc => ?_⟩
  obtain ⟨d, hd, hcd⟩ := h.cell hc
  exact ⟨d, hd, hcd.particle.of_keeps h.left h.right kr ks, hcd.writes, hcd.bonds⟩

/-- New bonds that are the same. -/
theorem rebond {g k : Grid} (hg : Grid.SameStates x.1 g) (hk : Grid.SameStates y.1 k)
    (hf : k.field = g.field) : Alike (g, x.2) (k, y.2) := by
  refine ⟨h.left, h.right, h.rules, h.maxNameLen, hk.width.trans (h.width.trans hg.width.symm),
    hk.height.trans (h.height.trans hg.height.symm), fun {p c} hc => ?_⟩
  obtain ⟨c₀, hc₀⟩ := Grid.get?_of_contains ((hg.contains p).symm.trans (Grid.contains_of_get? hc))
  obtain ⟨d₀, hd₀, hcd⟩ := h.cell hc₀
  obtain ⟨c', hc', hcp, hcw⟩ := hg.get? hc₀
  obtain ⟨d, hd, hdp, hdw⟩ := hk.get? hd₀
  cases hc'.symm.trans hc
  have hb : (k.get? p).map (·.bonds) = (g.get? p).map (·.bonds) := congrFun hf p
  simp only [hc, hd, Option.map_some, Option.some.injEq] at hb
  exact ⟨d, hd, by rw [hcp, hdp]; exact hcd.particle, by rw [hcw, hdw, hcd.writes], hb⟩

/-- The same change of contents at a place. -/
theorem modify (p : Point) {f k : Cell → Cell}
    (hf : ∀ c d, x.2.CellsAlike y.2 c d → x.2.CellsAlike y.2 (f c) (k d)) :
    Alike (x.1.modify p f, x.2) (y.1.modify p k, y.2) := by
  refine ⟨h.left, h.right, h.rules, h.maxNameLen, ?_, ?_, fun {q c} hc => ?_⟩
  · rw [Grid.width_modify, Grid.width_modify, h.width]
  · rw [Grid.height_modify, Grid.height_modify, h.height]
  · rw [Grid.get?_modify] at hc ⊢
    split at hc
    next he =>
      obtain ⟨c₀, hc₀, rfl⟩ := Option.map_eq_some_iff.mp hc
      obtain ⟨d, hd, hcd⟩ := h.cell hc₀
      exact ⟨k d, by rw [if_pos he, hd]; rfl, hf c₀ d hcd⟩
    next he =>
      rw [if_neg he]
      exact h.cell hc

theorem put (p : Point) {i j : ParticleId} (hij : x.2.Namesakes y.2 i j) :
    Alike (x.1.put p i, x.2) (y.1.put p j, y.2) :=
  h.modify p fun _ _ hcd => ⟨hij, congrArg (· + 1) hcd.writes, hcd.bonds⟩

/-- The particle of a name. -/
theorem intern (name : String) :
    let x' : Scene R := (x.1, (x.2.intern name).2)
    let y' : Scene R := (y.1, (y.2.intern name).2)
    Alike x' y' ∧ x'.2.Namesakes y'.2 (x.2.intern name).1 (y.2.intern name).1 := by
  obtain ⟨hx, ex, nx⟩ := h.left.intern name
  obtain ⟨hy, ey, ny⟩ := h.right.intern name
  exact ⟨h.learn hx hy ex.toKeeps ey.toKeeps, _, nx, h.maxNameLen ▸ ny⟩

end Alike

/-- The particle of a cell can be exchanged for another one. -/
theorem Counted.write {x : Scene R} (h : x.Counted) (hx : x.2.Sound) {p : Point} {c : Cell}
    (hc : x.1.get? p = some c) {new : ParticleId} {name : String} (hn : x.2.name? new = some name) :
    ∃ r, x.2.exchange c.particle new = .ok r ∧ r.Sound ∧ x.2.Keeps r ∧
      Counted (x.1.put p new, r) := by
  have hpos : 0 < x.2.held c.particle := by
    rw [h]
    exact List.count_pos_iff.mpr (Grid.particle_mem hc)
  obtain ⟨r, hr, hs, hk, hheld⟩ := hx.exchange hn hpos
  refine ⟨r, hr, hs, hk, fun id => ?_⟩
  have hput := Grid.count_put hc new id
  have heq := hheld id
  rw [h] at heq
  change r.held id = (x.1.put p new).particles.count id
  omega

namespace Twins

variable {x y : Scene R} (h : x.Twins y)

include h

theorem learn {r s : Registry R} (l : x.Learned y r s) : Twins (x.1, r) (y.1, s) :=
  ⟨h.toAlike.learn l.left l.right l.leftExtends.toKeeps l.rightExtends.toKeeps,
    h.leftCounted.extends l.leftExtends, h.rightCounted.extends l.rightExtends⟩

theorem rebond {g k : Grid} (hg : Grid.SameStates x.1 g) (hk : Grid.SameStates y.1 k)
    (hf : k.field = g.field) : Twins (g, x.2) (k, y.2) :=
  ⟨h.toAlike.rebond hg hk hf, h.leftCounted.rebond hg, h.rightCounted.rebond hk⟩

theorem intern (name : String) :
    let x' : Scene R := (x.1, (x.2.intern name).2)
    let y' : Scene R := (y.1, (y.2.intern name).2)
    Twins x' y' ∧ x'.2.Namesakes y'.2 (x.2.intern name).1 (y.2.intern name).1 := by
  obtain ⟨hx, ex, -⟩ := h.left.intern name
  obtain ⟨hy, ey, -⟩ := h.right.intern name
  exact ⟨h.learn ⟨hx, hy, ex, ey⟩, (h.toAlike.intern name).2⟩

/-- Flushing lets go of no particle of a cell. -/
theorem flush : Twins x (y.1, y.2.flush.2) := by
  have hcounted : Counted (y.1, y.2.flush.2) := fun id =>
    (y.2.held_flush id).trans (h.rightCounted id)
  refine ⟨⟨h.left, h.right.flush, h.rules, h.maxNameLen, h.width, h.height, fun hc => ?_⟩,
    h.leftCounted, hcounted⟩
  obtain ⟨d, hd, hcd⟩ := h.cell hc
  obtain ⟨name, hi, hj⟩ := hcd.particle
  have hpos : 0 < y.2.held d.particle := by
    rw [h.rightCounted]
    exact List.count_pos_iff.mpr (Grid.particle_mem hd)
  exact ⟨d, hd, ⟨name, hi, Registry.name?_flush_eq_some_iff.mpr ⟨hj, hpos⟩⟩, hcd.writes, hcd.bonds⟩

/-- The same particle by name is written to a cell of both. -/
theorem write {p : Point} {c d : Cell} (hc : x.1.get? p = some c) (hd : y.1.get? p = some d)
    {i j : ParticleId} (hij : x.2.Namesakes y.2 i j) :
    ∃ r s, x.2.exchange c.particle i = .ok r ∧ y.2.exchange d.particle j = .ok s ∧
      x.2.Keeps r ∧ y.2.Keeps s ∧ Twins (x.1.put p i, r) (y.1.put p j, s) := by
  obtain ⟨name, hi, hj⟩ := hij
  obtain ⟨r, hr, hrs, kr, cr⟩ := h.leftCounted.write h.left hc hi
  obtain ⟨s, hs, hss, ks, cs⟩ := h.rightCounted.write h.right hd hj
  exact ⟨r, s, hr, hs, kr, ks, (h.toAlike.put p ⟨name, hi, hj⟩).learn hrs hss kr ks, cr, cs⟩

end Twins

end Scene

end ParticleAutomaton
