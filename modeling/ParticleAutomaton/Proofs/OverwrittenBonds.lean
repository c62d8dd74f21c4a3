import Mathlib
import ParticleAutomaton.Proofs.RateMemory
import ParticleAutomaton.Proofs.Steps
import ParticleAutomaton.Proofs.TotalEnergy

namespace ParticleAutomaton

namespace Registry

variable {R : Type} [Scalar R]

theorem Sound.energyRules_eq {r : Registry R} (h : r.Sound) {source target : ParticleId}
    {m n : String} (hs : r.name? source = some m) (ht : r.name? target = some n) (bond : String) :
    (r.energyRules source bond target).1 = r.rules.energyRules m n bond := by
  obtain ⟨p, hp, rfl⟩ := get?_of_name? hs
  rw [energyRules_fst, hp, Option.bind_some, name_of hs, name_of ht]
  cases he : p.energies[(bond, target)]? with
  | none => rfl
  | some rules =>
    rw [Option.getD_some, ((h.fits hp).energies he).2, name_of ht]

/-- The energy of a bond depends on the names of its particles alone. -/
theorem Retains.bondEnergy_fst {r s : Registry R} (h : r.Retains s) (hr : r.Sound) (hs : s.Sound)
    {source target : ParticleId} {m n : String} (hm : r.name? source = some m)
    (hn : r.name? target = some n) (bond : String) (offset : Point) (previous : Option Point) :
    (s.bondEnergy source bond target offset previous).1 =
      (r.bondEnergy source bond target offset previous).1 := by
  unfold bondEnergy
  simp only [rules_energyRules, hr.energyRules_eq hm hn,
    hs.energyRules_eq (h.name? hm) (h.name? hn), h.rules]

end Registry

/-- A bond has an end at a place. -/
def Bond.EndsAt (p : Point) (b : Bond) : Prop := b.origin = p ∨ b.destination = p

instance (p : Point) : DecidablePred (Bond.EndsAt p) := fun _ => inferInstanceAs (Decidable (_ ∨ _))

namespace Grid

/-- A bond of the same name leads from a place to the origin of a bond. -/
def Precedes (g : Grid) (p : Point) (b : Bond) : Prop :=
  g.outgoing? p b.name = some (b.origin - p)

instance (g : Grid) (p : Point) : DecidablePred (g.Precedes p) :=
  fun _ => inferInstanceAs (Decidable (_ = _))

/-- A bond from a place to itself has no length, so no rule is for it. -/
theorem energyOf_loop {R : Type} [Scalar R] {g : Grid} {b : Bond} (h : b.origin = b.destination)
    (r : Registry R) : g.energyOf r b = 0 := by
  have hz : (b.destination - b.origin).isZero = true := by
    simp [h, Point.isZero, Point.sub_x, Point.sub_y]
  unfold energyOf
  split
  next =>
    simp only [Registry.bondEnergy, EnergyRule.sum, BondGeometry.factor, hz, if_true,
      Option.bind_none, Option.bind_eq_bind, Option.map_none, List.filterMap_none]
    exact Scalar.sum_nil
  next => rfl

section

variable {R : Type} [ExactScalar R] {g : Grid} (hm : g.field.Mirrored) {p : Point} {c : Cell}
  (hc : g.get? p = some c)

include hm hc

omit hm in
theorem sum_leaving (r : Registry R) :
    ((c.bonds.leaving p).map (g.energyOf r)).sum =
      ∑ b ∈ g.innerBonds.toFinset with b.origin = p, g.energyOf r b := by
  rw [← List.sum_toFinset _ (c.bonds.nodup_leaving p)]
  symm
  refine Finset.sum_subset (fun b hb => ?_) fun b hb hnot => energyOf_outside (fun hin => ?_) r
  · obtain ⟨hinner, rfl⟩ := Finset.mem_filter.mp hb
    obtain ⟨hl, -⟩ := mem_innerBonds.mp (List.mem_toFinset.mp hinner)
    have ho := c.bonds.outgoing.mem_entries_iff.mp ((mem_outgoing_iff hc).mpr hl)
    exact List.mem_toFinset.mpr (CellBonds.mem_leaving.mpr ⟨rfl, ho⟩)
  · obtain ⟨rfl, ho⟩ := CellBonds.mem_leaving.mp (List.mem_toFinset.mp hb)
    have hl := (mem_outgoing_iff hc).mp (c.bonds.outgoing.mem_entries_iff.mpr ho)
    exact hnot (Finset.mem_filter.mpr
      ⟨List.mem_toFinset.mpr (mem_innerBonds.mpr ⟨hl, hin.2⟩), rfl⟩)

theorem sum_entering (r : Registry R) :
    ((c.bonds.entering p).map (g.energyOf r)).sum =
      ∑ b ∈ g.innerBonds.toFinset with b.origin ≠ p ∧ b.destination = p, g.energyOf r b := by
  rw [← List.sum_toFinset _ (c.bonds.nodup_entering p)]
  symm
  refine Finset.sum_subset (fun b hb => ?_) fun b hb hnot => ?_
  · obtain ⟨hinner, -, rfl⟩ := Finset.mem_filter.mp hb
    obtain ⟨hl, hd⟩ := mem_innerBonds.mp (List.mem_toFinset.mp hinner)
    have he := (hm b hl.holds (holds_field.mpr hd)).mp hl
    have hi := c.bonds.incoming.mem_entries_iff.mp ((mem_incoming_iff hc).mpr he)
    exact List.mem_toFinset.mpr (CellBonds.mem_entering.mpr ⟨rfl, hi⟩)
  · obtain ⟨rfl, hi⟩ := CellBonds.mem_entering.mp (List.mem_toFinset.mp hb)
    have he := (mem_incoming_iff hc).mp (c.bonds.incoming.mem_entries_iff.mpr hi)
    by_cases hloop : b.origin = b.destination
    · exact energyOf_loop hloop r
    · refine energyOf_outside (fun hin => hnot ?_) r
      have hl := (hm b (holds_field.mpr hin.1) (holds_field.mpr hin.2)).mpr he
      exact Finset.mem_filter.mpr
        ⟨List.mem_toFinset.mpr (mem_innerBonds.mpr ⟨hl, hin.2⟩), hloop, rfl⟩

/-- A bond that stands twice in the list of a cell has no energy. -/
theorem sum_bondsAt (r : Registry R) :
    ((c.bonds.bondsAt p).map (g.energyOf r)).sum =
      ∑ b ∈ g.innerBonds.toFinset with b.EndsAt p, g.energyOf r b := by
  rw [CellBonds.bondsAt_eq, List.map_append, List.sum_append, sum_leaving hc,
    sum_entering hm hc, ← Finset.sum_filter_add_sum_filter_not
      (g.innerBonds.toFinset.filter (Bond.EndsAt p)) fun b => b.origin = p,
    Finset.filter_filter, Finset.filter_filter]
  refine congrArg₂ (· + ·) (Finset.sum_congr (Finset.filter_congr fun b _ => ?_) fun _ _ => rfl)
    (Finset.sum_congr (Finset.filter_congr fun b _ => ?_) fun _ _ => rfl)
  · exact ⟨fun h => ⟨Or.inl h, h⟩, And.right⟩
  · exact ⟨fun h => ⟨Or.inr h.2, h.1⟩, fun h => ⟨h.2, h.1.resolve_left h.2⟩⟩

end

section

variable {g : Grid} {p : Point}

theorem mem_innerBonds_overwritten (hm : g.field.Mirrored) {i : ParticleId} {b : Bond} :
    b ∈ (Board.overwritten g p i).innerBonds ↔ b ∈ g.innerBonds ∧ ¬ b.EndsAt p := by
  rw [mem_innerBonds, mem_innerBonds, Board.overwritten, field_put, leaves_removeBonds,
    contains_put, (sameStates_removeBonds g p).contains]
  constructor
  · rintro ⟨⟨hl, ho, hd⟩, hin⟩
    refine ⟨⟨hl, hin⟩, ?_⟩
    rintro (hp | hp)
    · exact ho hp
    · exact hd ⟨hp, (hm b hl.holds (holds_field.mpr hin)).mp hl⟩
  · rintro ⟨⟨hl, hin⟩, hp⟩
    exact ⟨⟨hl, fun ho => hp (Or.inl ho), fun hd => hp (Or.inr hd.1)⟩, hin⟩

/-- Another cell keeps its particle, and its bonds from all places but the one that is written. -/
theorem cell_overwritten {i : ParticleId} {q : Point} {c : Cell} (hq : q ≠ p)
    (hc : g.get? q = some c) :
    ∃ c', (Board.overwritten g p i).get? q = some c' ∧ c'.particle = c.particle ∧
      ∀ name, g.outgoing? p name ≠ some (q - p) →
        c'.bonds.incoming.get? name = c.bonds.incoming.get? name := by
  obtain ⟨c', hc', hparticle, -⟩ := (sameStates_removeBonds g p).get? hc
  refine ⟨c', ?_, hparticle, fun name hn => Option.ext fun offset => ?_⟩
  · rw [Board.overwritten, get?_put, if_neg hq, hc']
  · have henters := enters_removeBonds (g := g) (p := p) (b := ⟨q + offset, q, name⟩)
    rw [enters_field, enters_field, leaves_field] at henters
    simp only [Point.add_sub_self, incoming?, hc, hc', Option.bind_some] at henters
    have hfar : ¬ (q + offset = p ∧ g.outgoing? (q + offset) name = some (q - (q + offset))) := by
      rintro ⟨rfl, ho⟩
      exact hn ho
    rw [henters]
    exact ⟨And.left, fun hi => ⟨hi, hq, hfar⟩⟩

variable {R : Type} [Scalar R] {r s : Registry R}

/-- A bond elsewhere keeps its energy, unless a bond of its name leads from the place to it. -/
theorem energyOf_overwritten (hk : r.Retains s) (hr : r.Sound) (hs : s.Sound)
    (hn : ∀ {q c}, g.get? q = some c → ∃ name, r.name? c.particle = some name) {i : ParticleId}
    {b : Bond} (hp : ¬ b.EndsAt p) (hb : ¬ g.Precedes p b) :
    (Board.overwritten g p i).energyOf s b = g.energyOf r b := by
  obtain ⟨ho, hd⟩ := not_or.mp hp
  by_cases hin : g.contains b.origin = true ∧ g.contains b.destination = true
  · obtain ⟨c, hc⟩ := get?_of_contains hin.1
    obtain ⟨d, hd'⟩ := get?_of_contains hin.2
    obtain ⟨c', hc', hcp, hci⟩ := cell_overwritten (i := i) ho hc
    obtain ⟨d', hd'', hdp, -⟩ := cell_overwritten (i := i) hd hd'
    obtain ⟨m, hm⟩ := hn hc
    obtain ⟨n, hn⟩ := hn hd'
    unfold energyOf
    simp only [hc, hd', hc', hd'', hcp, hdp, hci b.name hb]
    exact hk.bondEnergy_fst hr hs hm hn ..
  · have hout : ¬ ((Board.overwritten g p i).contains b.origin = true ∧
        (Board.overwritten g p i).contains b.destination = true) := by
      rw [Board.overwritten, contains_put, contains_put, (sameStates_removeBonds g p).contains,
        (sameStates_removeBonds g p).contains]
      exact hin
    rw [energyOf_outside hin, energyOf_outside hout]

end

/-- The bonds that a bond from a place leads to, and that do not end there themselves. -/
def chained (g : Grid) (p : Point) : Finset Bond :=
  g.innerBonds.toFinset.filter fun b => ¬ b.EndsAt p ∧ g.Precedes p b

/-- To write a cell loses the energy of its bonds, and changes that of the bonds that its bonds lead
to. -/
theorem totalEnergy_overwritten {R : Type} [ExactScalar R] {g : Grid} {p : Point} {r s : Registry R}
    (hm : g.field.Mirrored) (hk : r.Retains s) (hr : r.Sound) (hs : s.Sound)
    (hn : ∀ {q c}, g.get? q = some c → ∃ name, r.name? c.particle = some name) (i : ParticleId) :
    (Board.overwritten g p i).totalEnergy s - g.totalEnergy r =
      -∑ b ∈ g.innerBonds.toFinset with b.EndsAt p, g.energyOf r b +
        ∑ b ∈ g.chained p, ((Board.overwritten g p i).energyOf s b - g.energyOf r b) := by
  have hinner : (Board.overwritten g p i).innerBonds.toFinset =
      g.innerBonds.toFinset.filter fun b => ¬ b.EndsAt p := by
    ext b
    rw [Finset.mem_filter, List.mem_toFinset, List.mem_toFinset, mem_innerBonds_overwritten hm]
  have hfar : ∑ b ∈ g.innerBonds.toFinset with ¬ b.EndsAt p,
        ((Board.overwritten g p i).energyOf s b - g.energyOf r b) =
      ∑ b ∈ g.chained p, ((Board.overwritten g p i).energyOf s b - g.energyOf r b) := by
    rw [chained, ← Finset.filter_filter]
    refine (Finset.sum_filter_of_ne fun b hb hne => ?_).symm
    by_contra hnot
    refine hne ?_
    rw [energyOf_overwritten hk hr hs hn (Finset.mem_filter.mp hb).2 hnot, sub_self]
  rw [← hfar, Finset.sum_sub_distrib, totalEnergy_eq, totalEnergy_eq, hinner,
    ← Finset.sum_filter_add_sum_filter_not g.innerBonds.toFinset (Bond.EndsAt p)]
  abel

end Grid

end ParticleAutomaton
