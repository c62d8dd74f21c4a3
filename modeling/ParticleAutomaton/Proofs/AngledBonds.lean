import ParticleAutomaton.Proofs.OverwrittenBonds
import ParticleAutomaton.Proofs.Progress

namespace ParticleAutomaton

/-- A bond that no other leads to gets nothing from rules that look at its angle. -/
theorem EnergyRule.sum_alone {R : Type} [Scalar R] {rules : List (EnergyRule R)}
    (h : ∀ r ∈ rules, r.geometry.constrainsAngle = true) (t : Topology) (offset : Point) :
    sum rules t offset none = 0 := by
  have hnone : ∀ r ∈ rules, (r.geometry.factor t offset none).map (· * r.energy) = none := by
    intro r hr
    unfold BondGeometry.factor
    simp [h r hr]
  unfold sum
  rw [List.filterMap_eq_nil_iff.mpr hnone]
  exact Scalar.sum_nil

/-- All lengths and all angles are let in, but there has to be an angle. -/
def BondGeometry.angled : BondGeometry ℝ := ⟨none, none, 0, some 0, none, 0⟩

theorem BondGeometry.factor_angled {t : Topology} {offset previous : Point}
    (ho : offset.isZero = false) (hp : previous.isZero = false) :
    angled.factor t offset (some previous) = some 1 := by
  have hturn : ∀ cross dot : ℝ, ¬ Scalar.turn cross dot < 0 := by
    intro cross dot
    have hpos : 0 ≤ |Complex.arg ⟨dot, cross⟩| * (180 / Real.pi) := by positivity
    exact not_lt.mpr hpos
  unfold factor
  simp [ho, hp, Topology.turnAngle, taper, angled, hturn]

theorem EnergyRule.exists_angled : ∃ rule : EnergyRule ℝ, rule.bond = "k" ∧
    rule.matchesPair "_" "_" = true ∧ rule.energy = 1 ∧ rule.geometry = .angled := by
  have haccepts : (NamePattern.parse? "_").any (·.accepts "_") = true := by decide +kernel
  obtain ⟨pattern, -, h⟩ := (Option.any_eq_true ..).mp haccepts
  exact ⟨⟨pattern, pattern, "k", 1, .angled⟩, rfl, Bool.and_eq_true_iff.mpr ⟨h, h⟩, rfl, rfl⟩

namespace Grid

/-- Where all rules look at angles, a bond that no other leads to has no energy. -/
theorem energyOf_alone {R : Type} [Scalar R] {g : Grid} {r : Registry R} (hs : r.Sound)
    (h : ∀ rule ∈ r.rules.energies, rule.geometry.constrainsAngle = true) {b : Bond}
    (hb : g.incoming? b.origin b.name = none) : g.energyOf r b = 0 := by
  unfold energyOf
  cases hsource : g.get? b.origin with
  | none => rfl
  | some source =>
    cases g.get? b.destination with
    | none => rfl
    | some target =>
      have hnone : source.bonds.incoming.get? b.name = none := by
        rwa [incoming?, hsource] at hb
      unfold Registry.bondEnergy
      simp only [hnone, Option.map_none, Registry.rules_energyRules, Registry.energyRules_eq hs]
      exact EnergyRule.sum_alone (fun rule hr => h rule (List.mem_of_mem_filter hr)) ..

/-- The second of two bonds around a corner. -/
def corner : Bond := ⟨⟨1, 0⟩, ⟨1, 1⟩, "k"⟩

/-- Two bonds around a corner. -/
def bent (particle : ParticleId) : Grid :=
  ((Grid.new 2 2 particle).link ⟨⟨0, 0⟩, ⟨1, 0⟩, "k"⟩).link corner

theorem chained_bent : (bent ⟨0, 0⟩).chained ⟨0, 0⟩ = {corner} := by decide +kernel

/-- A bond leads to the corner from the west, between particles of one kind. -/
def TurnsCorner (g : Grid) (particle : ParticleId) : Prop :=
  (g.get? ⟨1, 0⟩).any (fun c =>
      c.particle == particle && c.bonds.incoming.get? "k" == some ⟨-1, 0⟩) = true ∧
    (g.get? ⟨1, 1⟩).any (fun c => c.particle == particle) = true

theorem turnsCorner_bent : (bent ⟨0, 0⟩).TurnsCorner ⟨0, 0⟩ := by
  constructor <;> decide +kernel

theorem energyOf_corner {g : Grid} {particle : ParticleId} (hcells : g.TurnsCorner particle)
    {r : Registry ℝ} (hs : r.Sound) (hn : r.name? particle = some "_")
    {rule : EnergyRule ℝ} (hr : r.rules.energies = [rule]) (hbond : rule.bond = "k")
    (hmatch : rule.matchesPair "_" "_" = true) (hg : rule.geometry = .angled) :
    g.energyOf r corner = rule.energy := by
  obtain ⟨source, hsource, h⟩ := (Option.any_eq_true ..).mp hcells.1
  obtain ⟨target, htarget, hp⟩ := (Option.any_eq_true ..).mp hcells.2
  obtain ⟨hparticle, hincoming⟩ := Bool.and_eq_true_iff.mp h
  have hrules : r.rules.energyRules "_" "_" "k" = [rule] := by
    unfold Rulebook.energyRules
    simp [hr, hbond, hmatch]
  have hfactor : rule.geometry.factor r.rules.topology ⟨0, 1⟩ (some ⟨1, 0⟩) = some 1 :=
    hg ▸ BondGeometry.factor_angled rfl rfl
  unfold energyOf Registry.bondEnergy corner
  simp only [hsource, htarget, Registry.rules_energyRules, Registry.energyRules_eq hs,
    beq_iff_eq.mp hparticle, beq_iff_eq.mp hp, beq_iff_eq.mp hincoming, Registry.name_of hn, hrules]
  have hsum : EnergyRule.sum [rule] r.rules.topology ⟨0, 1⟩ (some ⟨1, 0⟩) = rule.energy := by
    unfold EnergyRule.sum
    rw [List.filterMap_cons, hfactor]
    show (0 : ℝ) + 1 * rule.energy = rule.energy
    rw [zero_add, one_mul]
  exact hsum

end Grid

end ParticleAutomaton
