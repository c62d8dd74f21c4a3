import Mathlib
import ParticleAutomaton.Proofs.Counts
import ParticleAutomaton.Proofs.NearBonds

namespace ParticleAutomaton

namespace Registry

variable {R : Type}

theorem energyRules_fst (r : Registry R) (source target : ParticleId) (bond : String) :
    (r.energyRules source bond target).1 =
      ((r.get? source).bind fun p => p.energies[(bond, target)]?).getD
        (r.rules.energyRules (r.name source) (r.name target) bond) := by
  unfold energyRules
  split
  next h => rw [h, Option.getD_some]
  next h => rw [h, Option.getD_none]

theorem rules_energyRules (r : Registry R) (source target : ParticleId) (bond : String) :
    (r.energyRules source bond target).2.rules = r.rules := by
  unfold energyRules
  split <;> rfl

/-- Two registries tell the same energies, whatever they remember. -/
structure SameEnergies (r s : Registry R) : Prop where
  rules : s.rules = r.rules
  found : ∀ source target bond,
    (s.energyRules source bond target).1 = (r.energyRules source bond target).1

namespace SameEnergies

variable {r s t : Registry R}

theorem refl (r : Registry R) : r.SameEnergies r := ⟨rfl, fun _ _ _ => rfl⟩

theorem trans (h : r.SameEnergies s) (k : s.SameEnergies t) : r.SameEnergies t :=
  ⟨k.rules.trans h.rules, fun source target bond =>
    (k.found source target bond).trans (h.found source target bond)⟩

end SameEnergies

theorem name_modify (r : Registry R) (id other : ParticleId) {f : Particle R → Particle R}
    (hf : ∀ p, (f p).name = p.name) :
    ({ r with particles := r.particles.modify id f } : Registry R).name other = r.name other := by
  rw [name_eq, name_eq, name?, name?, get?_modify]
  split
  · simp [Function.comp_def, hf]
  · rfl

/-- A particle may change what it remembers of energies as long as it tells the same. -/
theorem sameEnergies_modify (r : Registry R) (id : ParticleId) {f : Particle R → Particle R}
    (hn : ∀ p, (f p).name = p.name)
    (hf : ∀ p, r.get? id = some p → ∀ bond target,
      ((f p).energies[(bond, target)]?).getD
          (r.rules.energyRules (r.name id) (r.name target) bond) =
        (p.energies[(bond, target)]?).getD
          (r.rules.energyRules (r.name id) (r.name target) bond)) :
    r.SameEnergies { r with particles := r.particles.modify id f } := by
  refine ⟨rfl, fun source target bond => ?_⟩
  rw [energyRules_fst, energyRules_fst, name_modify r id source hn, name_modify r id target hn,
    get?_modify]
  split
  next he =>
    subst he
    cases hp : r.get? source with
    | none => rfl
    | some p => exact hf p hp bond target
  next => rfl

theorem sameEnergies_energyRules (r : Registry R) (source target : ParticleId) (bond : String) :
    r.SameEnergies (r.energyRules source bond target).2 := by
  unfold energyRules
  split
  next => exact .refl r
  next hn =>
    refine sameEnergies_modify r source (fun _ => rfl) fun p hp bond' target' => ?_
    rw [hp, Option.bind_some] at hn
    rw [Std.HashMap.getElem?_insert]
    split
    next hk =>
      cases beq_iff_eq.mp hk
      rw [hn, Option.getD_some, Option.getD_none]
    next => rfl

/-- Counts make no difference. -/
theorem sameEnergies_recount (r : Registry R) (id : ParticleId) (f : Nat → Nat) :
    r.SameEnergies
      { r with particles := r.particles.modify id fun p => { p with count := f p.count } } :=
  sameEnergies_modify r id (fun _ => rfl) fun _ _ _ _ => rfl

theorem sameEnergies_of_exchange {r s : Registry R} {old new : ParticleId}
    (h : r.exchange old new = .ok s) : r.SameEnergies s :=
  exchange_relates (q := SameEnergies) .refl SameEnergies.trans sameEnergies_recount h

variable [Scalar R]

theorem bondEnergy_fst (r : Registry R) (source target : ParticleId) (bond : String)
    (offset : Point) (previous : Option Point) :
    (r.bondEnergy source bond target offset previous).1 =
      EnergyRule.sum (r.energyRules source bond target).1 r.rules.topology offset previous := by
  rw [← rules_energyRules r source target bond]
  rfl

theorem SameEnergies.bondEnergy {r s : Registry R} (h : r.SameEnergies s)
    (source target : ParticleId) (bond : String) (offset : Point) (previous : Option Point) :
    (s.bondEnergy source bond target offset previous).1 =
      (r.bondEnergy source bond target offset previous).1 := by
  rw [bondEnergy_fst, bondEnergy_fst, h.found, h.rules]

theorem sameEnergies_bondEnergy (r : Registry R) (source target : ParticleId) (bond : String)
    (offset : Point) (previous : Option Point) :
    r.SameEnergies (r.bondEnergy source bond target offset previous).2 :=
  sameEnergies_energyRules r source target bond

end Registry

/-- Numbers without rounding: they add up the same in any order. -/
class ExactScalar (R : Type) extends Scalar R, AddCommGroup R

noncomputable instance : ExactScalar ℝ where
  toAddCommGroup := inferInstance
  one := 1
  mul := (· * ·)
  div := (· / ·)
  lt := (· < ·)
  le := (· ≤ ·)
  decideLT := Classical.decRel _
  decideLE := Classical.decRel _
  ofInt := Int.cast
  sqrt := Real.sqrt
  turn cross dot := |Complex.arg ⟨dot, cross⟩| * (180 / Real.pi)
  tenPow x := (10 : ℝ) ^ x
  floor x := ⌊x⌋
  toNat x := ⌊x⌋₊
  -- No text shows all of a real number.
  text _ := ""

theorem Scalar.sum_eq_list (ws : List ℝ) : Scalar.sum ws = ws.sum := by
  induction ws using List.reverseRecOn with
  | nil => rfl
  | append_singleton ws w ih =>
    rw [Scalar.sum_append_singleton, List.sum_append, List.sum_singleton, ih]

namespace Grid

variable {R : Type}

/-- The bonds with both ends on the grid. -/
def innerBonds (g : Grid) : List Bond := g.bonds.filter fun b => g.contains b.destination

theorem mem_bonds {g : Grid} {b : Bond} : b ∈ g.bonds ↔ g.field.Leaves b := by
  rw [bonds, List.mem_flatMap, leaves_field, outgoing?]
  constructor
  · rintro ⟨⟨p, c⟩, hc, hb⟩
    obtain ⟨⟨name, offset⟩, hm, rfl⟩ := List.mem_map.mp hb
    rw [mem_toList.mp hc, Point.add_sub_self]
    exact c.bonds.outgoing.mem_entries_iff.mp hm
  · intro h
    obtain ⟨c, hc, h⟩ := Option.bind_eq_some_iff.mp h
    refine ⟨(b.origin, c), mem_toList.mpr hc, List.mem_map.mpr ⟨_,
      c.bonds.outgoing.mem_entries_iff.mpr h, BondField.bond_ext_iff.mpr ⟨rfl, ?_, rfl⟩⟩⟩
    exact Point.add_eq_iff.mpr rfl

theorem mem_innerBonds {g : Grid} {b : Bond} :
    b ∈ g.innerBonds ↔ g.field.Leaves b ∧ g.contains b.destination = true := by
  rw [innerBonds, List.mem_filter, mem_bonds]

theorem nodup_toList (g : Grid) : (g.toList.map Prod.fst).Nodup := by
  have hlen : g.points.length = g.cells.toList.length :=
    (length_pointsOf ..).trans g.size_cells.symm
  rw [toList, List.map_fst_zip (Nat.le_of_eq hlen)]
  exact g.nodup_points

theorem nodup_bonds (g : Grid) : g.bonds.Nodup := by
  refine List.nodup_flatMap.mpr ⟨fun (p, c) _ => c.bonds.nodup_leaving p, ?_⟩
  refine (List.pairwise_map.mp g.nodup_toList).imp fun {e f} hne b he hf => hne ?_
  obtain ⟨x, -, rfl⟩ := List.mem_map.mp he
  obtain ⟨y, -, hy⟩ := List.mem_map.mp hf
  exact (congrArg Bond.origin hy).symm

variable [Scalar R]

/-- The energy of a bond between two cells. Its angle is that to the bond of its name that enters
its origin. -/
def energyOf (g : Grid) (r : Registry R) (b : Bond) : R :=
  match g.get? b.origin, g.get? b.destination with
  | some source, some target =>
    (r.bondEnergy source.particle b.name target.particle (b.destination - b.origin)
      ((source.bonds.incoming.get? b.name).map (- ·))).1
  | _, _ => 0

theorem energyOf_outside {g : Grid} {b : Bond}
    (h : ¬ (g.contains b.origin = true ∧ g.contains b.destination = true)) (r : Registry R) :
    g.energyOf r b = 0 := by
  unfold energyOf
  split
  next ho hd => exact absurd ⟨contains_of_get? ho, contains_of_get? hd⟩ h
  next => rfl

theorem energyOf_congr {r s : Registry R} (h : r.SameEnergies s) (g : Grid) :
    g.energyOf s = g.energyOf r := by
  funext b
  unfold energyOf
  split
  next => exact h.bondEnergy ..
  next => rfl

/-- The energy of all bonds with both ends on the grid. -/
def totalEnergy (g : Grid) (r : Registry R) : R := (g.innerBonds.map (g.energyOf r)).sum

theorem totalEnergy_eq {R : Type} [ExactScalar R] (g : Grid) (r : Registry R) :
    g.totalEnergy r = ∑ b ∈ g.innerBonds.toFinset, g.energyOf r b :=
  (List.sum_toFinset _ (g.nodup_bonds.filter _)).symm

end Grid

/-- Bonds that are weighed one after the other add up, whatever is remembered on the way. -/
theorem Registry.sum_weighed {R ι : Type} [ExactScalar R] {f : R × Registry R → ι → R × Registry R}
    {energy : ι → R} {r : Registry R}
    (hf : ∀ s, r.SameEnergies s → ∀ sum i,
      (f (sum, s) i).1 = sum + energy i ∧ r.SameEnergies (f (sum, s) i).2)
    (is : List ι) (sum : R) {s : Registry R} (h : r.SameEnergies s) :
    (is.foldl f (sum, s)).1 = sum + (is.map energy).sum ∧
      r.SameEnergies (is.foldl f (sum, s)).2 := by
  induction is generalizing sum s with
  | nil => exact ⟨(add_zero sum).symm, h⟩
  | cons i is ih =>
    obtain ⟨hsum, hs⟩ := hf s h sum i
    obtain ⟨hrest, hs⟩ := ih (f (sum, s) i).1 hs
    rw [List.foldl_cons, List.map_cons, List.sum_cons, ← add_assoc, ← hsum]
    exact ⟨hrest, hs⟩

end ParticleAutomaton
