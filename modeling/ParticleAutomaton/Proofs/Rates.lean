import ParticleAutomaton.Proofs.FloatSigns
import ParticleAutomaton.Proofs.NamedOutcomes

namespace ParticleAutomaton

/-- A number that a rate can be: zero, or above it. -/
def Scalar.IsRate {R : Type} [Scalar R] (x : R) : Prop := x = 0 ∨ 0 < x

/-- Numbers whose sums and means of rates are rates. -/
class RateScalar (R : Type) extends Scalar R where
  zero_le {x : R} (hx : Scalar.IsRate x) : 0 ≤ x
  zero_lt_one : (0 : R) < 1
  isRate_add {x w : R} (hx : Scalar.IsRate x) (hw : 0 ≤ w) : Scalar.IsRate (x + w)
  isRate_mean {x : R} (hx : Scalar.IsRate x) (t : Topology) :
    Scalar.IsRate (x / Scalar.ofInt t.count)

instance : RateScalar Float where
  zero_le hx := zero_le_of_unsigned (unsigned_iff.mpr hx)
  zero_lt_one := by decide +kernel
  isRate_add hx hw := unsigned_iff.mp (unsigned_add (unsigned_iff.mpr hx) hw)
  isRate_mean hx t := unsigned_iff.mp (unsigned_mean (unsigned_iff.mpr hx) t)

variable {α R : Type} [RateScalar R]

namespace Scalar

theorem isRate_zero : IsRate (0 : R) := Or.inl rfl

theorem IsRate.atMost_one {x : R} (h : IsRate x) : IsRate (atMost 1 x) := by
  unfold atMost
  split
  · exact h
  · exact Or.inr RateScalar.zero_lt_one

/-- To set a rate to zero if it is negative makes no difference. -/
theorem IsRate.atLeast_zero {x : R} (h : IsRate x) : atLeast 0 x = x := by
  unfold atLeast
  rcases h with rfl | h
  · exact ite_self 0
  · exact if_pos h

end Scalar

namespace WeightedSampler

/-- The weights are none of them below zero, and their sum is a rate. -/
structure Weighs (s : WeightedSampler α R) : Prop where
  total : Scalar.IsRate s.total
  weight : ∀ b ∈ s.buckets, 0 ≤ b.weight

theorem weighs_empty : (empty : WeightedSampler α R).Weighs := ⟨Scalar.isRate_zero, nofun⟩

theorem isRate_lineUp {start : R} (h : Scalar.IsRate start) {items : List (α × R)}
    (hi : ∀ e ∈ items, 0 ≤ e.2) : Scalar.IsRate (lineUp start items).2 := by
  induction items generalizing start with
  | nil => exact h
  | cons e items ih =>
    have hstart := RateScalar.isRate_add h (hi e (List.mem_cons_self ..))
    exact ih hstart fun e he => hi e (List.mem_cons_of_mem _ he)

theorem weights_lineUp (start : R) (items : List (α × R)) :
    (lineUp start items).1.map (·.weight) = items.map Prod.snd := by
  induction items generalizing start with
  | nil => rfl
  | cons e items ih => simp [lineUp, ih]

theorem weighs_rebuild (s : WeightedSampler α R) {items : List (α × R)}
    (hi : ∀ e ∈ items, 0 ≤ e.2) : (s.rebuild items).Weighs := by
  refine ⟨isRate_lineUp Scalar.isRate_zero hi, fun b hb => ?_⟩
  have hw : b.weight ∈ (lineUp 0 items).1.map (·.weight) := List.mem_map_of_mem hb
  rw [weights_lineUp] at hw
  obtain ⟨e, he, hew⟩ := List.mem_map.mp hw
  exact hew ▸ hi e he

/-- An item is added with a weight that is not below zero, or not at all. -/
theorem Weighs.add [BEq α] {s s' : WeightedSampler α R} (h : s.Weighs) {item : α} {weight : R}
    (ha : s.add item weight = .ok s') : s'.Weighs := by
  obtain ⟨hw, ⟨items, rfl, hitems⟩ | rfl | rfl⟩ := add_cases ha
  · refine weighs_rebuild s fun e he => ?_
    rcases hitems e he with he | rfl
    · obtain ⟨b, hb, rfl⟩ := List.mem_map.mp he
      exact h.weight b hb
    · exact hw
  · exact h
  · refine ⟨RateScalar.isRate_add h.total hw, fun b hb => ?_⟩
    rcases List.mem_append.mp hb with hb | hb
    · exact h.weight b hb
    · cases List.mem_singleton.mp hb
      exact hw

end WeightedSampler

theorem SourceRules.weighs_of_ofName {b : Rulebook R} {name : String} {s : SourceRules R}
    (h : ofName b name = .ok s) : s.rates.Weighs := by
  obtain ⟨rates, hr, h⟩ := bind_eq_ok.mp h
  cases h
  have hfold := foldlM_relates (r := fun s t : WeightedSampler Direction R => s.Weighs → t.Weighs)
    (fun _ => id) (fun h k hs => k (h hs)) (fun _ _ _ _ ha hs => hs.add ha) hr
  exact hfold WeightedSampler.weighs_empty

/-- The activity of a cell is a rate. -/
theorem Rulebook.isRate_activity {b : Rulebook R} {name : String} {rate : R}
    (h : b.activity name = .ok rate) : Scalar.IsRate rate := by
  obtain ⟨s, hs, rfl⟩ := map_eq_ok.mp h
  have ht := (SourceRules.weighs_of_ofName hs).total
  exact (RateScalar.isRate_mean ht b.topology).atMost_one

end ParticleAutomaton
