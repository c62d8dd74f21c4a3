import Mathlib
import ParticleAutomaton.Proofs.ActivitySums
import ParticleAutomaton.Proofs.Shares

namespace ParticleAutomaton

noncomputable instance : ShareScalar ℝ where
  zero_le_rest _ h := sub_nonneg.mpr (le_of_lt h)

/-- All draws are at least zero and below one. -/
def Generator.IsUnit (γ : Type) [Generator ℝ γ] : Prop :=
  ∀ g : γ, 0 ≤ (Generator.next (R := ℝ) g).1 ∧ (Generator.next (R := ℝ) g).1 < 1

namespace WeightedSampler

variable {α R : Type} [Scalar R]

/-- Each bucket starts where the one before it ends, and the last one ends at the total. -/
def Gapless (s : WeightedSampler α R) : Prop := lineUp 0 s.toList = (s.buckets, s.total)

theorem gapless_empty : (empty : WeightedSampler α R).Gapless := rfl

theorem toList_lineUp (start : R) (items : List (α × R)) :
    (lineUp start items).1.map (fun b => (b.item, b.weight)) = items := by
  induction items generalizing start with
  | nil => rfl
  | cons e items ih =>
    rw [lineUp, List.map_cons, ih]

theorem lineUp_append (start : R) (items : List (α × R)) (item : α) (weight : R) :
    lineUp start (items ++ [(item, weight)]) =
      ((lineUp start items).1 ++ [⟨item, weight, (lineUp start items).2⟩],
        (lineUp start items).2 + weight) := by
  induction items generalizing start with
  | nil => rfl
  | cons e items ih =>
    have hrest := ih (start + e.2)
    simp only [List.cons_append, lineUp, hrest]

theorem gapless_rebuild (s : WeightedSampler α R) (items : List (α × R)) :
    (s.rebuild items).Gapless := by
  have hitems : (s.rebuild items).toList = items := toList_lineUp 0 items
  unfold Gapless
  rw [hitems]
  rfl

theorem Gapless.add [BEq α] {s s' : WeightedSampler α R} (h : s.Gapless) {item : α} {weight : R}
    (ha : s.add item weight = .ok s') : s'.Gapless := by
  obtain ⟨-, ⟨items, rfl, -⟩ | rfl | rfl⟩ := add_cases ha
  · exact gapless_rebuild s items
  · exact h
  · have hlist : toList { s with
        buckets := s.buckets ++ [⟨item, weight, s.total⟩]
        total := s.total + weight } = s.toList ++ [(item, weight)] := by
      simp [toList]
    unfold Gapless at h ⊢
    rw [hlist, lineUp_append, h]

theorem closed_add [BEq α] {s s' : WeightedSampler α R} {item : α} {weight : R}
    (ha : s.add item weight = .ok s') : s'.closed = s.closed := by
  obtain ⟨-, ⟨items, rfl, -⟩ | rfl | rfl⟩ := add_cases ha <;> rfl

theorem Gapless.isEmpty {s : WeightedSampler α R} (h : s.Gapless) (he : s.isEmpty = true) :
    s.total = 0 := by
  have hbuckets : s.buckets = [] := List.isEmpty_iff.mp he
  have hlist : s.toList = [] := by rw [toList, hbuckets, List.map_nil]
  unfold Gapless at h
  rw [hlist] at h
  exact (congrArg Prod.snd h).symm

section

variable {α γ : Type}

/-- A draw between the start and the end of buckets in a row falls into the last one that starts
below it. -/
theorem exists_bucket {start draw : ℝ} {items : List (α × ℝ)} (h : start ≤ draw)
    (hd : draw < (lineUp start items).2) :
    ∃ b, ((lineUp start items).1.takeWhile fun b => decide (b.start ≤ draw)).getLast? = some b ∧
      draw < b.start + b.weight := by
  induction items generalizing start with
  | nil =>
    have hend : draw < start := hd
    exact absurd h (not_le.mpr hend)
  | cons e items ih =>
    obtain ⟨item, weight⟩ := e
    have htake : ((lineUp start ((item, weight) :: items)).1.takeWhile
          fun b => decide (b.start ≤ draw)) =
        ⟨item, weight, start⟩ ::
          (lineUp (start + weight) items).1.takeWhile fun b => decide (b.start ≤ draw) := by
      rw [lineUp]
      exact List.takeWhile_cons_of_pos (decide_eq_true h)
    rw [htake]
    by_cases hnext : start + weight ≤ draw
    · obtain ⟨b, hb, hlt⟩ := ih hnext hd
      refine ⟨b, ?_, hlt⟩
      rw [List.getLast?_cons, hb]
      rfl
    · -- The next bucket, if there is one, starts behind the draw.
      have hstop : ((lineUp (start + weight) items).1.takeWhile
          fun b => decide (b.start ≤ draw)) = [] := by
        cases items with
        | nil => rfl
        | cons e items =>
          rw [lineUp]
          exact List.takeWhile_cons_of_neg (by simpa using hnext)
      rw [hstop]
      exact ⟨_, rfl, not_le.mp hnext⟩

theorem Gapless.locate {s : WeightedSampler α ℝ} (h : s.Gapless) {draw : ℝ} (hz : 0 ≤ draw)
    (hd : draw < s.total) : ∃ item, s.locate draw = some item := by
  unfold Gapless at h
  have hend : draw < (lineUp 0 s.toList).2 := by
    rw [h]
    exact hd
  obtain ⟨b, hb, hlt⟩ := exists_bucket hz hend
  rw [h] at hb
  unfold WeightedSampler.locate
  rw [if_neg (not_le.mpr hd), hb]
  exact ⟨b.item, if_pos hlt⟩

/-- Where all draws are at least zero and below one, a sampler that draws from its whole total finds
an item. -/
theorem Gapless.sample [Generator ℝ γ] (hu : Generator.IsUnit γ) {s : WeightedSampler α ℝ}
    (h : s.Gapless) (hpos : 0 < s.total) (hrange : s.drawRange = s.total) (g : γ) :
    ∃ item g', s.sample g = (some item, g') := by
  have hne : s.isEmpty = false := by
    by_contra he
    have hzero := h.isEmpty (by simpa using he)
    exact absurd hzero (ne_of_gt hpos)
  obtain ⟨hz, hlt⟩ := hu g
  have hdraw : 0 ≤ (Generator.next (R := ℝ) g).1 * s.total := mul_nonneg hz (le_of_lt hpos)
  have hbelow : (Generator.next (R := ℝ) g).1 * s.total < s.total :=
    mul_lt_of_lt_one_left hpos hlt
  obtain ⟨item, hitem⟩ := h.locate hdraw hbelow
  unfold WeightedSampler.sample
  rw [hne, hrange]
  exact ⟨item, _, Prod.ext hitem rfl⟩

end

end WeightedSampler

namespace SourceRules

theorem gapless_of_ofName {R : Type} [Scalar R] {b : Rulebook R} {name : String}
    {s : SourceRules R} (h : ofName b name = .ok s) : s.rates.Gapless ∧ s.rates.closed = none := by
  obtain ⟨rates, hr, h⟩ := bind_eq_ok.mp h
  cases h
  have hfold := foldlM_relates (r := fun s t : WeightedSampler Direction R =>
      s.Gapless ∧ s.closed = none → t.Gapless ∧ t.closed = none)
    (fun _ => id) (fun h k hs => k (h hs))
    (fun _ _ _ _ ha hs => ⟨hs.1.add ha, (WeightedSampler.closed_add ha).trans hs.2⟩) hr
  exact hfold ⟨WeightedSampler.gapless_empty, rfl⟩

end SourceRules

namespace Rulebook

/-- All outcomes come from rules. -/
def Explicit {R : Type} (s : WeightedSampler (NamedOutcome R) R) : Prop :=
  ∀ o ∈ s.items, o.rule.isSome = true

theorem explicit_of_addNamed {R : Type} [Scalar R] {maxNameLen : Nat} {target verb : String}
    {m : NameMatch R} {s t : WeightedSampler (NamedOutcome R) R}
    (h : addNamed maxNameLen target verb s m = .ok t) :
    (s.Gapless → t.Gapless) ∧ (Explicit s → Explicit t) := by
  obtain ⟨⟨bound, m'⟩, -, h⟩ := bind_eq_ok.mp h
  simp only at h
  split at h
  next =>
    cases h
    exact ⟨id, id⟩
  next =>
    obtain ⟨_, -, h⟩ := bind_eq_ok.mp h
    obtain ⟨_, -, h⟩ := bind_eq_ok.mp h
    obtain ⟨_, -, h⟩ := bind_eq_ok.mp h
    refine ⟨fun hs => hs.add h, fun hs o ho => ?_⟩
    rcases WeightedSampler.items_add h ho with rfl | ho
    · rfl
    · exact hs o ho

theorem explicit_of_foldlM {R : Type} [Scalar R] {maxNameLen : Nat} {target verb : String}
    {ms : List (NameMatch R)} {s : WeightedSampler (NamedOutcome R) R}
    (h : ms.foldlM (addNamed maxNameLen target verb) .empty = .ok s) : s.Gapless ∧ Explicit s := by
  obtain ⟨hgapless, hexplicit⟩ := foldlM_relates
    (r := fun s t : WeightedSampler (NamedOutcome R) R =>
      (s.Gapless → t.Gapless) ∧ (Explicit s → Explicit t))
    (fun _ => ⟨id, id⟩) (fun h k => ⟨k.1 ∘ h.1, k.2 ∘ h.2⟩)
    (fun _ _ _ _ => explicit_of_addNamed) h
  exact ⟨hgapless WeightedSampler.gapless_empty, hexplicit nofun⟩

/-- The outcome that nothing happens is no outcome of a rule, so it takes all of the rest. -/
theorem total_fillUp {s t : WeightedSampler (NamedOutcome ℝ) ℝ} {source target : String}
    (he : Explicit s) (h : fillUp source target s = .ok t) : 1 ≤ t.total := by
  unfold fillUp at h
  split at h
  next hlt =>
    have hfind : s.buckets.findIdx? (·.item == ⟨source, target, "", none⟩) = none := by
      rw [List.findIdx?_eq_none_iff]
      intro b hb
      have hsome := he b.item (List.mem_map_of_mem hb)
      have hnone : b.item.rule.isNone = false := by
        rw [Option.isNone_eq_false_iff]
        exact hsome
      show (b.item.newSource == source && b.item.newTarget == target &&
        b.item.rule.isNone == true) = false
      rw [hnone]
      simp
    have hrest : ¬ 1 - s.total ≤ 0 := not_le.mpr (sub_pos.mpr hlt)
    have hweight : (0 : ℝ) ≤ 1 - s.total := le_of_lt (sub_pos.mpr hlt)
    unfold WeightedSampler.add at h
    rw [if_neg (not_not.mpr hweight), hfind] at h
    simp only [if_neg hrest] at h
    cases h
    have hsum : s.total + (1 - s.total) = 1 := by ring
    exact le_of_eq hsum.symm
  next hge =>
    cases h
    exact not_lt.mp hge

/-- The outcomes of two neighbors leave no gap in what is drawn from. -/
theorem pairOutcomes_gapless {b : Rulebook ℝ} {maxNameLen : Nat} {source target : String}
    {d : Direction} {outcomes : WeightedSampler (NamedOutcome ℝ) ℝ}
    (h : b.pairOutcomes maxNameLen source d target = .ok outcomes) :
    outcomes.Gapless ∧ 1 ≤ outcomes.total ∧ outcomes.drawRange = outcomes.total := by
  obtain ⟨s, -, h⟩ := bind_eq_ok.mp h
  obtain ⟨sampler, hfold, h⟩ := bind_eq_ok.mp h
  obtain ⟨filled, hfilled, rfl⟩ := map_eq_ok.mp h
  obtain ⟨hgapless, hexplicit⟩ := explicit_of_foldlM hfold
  have hone : 1 ≤ filled.total := total_fillUp hexplicit hfilled
  have hfull : filled.Gapless := by
    unfold fillUp at hfilled
    split at hfilled
    next => exact hgapless.add hfilled
    next =>
      cases hfilled
      exact hgapless
  have hrange : filled.close.drawRange = filled.total := by
    show Scalar.atLeast 1 filled.total = filled.total
    unfold Scalar.atLeast
    split
    next => rfl
    next hle => exact le_antisymm hone (not_lt.mp hle)
  exact ⟨hfull, hone, hrange⟩

end Rulebook

end ParticleAutomaton
