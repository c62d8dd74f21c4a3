import ParticleAutomaton.Proofs.NewBoards
import ParticleAutomaton.Proofs.Rates

namespace ParticleAutomaton

theorem WeightedSampler.add_ok {α R : Type} [Scalar R] [BEq α] (s : WeightedSampler α R)
    (item : α) {weight : R} (h : 0 ≤ weight) : ∃ t, s.add item weight = .ok t := by
  unfold WeightedSampler.add
  rw [if_neg (not_not.mpr h)]
  split
  next => exact ⟨_, rfl⟩
  next => split <;> exact ⟨_, rfl⟩

theorem isSome_of_checkPattern {text : String} (h : checkPattern text = .ok ()) :
    (NamePattern.parse? text).isSome = true := by
  unfold checkPattern at h
  split at h
  next hpattern => exact hpattern
  next => exact nomatch h

/-- A rule is read from a record whose probability is not below zero, and all its templates from
texts. Its patterns have been checked for one direction. -/
theorem TransformRule.ofRecord_eq_ok {R : Type} [Scalar R] {t : Topology}
    {record : TransformRecord R} {rule : TransformRule R}
    (h : TransformRule.ofRecord? t record = .ok rule) :
    ∃ source target dir, 0 ≤ record.prob.getD 1 ∧
      (∀ text ∈ [source, target], (NamePattern.parse? ((Template.parse text).expandPattern
        (.ofDirection t (dir.getD 0)))).isSome = true) ∧
      rule = {
      start := record.start, dir
      source := .parse source, target := .parse target
      newSource := .parse (record.newSource.getD "$S")
      newTarget := .parse (record.newTarget.getD "$T")
      prob := record.prob.getD 1
      verb := .parse (record.verb.getD "")
      required := record.required, optional := record.optional
      excluded := record.excluded, created := record.created } := by
  unfold TransformRule.ofRecord? at h
  split at h
  next source _ =>
    split at h
    next target _ =>
      simp only at h
      split at h
      next => exact nomatch h
      next hprob =>
        obtain ⟨dir, -, h⟩ := bind_eq_ok.mp h
        obtain ⟨_, -, h⟩ := bind_eq_ok.mp h
        obtain ⟨_, hsource, h⟩ := bind_eq_ok.mp h
        obtain ⟨_, htarget, h⟩ := bind_eq_ok.mp h
        have hsource := isSome_of_checkPattern hsource
        have htarget := isSome_of_checkPattern htarget
        cases h
        refine ⟨source, target, dir, not_not.mp hprob, fun text htext => ?_, rfl⟩
        rcases List.mem_pair.mp htext with rfl | rfl
        · exact hsource
        · exact htarget
    next => exact nomatch h
  next => exact nomatch h

theorem TransformRule.prob_of_ofRecord {R : Type} [Scalar R] {t : Topology}
    {record : TransformRecord R} {rule : TransformRule R}
    (h : TransformRule.ofRecord? t record = .ok rule) : 0 ≤ rule.prob := by
  obtain ⟨source, target, dir, hprob, -, rfl⟩ := ofRecord_eq_ok h
  exact hprob

/-- A rule for one name in the north that keeps both particles. -/
theorem TransformRule.ofRecord_north {R : Type} [Scalar R] (prob : Option R)
    (h : 0 ≤ prob.getD 1) :
    TransformRule.ofRecord? .square4
      { dir := some "n", source := some "_", target := some "_", prob } =
        .ok ⟨none, some 0, .parse "_", .parse "_", .parse "$S", .parse "$T", prob.getD 1,
          .parse "", [], [], [], []⟩ := by
  have hpattern : (NamePattern.parse?
      ((Template.parse "_").expandPattern (.ofDirection .square4 0))).isSome = true := by
    decide +kernel
  have hcheck : checkPattern ((Template.parse "_").expandPattern (.ofDirection .square4 0)) =
      .ok () := if_pos hpattern
  have hdir : TransformRule.direction? .square4 (some "n") = .ok (some 0) := rfl
  unfold TransformRule.ofRecord?
  simp only [Option.getD_none, if_neg (not_not.mpr h), hdir, ok_bind, List.append_nil,
    Option.getD_some, hcheck]
  rfl

variable {R : Type} [RateScalar R]

theorem Scalar.isRate_sum {xs : List R} (h : ∀ x ∈ xs, 0 ≤ x) : IsRate (sum xs) := by
  have hfold := List.foldlRecOn xs (· + ·) (motive := IsRate) isRate_zero
    fun x hx w hw => RateScalar.isRate_add hx (h w hw)
  exact hfold

namespace Rulebook

/-- No rule has a probability below zero. -/
def Probable (b : Rulebook R) : Prop := ∀ rules ∈ b.directed, ∀ rule ∈ rules, 0 ≤ rule.rule.prob

theorem Probable.sourceMatches {b : Rulebook R} (h : b.Probable) {name : String} {d : Direction}
    {m : NameMatch R} (hm : m ∈ b.sourceMatches name d) : 0 ≤ m.rule.rule.prob := by
  obtain ⟨rule, hrule, hm⟩ := List.mem_filterMap.mp hm
  obtain ⟨s, -, rfl⟩ := Option.map_eq_some_iff.mp hm
  unfold directedRules at hrule
  cases hd : b.directed[d]? with
  | none =>
    rw [hd] at hrule
    exact nomatch hrule
  | some rules =>
    rw [hd] at hrule
    exact h rules (List.mem_of_getElem? hd) rule hrule

/-- Rules whose probabilities are none of them below zero do not fail for any source. -/
theorem total_of_probs {b : Rulebook R} (h : b.Probable) : b.Total := by
  intro name
  have hstep : ∀ x ∈ ((List.range b.topology.count).map (b.sourceMatches name)).zipIdx,
      ∀ rates : WeightedSampler Direction R, ∃ rates', rates.add x.2
        (Scalar.atMost 1 (Scalar.sum (x.1.map (·.rule.rule.prob)))) = .ok rates' := by
    intro x hx rates
    obtain ⟨d, -, hd⟩ := List.mem_map.mp (List.fst_mem_of_mem_zipIdx hx)
    refine rates.add_ok x.2 (RateScalar.zero_le (Scalar.IsRate.atMost_one (Scalar.isRate_sum ?_)))
    intro prob hprob
    obtain ⟨m, hm, rfl⟩ := List.mem_map.mp hprob
    exact h.sourceMatches (hd ▸ hm)
  obtain ⟨rates, hrates⟩ := foldlM_ok hstep .empty
  exact ⟨⟨(List.range b.topology.count).map (b.sourceMatches name), rates⟩,
    bind_eq_ok.mpr ⟨rates, hrates, rfl⟩⟩

/-- The rules were read from records. -/
def Declared {R : Type} [Scalar R] (b : Rulebook R) : Prop :=
  ∃ t records, ofRecords? t records = .ok b

/-- A probability below zero has been refused. -/
theorem Declared.probable {b : Rulebook R} (h : b.Declared) : b.Probable := by
  obtain ⟨t, records, h⟩ := h
  unfold ofRecords? at h
  obtain ⟨_, -, h⟩ := bind_eq_ok.mp h
  obtain ⟨rules, hrules, h⟩ := bind_eq_ok.mp h
  obtain ⟨_, -, h⟩ := bind_eq_ok.mp h
  cases h
  intro ds hds d hd
  obtain ⟨dir, -, rfl⟩ := List.mem_map.mp hds
  obtain ⟨rule, hrule, rfl⟩ := List.mem_map.mp hd
  obtain ⟨record, -, hrecord⟩ := mem_of_mapM hrules (List.mem_of_mem_filter hrule)
  exact TransformRule.prob_of_ofRecord hrecord

/-- Rules that were read from records do not fail for any source. -/
theorem Declared.total {b : Rulebook R} (h : b.Declared) : b.Total := total_of_probs h.probable

theorem total_of_ofRecords {t : Topology} {records : RuleRecords R} {b : Rulebook R}
    (h : ofRecords? t records = .ok b) : b.Total := Declared.total ⟨t, records, h⟩

theorem topology_of_ofRecords {R : Type} [Scalar R] {t : Topology} {records : RuleRecords R}
    {b : Rulebook R} (h : ofRecords? t records = .ok b) : b.topology = t := by
  unfold ofRecords? at h
  obtain ⟨_, -, h⟩ := bind_eq_ok.mp h
  obtain ⟨_, -, h⟩ := bind_eq_ok.mp h
  obtain ⟨_, -, h⟩ := bind_eq_ok.mp h
  cases h
  rfl

end Rulebook

end ParticleAutomaton
