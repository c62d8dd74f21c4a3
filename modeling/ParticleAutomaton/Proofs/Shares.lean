import ParticleAutomaton.Proofs.DeclaredRules

namespace ParticleAutomaton

/-- Numbers that leave a rest up to one where they are below it. -/
class ShareScalar (R : Type) extends RateScalar R where
  zero_le_rest {x : R} (hx : Scalar.IsRate x) (h : x < 1) : 0 ≤ 1 - x

instance : ShareScalar Float where
  zero_le_rest hx h := zero_le_of_unsigned (unsigned_rest (unsigned_iff.mpr hx) h)

namespace NameMatch

variable {R : Type}

/-- A match with a bound source can be tried on a target. -/
theorem bindTarget_ok {m : NameMatch R} {s : SourceSlot} (hs : m.slots = .source s)
    (name : String) :
    (targetSlot? s name = none ∧ m.bindTarget name = .ok (false, m)) ∨
      ∃ t, m.bindTarget name = .ok (true, { m with slots := .both s t }) := by
  unfold bindTarget
  rw [hs]
  cases ht : targetSlot? s name with
  | none =>
    left
    simp [ht]
  | some t =>
    right
    exact ⟨t, by simp [ht]⟩

theorem expand_ok {m : NameMatch R} {s : SourceSlot} {t : TargetSlot}
    (hs : m.slots = .both s t) (template : Template) : ∃ text, m.expand template = .ok text := by
  unfold expand
  rw [hs]
  exact ⟨_, rfl⟩

end NameMatch

namespace Rulebook

variable {R : Type}

/-- All matches of a source have their source bound. -/
theorem slots_sourceMatches {b : Rulebook R} {name : String} {d : Direction} {m : NameMatch R}
    (hm : m ∈ b.sourceMatches name d) : ∃ s, m.slots = .source s := by
  obtain ⟨rule, -, hm⟩ := List.mem_filterMap.mp hm
  obtain ⟨s, -, rfl⟩ := Option.map_eq_some_iff.mp hm
  exact ⟨s, rfl⟩

variable [RateScalar R]

theorem addNamed_ok (maxNameLen : Nat) (target verb : String) {m : NameMatch R} {s : SourceSlot}
    (hs : m.slots = .source s) (hp : 0 ≤ m.rule.rule.prob)
    (sampler : WeightedSampler (NamedOutcome R) R) :
    ∃ sampler', addNamed maxNameLen target verb sampler m = .ok sampler' := by
  unfold addNamed
  rcases NameMatch.bindTarget_ok hs target with ⟨-, hb⟩ | ⟨t, hb⟩
  · rw [hb]
    exact ⟨sampler, rfl⟩
  · let bound : NameMatch R := { m with slots := .both s t }
    obtain ⟨newSource, hsource⟩ := bound.expand_ok rfl m.rule.rule.newSource
    obtain ⟨newTarget, htarget⟩ := bound.expand_ok rfl m.rule.rule.newTarget
    obtain ⟨verb', hverb⟩ := bound.expand_ok rfl m.rule.rule.verb
    obtain ⟨sampler', hadd⟩ := sampler.add_ok (⟨Text.truncate maxNameLen newSource,
      Text.truncate maxNameLen newTarget, if verb' = "" then verb else verb',
      some m.rule.rule⟩ : NamedOutcome R) hp
    refine ⟨sampler', ?_⟩
    have hs : bound.newSource = .ok newSource := hsource
    have ht : bound.newTarget = .ok newTarget := htarget
    have hv : bound.verb = .ok verb' := hverb
    rw [hb, ok_bind]
    simp only [Bool.not_true, Bool.false_eq_true, if_false]
    rw [hs, ok_bind, ht, ok_bind, hv, ok_bind]
    exact hadd

theorem weighs_of_addNamed {maxNameLen : Nat} {target verb : String} {m : NameMatch R}
    {sampler sampler' : WeightedSampler (NamedOutcome R) R}
    (h : addNamed maxNameLen target verb sampler m = .ok sampler') (hw : sampler.Weighs) :
    sampler'.Weighs := by
  obtain ⟨⟨bound, m'⟩, -, h⟩ := bind_eq_ok.mp h
  simp only at h
  split at h
  next =>
    cases h
    exact hw
  next =>
    obtain ⟨_, -, h⟩ := bind_eq_ok.mp h
    obtain ⟨_, -, h⟩ := bind_eq_ok.mp h
    obtain ⟨_, -, h⟩ := bind_eq_ok.mp h
    exact hw.add h

end Rulebook

theorem SourceRules.matched_of_ofName {R : Type} [Scalar R] {b : Rulebook R} {name : String}
    {s : SourceRules R} (h : ofName b name = .ok s) :
    s.matched = (List.range b.topology.count).map (b.sourceMatches name) := by
  obtain ⟨rates, -, h⟩ := bind_eq_ok.mp h
  cases h
  rfl

variable {R : Type} [ShareScalar R]

namespace Rulebook

/-- Where the probabilities leave a rest to one it is not below zero. -/
theorem fillUp_ok {sampler : WeightedSampler (NamedOutcome R) R} (hw : sampler.Weighs)
    (source target : String) : ∃ sampler', fillUp source target sampler = .ok sampler' := by
  unfold fillUp
  split
  next h => exact sampler.add_ok _ (ShareScalar.zero_le_rest hw.total h)
  next => exact ⟨sampler, rfl⟩

/-- Rules without probabilities below zero have outcomes for every source and target. -/
theorem Probable.pairOutcomes_ok {b : Rulebook R} (h : b.Probable) (maxNameLen : Nat)
    (source : String) (d : Direction) (target : String) :
    ∃ outcomes, b.pairOutcomes maxNameLen source d target = .ok outcomes := by
  obtain ⟨s, hs⟩ := total_of_probs h source
  have hmatched := SourceRules.matched_of_ofName hs
  have hmatch : ∀ m ∈ s.matched[d]?.getD [], ∃ dir, m ∈ b.sourceMatches source dir := by
    intro m hm
    rw [hmatched, List.getElem?_map] at hm
    cases hd : (List.range b.topology.count)[d]? with
    | none =>
      rw [hd] at hm
      exact nomatch hm
    | some dir =>
      rw [hd] at hm
      exact ⟨dir, hm⟩
  have hstep : ∀ m ∈ s.matched[d]?.getD [], ∀ sampler, ∃ sampler',
      addNamed maxNameLen target ((b.appearance source).verb.getD "") sampler m =
        .ok sampler' := by
    intro m hm sampler
    obtain ⟨dir, hm⟩ := hmatch m hm
    obtain ⟨slot, hslot⟩ := slots_sourceMatches hm
    exact addNamed_ok _ _ _ hslot (h.sourceMatches hm) sampler
  obtain ⟨sampler, hfold⟩ := foldlM_ok hstep .empty
  have hweighs : sampler.Weighs :=
    foldlM_relates
      (r := fun s t : WeightedSampler (NamedOutcome R) R => s.Weighs → t.Weighs)
      (fun _ => id) (fun h k hw => k (h hw)) (fun _ _ _ _ => weighs_of_addNamed) hfold
      WeightedSampler.weighs_empty
  obtain ⟨filled, hfilled⟩ := fillUp_ok hweighs source target
  refine ⟨filled.close, ?_⟩
  rw [pairOutcomes, hs, ok_bind, namedOutcomes, hfold, ok_bind, hfilled]
  rfl

end Rulebook

/-- What comes of a source and a target is drawn from the outcomes that the rules give them. -/
theorem Registry.Sound.samplePair_ok {γ : Type} [Generator R γ] {r : Registry R} (h : r.Sound)
    (hp : r.rules.Probable) {source target : ParticleId} {sourceName targetName : String}
    (hs : r.name? source = some sourceName) (ht : r.name? target = some targetName) {d : Direction}
    (hd : d < r.rules.topology.count) (g : γ) :
    ∃ outcomes o r' g',
      r.rules.pairOutcomes r.maxNameLen sourceName d targetName = .ok outcomes ∧
      r.samplePair source d target g = .ok (o, r', g') ∧ r.Extends r' ∧ r'.Sound ∧
      (∀ o', o = some o' → o'.Known r') ∧ outcomes.sample g = (o.map r'.named, g') := by
  obtain ⟨outcomes, ho⟩ := hp.pairOutcomes_ok r.maxNameLen sourceName d targetName
  have hagree := Registry.samplePair_agree h hs ht d g
  rw [Rulebook.samplePair, ho] at hagree
  obtain ⟨⟨o, r', g'⟩, hx, hext, hsound, hknown, hdraw⟩ := hagree.eq_ok
  have hdraw : (o.map r'.named, g') =
      if d < r.rules.topology.count then outcomes.sample g else (none, g) := hdraw
  rw [if_pos hd] at hdraw
  exact ⟨outcomes, o, r', g', ho, hx, hext, hsound, hknown, hdraw.symm⟩

end ParticleAutomaton
