import ParticleAutomaton.Proofs.LatestShares

namespace ParticleAutomaton

variable {R : Type}

/-- A rule that is for a source and a target, with what its templates refer to. -/
structure RuleUse (R : Type) where
  rule : TransformRule R
  context : Context

namespace RuleUse

def newSource (u : RuleUse R) : String := u.rule.newSource.expand u.context

def newTarget (u : RuleUse R) : String := u.rule.newTarget.expand u.context

/-- The verb of the rule, or another one if it is empty. -/
def verb (u : RuleUse R) (default : String) : String :=
  if u.rule.verb.expand u.context = "" then default else u.rule.verb.expand u.context

/-- What comes of the rule, by name. -/
def named (u : RuleUse R) (maxNameLen : Nat) (verb : String) : NamedOutcome R :=
  ⟨Text.truncate maxNameLen u.newSource, Text.truncate maxNameLen u.newTarget, u.verb verb,
    some u.rule⟩

end RuleUse

namespace Rulebook

/-- The use of a rule for a source and a target in a direction: the source has the prefix of the
rule and matches its pattern, and the target matches the pattern that the source makes. -/
def use? (b : Rulebook R) (d : Direction) (source target : String) (rule : TransformRule R) :
    Option (RuleUse R) := do
  let text := rule.source.expandPattern (Context.ofDirection b.topology d)
  let pattern ← NamePattern.parse? text
  let start := rule.start.getD (String.ofList (literalStart text.toList))
  if !start.toList.isPrefixOf source.toList then none
  let groups ← pattern.groups? source
  let targetPattern ← NamePattern.parse?
    (rule.target.expandPattern ⟨b.topology, d, some source, none, groups⟩)
  let targetGroups ← targetPattern.groups? target
  some ⟨rule, ⟨b.topology, d, some source, some target, groups ++ targetGroups⟩⟩

theorem rule_of_use? {b : Rulebook R} {d : Direction} {source target : String}
    {rule : TransformRule R} {u : RuleUse R} (h : b.use? d source target rule = some u) :
    u.rule = rule := by
  obtain ⟨pattern, -, h⟩ := Option.bind_eq_some_iff.mp h
  simp only at h
  split at h
  next => exact nomatch h
  next =>
    obtain ⟨groups, -, h⟩ := Option.bind_eq_some_iff.mp h
    obtain ⟨targetPattern, -, h⟩ := Option.bind_eq_some_iff.mp h
    obtain ⟨targetGroups, -, h⟩ := Option.bind_eq_some_iff.mp h
    cases h
    rfl

/-- The uses of the rules that hold in a direction, in the order of the rules. -/
def uses (b : Rulebook R) (d : Direction) (source target : String) : List (RuleUse R) :=
  (b.rules.filter (·.appliesTo d)).filterMap (b.use? d source target)

end Rulebook

/-- What a match with a bound source makes of a target. -/
def NameMatch.use? (m : NameMatch R) (target : String) : Option (RuleUse R) :=
  match m.slots with
  | .source s => (targetSlot? s target).map fun t => ⟨m.rule.rule, m.context s t⟩
  | _ => none

namespace Rulebook

theorem use?_ofRule (b : Rulebook R) (d : Direction) (source target : String)
    (rule : TransformRule R) :
    ((NameMatch.sourceSlot? (.ofRule rule b.topology d) source).map
      fun s => (⟨.ofRule rule b.topology d, .source s⟩ : NameMatch R)).bind (·.use? target) =
        b.use? d source target rule := by
  unfold NameMatch.sourceSlot? use? DirectedRule.mayMatch DirectedRule.ofRule
  simp only
  cases NamePattern.parse? (rule.source.expandPattern (Context.ofDirection b.topology d)) with
  | none => rfl
  | some pattern =>
    simp only [Option.isSome_some, Bool.true_and, Option.bind_eq_bind, Option.bind_some]
    split
    next => rfl
    next =>
      cases pattern.groups? source with
      | none => rfl
      | some groups =>
        simp only [Option.bind_some, Option.map_some]
        unfold NameMatch.use? NameMatch.targetSlot?
        cases NamePattern.parse? (rule.target.expandPattern
            ⟨b.topology, d, some source, none, groups⟩) with
        | none => rfl
        | some targetPattern =>
          simp only [Option.bind_eq_bind, Option.bind_some]
          cases targetPattern.groups? target with
          | none => rfl
          | some targetGroups => rfl

variable [Scalar R]

theorem directedRules_of_ofRecords {t : Topology} {records : RuleRecords R} {b : Rulebook R}
    (h : ofRecords? t records = .ok b) {d : Direction} (hd : d < t.count) :
    b.directedRules d =
      (b.rules.filter (·.appliesTo d)).map fun rule => .ofRule rule b.topology d := by
  unfold ofRecords? at h
  obtain ⟨_, -, h⟩ := bind_eq_ok.mp h
  obtain ⟨_, -, h⟩ := bind_eq_ok.mp h
  obtain ⟨_, -, h⟩ := bind_eq_ok.mp h
  cases h
  unfold directedRules
  simp only [List.getElem?_map, List.getElem?_range hd, Option.map_some, Option.getD_some]

/-- The matches of a source make of a target the uses of the rules. -/
theorem filterMap_sourceMatches {t : Topology} {records : RuleRecords R} {b : Rulebook R}
    (h : ofRecords? t records = .ok b) {d : Direction} (hd : d < t.count)
    (source target : String) :
    (b.sourceMatches source d).filterMap (·.use? target) = b.uses d source target := by
  unfold sourceMatches uses
  rw [directedRules_of_ofRecords h hd, List.filterMap_filterMap, List.filterMap_map]
  refine List.filterMap_congr fun rule _ => ?_
  exact use?_ofRule b d source target rule

theorem addNamed_eq {m : NameMatch R} {s : SourceSlot} (hs : m.slots = .source s)
    (maxNameLen : Nat) (target verb : String) (sampler : WeightedSampler (NamedOutcome R) R) :
    addNamed maxNameLen target verb sampler m =
      match m.use? target with
      | none => .ok sampler
      | some u => sampler.add (u.named maxNameLen verb) u.rule.prob := by
  unfold addNamed NameMatch.use? NameMatch.bindTarget
  simp only [hs]
  cases NameMatch.targetSlot? s target with
  | none => rfl
  | some t => rfl

/-- To add matches is to add the uses that they make of the target. -/
theorem addNamed_foldlM {ms : List (NameMatch R)} (hs : ∀ m ∈ ms, ∃ s, m.slots = .source s)
    (maxNameLen : Nat) (target verb : String) (sampler : WeightedSampler (NamedOutcome R) R) :
    ms.foldlM (addNamed maxNameLen target verb) sampler =
      sampler.addAll ((ms.filterMap (·.use? target)).map
        fun u => (u.named maxNameLen verb, u.rule.prob)) := by
  induction ms generalizing sampler with
  | nil => rfl
  | cons m ms ih =>
    obtain ⟨s, hm⟩ := hs m (List.mem_cons_self ..)
    have hrest := ih fun m hm => hs m (List.mem_cons_of_mem _ hm)
    rw [foldlM_cons, addNamed_eq hm]
    cases hu : m.use? target with
    | none =>
      simp only [List.filterMap_cons, hu]
      exact hrest sampler
    | some u =>
      simp only [List.filterMap_cons, hu, List.map_cons]
      unfold WeightedSampler.addAll
      rw [foldlM_cons]
      exact bind_congr fun sampler => hrest sampler

end Rulebook

/-- What named outcomes that count as one have in common. -/
def NamedOutcome.key (o : NamedOutcome R) : String × String × Bool :=
  (o.newSource, o.newTarget, o.rule.isNone)

theorem NamedOutcome.beq_eq_key (o p : NamedOutcome R) : (o == p) = decide (o.key = p.key) := by
  show (o.newSource == p.newSource && o.newTarget == p.newTarget &&
    o.rule.isNone == p.rule.isNone) = _
  rw [Bool.eq_iff_iff]
  simp [key, and_assoc]

namespace Rulebook

/-- The uses of rules that have a share: of those with one outcome the last, if it has a
probability. -/
noncomputable def sharing {κ : Type} [DecidableEq κ] (key : RuleUse ℝ → κ)
    (uses : List (RuleUse ℝ)) : List (RuleUse ℝ) :=
  (lastOfEach key uses).filter fun u => u.rule.prob ≠ 0

theorem matches_of_ofName {t : Topology} {records : RuleRecords ℝ} {b : Rulebook ℝ}
    (hb : ofRecords? t records = .ok b) {source : String} {s : SourceRules ℝ}
    (hs : SourceRules.ofName b source = .ok s) {d : Direction} (hd : d < t.count) :
    s.matched[d]?.getD [] = b.sourceMatches source d := by
  have hcount : d < b.topology.count := (topology_of_ofRecords hb).symm ▸ hd
  rw [SourceRules.matched_of_ofName hs, List.getElem?_map, List.getElem?_range hcount]
  rfl

theorem prob_of_mem_uses {t : Topology} {records : RuleRecords ℝ} {b : Rulebook ℝ}
    (hb : ofRecords? t records = .ok b) {source target : String} {d : Direction}
    (hd : d < t.count) {u : RuleUse ℝ} (hu : u ∈ b.uses d source target) : 0 ≤ u.rule.prob := by
  rw [← filterMap_sourceMatches hb hd] at hu
  obtain ⟨m, hm, huse⟩ := List.mem_filterMap.mp hu
  obtain ⟨s, hs⟩ := slots_sourceMatches hm
  have hprobable : b.Probable := Declared.probable ⟨t, records, hb⟩
  unfold NameMatch.use? at huse
  rw [hs] at huse
  obtain ⟨_, -, rfl⟩ := Option.map_eq_some_iff.mp huse
  exact hprobable.sourceMatches hm

variable {t : Topology} {records : RuleRecords ℝ} {b : Rulebook ℝ} {source target : String}
  {d : Direction} {maxNameLen : Nat}

theorem perm_addNamed (hb : ofRecords? t records = .ok b) (hd : d < t.count) {verb : String}
    {sampler : WeightedSampler (NamedOutcome ℝ) ℝ}
    (h : (b.sourceMatches source d).foldlM (addNamed maxNameLen target verb) .empty =
      .ok sampler) :
    sampler.toList.Perm ((sharing (fun u => (u.named maxNameLen verb).key)
      (b.uses d source target)).map fun u => (u.named maxNameLen verb, u.rule.prob)) := by
  rw [addNamed_foldlM fun _ => slots_sourceMatches, filterMap_sourceMatches hb hd] at h
  have hperm := WeightedSampler.perm_adds NamedOutcome.beq_eq_key h
  rw [lastOfEach_map, List.filter_map] at hperm
  refine hperm.trans (List.Perm.of_eq (congrArg _ (List.filter_congr fun u hu => ?_)))
  have hprob := prob_of_mem_uses hb hd (mem_of_mem_lastOfEach hu)
  have hpos : 0 < u.rule.prob ↔ u.rule.prob ≠ 0 := hprob.lt_iff_ne'
  simp [hpos]

/-- That nothing happens is an outcome of its own. -/
theorem perm_fillUp {s s' : WeightedSampler (NamedOutcome ℝ) ℝ} (he : Explicit s)
    (hn : (s.toList.map fun e => e.1.key).Nodup) (h : fillUp source target s = .ok s') :
    s'.toList.Perm
      (s.toList ++ if s.total < 1 then [(⟨source, target, "", none⟩, 1 - s.total)] else []) := by
  unfold fillUp at h
  split at h
  next hlt =>
    have hperm := WeightedSampler.perm_add NamedOutcome.beq_eq_key h hn
    have hrest : ¬ 1 - s.total ≤ 0 := not_le.mpr (sub_pos.mpr hlt)
    have hall : ∀ e ∈ s.toList,
        decide (e.1.key ≠ (⟨source, target, "", none⟩ : NamedOutcome ℝ).key) = true := by
      intro e hmem
      obtain ⟨b, hb, rfl⟩ := List.mem_map.mp hmem
      have hsome := he b.item (List.mem_map_of_mem hb)
      refine decide_eq_true fun hkey => ?_
      have hnone : b.item.rule.isNone = true := (Prod.mk.inj (Prod.mk.inj hkey).2).2
      rw [Option.isNone_iff_eq_none.mp hnone] at hsome
      exact nomatch hsome
    rw [List.filter_eq_self.mpr hall, if_neg hrest] at hperm
    rw [if_pos hlt]
    exact hperm
  next hge =>
    cases h
    rw [if_neg hge, List.append_nil]

/-- What the rules make of a source and a target are the shares of their uses, and that nothing
happens where these leave a rest to one. -/
theorem perm_pairOutcomes (hb : ofRecords? t records = .ok b) (hd : d < t.count)
    {outcomes : WeightedSampler (NamedOutcome ℝ) ℝ}
    (h : b.pairOutcomes maxNameLen source d target = .ok outcomes) :
    let verb := (b.appearance source).verb.getD ""
    let shares := sharing (fun u => (u.named maxNameLen verb).key) (b.uses d source target)
    let sum := (shares.map (·.rule.prob)).sum
    outcomes.toList.Perm (shares.map (fun u => (u.named maxNameLen verb, u.rule.prob)) ++
        if sum < 1 then [(⟨source, target, "", none⟩, 1 - sum)] else []) ∧
      outcomes.drawRange = max 1 sum := by
  obtain ⟨hgapless, -, hrange⟩ := pairOutcomes_gapless h
  obtain ⟨s, hs, h⟩ := bind_eq_ok.mp h
  rw [matches_of_ofName hb hs hd] at h
  obtain ⟨sampler, hfold, h⟩ := bind_eq_ok.mp h
  obtain ⟨filled, hfilled, rfl⟩ := map_eq_ok.mp h
  intro verb shares sum
  have hshares : sampler.toList.Perm
      (shares.map fun u => (u.named maxNameLen verb, u.rule.prob)) := perm_addNamed hb hd hfold
  obtain ⟨hopen, hexplicit⟩ := explicit_of_foldlM hfold
  have htotal : sampler.total = sum := by
    rw [hopen.total_eq, (hshares.map _).sum_eq, List.map_map]
    rfl
  have hnodup : (sampler.toList.map fun e => e.1.key).Nodup := by
    rw [(hshares.map _).nodup_iff, List.map_map]
    exact (nodup_lastOfEach (fun u : RuleUse ℝ => (u.named maxNameLen verb).key) _).sublist
      (List.filter_sublist.map _)
  have hfill := perm_fillUp hexplicit hnodup hfilled
  rw [htotal] at hfill
  have hperm := hfill.trans (hshares.append_right _)
  refine ⟨hperm, ?_⟩
  have hsum : filled.close.total = sum + if sum < 1 then 1 - sum else 0 := by
    have hlist : filled.close.toList = filled.toList := rfl
    rw [hgapless.total_eq, hlist, (hperm.map _).sum_eq, List.map_append, List.sum_append,
      List.map_map]
    congr 1
    split
    · exact List.sum_singleton
    · rfl
  rw [hrange, hsum]
  split
  next hlt => rw [add_sub_cancel, max_eq_left (le_of_lt hlt)]
  next hge => rw [add_zero, max_eq_right (not_lt.mp hge)]

/-- Two rules for a name in the north that keep both particles, with different probabilities. -/
theorem exists_overridden :
    ∃ (records : RuleRecords ℝ) (b : Rulebook ℝ) (u v : RuleUse ℝ),
      ofRecords? .square4 records = .ok b ∧ b.rules.map (·.prob) = [1, 2⁻¹] ∧
      b.uses 0 "_" "_" = [u, v] ∧ (u.newSource, u.newTarget) = ("_", "_") ∧
      (v.newSource, v.newTarget) = ("_", "_") ∧ v.rule.prob = 2⁻¹ := by
  let rule (prob : ℝ) : TransformRule ℝ := ⟨none, some 0, .parse "_", .parse "_", .parse "$S",
    .parse "$T", prob, .parse "", [], [], [], []⟩
  let record (prob : Option ℝ) : TransformRecord ℝ :=
    { dir := some "n", source := some "_", target := some "_", prob }
  let rules : List (TransformRule ℝ) := [rule 1, rule 2⁻¹]
  let b : Rulebook ℝ := ⟨.square4, [], rules, (List.range 4).map fun d =>
    (rules.filter (·.appliesTo d)).map fun r => .ofRule r .square4 d, []⟩
  have hhalf : (0 : ℝ) ≤ 2⁻¹ := by norm_num
  have hb : ofRecords? .square4 ⟨[], [record none, record (some 2⁻¹)], []⟩ = .ok b := by
    have hfirst : TransformRule.ofRecord? .square4 (record none) = .ok (rule 1) :=
      TransformRule.ofRecord_north none (zero_le_one (α := ℝ))
    have hsecond : TransformRule.ofRecord? .square4 (record (some 2⁻¹)) = .ok (rule 2⁻¹) :=
      TransformRule.ofRecord_north (some 2⁻¹) hhalf
    unfold ofRecords?
    simp only [List.mapM_cons, List.mapM_nil, hfirst, hsecond]
    rfl
  have hfirst : ((b.use? 0 "_" "_" (rule 1)).map fun u => (u.newSource, u.newTarget)) =
      some ("_", "_") := by
    decide +kernel
  have hsecond : ((b.use? 0 "_" "_" (rule 2⁻¹)).map fun u => (u.newSource, u.newTarget)) =
      some ("_", "_") := by
    decide +kernel
  obtain ⟨u, hu, hnames⟩ := Option.map_eq_some_iff.mp hfirst
  obtain ⟨v, hv, hnames'⟩ := Option.map_eq_some_iff.mp hsecond
  have hprob : v.rule.prob = 2⁻¹ := by rw [rule_of_use? hv]
  have hall : b.rules.filter (·.appliesTo 0) = [rule 1, rule 2⁻¹] := rfl
  refine ⟨_, b, u, v, hb, rfl, ?_, hnames, hnames', hprob⟩
  unfold uses
  rw [hall]
  simp only [List.filterMap_cons, hu, hv, List.filterMap_nil]

end Rulebook

end ParticleAutomaton
