import ParticleAutomaton.Proofs.CompiledOutcomes

namespace ParticleAutomaton

/-- Numbers among which zero makes no sum of rates larger, and no other rate is at or below it. -/
class NeutralScalar (R : Type) extends RateScalar R where
  eq_zero {x : R} (hx : Scalar.IsRate x) (h : x ≤ 0) : x = 0
  add_zero {x : R} (hx : Scalar.IsRate x) : x + 0 = x

instance : NeutralScalar Float where
  eq_zero hx h := float_eq_zero_of_le (unsigned_iff.mpr hx) h
  add_zero hx := float_add_zero (unsigned_iff.mpr hx)

noncomputable instance : NeutralScalar ℝ where
  eq_zero hx h := le_antisymm h (isRate_real.mp hx)
  add_zero _ := add_zero _

namespace WeightedSampler

variable {α R : Type}

theorem end_lineUp [Scalar R] (start : R) (items : List (α × R)) :
    (lineUp start items).2 = (items.map Prod.snd).foldl (· + ·) start := by
  induction items generalizing start with
  | nil => rfl
  | cons e items ih => exact ih (start + e.2)

theorem Gapless.total_eq_sum [Scalar R] {s : WeightedSampler α R} (h : s.Gapless) :
    s.total = Scalar.sum (s.toList.map Prod.snd) := by
  have hend := end_lineUp 0 s.toList
  unfold Gapless at h
  rw [h] at hend
  exact hend

theorem weight_eq_find [Scalar R] [BEq α] (s : WeightedSampler α R) (item : α) :
    s.weight item = ((s.toList.find? (·.1 == item)).map Prod.snd).getD 0 := by
  unfold weight toList
  rw [List.find?_map, Option.map_map]
  rfl

theorem addAll_append_singleton [Scalar R] [BEq α] (s : WeightedSampler α R) (es : List (α × R))
    (e : α × R) : s.addAll (es ++ [e]) = s.addAll es >>= fun s => s.add e.1 e.2 := by
  unfold addAll
  rw [List.foldlM_append]
  simp

theorem toList_add_new [Scalar R] [BEq α] [LawfulBEq α] {s s' : WeightedSampler α R} {item : α}
    {weight : R} (hn : item ∉ s.toList.map Prod.fst) (h : s.add item weight = .ok s') :
    s'.toList = s.toList ++ if weight ≤ 0 then [] else [(item, weight)] := by
  have hfind : s.buckets.findIdx? (·.item == item) = none := by
    rw [List.findIdx?_eq_none_iff]
    intro b hb
    have hmem : b.item ∈ s.toList.map Prod.fst := by
      unfold toList
      rw [List.map_map]
      exact List.mem_map_of_mem hb
    have hne : b.item ≠ item := fun he => hn (he ▸ hmem)
    exact beq_false_of_ne hne
  unfold add at h
  rw [hfind] at h
  split at h
  next => exact nomatch h
  next =>
    simp only at h
    split at h
    next hw =>
      cases h
      rw [if_pos hw, List.append_nil]
    next hw =>
      cases h
      rw [if_neg hw]
      simp [toList]

/-- Items that are all different stand in the order in which they are added, those without a weight
left out. -/
theorem toList_addAll [Scalar R] [BEq α] [LawfulBEq α] {es : List (α × R)}
    {s : WeightedSampler α R} (hd : (es.map Prod.fst).Nodup) (h : addAll .empty es = .ok s) :
    s.toList = es.filter fun e => ¬ e.2 ≤ 0 := by
  induction es using List.reverseRecOn generalizing s with
  | nil =>
    cases h
    rfl
  | append_singleton es e ih =>
    rw [addAll_append_singleton] at h
    obtain ⟨s', hs', hadd⟩ := bind_eq_ok.mp h
    rw [List.map_append, List.map_singleton, List.nodup_append] at hd
    obtain ⟨hfront, -, hlast⟩ := hd
    have hfirst := ih hfront hs'
    have hnew : e.1 ∉ s'.toList.map Prod.fst := by
      intro hmem
      rw [hfirst] at hmem
      obtain ⟨f, hf, he⟩ := List.mem_map.mp hmem
      have hin := List.mem_map_of_mem (f := Prod.fst) (List.mem_of_mem_filter hf)
      exact hlast f.1 hin e.1 (List.mem_singleton_self _) he
    rw [toList_add_new hnew hadd, hfirst, List.filter_append, List.filter_singleton]
    by_cases hw : e.2 ≤ 0
    · simp [hw]
    · simp [hw]

end WeightedSampler

theorem Scalar.sum_filter {R : Type} [NeutralScalar R] {ws : List R} (h : ∀ w ∈ ws, IsRate w) :
    sum (ws.filter fun w => ¬ w ≤ 0) = sum ws := by
  induction ws using List.reverseRecOn with
  | nil => rfl
  | append_singleton ws w ih =>
    have hfront : ∀ v ∈ ws, IsRate v := fun v hv => h v (List.mem_append_left _ hv)
    have hw : IsRate w := h w (List.mem_append_right _ (List.mem_singleton_self w))
    have hsum : IsRate (sum ws) := isRate_sum fun v hv => RateScalar.zero_le (hfront v hv)
    rw [List.filter_append, sum_append_singleton]
    by_cases hle : w ≤ 0
    · have hnone : [w].filter (fun w => ¬ w ≤ 0) = [] := by simp [hle]
      rw [hnone, List.append_nil, ih hfront, NeutralScalar.eq_zero hw hle,
        NeutralScalar.add_zero hsum]
    · have hkept : [w].filter (fun w => ¬ w ≤ 0) = [w] := by simp [hle]
      rw [hkept, sum_append_singleton, ih hfront]

namespace Rulebook

/-- How often a source tries a direction: the sum of the probabilities of its rules, at most one. -/
def rate {R : Type} [Scalar R] (b : Rulebook R) (name : String) (d : Direction) : R :=
  Scalar.atMost 1 (Scalar.sum ((b.sourceMatches name d).map (·.rule.rule.prob)))

theorem directedRules_of_le {R : Type} [Scalar R] {t : Topology} {records : RuleRecords R}
    {b : Rulebook R} (h : ofRecords? t records = .ok b) {d : Direction} (hd : t.count ≤ d) :
    b.directedRules d = [] := by
  unfold ofRecords? at h
  obtain ⟨_, -, h⟩ := bind_eq_ok.mp h
  obtain ⟨_, -, h⟩ := bind_eq_ok.mp h
  obtain ⟨_, -, h⟩ := bind_eq_ok.mp h
  cases h
  unfold directedRules
  rw [List.getElem?_eq_none (by simpa using hd)]
  rfl

variable {R : Type} [RateScalar R] {b : Rulebook R}

theorem Probable.isRate_rate (h : b.Probable) (name : String) (d : Direction) :
    Scalar.IsRate (b.rate name d) := by
  have hprobs : ∀ x ∈ (b.sourceMatches name d).map (·.rule.rule.prob), 0 ≤ x := by
    intro x hx
    obtain ⟨m, hm, rfl⟩ := List.mem_map.mp hx
    exact h.sourceMatches hm
  exact (Scalar.isRate_sum hprobs).atMost_one

/-- A place that is no direction of the neighborhood is not tried. -/
theorem rate_of_le {t : Topology} {records : RuleRecords R} (h : ofRecords? t records = .ok b)
    (name : String) {d : Direction} (hd : t.count ≤ d) : b.rate name d = 0 := by
  unfold rate sourceMatches
  rw [directedRules_of_le h hd]
  exact if_pos RateScalar.zero_lt_one

end Rulebook

namespace SourceRules

theorem ofName_eq {R : Type} [Scalar R] (b : Rulebook R) (name : String) :
    ofName b name =
      (WeightedSampler.addAll .empty
        ((List.range b.topology.count).map fun d => (d, b.rate name d))).map fun rates =>
          ⟨(List.range b.topology.count).map (b.sourceMatches name), rates⟩ := by
  have hzip : ((List.range b.topology.count).map (b.sourceMatches name)).zipIdx =
      (List.range b.topology.count).map fun d => (b.sourceMatches name d, d) := by
    apply List.ext_getElem
    · simp
    · intro i hi hj
      simp
  unfold ofName WeightedSampler.addAll
  simp only [hzip, List.foldlM_map]
  rfl

section

variable {R : Type} [Scalar R] {b : Rulebook R} {name : String} {s : SourceRules R}

/-- The directions that are tried at all stand in their order with their rates. -/
theorem toList_of_ofName (h : ofName b name = .ok s) :
    s.rates.toList = ((List.range b.topology.count).map fun d => (d, b.rate name d)).filter
      fun e => ¬ e.2 ≤ 0 := by
  rw [ofName_eq] at h
  obtain ⟨rates, hrates, rfl⟩ := map_eq_ok.mp h
  apply WeightedSampler.toList_addAll _ hrates
  rw [List.map_map]
  exact (List.map_id _).symm ▸ List.nodup_range

end

variable {R : Type} [NeutralScalar R] {b : Rulebook R} {name : String} {s : SourceRules R}

theorem total_of_ofName (h : ofName b name = .ok s) (hp : b.Probable) :
    s.rates.total = Scalar.sum ((List.range b.topology.count).map (b.rate name)) := by
  have hfilter : (((List.range b.topology.count).map fun d => (d, b.rate name d)).filter
      fun e => ¬ e.2 ≤ 0).map Prod.snd =
        ((List.range b.topology.count).map (b.rate name)).filter fun w => ¬ w ≤ 0 := by
    rw [List.filter_map, List.filter_map, List.map_map]
    rfl
  rw [(gapless_of_ofName h).1.total_eq_sum, toList_of_ofName h, hfilter]
  apply Scalar.sum_filter
  intro w hw
  obtain ⟨d, -, rfl⟩ := List.mem_map.mp hw
  exact hp.isRate_rate name d

theorem weight_of_ofName {t : Topology} {records : RuleRecords R}
    (hb : Rulebook.ofRecords? t records = .ok b) (h : ofName b name = .ok s) (d : Direction) :
    s.rates.weight d = b.rate name d := by
  have hp : b.Probable := Rulebook.Declared.probable ⟨t, records, hb⟩
  have hcount : b.topology.count = t.count := congrArg _ (Rulebook.topology_of_ofRecords hb)
  have hkept (e : Direction × R) (he : e ∈ s.rates.toList) :
      e.1 < t.count ∧ e.2 = b.rate name e.1 ∧ ¬ e.2 ≤ 0 := by
    rw [toList_of_ofName h] at he
    obtain ⟨hmem, hpos⟩ := List.mem_filter.mp he
    obtain ⟨i, hi, rfl⟩ := List.mem_map.mp hmem
    rw [List.mem_range, hcount] at hi
    exact ⟨hi, rfl, of_decide_eq_true hpos⟩
  rw [WeightedSampler.weight_eq_find]
  cases hfind : s.rates.toList.find? (·.1 == d) with
  | some e =>
    have hkey : e.1 = d := by simpa using List.find?_some hfind
    obtain ⟨-, hrate, -⟩ := hkept e (List.mem_of_find?_eq_some hfind)
    rw [← hkey]
    exact hrate
  | none =>
    -- It has no rate, or is no direction.
    have hzero : b.rate name d = 0 := by
      by_cases hd : d < t.count
      · apply NeutralScalar.eq_zero (hp.isRate_rate name d)
        by_contra hpos
        have hmem : (d, b.rate name d) ∈ s.rates.toList := by
          rw [toList_of_ofName h]
          apply List.mem_filter.mpr
          refine ⟨List.mem_map.mpr ⟨d, ?_, rfl⟩, decide_eq_true hpos⟩
          rw [List.mem_range, hcount]
          exact hd
        have hmiss := List.find?_eq_none.mp hfind _ hmem
        exact hmiss (beq_self_eq_true d)
      · exact Rulebook.rate_of_le hb name (not_lt.mp hd)
    exact hzero.symm

end SourceRules

namespace Registry

variable {R : Type} [NeutralScalar R] {t : Topology} {records : RuleRecords R} {b : Rulebook R}
  {r : Registry R} {id : ParticleId} {name : String}

/-- What a particle is asked about its directions is told from the rules for its name. -/
theorem Sound.dirRate_ok (h : r.Sound) (hb : Rulebook.ofRecords? t records = .ok b)
    (hrules : r.rules = b) (hn : r.name? id = some name) (d : Direction) :
    ∃ r', r.dirRate id d = .ok (b.rate name d, r') := by
  obtain ⟨s, hs⟩ := Rulebook.total_of_ofRecords hb name
  have hagree := sources_agree h hn
  rw [hrules, hs] at hagree
  obtain ⟨⟨found, r'⟩, hx, rfl, -, -⟩ := hagree.eq_ok
  refine ⟨r', ?_⟩
  unfold dirRate
  rw [hx, ok_bind]
  simp only [Option.elim_some, SourceRules.weight_of_ofName hb hs d]

theorem Sound.activityRate_ok (h : r.Sound) (hb : Rulebook.ofRecords? t records = .ok b)
    (hrules : r.rules = b) (hn : r.name? id = some name) :
    ∃ r', r.activityRate id = .ok (Scalar.atMost 1
      (Scalar.sum ((List.range t.count).map (b.rate name)) / Scalar.ofInt t.count), r') := by
  have hp : b.Probable := Rulebook.Declared.probable ⟨t, records, hb⟩
  obtain ⟨s, hs⟩ := Rulebook.total_of_ofRecords hb name
  have hagree := activityRate_agree h hn
  rw [hrules, Rulebook.activity, hs] at hagree
  obtain ⟨⟨rate, r'⟩, hx, hrate, -, -⟩ := hagree.eq_ok
  refine ⟨r', ?_⟩
  rw [hx]
  simp only at hrate
  rw [hrate, SourceRules.total_of_ofName hs hp, Rulebook.topology_of_ofRecords hb]

/-- Whatever a registry was asked and has remembered or forgotten since, it tells the energies and
rates that the rules give to the names. -/
theorem answers_exact {maxNameLen : Nat} {source target : ParticleId} {p q : Particle R}
    (hb : Rulebook.ofRecords? t records = .ok b) (hr : (new b maxNameLen).Passes r)
    (hs : r.get? source = some p) (ht : r.get? target = some q) :
    (∀ bond offset previous, (r.bondEnergy source bond target offset previous).1 =
      b.energy p.name q.name bond offset previous) ∧
    (∀ d, ∃ r', r.dirRate source d = .ok (b.rate p.name d, r')) ∧
    ∃ r', r.activityRate source = .ok (Scalar.atMost 1
      (Scalar.sum ((List.range t.count).map (b.rate p.name)) / Scalar.ofInt t.count), r') := by
  obtain ⟨hsound, hrules⟩ := sound_of_passes hr
  have hsource := name?_of_get? hs
  have htarget := name?_of_get? ht
  refine ⟨?_, hsound.dirRate_ok hb hrules hsource, hsound.activityRate_ok hb hrules hsource⟩
  intro bond offset previous
  rw [bondEnergy_eq hsound (hsound.serial_lt htarget), name_of hsource, name_of htarget, hrules]

/-- A particle that is asked for its activity, counted and kept by a flush, with two rules for the
north and a bond. -/
theorem answers_exact_of_flushed :
    ∃ (records : RuleRecords Float) (b : Rulebook Float) (r : Registry Float) (id : ParticleId)
      (p : Particle Float),
      Rulebook.ofRecords? .square4 records = .ok b ∧ (new b 256).Passes r.flush.2 ∧
      r.flush.2.get? id = some p ∧ p.name = "_" ∧
      (r.flush.2.bondEnergy id "k" id ⟨1, 0⟩ none).1 = 1.5 ∧
      (∃ r', r.flush.2.dirRate id 0 = .ok (0.75, r')) ∧
      (∃ r', r.flush.2.dirRate id 1 = .ok (0, r')) ∧
      ∃ r', r.flush.2.activityRate id = .ok (0.1875, r') := by
  let north (prob : Float) : TransformRecord Float :=
    { dir := some "n", source := some "_", target := some "_", prob := some prob }
  let bond : EnergyRecord Float :=
    ⟨some "_", some "_", some "k", some 1.5, ⟨none, none, 0, none, none, 0⟩⟩
  let records : RuleRecords Float := ⟨[], [north 0.25, north 0.5], [bond]⟩
  have hread : ((Rulebook.ofRecords? .square4 records).toOption.any fun b =>
      decide (b.energy "_" "_" "k" ⟨1, 0⟩ none = 1.5) && decide (b.rate "_" 0 = 0.75) &&
      decide (b.rate "_" 1 = 0) && decide (Scalar.atMost 1 (Scalar.sum
        ((List.range Topology.square4.count).map (b.rate "_")) /
          Scalar.ofInt Topology.square4.count) = 0.1875)) = true := by
    decide +kernel
  obtain ⟨b, hb, hvalues⟩ := any_toOption.mp hread
  simp only [Bool.and_eq_true, decide_eq_true_eq] at hvalues
  obtain ⟨⟨⟨henergy, hnorth⟩, heast⟩, hactivity⟩ := hvalues
  obtain ⟨hsound, hext, hn⟩ := (sound_new b 256).intern "_"
  have hshort : Text.truncate 256 "_" = "_" := by decide
  obtain ⟨asked, hasked⟩ := hsound.activityRate_ok hb hext.rules hn
  have hagree := activityRate_agree hsound hn
  rw [hasked] at hagree
  obtain ⟨_, -, -, hkeeps, hsound'⟩ := hagree.symm.eq_ok
  have hnamed := hsound.name?_of_keeps hkeeps.toKeeps hn
  have hkept := hsound'.name?_of_keeps (keeps_addCount asked ((new b 256).intern "_").1) hnamed
  have hheld := held_addCount hnamed ((new b 256).intern "_").1
  rw [if_pos rfl] at hheld
  have hpos : 0 < (asked.addCount ((new b 256).intern "_").1).held ((new b 256).intern "_").1 :=
    hheld ▸ Nat.succ_pos _
  have hlive := name?_flush_eq_some_iff.mpr ⟨hkept, hpos⟩
  obtain ⟨p, hp, hname⟩ := get?_of_name? hlive
  have hname : p.name = "_" := hname.trans hshort
  have hr : (new b 256).Passes (asked.addCount ((new b 256).intern "_").1).flush.2 :=
    .tail (.tail (.tail (.single (.intern "_")) (.activityRate hasked)) (.addCount _)) .flush
  obtain ⟨henergies, hdirs, r', hrate⟩ := answers_exact hb hr hp hp
  rw [hname] at hrate
  have hfirst := hdirs 0
  have hsecond := hdirs 1
  rw [hname, hnorth] at hfirst
  rw [hname, heast] at hsecond
  have hbond := henergies "k" ⟨1, 0⟩ none
  rw [hname, henergy] at hbond
  exact ⟨records, b, _, _, p, hb, hr, hp, hname, hbond, hfirst, hsecond, r',
    hrate.trans (congrArg (Except.ok <| Prod.mk · r') hactivity)⟩

end Registry

end ParticleAutomaton
