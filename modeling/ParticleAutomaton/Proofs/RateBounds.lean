import ParticleAutomaton.Proofs.DirectionRates
import ParticleAutomaton.Proofs.RemoteBarrier

namespace ParticleAutomaton

namespace Scalar

theorem sum_real (terms : List ℝ) : sum terms = terms.sum := List.sum_eq_foldl.symm

theorem atMost_real (bound value : ℝ) : atMost bound value = min bound value := by
  unfold atMost
  split
  next h => exact (min_eq_right (le_of_lt h)).symm
  next h => exact (min_eq_left (not_lt.mp h)).symm

end Scalar

theorem eq_zero_of_min_one {x : ℝ} (h : min 1 x = 0) : x = 0 := by
  rcases min_choice 1 x with hone | hx
  · exact absurd (hone.symm.trans h) one_ne_zero
  · exact hx.symm.trans h

theorem lastOfEach_sublist {ι κ : Type} [DecidableEq κ] (key : ι → κ) (is : List ι) :
    (lastOfEach key is).Sublist is := by
  induction is with
  | nil => exact List.Sublist.refl []
  | cons i is ih =>
    unfold lastOfEach
    split
    next => exact ih.cons i
    next => exact ih.cons_cons i

theorem NameMatch.rule_of_use? {R : Type} {m : NameMatch R} {target : String} {u : RuleUse R}
    (h : m.use? target = some u) : u.rule = m.rule.rule := by
  unfold NameMatch.use? at h
  split at h
  next =>
    obtain ⟨_, -, rfl⟩ := Option.map_eq_some_iff.mp h
    rfl
  next => exact nomatch h

theorem probs_of_matches {R : Type} (ms : List (NameMatch R)) (target : String) :
    ((ms.filterMap (·.use? target)).map (·.rule.prob)).Sublist
      (ms.map (·.rule.rule.prob)) := by
  induction ms with
  | nil => exact List.Sublist.refl []
  | cons m ms ih =>
    rw [List.filterMap_cons, List.map_cons]
    split
    next => exact ih.cons _
    next u hu =>
      rw [List.map_cons, NameMatch.rule_of_use? hu]
      exact ih.cons_cons _

namespace Rulebook

variable {t : Topology} {records : RuleRecords ℝ} {b : Rulebook ℝ} {d : Direction}

theorem rate_eq_min (b : Rulebook ℝ) (name : String) (d : Direction) :
    b.rate name d = min 1 ((b.sourceMatches name d).map (·.rule.rule.prob)).sum := by
  rw [rate, Scalar.atMost_real, Scalar.sum_real]

theorem rate_nonneg (hb : ofRecords? t records = .ok b) (name : String) (d : Direction) :
    0 ≤ b.rate name d :=
  isRate_real.mp (Probable.isRate_rate (Declared.probable ⟨t, records, hb⟩) name d)

/-- Whatever the target makes of the rules of the source, it adds no probability to them. -/
theorem sum_sharing_le (hb : ofRecords? t records = .ok b) (hd : d < t.count)
    (source target : String) {κ : Type} [DecidableEq κ] (key : RuleUse ℝ → κ) :
    ((sharing key (b.uses d source target)).map (·.rule.prob)).sum ≤
      ((b.sourceMatches source d).map (·.rule.rule.prob)).sum := by
  have hprobable : b.Probable := Declared.probable ⟨t, records, hb⟩
  have huses := probs_of_matches (b.sourceMatches source d) target
  rw [filterMap_sourceMatches hb hd] at huses
  have hshares : (sharing key (b.uses d source target)).Sublist (b.uses d source target) :=
    List.filter_sublist.trans (lastOfEach_sublist key _)
  apply ((hshares.map _).trans huses).sum_le_sum
  intro x hx
  obtain ⟨m, hm, rfl⟩ := List.mem_map.mp hx
  exact hprobable.sourceMatches hm

/-- No direction is tried where the rates of all of them add up to nothing. -/
theorem rate_of_sum (hb : ofRecords? t records = .ok b) {name : String} (hd : d < t.count)
    (h : ((List.range t.count).map (b.rate name)).sum = 0) : b.rate name d = 0 := by
  have hmem : b.rate name d ∈ (List.range t.count).map (b.rate name) :=
    List.mem_map_of_mem (List.mem_range.mpr hd)
  have hterms : ∀ x ∈ (List.range t.count).map (b.rate name), 0 ≤ x := by
    intro x hx
    obtain ⟨e, -, rfl⟩ := List.mem_map.mp hx
    exact rate_nonneg hb name e
  have hle := List.single_le_sum hterms _ hmem
  rw [h] at hle
  exact le_antisymm hle (rate_nonneg hb name d)

end Rulebook

/-- How much of what may come of two neighbors rules say. -/
noncomputable def WeightedSampler.explicitWeight (s : WeightedSampler (Outcome ℝ) ℝ) : ℝ :=
  ((s.toList.filter fun e => !e.1.isIdle).map Prod.snd).sum

namespace Registry

/-- A registry has worked out what a source and a target turn into, or does so when it is asked. -/
def Offers {R : Type} [Scalar R] (r : Registry R) (source : ParticleId) (d : Direction)
    (target : ParticleId) (sampler : WeightedSampler (Outcome R) R) : Prop :=
  r.transform? source d target = some sampler ∨
    ∃ r', r.compile source d target = .ok r' ∧ r'.transform? source d target = some sampler

theorem Sound.rendered_of_offers {R : Type} [Scalar R] {r : Registry R} (h : r.Sound)
    {source target : ParticleId} {sourceName targetName : String} {d : Direction}
    {sampler : WeightedSampler (Outcome R) R} (hs : r.name? source = some sourceName)
    (ht : r.name? target = some targetName) (ho : r.Offers source d target sampler) :
    d < r.rules.topology.count ∧ ∃ r' named, r.Extends r' ∧ r'.Sound ∧ r'.Renders sampler named ∧
      r.rules.pairOutcomes r.maxNameLen sourceName d targetName = .ok named := by
  rcases ho with hknown | ⟨r', hcompile, htransform⟩
  · obtain ⟨hd, named, hnamed, hrender⟩ := transform?_eq_some h hs ht hknown
    exact ⟨hd, r, named, .refl r, h, hrender, hnamed⟩
  · have hagree := compile_agree h hs ht d
    rw [hcompile] at hagree
    obtain ⟨_, -, he, hr', -⟩ := hagree.symm.eq_ok
    obtain ⟨hd, named, hnamed, hrender⟩ := transform?_eq_some hr'
      (h.name?_of_keeps he.toKeeps hs) (h.name?_of_keeps he.toKeeps ht) htransform
    rw [he.rules] at hd hnamed
    rw [he.maxNameLen] at hnamed
    exact ⟨hd, r', named, he, hr', hrender, hnamed⟩

variable {t : Topology} {records : RuleRecords ℝ} {b : Rulebook ℝ} {r : Registry ℝ}
  {source target : ParticleId} {sourceName targetName : String} {d : Direction}
  {sampler : WeightedSampler (Outcome ℝ) ℝ}

/-- What may come of a source and a target is what comes of the rules that share in it, and that
nothing happens where these leave a rest to one. -/
theorem Sound.offered_uses (h : r.Sound) (hb : Rulebook.ofRecords? t records = .ok b)
    (hrules : r.rules = b) (hs : r.name? source = some sourceName)
    (ht : r.name? target = some targetName) (ho : r.Offers source d target sampler) :
    d < t.count ∧ ∃ (verb : String) (outcome : RuleUse ℝ → Outcome ℝ),
      (∀ u, (outcome u).isIdle = false) ∧
      let shares := Rulebook.sharing (fun u => (u.named r.maxNameLen verb).key)
        (b.uses d sourceName targetName)
      let sum := (shares.map (·.rule.prob)).sum
      sampler.toList.Perm (shares.map (fun u => (outcome u, u.rule.prob)) ++
        if sum < 1 then [(.idle source target, 1 - sum)] else []) := by
  obtain ⟨hcount, r', named, he, hr', hrender, hnamed⟩ := h.rendered_of_offers hs ht ho
  rw [hrules] at hcount hnamed
  have hd : d < t.count := Rulebook.topology_of_ofRecords hb ▸ hcount
  obtain ⟨hperm, -⟩ := Rulebook.perm_pairOutcomes hb hd hnamed
  have hidle : r'.unnamed ⟨sourceName, targetName, "", none⟩ = .idle source target :=
    hr'.unnamed_idle (h.name?_of_keeps he.toKeeps hs) (h.name?_of_keeps he.toKeeps ht)
  refine ⟨hd, (b.appearance sourceName).verb.getD "", fun u => r'.unnamed
    (u.named r.maxNameLen ((b.appearance sourceName).verb.getD "")), fun u => rfl, ?_⟩
  intro shares sum
  have hmap := hperm.map fun e => (r'.unnamed e.1, e.2)
  rw [← hr'.mapItems_unnamed hrender, WeightedSampler.toList_mapItems]
  rw [List.map_append, List.map_map, apply_ite (List.map _)] at hmap
  simpa [Function.comp_def, hidle] using hmap

/-- Rules say what may come of a source and a target, no more often than those for the source do. -/
theorem Sound.offered_shares (h : r.Sound) (hb : Rulebook.ofRecords? t records = .ok b)
    (hrules : r.rules = b) (hs : r.name? source = some sourceName)
    (ht : r.name? target = some targetName) (ho : r.Offers source d target sampler) :
    ∃ shares : List (Outcome ℝ × ℝ), (∀ e ∈ shares, e.1.isIdle = false ∧ 0 < e.2) ∧
      (shares.map Prod.snd).sum ≤
        ((b.sourceMatches sourceName d).map (·.rule.rule.prob)).sum ∧
      sampler.toList.Perm (shares ++ if (shares.map Prod.snd).sum < 1 then
        [(.idle source target, 1 - (shares.map Prod.snd).sum)] else []) := by
  obtain ⟨hd, verb, outcome, hexplicit, hperm⟩ := h.offered_uses hb hrules hs ht ho
  refine ⟨(Rulebook.sharing (fun u => (u.named r.maxNameLen verb).key)
    (b.uses d sourceName targetName)).map fun u => (outcome u, u.rule.prob), ?_, ?_, ?_⟩
  · intro e hmem
    obtain ⟨u, hu, rfl⟩ := List.mem_map.mp hmem
    obtain ⟨hlast, hprob⟩ := List.mem_filter.mp hu
    have hnonneg := Rulebook.prob_of_mem_uses hb hd (mem_of_mem_lastOfEach hlast)
    exact ⟨hexplicit u, hnonneg.lt_of_ne' (of_decide_eq_true hprob)⟩
  · rw [List.map_map]
    exact Rulebook.sum_sharing_le hb hd sourceName targetName _
  · rw [List.map_map]
    exact hperm

theorem explicitWeight_of_perm {shares rest : List (Outcome ℝ × ℝ)}
    (he : ∀ e ∈ shares, e.1.isIdle = false) (hi : ∀ e ∈ rest, e.1.isIdle = true)
    (hp : sampler.toList.Perm (shares ++ rest)) :
    sampler.explicitWeight = (shares.map Prod.snd).sum := by
  have hshares : shares.filter (fun e => !e.1.isIdle) = shares :=
    List.filter_eq_self.mpr fun e hmem => by simp [he e hmem]
  have hrest : rest.filter (fun e => !e.1.isIdle) = [] :=
    List.filter_eq_nil_iff.mpr fun e hmem => by simp [hi e hmem]
  have hfilter := hp.filter fun e => !e.1.isIdle
  rw [List.filter_append, hshares, hrest, List.append_nil] at hfilter
  exact (hfilter.map Prod.snd).sum_eq

theorem Sound.explicitWeight_le (h : r.Sound) (hb : Rulebook.ofRecords? t records = .ok b)
    (hrules : r.rules = b) (hs : r.name? source = some sourceName)
    (ht : r.name? target = some targetName) (ho : r.Offers source d target sampler) :
    min 1 sampler.explicitWeight ≤ b.rate sourceName d := by
  obtain ⟨shares, hshares, hsum, hperm⟩ := h.offered_shares hb hrules hs ht ho
  have hrest (e : Outcome ℝ × ℝ) (he : e ∈ if (shares.map Prod.snd).sum < 1 then
      [((.idle source target : Outcome ℝ), 1 - (shares.map Prod.snd).sum)] else []) :
      e.1.isIdle = true := by
    split at he
    next => exact List.mem_singleton.mp he ▸ rfl
    next => exact nomatch he
  rw [explicitWeight_of_perm (fun e he => (hshares e he).1) hrest hperm, Rulebook.rate_eq_min]
  exact min_le_min_left 1 hsum

/-- Nothing comes of a source in a direction that it does not try. -/
theorem Sound.idle_of_rate (h : r.Sound) (hb : Rulebook.ofRecords? t records = .ok b)
    (hrules : r.rules = b) (hs : r.name? source = some sourceName)
    (ht : r.name? target = some targetName) (ho : r.Offers source d target sampler)
    (hzero : b.rate sourceName d = 0) : sampler.toList = [(.idle source target, 1)] := by
  obtain ⟨shares, hshares, hsum, hperm⟩ := h.offered_shares hb hrules hs ht ho
  rw [Rulebook.rate_eq_min] at hzero
  rw [eq_zero_of_min_one hzero] at hsum
  have hweights : ∀ x ∈ shares.map Prod.snd, 0 ≤ x := by
    intro x hx
    obtain ⟨e, he, rfl⟩ := List.mem_map.mp hx
    exact le_of_lt (hshares e he).2
  have hnone : shares = [] := by
    rw [List.eq_nil_iff_forall_not_mem]
    intro e he
    have hle := List.single_le_sum hweights e.2 (List.mem_map_of_mem he)
    exact absurd (hshares e he).2 (not_lt.mpr (hle.trans hsum))
  rw [hnone] at hperm
  simpa using hperm

/-- The rates of a particle lie between zero and one and bound what can come of it. -/
structure RatesBound (r : Registry ℝ) (source : ParticleId) : Prop where
  dirRate : ∀ d, ∃ rate r', r.dirRate source d = .ok (rate, r') ∧ 0 ≤ rate ∧ rate ≤ 1
  activityRate : ∃ rate r', r.activityRate source = .ok (rate, r') ∧ 0 ≤ rate ∧ rate ≤ 1
  offers : ∀ {target q d}, r.get? target = some q → d < r.rules.topology.count →
    ∃ sampler, r.Offers source d target sampler
  explicit : ∀ {target q d sampler rate r'}, r.get? target = some q →
    r.Offers source d target sampler → r.dirRate source d = .ok (rate, r') →
      min 1 sampler.explicitWeight ≤ rate
  idle : ∀ {target q d sampler r'}, r.get? target = some q →
    r.Offers source d target sampler → r.activityRate source = .ok (0, r') →
      sampler.toList = [(.idle source target, 1)]

theorem Sound.ratesBound (h : r.Sound) (hb : Rulebook.ofRecords? t records = .ok b)
    (hrules : r.rules = b) (hs : r.name? source = some sourceName) : r.RatesBound source := by
  have hcount : r.rules.topology.count = t.count :=
    congrArg _ (hrules ▸ Rulebook.topology_of_ofRecords hb)
  have hdir := h.dirRate_ok hb hrules hs
  have hrate := Rulebook.rate_nonneg hb sourceName
  obtain ⟨asked, hasked⟩ := h.activityRate_ok hb hrules hs
  rw [Scalar.atMost_real, Scalar.sum_real] at hasked
  refine ⟨?_, ⟨_, asked, hasked, ?_, min_le_left ..⟩, ?_, ?_, ?_⟩
  · intro d
    obtain ⟨r', hd⟩ := hdir d
    refine ⟨_, r', hd, hrate d, ?_⟩
    rw [Rulebook.rate_eq_min]
    exact min_le_left ..
  · apply le_min zero_le_one
    apply div_nonneg _ (Nat.cast_nonneg t.count)
    apply List.sum_nonneg
    intro x hx
    obtain ⟨d, -, rfl⟩ := List.mem_map.mp hx
    exact hrate d
  · intro target q d hq hd
    rw [hcount] at hd
    obtain ⟨r', sampler, -, hcompile, -, -, htransform, -⟩ :=
      compile_renders hb hd h hrules hs (name?_of_get? hq)
    exact ⟨sampler, Or.inr ⟨r', hcompile, htransform⟩⟩
  · intro target q d sampler rate r' hq ho hd
    obtain ⟨_, hd'⟩ := hdir d
    cases hd.symm.trans hd'
    exact h.explicitWeight_le hb hrules hs (name?_of_get? hq) ho
  · intro target q d sampler r' hq ho hzero
    have hmean := (Prod.mk.inj (Except.ok.inj (hasked.symm.trans hzero))).1
    obtain ⟨hd, -⟩ := h.rendered_of_offers hs (name?_of_get? hq) ho
    rw [hcount] at hd
    have hpos : (0 : ℝ) < t.count := Nat.cast_pos.mpr t.count_pos
    have hsum := (div_eq_zero_iff.mp (eq_zero_of_min_one hmean)).resolve_right hpos.ne'
    exact h.idle_of_rate hb hrules hs (name?_of_get? hq) ho (Rulebook.rate_of_sum hb hd hsum)

end Registry

/-- The rates of all particles bound what can come of them, and a cell with a particle of which
something can come is drawn on every board that operations can make. -/
theorem Rulebook.rates_bound_outcomes {γ : Type} [Generator ℝ γ] [MessageReader ℝ] {t : Topology}
    {records : RuleRecords ℝ} {b : Rulebook ℝ} (hb : ofRecords? t records = .ok b) :
    (∀ maxNameLen r source p, (Registry.new b maxNameLen).Passes r → r.get? source = some p →
      r.RatesBound source) ∧
    ∀ board : Board ℝ γ, board.Reachable → board.registry.rules = b →
      ∀ p cell, board.grid.get? p = some cell → board.registry.RatesBound cell.particle ∧
        ∀ d target q sampler, board.registry.get? target = some q →
          board.registry.Offers cell.particle d target sampler →
            (∃ e ∈ sampler.toList, e.1.isIdle = false) → 0 < board.activity.rate p := by
  constructor
  · intro maxNameLen r source p hr hs
    obtain ⟨hsound, hrules⟩ := Registry.sound_of_passes hr
    exact hsound.ratesBound hb hrules (Registry.name?_of_get? hs)
  · intro board hboard hrules p cell hcell
    obtain ⟨name, hname⟩ := hboard.alike.named hcell
    have hsound := hboard.alike.sound
    have hbound := hsound.ratesBound hb hrules hname
    refine ⟨hbound, ?_⟩
    intro d target q sampler hq ho hreacts
    obtain ⟨e, he, hexplicit⟩ := hreacts
    have hactivity := hboard.synced.inside hcell hname
    have hagree := Registry.activityRate_agree hsound hname
    rw [hactivity] at hagree
    obtain ⟨⟨rate, r'⟩, hasked, heq, -, -⟩ := hagree.eq_ok
    obtain ⟨_, _, hasked', hnonneg, -⟩ := hbound.activityRate
    cases hasked.symm.trans hasked'
    simp only at heq
    rw [heq] at hasked hnonneg
    apply lt_of_le_of_ne hnonneg
    intro hzero
    rw [← hzero] at hasked
    have hidle := hbound.idle hq ho hasked
    rw [hidle, List.mem_singleton] at he
    rw [he] at hexplicit
    exact nomatch hexplicit

/-- Of two rules for a name in the north with one outcome the later one is offered, with its
probability of a half. -/
theorem Rulebook.rates_bound_outcomes_of_overridden :
    ∃ (records : RuleRecords ℝ) (rules : Rulebook ℝ) (board : Board ℝ (ℕ → ℝ)) (cell : Cell)
      (p : Particle ℝ) (sampler : WeightedSampler (Outcome ℝ) ℝ),
      ofRecords? .square4 records = .ok rules ∧
      (Registry.new rules 256).Passes ((Registry.new rules 256).intern "_").2 ∧
      ((Registry.new rules 256).intern "_").2.RatesBound
        ((Registry.new rules 256).intern "_").1 ∧
      board.Reachable ∧ board.registry.rules = rules ∧ board.grid.get? ⟨0, 0⟩ = some cell ∧
      board.registry.get? cell.particle = some p ∧ board.registry.RatesBound cell.particle ∧
      board.registry.Offers cell.particle 0 cell.particle sampler ∧
      sampler.explicitWeight = 2⁻¹ ∧
      (∃ rate r', board.registry.dirRate cell.particle 0 = .ok (rate, r') ∧
        2⁻¹ ≤ rate ∧ rate ≤ 1) ∧
      0 < board.activity.rate ⟨0, 0⟩ := by
  obtain ⟨records, rules, u, v, hb, hprobs, huses, hu, hv, hprob⟩ := exists_overridden
  obtain ⟨hsource, htarget⟩ := Prod.mk.inj hu
  obtain ⟨hsource', htarget'⟩ := Prod.mk.inj hv
  let config : BoardConfig := { width := 2, height := 2 }
  obtain ⟨board, hboard⟩ := Board.new_ok zeros (show config.validate = .ok () from rfl)
    (topology_of_ofRecords hb) (Declared.total ⟨_, _, hb⟩)
  have hr : board.Reachable := ⟨_, _, _, board, hboard, .refl⟩
  have hrules : board.registry.rules = rules := (Board.keeps_new hboard).rules
  have hin : board.grid.contains ⟨0, 0⟩ = true := by
    rw [(Board.grid_first hboard).2]
    decide +kernel
  obtain ⟨particle, hcell, hn⟩ := Board.cell_new hboard hin
  have hshort : Text.truncate 256 "_" = "_" := by decide
  have hname : board.registry.name? particle = some "_" := hn.trans (congrArg some hshort)
  obtain ⟨p, hp, -⟩ := Registry.get?_of_name? hname
  obtain ⟨-, -, hnew⟩ := (Registry.sound_new rules 256).intern "_"
  obtain ⟨q, hq, -⟩ := Registry.get?_of_name? hnew
  have hpasses : (Registry.new rules 256).Passes ((Registry.new rules 256).intern "_").2 :=
    .single (.intern "_")
  obtain ⟨hregistries, hboards⟩ := @rates_bound_outcomes (ℕ → ℝ) _ _ _ _ _ hb
  have hinterned := hregistries 256 _ _ q hpasses hq
  obtain ⟨hbound, hactive⟩ := hboards board hr hrules ⟨0, 0⟩ _ hcell
  have hcount : 0 < board.registry.rules.topology.count := Topology.count_pos _
  obtain ⟨sampler, hoffers⟩ := hbound.offers hp hcount
  obtain ⟨-, verb, outcome, hexplicit, hperm⟩ :=
    hr.alike.sound.offered_uses hb hrules hname hname hoffers
  have hshares : sharing (fun u => (u.named board.registry.maxNameLen verb).key) [u, v] = [v] := by
    have hkey : (v.named board.registry.maxNameLen verb).key =
        (u.named board.registry.maxNameLen verb).key := by
      unfold NamedOutcome.key RuleUse.named
      rw [hsource, htarget, hsource', htarget']
      rfl
    simp [sharing, lastOfEach, hkey, hprob]
  have hsum : ([v].map (·.rule.prob)).sum = 2⁻¹ := by simp [hprob]
  have hlt : (2⁻¹ : ℝ) < 1 := by norm_num
  rw [huses] at hperm
  simp only [hshares, hsum, if_pos hlt] at hperm
  have hv' : ∀ e ∈ [v].map (fun u => (outcome u, u.rule.prob)), e.1.isIdle = false := by
    simp [hexplicit]
  have hrest : ∀ e ∈ [((.idle particle particle : Outcome ℝ), (1 - 2⁻¹ : ℝ))],
      e.1.isIdle = true := by
    simp [Outcome.idle, Outcome.isIdle]
  have hweight : sampler.explicitWeight = 2⁻¹ := by
    rw [Registry.explicitWeight_of_perm hv' hrest hperm, List.map_map]
    exact hsum
  have hreacts : ∃ e ∈ sampler.toList, e.1.isIdle = false :=
    ⟨(outcome v, v.rule.prob), hperm.mem_iff.mpr (by simp), hexplicit v⟩
  obtain ⟨rate, r', hrate, -, hone⟩ := hbound.dirRate 0
  have hhalf := hbound.explicit hp hoffers hrate
  rw [hweight, min_eq_right (le_of_lt hlt)] at hhalf
  exact ⟨records, rules, board, _, p, sampler, hb, hpasses, hinterned, hr, hrules, hcell, hp,
    hbound, hoffers, hweight, ⟨rate, r', hrate, hhalf, hone⟩,
    hactive 0 _ p sampler hp hoffers hreacts⟩

end ParticleAutomaton
