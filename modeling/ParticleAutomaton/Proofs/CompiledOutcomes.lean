import ParticleAutomaton.Proofs.RegistryGrowth
import ParticleAutomaton.Proofs.RegistryRuns
import ParticleAutomaton.Proofs.RuleUses

namespace ParticleAutomaton

namespace Registry

section

variable {R : Type}

theorem find?_intern (r : Registry R) (name : String) :
    (r.intern name).2.find? name = some (r.intern name).1 := by
  rw [intern_eq]
  split
  next id hi => exact hi
  next => exact Std.HashMap.getElem?_insert_self

/-- Names are alike as far as they go. -/
theorem intern_truncate (r : Registry R) (name : String) :
    r.intern (Text.truncate r.maxNameLen name) = r.intern name := by
  rw [intern_eq, intern_eq, Text.truncate_truncate]

theorem Enlarged.finds {keep : Particle R → Particle R → Prop} {r s : Registry R}
    (h : Enlarged keep r s) {name : String} {id : ParticleId} (hf : r.find? name = some id) :
    s.find? name = some id := by
  unfold Registry.find? at hf ⊢
  rw [h.maxNameLen]
  exact h.index hf

theorem intern_of_find? {r : Registry R} {name : String} {id : ParticleId}
    (h : r.find? name = some id) : r.intern name = (id, r) := by
  unfold find? at h
  rw [intern_eq, h]

variable [Scalar R]

/-- The particle of a name that is there is the one that has it. -/
theorem Sound.intern_name {r : Registry R} (h : r.Sound) {id : ParticleId} {name : String}
    (hn : r.name? id = some name) : r.intern name = (id, r) := by
  refine intern_of_find? ?_
  unfold find?
  rw [h.bounded hn]
  exact h.index.mpr hn

/-- Names that are there have one particle if they are one as far as they go. -/
theorem Sound.intern_inj {r : Registry R} (h : r.Sound) {name other : String}
    (hn : r.find? name = some (r.intern name).1) (ho : r.find? other = some (r.intern other).1) :
    Text.truncate r.maxNameLen name = Text.truncate r.maxNameLen other ↔
      (r.intern name).1 = (r.intern other).1 := by
  constructor
  · intro he
    rw [← intern_truncate, he, intern_truncate]
  · intro he
    have hname := h.index.mp hn
    rw [he, h.index.mp ho] at hname
    exact (Option.some.inj hname).symm

/-- An outcome of the particles that have the names. -/
def unnamed (r : Registry R) (o : NamedOutcome R) : Outcome R :=
  ⟨(r.intern o.newSource).1, (r.intern o.newTarget).1, o.verb, o.rule⟩

theorem Sound.unnamed_named {r : Registry R} (h : r.Sound) {o : Outcome R} (ho : o.Known r) :
    r.unnamed (r.named o) = o := by
  unfold unnamed named
  simp only [h.intern_name ho.source, h.intern_name ho.target]

theorem Sound.unnamed_idle {r : Registry R} (h : r.Sound) {source target : ParticleId}
    {sourceName targetName : String} (hs : r.name? source = some sourceName)
    (ht : r.name? target = some targetName) :
    r.unnamed ⟨sourceName, targetName, "", none⟩ = .idle source target := by
  unfold unnamed Outcome.idle
  rw [h.intern_name hs, h.intern_name ht]

theorem Sound.mapItems_unnamed {r : Registry R} (h : r.Sound)
    {sampler : WeightedSampler (Outcome R) R} {named : WeightedSampler (NamedOutcome R) R}
    (hr : r.Renders sampler named) : named.mapItems r.unnamed = sampler := by
  have hback : (sampler.mapItems r.named).mapItems r.unnamed =
      sampler.mapItems fun o => r.unnamed (r.named o) := by
    simp [WeightedSampler.mapItems, Bucket.mapItem, Function.comp_def]
  have hself : sampler.mapItems (fun o => o) = sampler := by
    have hbuckets : sampler.buckets.map (Bucket.mapItem fun o => o) = sampler.buckets :=
      List.map_id _
    rw [WeightedSampler.mapItems, hbuckets]
  rw [← hr.eq, hback, WeightedSampler.mapItems_congr fun o ho => h.unnamed_named (hr.known o ho),
    hself]

end

end Registry

theorem WeightedSampler.Gapless.mapItems {α β R : Type} [Scalar R] {s : WeightedSampler α R}
    (h : s.Gapless) (f : α → β) : (s.mapItems f).Gapless := by
  unfold Gapless at h ⊢
  rw [toList_mapItems, lineUp_map, h]
  rfl

namespace RuleUse

variable {R : Type}

/-- The particles that come out, new ones if there are none of their names. -/
def particles (u : RuleUse R) (r : Registry R) : ParticleId × ParticleId :=
  ((r.intern u.newSource).1, (r.intern u.newTarget).1)

/-- What comes of the rule. -/
def outcome (u : RuleUse R) (r : Registry R) (verb : String) : Outcome R :=
  ⟨(u.particles r).1, (u.particles r).2, u.verb verb, some u.rule⟩

/-- The particles that come out are in the registry. -/
structure Found (u : RuleUse R) (r : Registry R) : Prop where
  newSource : r.find? u.newSource = some (u.particles r).1
  newTarget : r.find? u.newTarget = some (u.particles r).2

theorem found_of {u : RuleUse R} {r : Registry R} {newSource newTarget : ParticleId}
    (hs : r.find? u.newSource = some newSource) (ht : r.find? u.newTarget = some newTarget) :
    u.Found r := by
  refine ⟨?_, ?_⟩
  · rw [particles, Registry.intern_of_find? hs, hs]
  · rw [particles, Registry.intern_of_find? ht, ht]

theorem Found.mono {u : RuleUse R} {r s : Registry R} {keep : Particle R → Particle R → Prop}
    (h : u.Found r) (he : Registry.Enlarged keep r s) : u.Found s :=
  found_of (he.finds h.newSource) (he.finds h.newTarget)

theorem unnamed_named (u : RuleUse R) (r : Registry R) (verb : String) :
    r.unnamed (u.named r.maxNameLen verb) = u.outcome r verb := by
  unfold Registry.unnamed named outcome particles
  simp only [Registry.intern_truncate]

variable [Scalar R]

/-- Outcomes of rules are one by name if they are one by their particles. -/
theorem key_eq_iff {r : Registry R} (h : r.Sound) {u v : RuleUse R} (hu : u.Found r)
    (hv : v.Found r) (verb : String) :
    (u.named r.maxNameLen verb).key = (v.named r.maxNameLen verb).key ↔
      u.particles r = v.particles r := by
  have hsource := h.intern_inj hu.newSource hv.newSource
  have htarget := h.intern_inj hu.newTarget hv.newTarget
  unfold NamedOutcome.key named particles
  simp only [Prod.mk.injEq, Option.isNone_some, and_true, hsource, htarget]

theorem sharing_particles {r : Registry ℝ} (h : r.Sound) {uses : List (RuleUse ℝ)}
    (hf : ∀ u ∈ uses, u.Found r) {verb : String} :
    Rulebook.sharing (fun u => (u.named r.maxNameLen verb).key) uses =
      Rulebook.sharing (·.particles r) uses := by
  refine congrArg (List.filter _) (lastOfEach_congr fun u hu v hv => ?_)
  exact key_eq_iff h (hf u hu) (hf v hv) verb

end RuleUse

namespace Registry

section

variable {R : Type} [Scalar R] {targetName verb : String}

/-- The particles that come of a rule are there once it is added. -/
theorem found_of_addOutcome {m : NameMatch R} {x y : Registry R × WeightedSampler (Outcome R) R}
    (hw : x.1.particles.WellFormed) (h : addOutcome targetName verb x m = .ok y) {u : RuleUse R}
    (hu : m.use? targetName = some u) : u.Found y.1 := by
  obtain ⟨r, sampler⟩ := x
  have hstep : y.1 = ((r.intern u.newSource).2.intern u.newTarget).2 := by
    unfold NameMatch.use? at hu
    split at hu
    next s hs =>
      obtain ⟨t, ht, rfl⟩ := Option.map_eq_some_iff.mp hu
      have hbind : m.bindTarget targetName = .ok (true, { m with slots := .both s t }) := by
        unfold NameMatch.bindTarget
        simp only [hs, ht]
      obtain ⟨_, hbound, h⟩ := bind_eq_ok.mp h
      cases hbind.symm.trans hbound
      obtain ⟨_, hsource, h⟩ := bind_eq_ok.mp h
      obtain ⟨_, htarget, h⟩ := bind_eq_ok.mp h
      obtain ⟨_, -, h⟩ := bind_eq_ok.mp h
      obtain ⟨_, -, h⟩ := bind_eq_ok.mp h
      cases hsource
      cases htarget
      cases h
      rfl
    next => exact nomatch hu
  have hsource := enrolls_intern r u.newSource hw
  have htarget := enrolls_intern (r.intern u.newSource).2 u.newTarget hsource.wellFormed
  rw [hstep]
  exact RuleUse.found_of (htarget.finds (find?_intern ..)) (find?_intern ..)

theorem found_of_foldlM {ms : List (NameMatch R)}
    {x y : Registry R × WeightedSampler (Outcome R) R} (hw : x.1.particles.WellFormed)
    (h : ms.foldlM (addOutcome targetName verb) x = .ok y) :
    ∀ u ∈ ms.filterMap (·.use? targetName), u.Found y.1 := by
  induction ms generalizing x with
  | nil => exact nofun
  | cons m ms ih =>
    rw [foldlM_cons] at h
    obtain ⟨z, hz, h⟩ := bind_eq_ok.mp h
    have hstep := enrolls_of_addOutcome hz hw
    have hrest : z.1.Enrolls y.1 := foldlM_relates
      (r := fun x y : Registry R × WeightedSampler (Outcome R) R => x.1.Enrolls y.1)
      (fun x => .refl x.1) (fun h k => h.trans k) (fun _ _ _ _ => enrolls_of_addOutcome) h
    intro u hu
    rw [List.filterMap_cons] at hu
    split at hu
    next => exact ih hstep.wellFormed h u hu
    next v hv =>
      rcases List.mem_cons.mp hu with rfl | hu
      · exact (found_of_addOutcome hw hz hv).mono (hrest hstep.wellFormed)
      · exact ih hstep.wellFormed h u hu

end

variable {t : Topology} {records : RuleRecords ℝ} {b : Rulebook ℝ} {r r' : Registry ℝ}
  {source target : ParticleId} {sourceName targetName : String} {d : Direction}

/-- Whatever comes of a source and a target is there once that is worked out. -/
theorem found_of_compile (hb : Rulebook.ofRecords? t records = .ok b) (hd : d < t.count)
    (hr : r.Sound) (hrules : r.rules = b) (hs : r.name? source = some sourceName)
    (ht : r.name? target = some targetName) (h : r.compile source d target = .ok r') :
    ∀ u ∈ b.uses d sourceName targetName, u.Found r' := by
  obtain ⟨⟨found, r₁⟩, hx, h⟩ := bind_eq_ok.mp h
  obtain ⟨rules, hrulesOf, rfl, he, hr₁⟩ := (hx ▸ sources_agree hr hs).symm.eq_ok
  obtain ⟨p, hp, -⟩ := get?_of_name? (hr.name?_of_keeps he.toKeeps hs)
  obtain ⟨q, hq, hqn⟩ := get?_of_name? (hr.name?_of_keeps he.toKeeps ht)
  rw [hrules] at hrulesOf
  simp only [hp, hq, hqn, Rulebook.matches_of_ofName hb hrulesOf hd] at h
  obtain ⟨⟨r₂, sampler⟩, h₂, h⟩ := bind_eq_ok.mp h
  rw [outcomes_eq] at h₂
  obtain ⟨y, hfold, h₂⟩ := bind_eq_ok.mp h₂
  obtain ⟨filled, -, hy⟩ := map_eq_ok.mp h₂
  cases hy
  intro u hu
  rw [← Rulebook.filterMap_sourceMatches hb hd] at hu
  have hfound := found_of_foldlM hr₁.arena hfold u hu
  simp only at h
  split at h
  next =>
    cases h
    exact RuleUse.found_of hfound.newSource hfound.newTarget
  next =>
    cases h
    exact hfound

/-- What is remembered of a source and a target once it is worked out is what the rules make of
their names. -/
theorem compile_renders (hb : Rulebook.ofRecords? t records = .ok b) (hd : d < t.count)
    (hr : r.Sound) (hrules : r.rules = b) (hs : r.name? source = some sourceName)
    (ht : r.name? target = some targetName) :
    ∃ r' sampler outcomes, r.compile source d target = .ok r' ∧ r.Extends r' ∧ r'.Sound ∧
      r'.transform? source d target = some sampler ∧ r'.Renders sampler outcomes ∧
      b.pairOutcomes r'.maxNameLen sourceName d targetName = .ok outcomes := by
  have hprobable : b.Probable := Rulebook.Declared.probable ⟨t, records, hb⟩
  have hcount : d < b.topology.count := (Rulebook.topology_of_ofRecords hb).symm ▸ hd
  obtain ⟨outcomes, houtcomes⟩ :=
    hprobable.pairOutcomes_ok r.maxNameLen sourceName d targetName
  have hagree := compile_agree hr hs ht d
  rw [hrules, houtcomes] at hagree
  obtain ⟨r', hcompile, he, hr', hremember⟩ := hagree.eq_ok
  obtain ⟨sampler, htransform, hrender⟩ := hremember hcount
  rw [← he.maxNameLen] at houtcomes
  exact ⟨r', sampler, outcomes, hcompile, he, hr', htransform, hrender, houtcomes⟩

/-- What is remembered of a source and a target once it is worked out are the shares that the rules
give to outcomes, and that nothing happens where these leave a rest to one. Of the rules with one
outcome the last counts. -/
theorem compile_shares {maxNameLen : Nat} {p q : Particle ℝ}
    (hb : Rulebook.ofRecords? t records = .ok b) (hr : (new b maxNameLen).Passes r)
    (hs : r.get? source = some p) (ht : r.get? target = some q) (hd : d < t.count) :
    ∃ r' sampler, r.compile source d target = .ok r' ∧
      r'.transform? source d target = some sampler ∧
      (∀ u ∈ b.uses d p.name q.name, u.Found r') ∧
      let shares := Rulebook.sharing (·.particles r') (b.uses d p.name q.name)
      let sum := (shares.map (·.rule.prob)).sum
      sampler.toList.Perm
        (shares.map (fun u => (u.outcome r' (p.appearance.verb.getD ""), u.rule.prob)) ++
          if sum < 1 then [(.idle source target, 1 - sum)] else []) ∧
      sampler.Gapless ∧ sampler.drawRange = max 1 sum := by
  obtain ⟨hsound, hrules⟩ := sound_of_passes hr
  have hsource := name?_of_get? hs
  have htarget := name?_of_get? ht
  have hverb : b.appearance p.name = p.appearance := by
    rw [(hsound.fits hs).appearance, hrules]
  obtain ⟨r', sampler, outcomes, hcompile, he, hsound', htransform, hrender, houtcomes⟩ :=
    compile_renders hb hd hsound hrules hsource htarget
  have hfound := found_of_compile hb hd hsound hrules hsource htarget hcompile
  refine ⟨r', sampler, hcompile, htransform, hfound, ?_⟩
  intro shares sum
  obtain ⟨hperm, hrange⟩ := Rulebook.perm_pairOutcomes hb hd houtcomes
  rw [hverb, RuleUse.sharing_particles hsound' hfound] at hperm hrange
  have hidle : r'.unnamed ⟨p.name, q.name, "", none⟩ = .idle source target :=
    hsound'.unnamed_idle (hsound.name?_of_keeps he.toKeeps hsource)
      (hsound.name?_of_keeps he.toKeeps htarget)
  rw [← hsound'.mapItems_unnamed hrender]
  refine ⟨?_, (Rulebook.pairOutcomes_gapless houtcomes).1.mapItems _, hrange⟩
  have hmap := hperm.map fun e => (r'.unnamed e.1, e.2)
  rw [WeightedSampler.toList_mapItems]
  rw [List.map_append, List.map_map, apply_ite (List.map _)] at hmap
  simpa [Function.comp_def, RuleUse.unnamed_named, hidle] using hmap

/-- Of two rules for a name in the north that keep both particles the later one counts. -/
theorem exists_later_share :
    ∃ (records : RuleRecords ℝ) (b : Rulebook ℝ) (r r' : Registry ℝ) (id : ParticleId)
      (p : Particle ℝ) (o : Outcome ℝ) (sampler : WeightedSampler (Outcome ℝ) ℝ),
      Rulebook.ofRecords? .square4 records = .ok b ∧ b.rules.map (·.prob) = [1, 2⁻¹] ∧
      (new b 256).Passes r ∧ r.get? id = some p ∧ p.name = "_" ∧
      r.compile id 0 id = .ok r' ∧ r'.transform? id 0 id = some sampler ∧
      r'.find? "_" = some o.newSource ∧ r'.find? "_" = some o.newTarget ∧
      sampler.toList.Perm [(o, 2⁻¹), (.idle id id, 2⁻¹)] ∧ sampler.drawRange = 1 := by
  obtain ⟨records, b, u, v, hb, hprobs, huses, hu, hv, hprob⟩ := Rulebook.exists_overridden
  obtain ⟨hsource, htarget⟩ := Prod.mk.inj hu
  obtain ⟨hsource', htarget'⟩ := Prod.mk.inj hv
  obtain ⟨-, -, hn⟩ := (sound_new b 256).intern "_"
  obtain ⟨p, hp, hname⟩ := get?_of_name? hn
  have hshort : Text.truncate 256 "_" = "_" := by decide
  have hname : p.name = "_" := hname.trans hshort
  have hr : (new b 256).Passes ((new b 256).intern "_").2 := .single (.intern "_")
  obtain ⟨r', sampler, hcompile, htransform, hfound, hperm, -, hrange⟩ :=
    compile_shares hb hr hp hp (d := 0) (by decide)
  rw [hname, huses] at hfound hperm hrange
  have hshares : Rulebook.sharing (·.particles r') [u, v] = [v] := by
    have hkey : v.particles r' = u.particles r' := by
      unfold RuleUse.particles
      rw [hsource, htarget, hsource', htarget']
    simp [Rulebook.sharing, lastOfEach, hkey, hprob]
  obtain ⟨hnewSource, hnewTarget⟩ := hfound v (by simp)
  rw [hsource'] at hnewSource
  rw [htarget'] at hnewTarget
  have hsum : ([v].map (·.rule.prob)).sum = 2⁻¹ := by simp [hprob]
  have hlt : (2⁻¹ : ℝ) < 1 := by norm_num
  have hrest : (1 : ℝ) - 2⁻¹ = 2⁻¹ := by norm_num
  rw [hshares] at hperm hrange
  rw [hsum, if_pos hlt, hrest, List.map_singleton, hprob] at hperm
  rw [hsum, max_eq_left (le_of_lt hlt)] at hrange
  refine ⟨records, b, _, r', _, p, v.outcome r' (p.appearance.verb.getD ""), sampler, hb, hprobs,
    hr, hp, hname, hcompile, htransform, hnewSource, hnewTarget, hperm, hrange⟩

end Registry

end ParticleAutomaton
