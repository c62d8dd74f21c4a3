import ParticleAutomaton.Proofs.Registry

namespace ParticleAutomaton.Registry

variable {R γ : Type} [Scalar R]

/-- What the rules say of a source does not depend on what is remembered. -/
theorem sources_agree {r : Registry R} (h : r.Sound) {id : ParticleId} {name : String}
    (hn : r.name? id = some name) :
    Agree (fun x s => x.1 = some s ∧ r.Extends x.2 ∧ x.2.Sound) (r.sources id)
      (SourceRules.ofName r.rules name) := by
  obtain ⟨p, hp, rfl⟩ := get?_of_name? hn
  have hf := h.fits hp
  unfold sources
  simp only [hp]
  cases hs : p.sources with
  | some s =>
    rw [hf.sources hs]
    exact .ok ⟨rfl, .refl r, h⟩
  | none =>
    cases ho : SourceRules.ofName r.rules p.name with
    | error e => exact .error (SourceRules.spares_of_ofName ho)
    | ok s =>
      refine .ok ⟨rfl, extends_modify id (fun _ => rfl) (fun _ => rfl), ?_⟩
      refine h.modify (fun _ => rfl) fun q hq => ?_
      cases hp.symm.trans hq
      exact ⟨hf.bounded, hf.appearance, fun he => Option.some.inj he ▸ ho, hf.transforms,
        hf.energies⟩

theorem activityRate_agree {r : Registry R} (h : r.Sound) {id : ParticleId} {name : String}
    (hn : r.name? id = some name) :
    Agree (fun x rate => x.1 = rate ∧ r.Extends x.2 ∧ x.2.Sound) (r.activityRate id)
      (r.rules.activity name) := by
  have hs := sources_agree h hn
  unfold activityRate Rulebook.activity
  cases ho : SourceRules.ofName r.rules name with
  | error e =>
    rw [ho] at hs
    rw [hs.eq_error]
    exact .error (SourceRules.spares_of_ofName ho)
  | ok s =>
    rw [ho] at hs
    obtain ⟨⟨found, r'⟩, hx, rfl, he, hr⟩ := hs.eq_ok
    have hrules : r'.rules = r.rules := he.rules
    rw [hx, ← hrules]
    exact .ok ⟨rfl, he, hr⟩

theorem sampleDir_agree [Generator R γ] {r : Registry R} (h : r.Sound) {id : ParticleId}
    {name : String} (hn : r.name? id = some name) (g : γ) :
    Agree (fun x y => x.1 = y.1 ∧ x.2.2 = y.2 ∧ r.Extends x.2.1 ∧ x.2.1.Sound) (r.sampleDir id g)
      ((SourceRules.ofName r.rules name).map fun s => s.rates.sample g) := by
  have hs := sources_agree h hn
  unfold sampleDir
  cases ho : SourceRules.ofName r.rules name with
  | error e =>
    rw [ho] at hs
    rw [hs.eq_error]
    exact .error (SourceRules.spares_of_ofName ho)
  | ok s =>
    rw [ho] at hs
    obtain ⟨⟨found, r'⟩, hx, rfl, he, hr⟩ := hs.eq_ok
    rw [hx]
    exact .ok ⟨rfl, rfl, he, hr⟩

/-- To tell outcomes apart their names do. -/
theorem beq_named {r : Registry R} (h : r.Sound) {o p : Outcome R} (ho : o.Known r)
    (hp : p.Known r) : (r.named o == r.named p) = (o == p) := by
  have hid : ∀ {i j : ParticleId}, r.name? i = some (r.name i) → r.name? j = some (r.name j) →
      (r.name i == r.name j) = (i == j) := by
    intro i j hi hj
    rw [Bool.eq_iff_iff, beq_iff_eq, beq_iff_eq]
    exact ⟨fun he => h.name_inj hi (he ▸ hj), fun he => he ▸ rfl⟩
  change (r.name o.newSource == r.name p.newSource && r.name o.newTarget == r.name p.newTarget &&
    o.rule.isNone == p.rule.isNone) = (o.newSource == p.newSource && o.newTarget == p.newTarget &&
    o.isIdle == p.isIdle)
  rw [hid ho.source hp.source, hid ho.target hp.target]
  rfl

theorem renders_empty (r : Registry R) : r.Renders .empty .empty :=
  ⟨nofun, rfl, WeightedSampler.made_empty⟩

theorem add_agree {r : Registry R} (h : r.Sound) {sampler : WeightedSampler (Outcome R) R}
    {named : WeightedSampler (NamedOutcome R) R} (hr : r.Renders sampler named) {o : Outcome R}
    (ho : o.Known r) (weight : R) :
    Agree r.Renders (sampler.add o weight) (named.add (r.named o) weight) := by
  rw [← hr.eq, WeightedSampler.add_mapItems fun i hi => beq_named h (hr.known i hi) ho]
  cases hs : sampler.add o weight with
  | error e => exact .error (WeightedSampler.spares_of_add hs)
  | ok s =>
    refine .ok ⟨fun i hi => ?_, rfl, hr.made.add hs⟩
    rcases WeightedSampler.items_add hs hi with rfl | hi
    · exact ho
    · exact hr.known i hi

theorem addOutcome_agree {r : Registry R} (h : r.Sound) (targetName verb : String)
    {sampler : WeightedSampler (Outcome R) R} {named : WeightedSampler (NamedOutcome R) R}
    (hr : r.Renders sampler named) (m : NameMatch R) :
    Agree (fun x named => r.Extends x.1 ∧ x.1.Sound ∧ x.1.Renders x.2 named)
      (addOutcome targetName verb (r, sampler) m)
      (Rulebook.addNamed r.maxNameLen targetName verb named m) := by
  unfold addOutcome Rulebook.addNamed
  cases hb : m.bindTarget targetName with
  | error e => exact .error (NameMatch.spares_of_bindTarget hb)
  | ok x =>
    obtain ⟨bound, m⟩ := x
    simp only [ok_bind]
    split
    next => exact .ok ⟨.refl r, h, hr⟩
    next =>
      have hexpand : ∀ template e, m.expand template = .error e → e.SparesCounts :=
        fun _ _ => NameMatch.spares_of_expand
      refine Agree.bind_same (hexpand _) fun newSource => Agree.bind_same (hexpand _)
        fun newTarget => Agree.bind_same (hexpand _) fun verb' => ?_
      obtain ⟨hs, hrs, hns⟩ := h.intern newSource
      obtain ⟨ht, hst, hnt⟩ := hs.intern newTarget
      have hns' := hs.name?_of_keeps hst.toKeeps hns
      have hn : ((r.intern newSource).2.intern newTarget).2.named
          ⟨(r.intern newSource).1, ((r.intern newSource).2.intern newTarget).1,
            if verb' = "" then verb else verb', some m.rule.rule⟩ =
          ⟨Text.truncate r.maxNameLen newSource, Text.truncate r.maxNameLen newTarget,
            if verb' = "" then verb else verb', some m.rule.rule⟩ := by
        rw [Registry.named, name_of hnt, name_of hns', hrs.maxNameLen]
      have hk := hrs.trans hst
      have hknown : Outcome.Known ((r.intern newSource).2.intern newTarget).2
          ⟨(r.intern newSource).1, ((r.intern newSource).2.intern newTarget).1,
            if verb' = "" then verb else verb', some m.rule.rule⟩ := Outcome.known_of hns' hnt
      rw [← hn]
      exact (add_agree ht (h.renders_of_keeps hk.toKeeps hr) hknown _).bind_left
        fun a _ hab _ => ⟨_, rfl, hk, ht, hab⟩

/-- Nothing happens where the probabilities leave a rest to one. -/
def fillUp (source target : ParticleId) (sampler : WeightedSampler (Outcome R) R) :
    Except Fault (WeightedSampler (Outcome R) R) :=
  if sampler.total < 1 then sampler.add (.idle source target) (1 - sampler.total) else .ok sampler

theorem outcomes_eq (r : Registry R) (source target : ParticleId) (targetName verb : String)
    (ms : List (NameMatch R)) :
    r.outcomes source target targetName verb ms =
      ms.foldlM (addOutcome targetName verb) (r, .empty) >>= fun x =>
        (fillUp source target x.2).map fun sampler => (x.1, sampler.close) := by
  unfold outcomes
  refine bind_congr fun x => ?_
  obtain ⟨s, sampler⟩ := x
  unfold fillUp
  simp only
  split
  · cases sampler.add (.idle source target) (1 - sampler.total) <;> rfl
  · rfl

theorem fillUp_agree {r : Registry R} (h : r.Sound) {source target : ParticleId}
    {sourceName targetName : String} (hs : r.name? source = some sourceName)
    (ht : r.name? target = some targetName) {sampler : WeightedSampler (Outcome R) R}
    {named : WeightedSampler (NamedOutcome R) R} (hr : r.Renders sampler named) :
    Agree r.Renders (fillUp source target sampler)
      (Rulebook.fillUp sourceName targetName named) := by
  have htotal : named.total = sampler.total := by
    rw [← hr.eq]
    rfl
  unfold fillUp Rulebook.fillUp
  rw [htotal]
  split
  · have hidle : r.named (.idle source target) = ⟨sourceName, targetName, "", none⟩ := by
      rw [Registry.named, Outcome.idle, name_of hs, name_of ht]
    have hknown : (Outcome.idle source target : Outcome R).Known r := Outcome.known_of hs ht
    rw [← hidle]
    exact add_agree h hr hknown _
  · exact .ok hr

/-- Outcomes by name do not depend on the particles that are there. -/
theorem outcomes_agree {r : Registry R} (h : r.Sound) {source target : ParticleId}
    {sourceName targetName : String} (hs : r.name? source = some sourceName)
    (ht : r.name? target = some targetName) (verb : String) (ms : List (NameMatch R)) :
    Agree (fun x named => r.Extends x.1 ∧ x.1.Sound ∧ x.1.Renders x.2 named)
      (r.outcomes source target targetName verb ms)
      (Rulebook.namedOutcomes r.maxNameLen sourceName targetName verb ms) := by
  have hfold : Agree (fun x named => r.Extends x.1 ∧ x.1.Sound ∧ x.1.Renders x.2 named)
      (ms.foldlM (addOutcome targetName verb) (r, .empty))
      (ms.foldlM (Rulebook.addNamed r.maxNameLen targetName verb) .empty) := by
    refine Agree.foldlM ⟨.refl r, h, renders_empty r⟩ fun m _ x named hx => ?_
    obtain ⟨he, hx, hr⟩ := hx
    rw [← he.maxNameLen]
    exact (addOutcome_agree hx targetName verb hr m).mono fun y named hy =>
      ⟨he.trans hy.1, hy.2⟩
  rw [outcomes_eq]
  refine hfold.bind fun x named hx => ?_
  obtain ⟨he, hx, hr⟩ := hx
  have hrest := fillUp_agree hx (h.name?_of_keeps he.toKeeps hs) (h.name?_of_keeps he.toKeeps ht) hr
  refine hrest.map fun sampler named hr => ⟨he, hx, hr.known, ?_, hr.made.close⟩
  rw [WeightedSampler.mapItems_close, hr.eq]

theorem sound_remember {r : Registry R} (h : r.Sound) {source target : ParticleId}
    {sourceName targetName : String} (hs : r.name? source = some sourceName)
    (ht : r.name? target = some targetName) {d : Direction} (hd : d < r.rules.topology.count)
    {sampler : WeightedSampler (Outcome R) R} {named : WeightedSampler (NamedOutcome R) R}
    (hp : r.rules.pairOutcomes r.maxNameLen sourceName d targetName = .ok named)
    (hr : r.Renders sampler named) : (r.remember source d target sampler).Sound := by
  refine h.modify (fun _ => rfl) fun p hps => ?_
  have hf := h.fits hps
  have hn : p.name = sourceName := Option.some.inj ((name?_of_get? hps).symm.trans hs)
  refine ⟨hf.bounded, hf.appearance, hf.sources, fun {d' target' sampler'} he => ?_, hf.energies⟩
  rw [Std.HashMap.getElem?_insert] at he
  split at he
  next hk =>
    cases he
    cases beq_iff_eq.mp hk
    exact ⟨hd, targetName, named, ht, hn ▸ hp, hr⟩
  next => exact hf.transforms he

theorem compile_agree {r : Registry R} (h : r.Sound) {source target : ParticleId}
    {sourceName targetName : String} (hs : r.name? source = some sourceName)
    (ht : r.name? target = some targetName) (d : Direction) :
    Agree (fun s named => r.Extends s ∧ s.Sound ∧ (d < r.rules.topology.count →
        ∃ sampler, s.transform? source d target = some sampler ∧ s.Renders sampler named))
      (r.compile source d target)
      (r.rules.pairOutcomes r.maxNameLen sourceName d targetName) := by
  have hsources := sources_agree h hs
  unfold compile
  cases ho : SourceRules.ofName r.rules sourceName with
  | error e =>
    rw [ho] at hsources
    rw [hsources.eq_error, Rulebook.pairOutcomes, ho]
    exact .error (SourceRules.spares_of_ofName ho)
  | ok rulesOf =>
    rw [ho] at hsources
    obtain ⟨⟨found, r'⟩, hx, rfl, he, hr⟩ := hsources.eq_ok
    simp only at he hr
    have hs' := h.name?_of_keeps he.toKeeps hs
    have ht' := h.name?_of_keeps he.toKeeps ht
    obtain ⟨p, hp, hpn⟩ := get?_of_name? hs'
    obtain ⟨t, htp, htn⟩ := get?_of_name? ht'
    have happ : p.appearance = r.rules.appearance sourceName := by
      rw [(hr.fits hp).appearance, hpn, he.rules]
    have hout := outcomes_agree hr hs' ht' (p.appearance.verb.getD "") (rulesOf.matched[d]?.getD [])
    rw [happ, he.maxNameLen] at hout
    have hpair : r.rules.pairOutcomes r.maxNameLen sourceName d targetName =
        Rulebook.namedOutcomes r.maxNameLen sourceName targetName
          ((r.rules.appearance sourceName).verb.getD "") (rulesOf.matched[d]?.getD []) := by
      rw [Rulebook.pairOutcomes, ho, ok_bind]
    rw [hx, ok_bind]
    simp only [hp, htp, htn, happ]
    rw [hpair]
    refine hout.bind_left fun x named hx hnamed => ?_
    obtain ⟨he', hr', hrender⟩ := hx
    have hk := he.trans he'
    have hs'' := h.name?_of_keeps hk.toKeeps hs
    split
    next hd =>
      refine ⟨_, rfl, hk.trans (extends_remember ..), ?_,
        fun _ => ⟨_, transform?_remember hs'' .., ?_⟩⟩
      · refine sound_remember hr' hs'' (h.name?_of_keeps hk.toKeeps ht) hd ?_ hrender
        rw [hk.rules, hk.maxNameLen, hpair, hnamed]
      · exact hr'.renders_of_keeps (extends_remember ..).toKeeps hrender
    next hd => exact ⟨_, rfl, hk, hr', fun hlt => absurd (hk.rules ▸ hlt) hd⟩

/-- What is remembered of a source and a target is what the rules make of them. -/
theorem transform?_eq_some {r : Registry R} (h : r.Sound) {source target : ParticleId}
    {sourceName targetName : String} (hs : r.name? source = some sourceName)
    (ht : r.name? target = some targetName) {d : Direction}
    {sampler : WeightedSampler (Outcome R) R} (he : r.transform? source d target = some sampler) :
    d < r.rules.topology.count ∧ ∃ named,
      r.rules.pairOutcomes r.maxNameLen sourceName d targetName = .ok named ∧
        r.Renders sampler named := by
  obtain ⟨p, hp, he⟩ := Option.bind_eq_some_iff.mp he
  obtain ⟨hd, name, named, hn, hpair, hr⟩ := (h.fits hp).transforms he
  cases hn.symm.trans ht
  cases (name?_of_get? hp).symm.trans hs
  exact ⟨hd, named, hpair, hr⟩

/-- Draws from what is remembered. -/
def drawRemembered [Generator R γ] (r : Registry R) (source : ParticleId) (d : Direction)
    (target : ParticleId) (g : γ) : Option (Outcome R) × Registry R × γ :=
  match r.transform? source d target with
  | none => (none, r, g)
  | some sampler =>
    let (outcome, g) := sampler.sample g
    (outcome, r, g)

theorem drawRemembered_registry [Generator R γ] (r : Registry R) (source : ParticleId)
    (d : Direction) (target : ParticleId) (g : γ) :
    (r.drawRemembered source d target g).2.1 = r := by
  unfold drawRemembered
  split <;> rfl

theorem samplePair_eq [Generator R γ] (r : Registry R) (source : ParticleId) (d : Direction)
    (target : ParticleId) (g : γ) :
    r.samplePair source d target g =
      if (r.transform? source d target).isNone then
        (r.compile source d target).map fun r => r.drawRemembered source d target g
      else .ok (r.drawRemembered source d target g) := by
  have hdraw : ∀ s : Registry R,
      (match s.transform? source d target with
        | none => (.ok (none, s, g) : Except Fault (Option (Outcome R) × Registry R × γ))
        | some sampler =>
          let (outcome, g) := sampler.sample g
          .ok (outcome, s, g)) = .ok (s.drawRemembered source d target g) := by
    intro s
    unfold drawRemembered
    split <;> rfl
  unfold samplePair
  split
  · cases r.compile source d target with
    | error e => rfl
    | ok s => exact hdraw s
  · exact hdraw r

theorem drawRemembered_spec [Generator R γ] {r : Registry R} (h : r.Sound)
    {source target : ParticleId} {sourceName targetName : String}
    (hs : r.name? source = some sourceName) (ht : r.name? target = some targetName) {d : Direction}
    {named : WeightedSampler (NamedOutcome R) R}
    (hp : r.rules.pairOutcomes r.maxNameLen sourceName d targetName = .ok named)
    (hd : d < r.rules.topology.count → (r.transform? source d target).isSome) (g : γ) :
    let x := r.drawRemembered source d target g
    x.2.1 = r ∧ (∀ o, x.1 = some o → o.Known r) ∧
      (x.1.map r.named, x.2.2) =
        if d < r.rules.topology.count then named.sample g else (none, g) := by
  unfold drawRemembered
  cases hx : r.transform? source d target with
  | none =>
    have hn : ¬ d < r.rules.topology.count := fun hlt => by simpa [hx] using hd hlt
    simp [hn]
  | some sampler =>
    obtain ⟨hlt, named', hp', hr⟩ := transform?_eq_some h hs ht hx
    cases hp.symm.trans hp'
    refine ⟨rfl, fun o ho => hr.known o (WeightedSampler.mem_of_sample ho), ?_⟩
    rw [if_pos hlt, ← hr.eq, WeightedSampler.sample_mapItems]

/-- What is drawn for a source and a target does not depend on what is remembered. -/
theorem samplePair_agree [Generator R γ] {r : Registry R} (h : r.Sound) {source target : ParticleId}
    {sourceName targetName : String} (hs : r.name? source = some sourceName)
    (ht : r.name? target = some targetName) (d : Direction) (g : γ) :
    Agree (fun x y => r.Extends x.2.1 ∧ x.2.1.Sound ∧ (∀ o, x.1 = some o → o.Known x.2.1) ∧
        (x.1.map x.2.1.named, x.2.2) = y)
      (r.samplePair source d target g)
      (r.rules.samplePair r.maxNameLen sourceName d targetName g) := by
  rw [samplePair_eq, Rulebook.samplePair]
  cases hx : r.transform? source d target with
  | some sampler =>
    obtain ⟨hd, named, hp, -⟩ := transform?_eq_some h hs ht hx
    obtain ⟨hr, hknown, hdraw⟩ := drawRemembered_spec h hs ht hp (fun _ => by simp [hx]) g
    rw [hp]
    refine .ok ?_
    rw [hr]
    exact ⟨.refl r, h, hknown, hdraw⟩
  | none =>
    have hc := compile_agree h hs ht d
    cases hp : r.rules.pairOutcomes r.maxNameLen sourceName d targetName with
    | error e =>
      rw [hp] at hc
      rw [hc.eq_error]
      exact .error (hc.symm.spares rfl)
    | ok named =>
      rw [hp] at hc
      obtain ⟨r', hx', he, hr', hsome⟩ := hc.eq_ok
      have hp' : r'.rules.pairOutcomes r'.maxNameLen sourceName d targetName = .ok named := by
        rw [he.rules, he.maxNameLen, hp]
      obtain ⟨hr, hknown, hdraw⟩ := drawRemembered_spec hr' (h.name?_of_keeps he.toKeeps hs)
        (h.name?_of_keeps he.toKeeps ht) hp' (fun hlt => by
          obtain ⟨sampler, hsampler, -⟩ := hsome (he.rules ▸ hlt)
          simp [hsampler]) g
      rw [hx']
      refine .ok ?_
      rw [hr]
      exact ⟨he, hr', hknown, he.rules ▸ hdraw⟩

theorem energyRules_eq {r : Registry R} (h : r.Sound) (source target : ParticleId) (bond : String) :
    (r.energyRules source bond target).1 =
      r.rules.energyRules (r.name source) (r.name target) bond := by
  unfold energyRules
  split
  next rules hr =>
    obtain ⟨p, hp, he⟩ := Option.bind_eq_some_iff.mp hr
    rw [((h.fits hp).energies he).2, name_of (name?_of_get? hp)]
  next => rfl

theorem Sound.energyRules {r : Registry R} (h : r.Sound) {target : ParticleId}
    (ht : target.serial < r.particles.created) (source : ParticleId) (bond : String) :
    (r.energyRules source bond target).2.Sound ∧
      r.Extends (r.energyRules source bond target).2 := by
  unfold Registry.energyRules
  split
  next => exact ⟨h, .refl r⟩
  next =>
    refine ⟨h.modify (fun _ => rfl) fun p hp => ?_, extends_modify _ (fun _ => rfl) (fun _ => rfl)⟩
    have hf := h.fits hp
    refine ⟨hf.bounded, hf.appearance, hf.sources, hf.transforms,
      fun {bond' target' rules} he => ?_⟩
    rw [Std.HashMap.getElem?_insert] at he
    split at he
    next hk =>
      cases he
      cases beq_iff_eq.mp hk
      exact ⟨ht, by rw [name_of (name?_of_get? hp)]⟩
    next => exact hf.energies he

theorem bondEnergy_eq {r : Registry R} (h : r.Sound) {source target : ParticleId}
    (ht : target.serial < r.particles.created) (bond : String) (offset : Point)
    (previous : Option Point) :
    (r.bondEnergy source bond target offset previous).1 =
      r.rules.energy (r.name source) (r.name target) bond offset previous := by
  have he := (h.energyRules ht source bond).2.rules
  unfold bondEnergy Rulebook.energy
  rw [← energyRules_eq h]
  simp only [he]

theorem Sound.bondEnergy {r : Registry R} (h : r.Sound) {target : ParticleId}
    (ht : target.serial < r.particles.created) (source : ParticleId) (bond : String)
    (offset : Point) (previous : Option Point) :
    (r.bondEnergy source bond target offset previous).2.Sound ∧
      r.Extends (r.bondEnergy source bond target offset previous).2 :=
  h.energyRules ht source bond

end ParticleAutomaton.Registry
