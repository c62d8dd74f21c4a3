import ParticleAutomaton.Proofs.CellCounts
import ParticleAutomaton.Proofs.EnergyBalance
import ParticleAutomaton.Proofs.LiveDraws

namespace ParticleAutomaton

/-- Without energy rules no bond has energy. -/
theorem Grid.totalEnergy_free {r : Registry ℝ} (hs : r.Sound) (hf : r.rules.energies = [])
    (g : Grid) : g.totalEnergy r = 0 := by
  have hrules : ∀ source bond target, (r.energyRules source bond target).1 = [] := by
    intro source bond target
    rw [Registry.energyRules_eq hs]
    unfold Rulebook.energyRules
    rw [hf, List.filter_nil]
  have hnone : ∀ b, g.energyOf r b = 0 := by
    intro b
    unfold energyOf
    split
    next =>
      unfold Registry.bondEnergy
      simp only [hrules]
      exact Scalar.sum_nil
    next => rfl
  rw [totalEnergy_eq]
  exact Finset.sum_eq_zero fun b _ => hnone b

namespace UpdateEvent

/-- A rule without bond expressions lets its change be bound. -/
theorem bind_plain {R : Type} {e : UpdateEvent R} (hb : e.bound = false) {rule : TransformRule R}
    (hr : e.outcome.rule = some rule) (hplain : rule.hasBonds = false) (g : Grid) :
    ∃ e', e.bind g = .ok (true, e') := by
  have hnone : ((rule.required = [] ∧ rule.optional = []) ∧ rule.excluded = []) ∧
      rule.created = [] := by
    simpa [TransformRule.hasBonds] using hplain
  obtain ⟨⟨⟨hrequired, hoptional⟩, hexcluded⟩, hcreated⟩ := hnone
  unfold bind planRule
  simp only [hb, hr, hplain, hrequired, hoptional, hexcluded, hcreated, Labels.resolve,
    Labels.resolveIn, Labels.pass, List.isEmpty_nil, if_true, List.any_nil, Bool.false_eq_true,
    and_false, if_false, planFor?, createdBonds, List.mapM_nil]
  exact ⟨_, rfl⟩

end UpdateEvent

/-- A sampler of one item with all of the range draws that item. -/
theorem WeightedSampler.sample_alone {α γ : Type} [Generator ℝ γ] (hu : Generator.IsUnit γ)
    {s : WeightedSampler α ℝ} {item : α} (hs : s.buckets = [⟨item, 1, 0⟩]) (ht : s.total = 1)
    (hr : s.drawRange = 1) (g : γ) :
    s.sample g = (some item, (Generator.next (R := ℝ) g).2) := by
  obtain ⟨hlow, hhigh⟩ := hu g
  have hlocate : s.locate ((Generator.next (R := ℝ) g).1 * s.drawRange) = some item := by
    unfold locate
    simp [hs, ht, hr, hlow, not_le.mpr hhigh, hhigh]
  unfold sample
  rw [if_neg (by simp [isEmpty, hs])]
  exact Prod.ext hlocate rfl

namespace Rulebook

variable {rule : TransformRule ℝ} {energies : List (EnergyRule ℝ)}

theorem ofName_alone_none {name : String}
    (h : NameMatch.sourceSlot? (.ofRule rule .square4 0) name = none) :
    SourceRules.ofName (alone rule energies) name = .ok ⟨[[], [], [], []], .empty⟩ := by
  have hmatched : (List.range (alone rule energies).topology.count).map
      ((alone rule energies).sourceMatches name) = [[], [], [], []] := by
    simp [alone, Topology.count, Topology.neighbors, List.range, List.range.loop, sourceMatches,
      directedRules, h]
  have hskip : ∀ d : Nat, (WeightedSampler.empty : WeightedSampler Direction ℝ).add d
      (Scalar.atMost 1 (Scalar.sum [])) = .ok .empty := by
    intro d
    norm_num [WeightedSampler.add, WeightedSampler.empty, Scalar.atMost, Scalar.sum]
  unfold SourceRules.ofName
  rw [hmatched]
  simp only [List.zipIdx, List.map_nil, foldlM_cons]
  rw [hskip 0, ok_bind, hskip 1, ok_bind, hskip 2, ok_bind, hskip 3]
  rfl

theorem activity_alone_none {name : String}
    (h : NameMatch.sourceSlot? (.ofRule rule .square4 0) name = none) :
    (alone rule energies).activity name = .ok 0 := by
  rw [activity, ofName_alone_none h]
  show Except.ok (Scalar.atMost 1 ((0 : ℝ) / Scalar.ofInt (4 : ℤ))) = _
  rw [zero_div]
  norm_num [Scalar.atMost]

/-- One outcome is certain for a source and a target that one rule is for. -/
theorem pairOutcomes_alone (hp : rule.prob = 1) {name target source' target' : String}
    {slot : SourceSlot} {found : TargetSlot}
    (h : NameMatch.sourceSlot? (.ofRule rule .square4 0) name = some slot)
    (ht : NameMatch.targetSlot? slot target = some found)
    (hs : NameMatch.newSource ⟨.ofRule rule .square4 0, .both slot found⟩ = .ok source')
    (hn : NameMatch.newTarget ⟨.ofRule rule .square4 0, .both slot found⟩ = .ok target') (n : Nat) :
    ∃ verb, (alone rule energies).pairOutcomes n name 0 target = .ok
      ⟨[⟨⟨Text.truncate n source', Text.truncate n target', verb, some rule⟩, 1, 0⟩], 1,
        some 1⟩ := by
  obtain ⟨v, hv⟩ : ∃ v, NameMatch.verb ⟨.ofRule rule .square4 0, .both slot found⟩ = .ok v :=
    ⟨_, rfl⟩
  let verb := if v = "" then ((alone rule energies).appearance name).verb.getD "" else v
  let sure : WeightedSampler (NamedOutcome ℝ) ℝ :=
    ⟨[⟨⟨Text.truncate n source', Text.truncate n target', verb, some rule⟩, 1, 0⟩], 1, none⟩
  have hprob : (DirectedRule.ofRule rule .square4 0).rule.prob = 1 := hp
  have hadd : addNamed n target (((alone rule energies).appearance name).verb.getD "") .empty
      ⟨.ofRule rule .square4 0, .source slot⟩ = .ok sure := by
    unfold addNamed
    simp only [NameMatch.bindTarget, ht, ok_bind, hs, hn, hv, hprob]
    norm_num [sure, verb, WeightedSampler.add, WeightedSampler.empty]
    rfl
  have hfull : fillUp name target sure = .ok sure := if_neg (lt_irrefl (1 : ℝ))
  have hrange : Scalar.atLeast 1 (1 : ℝ) = 1 := by norm_num [Scalar.atLeast]
  refine ⟨verb, ?_⟩
  unfold pairOutcomes
  rw [ofName_alone hp h, ok_bind]
  unfold namedOutcomes
  simp only [aloneFor, List.getElem?_cons_zero, Option.getD_some, foldlM_cons]
  rw [hadd, ok_bind]
  show (fillUp name target sure).map WeightedSampler.close = _
  rw [hfull]
  show Except.ok { sure with closed := some (Scalar.atLeast 1 (1 : ℝ)) } = _
  rw [hrange]

end Rulebook

namespace Board

/-- After a change its ends show the names of the new particles. -/
theorem names_of_commit {R γ : Type} [Scalar R] {b c : Board R γ} (hcovered : b.Covered)
    {e : UpdateEvent R} (hr : e.remote = false) (ha : e.source ≠ e.target)
    (hw : e.plan.WellFormed b.grid) (hsource : b.grid.contains e.source = true)
    (htarget : b.grid.contains e.target = true) {source target : String}
    (hs : b.registry.name? e.newSource = some source)
    (ht : b.registry.name? e.newTarget = some target) (h : b.commit e = .ok c) :
    c.particleName? e.source = some source ∧ c.particleName? e.target = some target := by
  obtain ⟨ps, hset⟩ := resettled_of_commit hcovered ha hw h
  have hretains := hset.retains
  obtain ⟨x, hx⟩ := Grid.get?_of_contains hsource
  obtain ⟨y, hy⟩ := Grid.get?_of_contains htarget
  obtain ⟨x', hx', hsourceParticle, -⟩ := UpdateEvent.get?_applied ha hw hx
  obtain ⟨y', hy', htargetParticle, -⟩ := UpdateEvent.get?_applied ha hw hy
  have hend : e.source ∈ e.ends := by simp [UpdateEvent.ends, hr]
  rw [if_neg ha, if_pos hend] at hsourceParticle
  rw [if_pos rfl] at htargetParticle
  obtain ⟨registry, activity, journal, rfl, -⟩ := commit_eq_ok h
  constructor
  · rw [particleName?, hx', Option.map_some, hsourceParticle, Registry.name_of (hretains.name? hs)]
  · rw [particleName?, hy', Option.map_some, htargetParticle, Registry.name_of (hretains.name? ht)]

/-- Two neighbors show what was drawn for them once the change is made. -/
theorem names_of_propose {R γ : Type} [Scalar R] {b c : Board R γ} (hcovered : b.Covered)
    {p : Point} {d : Direction} {cell target : Cell} (hcell : b.grid.get? p = some cell)
    (htarget : b.grid.get? (p + b.topology.offset d) = some target) {o : Outcome R}
    {source other : String} (hs : b.registry.name? o.newSource = some source)
    (ht : b.registry.name? o.newTarget = some other) {e : UpdateEvent R}
    (hbind : (UpdateEvent.new p (p + b.topology.offset d) d cell.particle target.particle o).bind
      b.grid = .ok (true, e)) (hc : b.commit e = .ok c) :
    c.particleName? p = some source ∧
      c.particleName? (p + b.topology.offset d) = some other := by
  obtain ⟨labels, plan, rfl, hplan⟩ := UpdateEvent.bind_eq_ok hbind
  have hplanned : UpdateEvent.Planned b.grid plan := by
    rcases hplan with rfl | hplan
    · exact UpdateEvent.planned_empty b.grid
    · exact hplan
  let e := UpdateEvent.new p (p + b.topology.offset d) d cell.particle target.particle o
  exact names_of_commit (e := { e with bound := true, labels, plan }) hcovered rfl
    (b.topology.add_offset_ne d p) hplanned.wellFormed (Grid.contains_of_get? hcell)
    (Grid.contains_of_get? htarget) hs ht hc

theorem exists_of_particleName? {R γ : Type} [Scalar R] {b : Board R γ} (hb : b.Alike b)
    {p : Point} {name : String} (h : b.particleName? p = some name) :
    ∃ cell, b.grid.get? p = some cell ∧ b.registry.name? cell.particle = some name := by
  obtain ⟨cell, hcell, rfl⟩ := Option.map_eq_some_iff.mp h
  obtain ⟨name, hname⟩ := hb.named hcell
  rw [Registry.name_of hname]
  exact ⟨cell, hcell, hname⟩

variable {γ : Type} [Generator ℝ γ]

theorem accept_zero (hu : Generator.IsUnit γ) (b : Board ℝ γ) : (b.accept 0).1 = true := by
  have hone : (Scalar.tenPow 0 : ℝ) = 1 := Real.rpow_zero 10
  unfold accept
  rw [if_neg (lt_irrefl 0), hone]
  exact decide_eq_true (hu b.random).2

/-- Without energy rules a change that can be bound is accepted, whatever number is drawn. -/
theorem propose_free (hu : Generator.IsUnit γ) {b : Board ℝ γ} (hb : b.Alike b)
    (ht : b.registry.rules.Total) (hm : b.grid.field.Mirrored)
    (hf : b.registry.rules.energies = []) {e e' : UpdateEvent ℝ}
    (ev : UpdateEvent.Alike b.registry b.registry e e) (he : e.Meets b.grid) (hp : e.plan = .empty)
    (hbound : e.bound = false) (hbind : e.bind b.grid = .ok (true, e')) :
    ∃ delta registry random c, b.registry.Extends registry ∧ registry.Sound ∧
      commit { b with registry, random } e' = .ok c ∧
      b.propose e 0 = .ok (.accepted, delta, c) := by
  have hzero : (e'.energyDelta b.grid b.registry 0).1 = 0 := by
    have hdelta := (UpdateEvent.energyDelta_of_bind (Grid.gap?_eq_none_iff.mpr hm) hp he hbind
      b.registry 0).1
    rw [Grid.totalEnergy_free hb.sound hf, Grid.totalEnergy_free hb.sound hf] at hdelta
    simpa using hdelta
  rcases propose_ok hb ht ev he hbound 0 with
    ⟨o, delta, registry, random, hne, -, hpropose⟩ |
      ⟨delta, e'', registry, random, c, hbind', hext, hsound, hc, hpropose⟩
  · -- The number that is drawn is below one, so the change is not turned down.
    have haccept := accept_zero hu { b with registry := (e'.energyDelta b.grid b.registry 0).2 }
    unfold propose at hpropose
    rw [hbind, ok_bind] at hpropose
    simp only [Bool.not_true, Bool.false_eq_true, if_false, hzero, haccept, if_true] at hpropose
    obtain ⟨c, -, h⟩ := bind_eq_ok.mp hpropose
    cases h
    exact absurd rfl hne
  · cases hbind.symm.trans hbind'
    exact ⟨delta, registry, random, c, hext, hsound, hc, hpropose⟩

/-- The only cell with activity is drawn. -/
theorem sample_only {b : Board ℝ γ} (hs : b.Synced) (hsum : b.activity.root.Summed) {p : Point}
    (hp : b.grid.contains p = true) (hactive : 0 < b.activity.rate p)
    (honly : ∀ q, b.grid.contains q = true → q ≠ p → b.activity.rate q = 0) (random : γ) :
    ∃ random₁, b.activity.sample random = (some p, random₁) := by
  cases hsample : b.activity.sample random with
  | mk drawn random₁ =>
    cases drawn with
    | none =>
      have hnone : (b.activity.sample random).1 = none := by rw [hsample]
      exact absurd ((sample_none_iff hs hsum random).mp hnone p hp) hactive.ne'
    | some q =>
      have hpos := ActivityTree.rate_of_sample hsample
      have hq : b.grid.contains q = true := by
        by_contra hout
        exact hpos (le_of_eq (hs.outside (by simpa using hout)))
      by_cases hne : q = p
      · exact ⟨random₁, by rw [hne]⟩
      · exact absurd (le_of_eq (honly q hq hne)) hpos

/-- What is drawn for two neighbors by a rule without bond expressions is what they show after the
attempt, where no energy rules weigh against it. -/
theorem attemptAt_free (hu : Generator.IsUnit γ) {b : Board ℝ γ} (hb : b.Alike b)
    (hp : b.registry.rules.Probable) (hcovered : b.Covered) (hm : b.grid.field.Mirrored)
    (hf : b.registry.rules.energies = []) {p : Point} {cell target : Cell} {d : Direction}
    (hcell : b.grid.get? p = some cell)
    (htarget : b.grid.get? (p + b.topology.offset d) = some target)
    (hd : d < b.registry.rules.topology.count) {name targetName : String}
    (hn : b.registry.name? cell.particle = some name)
    (htn : b.registry.name? target.particle = some targetName)
    {outcomes : WeightedSampler (NamedOutcome ℝ) ℝ}
    (ho : b.registry.rules.pairOutcomes b.registry.maxNameLen name d targetName = .ok outcomes)
    {o : NamedOutcome ℝ} (hsample : (outcomes.sample b.random).1 = some o)
    {rule : TransformRule ℝ} (hr : o.rule = some rule) (hplain : rule.hasBonds = false) :
    ∃ c, b.attemptAt p cell.particle d = .ok (.accepted, c) ∧
      c.particleName? p = some o.newSource ∧
      c.particleName? (p + b.topology.offset d) = some o.newTarget := by
  obtain ⟨outcomes', o', registry, random, ho', hpair, hext, hsound, hknown, hnamed⟩ :=
    hb.sound.samplePair_ok hp hn htn hd b.random
  cases ho.symm.trans ho'
  have ho' : o'.map registry.named = some o := (congrArg Prod.fst hnamed).symm.trans hsample
  obtain ⟨o', rfl, rfl⟩ := Option.map_eq_some_iff.mp ho'
  have hknown := hknown o' rfl
  -- The change is bound and weighed with what the registry has learnt in the draw.
  let learnt : Board ℝ γ := { b with registry, random }
  have hlearnt : learnt.Alike learnt :=
    (hb.learn ⟨hsound, hsound, hext, hext⟩).reseed random
  have hfree : learnt.registry.rules.energies = [] := by
    rw [show learnt.registry.rules = b.registry.rules from hext.rules, hf]
  have htotal : learnt.registry.rules.Total := hext.rules.symm ▸ Rulebook.total_of_probs hp
  have hname := hb.sound.name?_of_keeps hext.toKeeps hn
  have htargetName := hb.sound.name?_of_keeps hext.toKeeps htn
  have ev := UpdateEvent.alike_new (r := registry) (s := registry) p (p + b.topology.offset d) d
    ⟨_, hname, hname⟩ ⟨_, htargetName, htargetName⟩
    ⟨⟨_, hknown.source, hknown.source⟩, ⟨_, hknown.target, hknown.target⟩, rfl, rfl⟩
  have hmet := UpdateEvent.meets_new (b.topology.add_offset_ne d p) hcell htarget d o'
  obtain ⟨e, hbind⟩ := UpdateEvent.bind_plain (e := .new p _ d _ _ o') rfl hr hplain b.grid
  obtain ⟨delta, registry', random', c, hext', hsound', hcommit, hpropose⟩ :=
    propose_free hu hlearnt htotal hm hfree ev hmet rfl rfl hbind
  refine ⟨c, ?_, ?_⟩
  · have hrule : o'.rule = some rule := hr
    unfold attemptAt
    simp only [htarget]
    rw [hpair, ok_bind]
    simp only [Outcome.isIdle, hrule, Option.isNone_some, Bool.false_eq_true, if_false]
    exact bind_eq_ok.mpr ⟨_, hpropose, rfl⟩
  · have hsource : registry'.name? o'.newSource = some (registry.name o'.newSource) :=
      hsound.name?_of_keeps hext'.toKeeps hknown.source
    have hother : registry'.name? o'.newTarget = some (registry.name o'.newTarget) :=
      hsound.name?_of_keeps hext'.toKeeps hknown.target
    exact names_of_propose (b := { learnt with registry := registry', random := random' })
      hcovered hcell htarget hsource hother hbind hcommit

/-- A step in which the source and the direction are drawn makes the change that is drawn next. -/
theorem step_free (hu : Generator.IsUnit γ) {b : Board ℝ γ} (h : b.Ready)
    (hf : b.registry.rules.energies = []) {p : Point} {random₁ random₂ : γ}
    (hdrawn : b.activity.sample b.random = (some p, random₁)) {cell target : Cell} {d : Direction}
    (hcell : b.grid.get? p = some cell)
    (htarget : b.grid.get? (p + b.topology.offset d) = some target) {name targetName : String}
    (hn : b.registry.name? cell.particle = some name)
    (htn : b.registry.name? target.particle = some targetName) {s : SourceRules ℝ}
    (hs : SourceRules.ofName b.registry.rules name = .ok s)
    (hd : s.rates.sample random₁ = (some d, random₂))
    {outcomes : WeightedSampler (NamedOutcome ℝ) ℝ}
    (ho : b.registry.rules.pairOutcomes b.registry.maxNameLen name d targetName = .ok outcomes)
    {o : NamedOutcome ℝ} (hsample : (outcomes.sample random₂).1 = some o)
    {rule : TransformRule ℝ} (hr : o.rule = some rule) (hplain : rule.hasBonds = false) :
    ∃ c, b.step = .ok (.accepted, c) ∧ c.particleName? p = some o.newSource ∧
      c.particleName? (p + b.topology.offset d) = some o.newTarget := by
  obtain ⟨s', d', registry, random, hs', hdraw, hext, hsound, hdir, hlt⟩ :=
    h.alike.sound.sampleDir_ok h.total hn random₁
  cases hs.symm.trans hs'
  obtain ⟨rfl, rfl⟩ := Prod.mk.inj (hd.symm.trans hdir)
  let learnt : Board ℝ γ := { b with registry, random := random₂ }
  have hlearnt : learnt.Alike learnt :=
    (h.alike.learn ⟨hsound, hsound, hext, hext⟩).reseed random₂
  have hrules : registry.rules = b.registry.rules := hext.rules
  have ho : registry.rules.pairOutcomes registry.maxNameLen name d targetName = .ok outcomes := by
    rw [hrules, hext.maxNameLen, ho]
  obtain ⟨c, hattempt, hshown⟩ := attemptAt_free (b := learnt) hu hlearnt
    (hrules.symm ▸ h.probable) h.synced.covered h.mirrored (hrules.symm ▸ hf) hcell htarget
    (hrules.symm ▸ hlt d rfl) (h.alike.sound.name?_of_keeps hext.toKeeps hn)
    (h.alike.sound.name?_of_keeps hext.toKeeps htn) ho hsample hr hplain
  refine ⟨c, ?_, hshown⟩
  unfold step
  simp only [hdrawn, hcell]
  rw [hdraw, ok_bind]
  exact hattempt

section

variable {R γ : Type} [ShareScalar R] {b : Board R γ} (h : b.Ready)

include h

/-- A cell that is set shows the name as far as names are kept, and no other one shows another. -/
theorem Ready.set_shows {p : Point} (hp : b.grid.contains p = true) (name : String) :
    ∃ c, b.set p name = .ok (true, c) ∧
      c.particleName? p = some (Text.truncate b.registry.maxNameLen name) ∧
      ∀ q, q ≠ p → c.particleName? q = b.particleName? q := by
  obtain ⟨hsound, hext, hnew⟩ := h.alike.sound.intern name
  obtain ⟨cell, hcell⟩ := Grid.get?_of_contains hp
  let known : Board R γ := { b with registry := (b.registry.intern name).2 }
  have htotal : known.registry.rules.Total := hext.rules.symm ▸ h.total
  obtain ⟨⟨touched, d⟩, hd⟩ := write_ok (h.alike.intern name).1 htotal hnew p
  have hset : b.set p name = .ok (true, d.drawAll touched) := by
    unfold set
    simp only [hp, Bool.not_true, Bool.false_eq_true, if_false]
    rw [hd]
    rfl
  obtain ⟨ps, hresettled⟩ := resettled_of_write (b := known) h.synced.covered hd
  have hretains : known.registry.Retains d.registry := hresettled.retains
  obtain ⟨registry, activity, rfl⟩ := write_eq_ok hd
  have ho := Grid.overwrites_overwritten h.mirrored hp (b.registry.intern name).1
  refine ⟨_, hset, ?_, fun q hq => ?_⟩
  · obtain ⟨cell', hcell', hparticle, -⟩ := ho.cell hcell
    show (((overwritten b.grid p _).get? p).map fun c => registry.name c.particle) = _
    rw [hcell', Option.map_some, hparticle, Registry.name_of (hretains.name? hnew)]
  · have hgrown := (Registry.enrolls_intern b.registry name).grows.retains h.alike.sound.arena
    exact (h.alike.same_cell (hgrown.trans hretains) (ho.contains q) (ho.other hq)).1

end

end Board

/-- A rule by which a blank cell takes the name of its northern neighbor. -/
def TransformRule.spread : TransformRule ℝ := ⟨none, some 0, .parse "_", .parse "a", .parse "$T",
  .parse "$T", 1, .parse "", [], [], [], []⟩

theorem Rulebook.exists_spread {γ : Type} [Generator ℝ γ] (hu : Generator.IsUnit γ) :
    (alone .spread []).activity "_" = .ok (1 / 4) ∧ (alone .spread []).activity "a" = .ok 0 ∧
    (∃ s, SourceRules.ofName (alone .spread []) "_" = .ok s ∧
      ∀ g : γ, ∃ g', s.rates.sample g = (some 0, g')) ∧
    ∀ n, Text.truncate n "a" = "a" → ∃ outcomes o,
      (alone .spread []).pairOutcomes n "_" 0 "a" = .ok outcomes ∧ o.newSource = "a" ∧
        o.newTarget = "a" ∧ o.rule = some .spread ∧ ∀ g : γ, (outcomes.sample g).1 = some o := by
  have hblank : (NameMatch.sourceSlot? (.ofRule .spread .square4 0) "_").any (fun slot =>
      (NameMatch.targetSlot? slot "a").any fun found =>
        let m : NameMatch ℝ := ⟨.ofRule .spread .square4 0, .both slot found⟩
        m.newSource.toOption.any (· == "a") && m.newTarget.toOption.any (· == "a")) = true := by
    decide +kernel
  have hname : NameMatch.sourceSlot? (.ofRule .spread .square4 0) "a" = none := by decide +kernel
  obtain ⟨slot, hslot, h⟩ := (Option.any_eq_true ..).mp hblank
  obtain ⟨found, hfound, h⟩ := (Option.any_eq_true ..).mp h
  obtain ⟨hsource, htarget⟩ := Bool.and_eq_true_iff.mp h
  obtain ⟨source, hsource, hs⟩ := any_toOption.mp hsource
  obtain ⟨target, htarget, ht⟩ := any_toOption.mp htarget
  obtain rfl : source = "a" := beq_iff_eq.mp hs
  obtain rfl : target = "a" := beq_iff_eq.mp ht
  have hdir : ∀ g : γ, ∃ g', (aloneFor .spread slot).rates.sample g = (some 0, g') :=
    fun g => ⟨_, WeightedSampler.sample_alone hu rfl rfl rfl g⟩
  refine ⟨activity_alone rfl hslot, activity_alone_none hname, ⟨_, ofName_alone rfl hslot, hdir⟩,
    fun n hn => ?_⟩
  obtain ⟨verb, ho⟩ := pairOutcomes_alone rfl hslot hfound hsource htarget n
  rw [hn] at ho
  exact ⟨_, ⟨"a", "a", verb, some .spread⟩, ho, rfl, rfl, rfl,
    fun g => congrArg Prod.fst (WeightedSampler.sample_alone hu rfl rfl rfl g)⟩

namespace Board

/-- A column of two cells under the rule that spreads a name to the south. -/
structure Column {γ : Type} [Generator ℝ γ] [MessageReader ℝ] (b : Board ℝ γ) : Prop where
  reachable : b.Reachable
  rules : b.registry.rules = .alone .spread []
  maxNameLen : b.registry.maxNameLen = 256
  width : b.grid.width = 1
  height : b.grid.height = 2

namespace Column

variable {γ : Type} [Generator ℝ γ] [MessageReader ℝ] {b c : Board ℝ γ}

theorem ready (h : b.Column) : b.Ready := by
  refine h.reachable.ready ?_
  rw [h.rules]
  exact Rulebook.probable_alone rfl

theorem contains_iff (h : b.Column) {p : Point} :
    b.grid.contains p = true ↔ p = ⟨0, 0⟩ ∨ p = ⟨0, 1⟩ := by
  simp only [Grid.contains_iff, h.width, h.height, Point.eq_iff]
  omega

theorem find?_iff (h : b.Column) {name : String} (hn : Text.truncate 256 name = name)
    {id : ParticleId} : b.registry.find? name = some id ↔ b.registry.name? id = some name := by
  rw [Registry.find?, h.maxNameLen, hn]
  exact h.ready.alike.sound.index

theorem cellsNamed (h : b.Column) (name : String) :
    b.cellsNamed name = [⟨0, 0⟩, ⟨0, 1⟩].countP fun p => b.particleName? p == some name := by
  have hpoints : b.grid.points = [⟨0, 0⟩, ⟨0, 1⟩] := by
    unfold Grid.points
    rw [h.width, h.height]
    rfl
  unfold Board.cellsNamed
  rw [hpoints]

theorem run (h : b.Column) {op : Operation ℝ} {a : Answer} (hop : op.run b = .ok (a, c)) :
    c.Column := by
  have hready := h.ready
  have hf : b.Follows c :=
    (follows_self hready.alike hready.synced hready.mirrored).passes (passes_of_run hop)
  have hr : c.Reachable := h.reachable.runAll (Operation.runAll_singleton hop)
  refine ⟨hr, hf.rules.trans h.rules, ?_, hf.ages.width.trans h.width,
    hf.ages.height.trans h.height⟩
  rw [hr.wellFormed.maxNameLen, hf.config, ← h.reachable.wellFormed.maxNameLen, h.maxNameLen]

/-- A particle of a name that no cell shows is held by none. -/
theorem held_eq_zero (h : b.Column) {name : String} (hn : Text.truncate 256 name = name)
    (hnorth : b.particleName? ⟨0, 0⟩ ≠ some name) (hsouth : b.particleName? ⟨0, 1⟩ ≠ some name)
    {id : ParticleId} (hid : b.registry.name? id = some name) : b.registry.held id = 0 := by
  have hcount : b.count name = 0 := by
    rw [h.ready.alike.count_cellsNamed, h.maxNameLen, hn, h.cellsNamed]
    simp [hnorth, hsouth]
  rw [Board.count, Registry.count, (h.find?_iff hn).mpr hid] at hcount
  exact hcount

/-- A cell that is set shows its new name. -/
theorem set (h : b.Column) {p : Point} (hp : p = ⟨0, 0⟩ ∨ p = ⟨0, 1⟩) {name : String}
    (hn : Text.truncate 256 name = name) :
    ∃ c, Operation.run b (.set p name) = .ok (.flag true, c) ∧ c.Column ∧
      c.particleName? p = some name ∧ ∀ q, q ≠ p → c.particleName? q = b.particleName? q := by
  obtain ⟨c, hc, hshown, hothers⟩ := h.ready.set_shows (h.contains_iff.mpr hp) name
  rw [h.maxNameLen, hn] at hshown
  have hrun : Operation.run b (.set p name) = .ok (.flag true, c) := by
    show (b.set p name).map _ = _
    rw [hc]
    rfl
  exact ⟨c, hrun, h.run hrun, hshown, hothers⟩

/-- Whatever is drawn, the southern cell takes the name of the northern one. -/
theorem spreads (hu : Generator.IsUnit γ) (h : b.Column)
    (hnorth : b.particleName? ⟨0, 0⟩ = some "a") (hsouth : b.particleName? ⟨0, 1⟩ = some "_") :
    ∃ c blank, Operation.run b .step = .ok (.outcome .accepted, c) ∧ c.Column ∧
      c.particleName? ⟨0, 0⟩ = some "a" ∧
      c.particleName? ⟨0, 1⟩ = some "a" ∧ c.registry.name? blank = some "_" := by
  obtain ⟨hactive, hidle, ⟨s, hs, hdir⟩, hsure⟩ := Rulebook.exists_spread hu
  have hready := h.ready
  obtain ⟨north, hcellNorth, hnorth⟩ := exists_of_particleName? hready.alike hnorth
  obtain ⟨south, hcellSouth, hsouth⟩ := exists_of_particleName? hready.alike hsouth
  have hnorthRate := hready.synced.inside hcellNorth hnorth
  have hsouthRate := hready.synced.inside hcellSouth hsouth
  rw [h.rules, hidle] at hnorthRate
  rw [h.rules, hactive] at hsouthRate
  have hin : b.grid.contains ⟨0, 1⟩ = true := Grid.contains_of_get? hcellSouth
  have hactive : 0 < b.activity.rate ⟨0, 1⟩ := by
    rw [← Except.ok.inj hsouthRate]
    norm_num
  have honly : ∀ q, b.grid.contains q = true → q ≠ ⟨0, 1⟩ → b.activity.rate q = 0 := by
    intro q hq hne
    rcases h.contains_iff.mp hq with rfl | rfl
    · exact (Except.ok.inj hnorthRate).symm
    · exact absurd rfl hne
  obtain ⟨random₁, hdrawn⟩ :=
    sample_only hready.synced h.reachable.summed hin hactive honly b.random
  obtain ⟨random₂, hdir⟩ := hdir random₁
  obtain ⟨outcomes, o, houtcomes, hnewSource, hnewTarget, hrule, hsure⟩ :=
    hsure _ (hready.alike.sound.bounded hnorth)
  have hside : (⟨0, 1⟩ : Point) + b.topology.offset 0 = ⟨0, 0⟩ := by
    rw [← hready.topology, h.rules]
    rfl
  obtain ⟨c, hstep, hsource, htarget⟩ := step_free hu hready (by rw [h.rules]; rfl) hdrawn
    hcellSouth (hside ▸ hcellNorth) hsouth hnorth (h.rules ▸ hs) hdir (h.rules ▸ houtcomes)
    (hsure random₂) hrule rfl
  have hrun : Operation.run b .step = .ok (.outcome .accepted, c) := by
    show b.step.map _ = _
    rw [hstep]
    rfl
  obtain ⟨ps, hset⟩ := (effect_of_step hstep).resettled hready.alike.sound hready.synced.covered
  rw [hside, hnewTarget] at htarget
  exact ⟨c, south.particle, hrun, h.run hrun, htarget, hnewSource ▸ hsource,
    hset.retains.name? hsouth⟩

end Column

/-- A new column, in which a name is set in the north and spreads to the south. -/
theorem exists_spread :
    ∃ (b c : Board ℝ (ℕ → Set.Ico (0 : ℝ) 1)) (blank : ParticleId), b.Column ∧
      b.particleName? ⟨0, 1⟩ = some "_" ∧ Operation.runAll b [.set ⟨0, 0⟩ "a", .step] =
        .ok ([.flag true, .outcome .accepted], c) ∧ c.Column ∧
      c.particleName? ⟨0, 0⟩ = some "a" ∧ c.particleName? ⟨0, 1⟩ = some "a" ∧
      c.registry.name? blank = some "_" ∧ c.registry.held blank = 0 := by
  let config : BoardConfig := { width := 1, height := 2 }
  let lowest : ℕ → Set.Ico (0 : ℝ) 1 := fun _ => ⟨0, by norm_num⟩
  obtain ⟨b, hb⟩ : ∃ b, new config (.alone .spread []) lowest = .ok b :=
    new_ok lowest rfl rfl (Rulebook.total_of_probs (Rulebook.probable_alone rfl))
  have hk := keeps_new hb
  obtain ⟨hconfig, hg⟩ := grid_first hb
  have hcolumn : b.Column := by
    refine ⟨⟨_, _, _, b, hb, .refl⟩, hk.rules, hk.maxNameLen, ?_, ?_⟩
    · rw [hg]
      rfl
    · rw [hg]
      rfl
  obtain ⟨particle, hcell, hn⟩ := cell_new hb (hcolumn.contains_iff.mpr (Or.inr rfl))
  have hblank : Text.truncate 256 "_" = "_" := by decide
  have hsouth : b.particleName? ⟨0, 1⟩ = some "_" := by
    rw [particleName?, hcell, Option.map_some]
    exact congrArg some (Registry.name_of (hn.trans (congrArg some hblank)))
  obtain ⟨b₁, hset, hcolumn₁, hnorth, hothers⟩ :=
    hcolumn.set (Or.inl rfl) (show Text.truncate 256 "a" = "a" by decide)
  obtain ⟨c, blank, hstep, hcolumn', hnorth, hsouth', hname⟩ := hcolumn₁.spreads isUnit_draws hnorth
    ((hothers _ (by decide)).trans hsouth)
  have hheld : c.registry.held blank = 0 :=
    hcolumn'.held_eq_zero hblank (by simp [hnorth]) (by simp [hsouth']) hname
  exact ⟨b, c, blank, hcolumn, hsouth, Operation.runAll_append (Operation.runAll_singleton hset)
    (Operation.runAll_singleton hstep), hcolumn', hnorth, hsouth', hname, hheld⟩

section

variable {R γ : Type} [Scalar R] [Generator R γ] [MessageReader R]

/-- The registry keeps book of the cells. Each cell holds a particle that is there, and each
particle is counted once for each cell that holds it, by identity and by name. So all counts sum up
to the number of cells, no count ever falls below zero, and a flush lets go of the particles that no
cell holds and of no other. -/
theorem occupancy {b : Board R γ} (h : b.Reachable) :
    (∀ p, b.grid.contains p = true → ∃ cell particle, b.grid.get? p = some cell ∧
      b.registry.get? cell.particle = some particle) ∧
    (∀ id particle, b.registry.get? id = some particle →
      particle.count = b.grid.particles.count id) ∧
    (b.counts.map Prod.snd).sum = b.width * b.height ∧
    (∀ name, b.count name = b.cellsNamed (Text.truncate (max 1 b.config.maxNameLen) name)) ∧
    (∀ (op : Operation R) name, op.run b ≠ .error (.countUnderflow name)) ∧
    (∀ id, b.flush.2.registry.get? id =
      if id ∈ b.grid.particles then (b.registry.get? id).map Particle.flush else none) ∧
    b.flush.1 = b.registry.particles.toList.countP fun e => e.1 ∉ b.grid.particles := by
  have hb := h.alike
  have hc := hb.twins.leftCounted
  have hn := hb.twins.named_left
  refine ⟨fun p hp => ?_, fun id particle hid => ?_, Scene.sum_counts hc hn, fun name => ?_,
    fun op name ho => hb.spares_of_run ho name rfl, get?_flush hc, flush_fst hc⟩
  · obtain ⟨cell, hcell⟩ := Grid.get?_of_contains hp
    obtain ⟨name, hname⟩ := hb.named hcell
    obtain ⟨particle, hparticle, -⟩ := Registry.get?_of_name? hname
    exact ⟨cell, particle, hcell, hparticle⟩
  · have hheld : b.registry.held id = b.grid.particles.count id := hc id
    rw [← hheld, Registry.held, hid]
    rfl
  · rw [← h.wellFormed.maxNameLen]
    exact hb.count_cellsNamed name

end

/-- Once a name has spread, no cell holds the particle that it has taken the place of. -/
theorem occupancy_of_pair :
    ∃ (b c : Board ℝ (ℕ → Set.Ico (0 : ℝ) 1)) (n : ℕ) (blank : ParticleId), b.Reachable ∧
      Operation.runAll b [.set ⟨0, 0⟩ "a", .step, .flush] =
        .ok ([.flag true, .outcome .accepted, .number n], c.flush.2) ∧
      c.count "a" = 2 ∧ c.count "_" = 0 ∧ c.registry.name? blank = some "_" ∧ 0 < n ∧
      c.flush.2.registry.get? blank = none ∧ (c.flush.2.counts.map Prod.snd).sum = 2 := by
  obtain ⟨b, c, blank, hb, -, hrun, hc, hnorth, hsouth, hblank, hunheld⟩ := exists_spread
  obtain ⟨-, hheld, -, hcount, -, hflush, hgone⟩ := occupancy hc.reachable
  have hshort : Text.truncate 256 "_" = "_" := by decide
  have hname : Text.truncate 256 "a" = "a" := by decide
  have hlen : max 1 c.config.maxNameLen = 256 :=
    hc.reachable.wellFormed.maxNameLen.symm.trans hc.maxNameLen
  have htwo : c.count "a" = 2 := by
    rw [hcount, hlen, hname, hc.cellsNamed]
    simp [hnorth, hsouth]
  have hnone : c.count "_" = 0 := by
    rw [hcount, hlen, hshort, hc.cellsNamed]
    simp [hnorth, hsouth]
  obtain ⟨p, hp, -⟩ := Registry.get?_of_name? hblank
  have hout : blank ∉ c.grid.particles := by
    have hcounts : p.count = 0 := by
      rwa [Registry.held, hp] at hunheld
    rw [hheld blank p hp] at hcounts
    exact List.count_eq_zero.mp hcounts
  have hevicted : c.flush.2.registry.get? blank = none := (hflush blank).trans (if_neg hout)
  have hpos : 0 < c.flush.1 := by
    rw [hgone]
    refine List.countP_pos_iff.mpr ⟨(blank, p), Arena.mem_toList.mpr hp, ?_⟩
    simpa using hout
  have hflushed : Operation.runAll c [.flush] = .ok ([.number c.flush.1], c.flush.2) := rfl
  obtain ⟨-, -, hsum, -⟩ := occupancy (hc.reachable.runAll hflushed)
  refine ⟨b, c, _, blank, hb.reachable, Operation.runAll_append hrun hflushed, htwo, hnone, hblank,
    hpos, hevicted, hsum.trans ?_⟩
  show c.grid.width * c.grid.height = 2
  rw [hc.width, hc.height]

end Board

end ParticleAutomaton
