import ParticleAutomaton.Proofs.RegistryGrowth
import ParticleAutomaton.Proofs.RegistryRuns

namespace ParticleAutomaton.Registry

variable {R : Type}

/-- Each particle has a name of its own of at most a number of bytes, and is found by all texts
whose longest front of so many bytes that name is. -/
structure Names (r : Registry R) (limit : Nat) : Prop where
  distinct : ∀ {i j p q}, r.get? i = some p → r.get? j = some q → p.name = q.name → i = j
  bounded : ∀ {i p}, r.get? i = some p → p.name.utf8ByteSize ≤ limit
  found : ∀ {name i}, r.find? name = some i ↔
    ∃ p, r.get? i = some p ∧ Text.LongestFront limit name p.name

/-- A flush leaves the particles that cells hold as they are, but for what they remember, and no
others. -/
structure Flushes (r s : Registry R) : Prop where
  kept : ∀ {i p}, r.get? i = some p → 0 < p.count →
    ∃ q, s.get? i = some q ∧ q.name = p.name ∧ q.count = p.count ∧ q.appearance = p.appearance
  removed : ∀ {i p}, r.get? i = some p → p.count = 0 → s.get? i = none
  absent : ∀ {i}, r.get? i = none → s.get? i = none

theorem Indexed.names {r : Registry R} (h : r.Indexed) : r.Names r.maxNameLen := by
  refine ⟨fun hp hq he => ?_, fun {i p} hp => ?_, fun {name i} => ?_⟩
  · exact h.name_inj (name?_of_get? hp) (he ▸ name?_of_get? hq)
  · rw [← h.bounded (name?_of_get? hp)]
    exact (Text.longestFront_truncate ..).fits
  · rw [find?, h.index, name?, Option.map_eq_some_iff]
    simp only [Text.longestFront_iff]

theorem flushes_flush (r : Registry R) : r.Flushes r.flush.2 := by
  refine ⟨fun {i p} hp hc => ⟨p.flush, ?_, rfl, rfl, rfl⟩, fun hp hc => ?_, fun hn => ?_⟩
  · rw [get?_flush, hp, Option.bind_some, if_neg hc.ne']
  · rw [get?_flush, hp, Option.bind_some, if_pos hc]
  · rw [get?_flush, hn]
    rfl

/-- The particles of a later registry that are no newer than an earlier one were there already,
under the same names. -/
structure Precedes (r s : Registry R) : Prop where
  maxNameLen : s.maxNameLen = r.maxNameLen
  created : r.particles.created ≤ s.particles.created
  old : ∀ {id name}, id.serial < r.particles.created → s.name? id = some name →
    r.name? id = some name

theorem Keeps.precedes {r s : Registry R} (h : r.Keeps s) : r.Precedes s :=
  ⟨h.maxNameLen, h.created, fun hid hn => (h.name? hid).symm.trans hn⟩

theorem Precedes.trans {r s t : Registry R} (h : r.Precedes s) (k : s.Precedes t) :
    r.Precedes t :=
  ⟨k.maxNameLen.trans h.maxNameLen, Nat.le_trans h.created k.created,
    fun hid hn => h.old hid (k.old (Nat.lt_of_lt_of_le hid h.created) hn)⟩

/-- A particle that is gone does not come back. -/
theorem Precedes.gone {r s : Registry R} (h : r.Precedes s) {id : ParticleId}
    (hid : id.serial < r.particles.created) (hn : r.get? id = none) : s.get? id = none := by
  by_contra hne
  obtain ⟨p, hp⟩ := Option.ne_none_iff_exists'.mp hne
  obtain ⟨q, hq, -⟩ := get?_of_name? (h.old hid (name?_of_get? hp))
  rw [hn] at hq
  exact nomatch hq

/-- A registry goes on with an index of its names. -/
def Succeeds (r s : Registry R) : Prop := r.Indexed → s.Indexed ∧ r.Precedes s

theorem Succeeds.refl (r : Registry R) : r.Succeeds r := fun h => ⟨h, (Keeps.refl r).precedes⟩

theorem Succeeds.trans {r s t : Registry R} (h : r.Succeeds s) (k : s.Succeeds t) :
    r.Succeeds t := by
  intro hr
  obtain ⟨hs, hrs⟩ := h hr
  obtain ⟨ht, hst⟩ := k hs
  exact ⟨ht, hrs.trans hst⟩

/-- A particle may change in all but its name. -/
theorem succeeds_modify (r : Registry R) (id : ParticleId) {f : Particle R → Particle R}
    (hf : ∀ p, (f p).name = p.name) :
    r.Succeeds { r with particles := r.particles.modify id f } :=
  fun h => ⟨h.modify id hf, (keeps_modify id hf).precedes⟩

theorem succeeds_intern (r : Registry R) (name : String) : r.Succeeds (r.intern name).2 := by
  intro h
  obtain ⟨hs, he, -⟩ := h.intern name
  exact ⟨hs, he.toKeeps.precedes⟩

theorem succeeds_of_dropCount {r s : Registry R} {id : ParticleId} (h : r.dropCount id = .ok s) :
    r.Succeeds s := by
  unfold dropCount at h
  split at h
  next =>
    cases h
    exact .refl r
  next =>
    split at h
    next => exact nomatch h
    next =>
      cases h
      exact r.succeeds_modify id fun _ => rfl

theorem succeeds_energyRules (r : Registry R) (source target : ParticleId) (bond : String) :
    r.Succeeds (r.energyRules source bond target).2 := by
  unfold energyRules
  split
  next => exact .refl r
  next => exact r.succeeds_modify source fun _ => rfl

theorem succeeds_flush (r : Registry R) : r.Succeeds r.flush.2 :=
  fun h => ⟨h.flush, rfl, Nat.le_refl _, fun _ hn => (name?_flush_eq_some_iff.mp hn).1⟩

variable [Scalar R]

theorem succeeds_of_sources {r : Registry R} {id : ParticleId}
    {x : Option (SourceRules R) × Registry R} (h : r.sources id = .ok x) : r.Succeeds x.2 := by
  unfold sources at h
  split at h
  next =>
    cases h
    exact .refl r
  next =>
    split at h
    next =>
      cases h
      exact .refl r
    next =>
      obtain ⟨s, -, h⟩ := bind_eq_ok.mp h
      cases h
      exact r.succeeds_modify id fun _ => rfl

theorem succeeds_of_addOutcome {targetName verb : String}
    {state state' : Registry R × WeightedSampler (Outcome R) R} {m : NameMatch R}
    (h : addOutcome targetName verb state m = .ok state') : state.1.Succeeds state'.1 := by
  obtain ⟨⟨bound, m'⟩, -, h⟩ := bind_eq_ok.mp h
  simp only at h
  split at h
  next =>
    cases h
    exact .refl _
  next =>
    obtain ⟨newSource, -, h⟩ := bind_eq_ok.mp h
    obtain ⟨newTarget, -, h⟩ := bind_eq_ok.mp h
    obtain ⟨verb', -, h⟩ := bind_eq_ok.mp h
    obtain ⟨sampler, -, h⟩ := bind_eq_ok.mp h
    cases h
    exact (succeeds_intern _ _).trans (succeeds_intern _ _)

theorem succeeds_of_outcomes {r : Registry R} {source target : ParticleId}
    {targetName verb : String} {ms : List (NameMatch R)}
    {x : Registry R × WeightedSampler (Outcome R) R}
    (h : r.outcomes source target targetName verb ms = .ok x) : r.Succeeds x.1 := by
  rw [outcomes_eq] at h
  obtain ⟨y, hy, h⟩ := bind_eq_ok.mp h
  obtain ⟨sampler, -, rfl⟩ := map_eq_ok.mp h
  exact foldlM_relates
    (r := fun x y : Registry R × WeightedSampler (Outcome R) R => x.1.Succeeds y.1)
    (fun x => .refl x.1) (fun h k => h.trans k) (fun _ _ _ _ => succeeds_of_addOutcome) hy

theorem succeeds_of_compile {r s : Registry R} {source target : ParticleId} {d : Direction}
    (h : r.compile source d target = .ok s) : r.Succeeds s := by
  obtain ⟨⟨found, r₁⟩, h₁, h⟩ := bind_eq_ok.mp h
  have hs := succeeds_of_sources h₁
  simp only at h
  split at h
  next =>
    obtain ⟨⟨r₂, sampler⟩, h₂, h⟩ := bind_eq_ok.mp h
    have hs₂ := hs.trans (succeeds_of_outcomes h₂)
    simp only at h
    split at h
    next =>
      cases h
      exact hs₂.trans (r₂.succeeds_modify source fun _ => rfl)
    next =>
      cases h
      exact hs₂
  next =>
    cases h
    exact hs

theorem succeeds_of_samplePair {γ : Type} [Generator R γ] {r : Registry R}
    {source target : ParticleId} {d : Direction} {g : γ} {x : Option (Outcome R) × Registry R × γ}
    (h : r.samplePair source d target g = .ok x) : r.Succeeds x.2.1 := by
  rw [samplePair_eq] at h
  split at h
  next =>
    obtain ⟨s, hs, rfl⟩ := map_eq_ok.mp h
    rw [drawRemembered_registry]
    exact succeeds_of_compile hs
  next =>
    cases h
    rw [drawRemembered_registry]
    exact .refl r

/-- The operations of a registry on any particles at all, those included that have never been
there. -/
inductive Calls (r : Registry R) : Registry R → Prop
  | move {s} (h : r.Moves s) : Calls r s
  | bondEnergy (source bond target offset previous) :
    Calls r (r.bondEnergy source bond target offset previous).2

theorem Moves.succeeds {r s : Registry R} (h : r.Moves s) : r.Succeeds s := by
  cases h with
  | intern name => exact succeeds_intern r name
  | addCount id => exact r.succeeds_modify id fun _ => rfl
  | dropCount h => exact succeeds_of_dropCount h
  | dirRate h =>
    obtain ⟨x, hx, h⟩ := bind_eq_ok.mp h
    cases h
    exact succeeds_of_sources hx
  | activityRate h =>
    obtain ⟨x, hx, h⟩ := bind_eq_ok.mp h
    cases h
    exact succeeds_of_sources hx
  | sampleDir h =>
    obtain ⟨⟨s, r'⟩, hx, h⟩ := bind_eq_ok.mp h
    cases s with
    | none =>
      cases h
      exact succeeds_of_sources hx
    | some s =>
      cases h
      exact succeeds_of_sources hx
  | compile h => exact succeeds_of_compile h
  | samplePair h => exact succeeds_of_samplePair h
  | bondEnergy source bond _ _ _ => exact r.succeeds_energyRules source _ bond
  | flush => exact succeeds_flush r

theorem Calls.succeeds {r s : Registry R} (h : r.Calls s) : r.Succeeds s := by
  cases h with
  | move h => exact h.succeeds
  | bondEnergy source bond target _ _ => exact r.succeeds_energyRules source target bond

/-- Operations in any order turn a registry into another one. -/
def Runs : Registry R → Registry R → Prop := Relation.ReflTransGen Calls

theorem Runs.succeeds {r s : Registry R} (h : r.Runs s) : r.Succeeds s := by
  induction h with
  | refl => exact .refl r
  | tail _ hc ih => exact ih.trans hc.succeeds

/-- Particles keep their identities, whatever a registry was asked. Their names tell them apart, and
a name is looked up as it is cut when a particle takes it. Who asks for the particle of a name gets
the one that is found, or one that was not there at any time before. A flush removes the particles
that no cell holds, and what is removed does not come back. -/
theorem identities {rules : Rulebook R} {maxNameLen : Nat} {r : Registry R}
    (h : (new rules maxNameLen).Runs r) :
    r.Names (max 1 maxNameLen) ∧
      (∀ name, (∃ p, (r.intern name).2.get? (r.intern name).1 = some p ∧
          Text.LongestFront (max 1 maxNameLen) name p.name) ∧
        (r.find? name = some (r.intern name).1 ∧ (r.intern name).2 = r ∨
          r.find? name = none ∧ ∀ q, (new rules maxNameLen).Runs q → q.Runs r →
            q.get? (r.intern name).1 = none)) ∧
      r.Flushes r.flush.2 ∧
      ∀ {q s i}, (new rules maxNameLen).Runs q → q.get? i ≠ none → q.Runs s → s.get? i = none →
        s.Runs r → r.get? i = none := by
  obtain ⟨hr, hnew⟩ := h.succeeds (indexed_new rules maxNameLen)
  have hlen : r.maxNameLen = max 1 maxNameLen := hnew.maxNameLen
  refine ⟨hlen ▸ hr.names, fun name => ⟨?_, ?_⟩, r.flushes_flush,
    fun {q s i} hq hlive hqs hgone hsr => ?_⟩
  · obtain ⟨p, hp, hn⟩ := get?_of_name? (hr.intern name).2.2
    exact ⟨p, hp, Text.longestFront_iff.mpr (hlen ▸ hn)⟩
  · refine (r.intern_cases name).imp_right fun ⟨hnone, hserial⟩ => ⟨hnone, fun q hq hqr => ?_⟩
    -- Particles of earlier registries have smaller numbers.
    by_contra hlive
    obtain ⟨p, hp⟩ := Option.ne_none_iff_exists'.mp hlive
    obtain ⟨hqi, -⟩ := hq.succeeds (indexed_new rules maxNameLen)
    have hlt := Arena.serial_lt hqi.arena hp
    have hle := (hqr.succeeds hqi).2.created
    omega
  · obtain ⟨p, hp⟩ := Option.ne_none_iff_exists'.mp hlive
    obtain ⟨hqi, -⟩ := hq.succeeds (indexed_new rules maxNameLen)
    obtain ⟨hsi, hqs⟩ := hqs.succeeds hqi
    have hlt := Arena.serial_lt hqi.arena hp
    exact (hsr.succeeds hsi).2.gone (Nat.lt_of_lt_of_le hlt hqs.created) hgone

/-- Two names that are the same when cut are one particle's. A flush lets go of it, as no cell holds
it, and keeps another one that a cell holds; then a new particle takes the name. -/
theorem identities_of_cut :
    ∃ r₀ r₁ r₂ r₃ : Registry Float, ∃ i j q, (r₀.Runs r₁ ∧ r₁.Runs r₂ ∧ r₂.Runs r₃) ∧
      r₁.find? "aéz" = some i ∧ r₂.get? i = none ∧ r₃.get? i = none ∧
      r₁.find? "b" = some j ∧ r₂.get? j = some q ∧ q.name = "b" ∧ q.count = 1 ∧
      r₃ = (r₂.intern "aéz").2 := by
  let rules : Rulebook Float := ⟨default, [], [], [], []⟩
  let r₀ := new rules 3
  let cut := r₀.intern "aéé"
  let other := cut.2.intern "b"
  let r₁ := other.2.addCount other.1
  let r₂ := r₁.flush.2
  let r₃ := (r₂.intern "aéz").2
  have hcut : r₀.Runs cut.2 := .single (.move (.intern "aéé"))
  have h₁ : r₀.Runs r₁ := (hcut.tail (.move (.intern "b"))).tail (.move (.addCount other.1))
  have h₂ : r₁.Runs r₂ := .single (.move .flush)
  have h₃ : r₂.Runs r₃ := .single (.move (.intern "aéz"))
  obtain ⟨hs, hext, hi⟩ := (sound_new rules 3).intern "aéé"
  obtain ⟨hs', hext', hj⟩ := hs.intern "b"
  have hcounted := keeps_addCount other.2 other.1
  have hi' : r₁.name? cut.1 = some "aé" := by
    have hname := hs'.name?_of_keeps hcounted (hs.name?_of_keeps hext'.toKeeps hi)
    rwa [show Text.truncate (new rules 3).maxNameLen "aéé" = "aé" by decide +kernel] at hname
  have hj' : r₁.name? other.1 = some "b" := by
    have hname := hs'.name?_of_keeps hcounted hj
    rwa [hext.maxNameLen, show Text.truncate (new rules 3).maxNameLen "b" = "b" by
      decide +kernel] at hname
  have hne : cut.1 ≠ other.1 := by
    intro he
    rw [he, hj'] at hi'
    exact absurd hi' (by decide)
  have hnone : ∀ id, other.2.held id = 0 := by
    intro id
    rw [hext'.held, hext.held, held, show (new rules 3).get? id = none from Arena.get?_empty id]
    rfl
  obtain ⟨p, hp, hpn⟩ := get?_of_name? hi'
  obtain ⟨q, hq, hqn⟩ := get?_of_name? hj'
  have hpc : p.count = 0 := by
    have hheld := held_addCount hj cut.1
    rw [hnone, if_neg hne] at hheld
    have hheld : r₁.held cut.1 = 0 := hheld
    rwa [held, hp] at hheld
  have hqc : q.count = 1 := by
    have hheld := held_addCount hj other.1
    rw [hnone, if_pos rfl] at hheld
    have hheld : r₁.held other.1 = 1 := hheld
    rwa [held, hq] at hheld
  obtain ⟨hnames, -, hflush, -⟩ := identities h₁
  have hfound : r₁.find? "aéz" = some cut.1 :=
    hnames.found.mpr ⟨p, hp, Text.longestFront_iff.mpr (hpn.trans (by decide +kernel))⟩
  have hgone : r₂.get? cut.1 = none := hflush.removed hp hpc
  obtain ⟨kept, hkept, hkeptName, hkeptCount, -⟩ := hflush.kept hq (hqc ▸ Nat.zero_lt_one)
  refine ⟨r₀, r₁, r₂, r₃, cut.1, other.1, kept, ⟨h₁, h₂, h₃⟩, hfound, hgone, ?_, ?_, hkept,
    hkeptName.trans hqn, hkeptCount.trans hqc, rfl⟩
  · exact (identities ((h₁.trans h₂).trans h₃)).2.2.2 h₁ (hp ▸ Option.some_ne_none p) h₂ hgone h₃
  · exact hnames.found.mpr ⟨q, hq, Text.longestFront_iff.mpr (hqn.trans (by decide +kernel))⟩

end ParticleAutomaton.Registry
