import ParticleAutomaton.Proofs.NamedOutcomes
import ParticleAutomaton.Proofs.RegistryIndex

namespace ParticleAutomaton

variable {R : Type} [Scalar R]

/-- What a particle remembers of the rules is what they say. -/
structure Particle.Fits (p : Particle R) (r : Registry R) : Prop where
  bounded : Text.truncate r.maxNameLen p.name = p.name
  appearance : p.appearance = r.rules.appearance p.name
  sources : ∀ {s}, p.sources = some s → SourceRules.ofName r.rules p.name = .ok s
  transforms : ∀ {d target sampler}, p.transforms[(d, target)]? = some sampler →
    d < r.rules.topology.count ∧ ∃ name named, r.name? target = some name ∧
      r.rules.pairOutcomes r.maxNameLen p.name d name = .ok named ∧ r.Renders sampler named
  energies : ∀ {bond target rules}, p.energies[(bond, target)]? = some rules →
    target.serial < r.particles.created ∧ rules = r.rules.energyRules p.name (r.name target) bond

namespace Registry

/-- The names in the index are those of the particles, which remember what the rules say. -/
structure Sound (r : Registry R) : Prop where
  arena : r.particles.WellFormed
  index : ∀ {name id}, r.index[name]? = some id ↔ r.name? id = some name
  fits : ∀ {id p}, r.get? id = some p → p.Fits r

namespace Sound

variable {r : Registry R}

theorem serial_lt (h : r.Sound) {id : ParticleId} {name : String} (hn : r.name? id = some name) :
    id.serial < r.particles.created := by
  obtain ⟨p, hp, -⟩ := get?_of_name? hn
  exact Arena.serial_lt h.arena hp

/-- The name of a particle is not longer than names may be. -/
theorem bounded (h : r.Sound) {id : ParticleId} {name : String} (hn : r.name? id = some name) :
    Text.truncate r.maxNameLen name = name := by
  obtain ⟨p, hp, rfl⟩ := get?_of_name? hn
  exact (h.fits hp).bounded

theorem indexed (h : r.Sound) : r.Indexed := ⟨h.arena, h.index, h.bounded⟩

/-- Particles of one name are one. -/
theorem name_inj (h : r.Sound) {id other : ParticleId} {name : String}
    (hi : r.name? id = some name) (ho : r.name? other = some name) : id = other :=
  h.indexed.name_inj hi ho

theorem name?_of_keeps (h : r.Sound) {s : Registry R} (hk : r.Keeps s) {id : ParticleId}
    {name : String} (hn : r.name? id = some name) : s.name? id = some name :=
  (hk.name? (h.serial_lt hn)).trans hn

theorem known_of_keeps (h : r.Sound) {s : Registry R} (hk : r.Keeps s) {o : Outcome R}
    (ho : o.Known r) : o.Known s :=
  Outcome.known_of (h.name?_of_keeps hk ho.source) (h.name?_of_keeps hk ho.target)

theorem named_of_keeps (h : r.Sound) {s : Registry R} (hk : r.Keeps s) {o : Outcome R}
    (ho : o.Known r) : s.named o = r.named o := by
  rw [named, named, hk.name (h.serial_lt ho.source), hk.name (h.serial_lt ho.target)]

theorem renders_of_keeps (h : r.Sound) {s : Registry R} (hk : r.Keeps s)
    {sampler : WeightedSampler (Outcome R) R} {named : WeightedSampler (NamedOutcome R) R}
    (hr : r.Renders sampler named) : s.Renders sampler named := by
  refine ⟨fun o ho => h.known_of_keeps hk (hr.known o ho), ?_, hr.made⟩
  rw [← hr.eq]
  exact WeightedSampler.mapItems_congr fun o ho => h.named_of_keeps hk (hr.known o ho)

theorem fits_of_keeps (h : r.Sound) {s : Registry R} (hk : r.Keeps s) {p : Particle R}
    (hp : p.Fits r) : p.Fits s := by
  refine ⟨hk.maxNameLen ▸ hp.bounded, hk.rules ▸ hp.appearance, fun hs => hk.rules ▸ hp.sources hs,
    fun ht => ?_, fun he => ?_⟩
  · obtain ⟨hd, name, named, hn, hpair, hr⟩ := hp.transforms ht
    rw [hk.rules, hk.maxNameLen]
    exact ⟨hd, name, named, h.name?_of_keeps hk hn, hpair, h.renders_of_keeps hk hr⟩
  · obtain ⟨hc, hr⟩ := hp.energies he
    rw [hk.rules, hk.name hc]
    exact ⟨Nat.lt_of_lt_of_le hc hk.created, hr⟩

end Sound

/-- A particle may change what it remembers as long as that is what the rules say. -/
theorem Sound.modify {r : Registry R} (h : r.Sound) {id : ParticleId} {f : Particle R → Particle R}
    (hf : ∀ p, (f p).name = p.name) (hfits : ∀ p, r.get? id = some p → (f p).Fits r) :
    ({ r with particles := r.particles.modify id f } : Registry R).Sound := by
  have hk := keeps_modify (r := r) id hf
  have hi := h.indexed.modify id hf
  refine ⟨hi.arena, hi.index, fun {other p} hp => ?_⟩
  rw [get?_modify] at hp
  refine h.fits_of_keeps hk ?_
  split at hp
  next he =>
    obtain ⟨q, hq, rfl⟩ := Option.map_eq_some_iff.mp hp
    exact hfits q (he ▸ hq)
  next => exact h.fits hp

theorem sound_new (rules : Rulebook R) (maxNameLen : Nat) : (new rules maxNameLen).Sound := by
  have hi := indexed_new rules maxNameLen
  refine ⟨hi.arena, hi.index, fun {id p} hp => ?_⟩
  rw [show (new rules maxNameLen).get? id = none from Arena.get?_empty id] at hp
  exact nomatch hp

theorem fits_new {r : Registry R} {name : String} (h : Text.truncate r.maxNameLen name = name) :
    (Particle.new name (r.rules.appearance name)).Fits r := by
  refine ⟨h, rfl, fun hs => ?_, fun ht => ?_, fun he => ?_⟩
  · cases hs
  · simp [Particle.new] at ht
  · simp [Particle.new] at he

theorem Sound.enroll {r : Registry R} (h : r.Sound) {name : String} (hn : r.index[name]? = none)
    (hb : Text.truncate r.maxNameLen name = name) : (r.enroll name).2.Sound := by
  have hk := (extends_enroll h.arena name).toKeeps
  have hi := h.indexed.enroll hn hb
  refine ⟨hi.arena, hi.index, fun {id p} hp => ?_⟩
  rw [get?_enroll h.arena] at hp
  refine h.fits_of_keeps hk ?_
  split at hp
  next =>
    cases hp
    exact fits_new hb
  next => exact h.fits hp

/-- A name has a particle from then on, and all others stay what they are. -/
theorem Sound.intern {r : Registry R} (h : r.Sound) (name : String) :
    (r.intern name).2.Sound ∧ r.Extends (r.intern name).2 ∧
      (r.intern name).2.name? (r.intern name).1 = some (Text.truncate r.maxNameLen name) := by
  refine ⟨?_, (h.indexed.intern name).2⟩
  rw [intern_eq]
  split
  next => exact h
  next hi => exact h.enroll hi (Text.truncate_truncate ..)

/-- A name whose particle was there before makes no difference. -/
theorem Sound.intern_known {r : Registry R} (h : r.Sound) {name old : String}
    (hn : r.name? (r.intern name).1 = some old) : (r.intern name).2 = r := by
  rw [intern_eq] at hn ⊢
  split at hn
  next => rfl
  next =>
    rw [name?, get?_enrolled h.arena] at hn
    cases hn

end Registry

end ParticleAutomaton
