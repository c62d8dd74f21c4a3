import ParticleAutomaton.Proofs.Memory
import ParticleAutomaton.Update.Energy

namespace ParticleAutomaton

variable {R γ : Type}

/-- A particle that is the same but for what it has come to remember. -/
structure Particle.Learns (p q : Particle R) : Prop where
  name : q.name = p.name
  appearance : q.appearance = p.appearance
  count : q.count = p.count
  sources : ∀ {s}, p.sources = some s → q.sources = some s
  transforms : ∀ {key : Direction × ParticleId} {sampler}, p.transforms[key]? = some sampler →
    q.transforms[key]? = some sampler
  energies : ∀ {key : String × ParticleId} {rules}, p.energies[key]? = some rules →
    q.energies[key]? = some rules

theorem Particle.Learns.refl (p : Particle R) : p.Learns p := ⟨rfl, rfl, rfl, id, id, id⟩

theorem Particle.Learns.trans {p q o : Particle R} (h : p.Learns q) (k : q.Learns o) :
    p.Learns o :=
  ⟨k.name.trans h.name, k.appearance.trans h.appearance, k.count.trans h.count,
    fun hs => k.sources (h.sources hs), fun ht => k.transforms (h.transforms ht),
    fun he => k.energies (h.energies he)⟩

namespace Registry

/-- A registry with more particles, the new ones held by no cell, in which each old one is related
to what it was. -/
structure Enlarged (keep : Particle R → Particle R → Prop) (r s : Registry R) : Prop where
  wellFormed : s.particles.WellFormed
  rules : s.rules = r.rules
  maxNameLen : s.maxNameLen = r.maxNameLen
  old : ∀ {id p}, r.get? id = some p → ∃ q, s.get? id = some q ∧ keep p q
  new : ∀ {id q}, r.get? id = none → s.get? id = some q → q.count = 0
  index : ∀ {name : String} {id}, r.index[name]? = some id → s.index[name]? = some id

/-- What the rules say is remembered, and particles are added. -/
def Grows (r s : Registry R) : Prop := r.particles.WellFormed → Enlarged Particle.Learns r s

/-- Particles are added. -/
def Enrolls (r s : Registry R) : Prop := r.particles.WellFormed → Enlarged Eq r s

theorem Enlarged.refl {keep : Particle R → Particle R → Prop} (hk : ∀ p, keep p p)
    {r : Registry R} (h : r.particles.WellFormed) : Enlarged keep r r := by
  refine ⟨h, rfl, rfl, fun hp => ⟨_, hp, hk _⟩, fun hn hq => ?_, fun hi => hi⟩
  rw [hn] at hq
  exact nomatch hq

theorem Enlarged.trans {keep : Particle R → Particle R → Prop}
    (hk : ∀ {p q o}, keep p q → keep q o → keep p o) {r s t : Registry R} (h : Enlarged keep r s)
    (k : Enlarged keep s t) (hc : ∀ {p q}, keep p q → q.count = p.count) : Enlarged keep r t := by
  refine ⟨k.wellFormed, k.rules.trans h.rules, k.maxNameLen.trans h.maxNameLen, fun {id p} hp => ?_,
    fun {id q} hn hq => ?_, fun hi => k.index (h.index hi)⟩
  · obtain ⟨q, hq, hpq⟩ := h.old hp
    obtain ⟨o, ho, hqo⟩ := k.old hq
    exact ⟨o, ho, hk hpq hqo⟩
  · cases hs : s.get? id with
    | none => exact k.new hs hq
    | some o =>
      obtain ⟨q', hq', hoq⟩ := k.old hs
      cases hq.symm.trans hq'
      exact (hc hoq).trans (h.new hn hs)

theorem Grows.refl (r : Registry R) : r.Grows r := fun h => .refl .refl h

theorem Grows.trans {r s t : Registry R} (h : r.Grows s) (k : s.Grows t) : r.Grows t :=
  fun hw => (h hw).trans (fun hpq hqo => hpq.trans hqo) (k (h hw).wellFormed) fun hpq => hpq.count

theorem Enrolls.refl (r : Registry R) : r.Enrolls r := fun h => .refl (fun _ => rfl) h

theorem Enrolls.trans {r s t : Registry R} (h : r.Enrolls s) (k : s.Enrolls t) : r.Enrolls t :=
  fun hw => (h hw).trans (fun hpq hqo => hpq.trans hqo) (k (h hw).wellFormed)
    fun hpq => congrArg Particle.count hpq.symm

theorem Enrolls.grows {r s : Registry R} (h : r.Enrolls s) : r.Grows s := by
  intro hw
  have hs := h hw
  refine ⟨hs.wellFormed, hs.rules, hs.maxNameLen, fun {id p} hp => ?_, hs.new, hs.index⟩
  obtain ⟨q, hq, rfl⟩ := hs.old hp
  exact ⟨p, hq, .refl p⟩

theorem grows_modify {r : Registry R} {id : ParticleId} {f : Particle R → Particle R}
    (hf : ∀ p, r.get? id = some p → p.Learns (f p)) :
    r.Grows { r with particles := r.particles.modify id f } := by
  intro hw
  refine ⟨hw.modify id f, rfl, rfl, fun {other p} hp => ?_, fun {other q} hn hq => ?_,
    fun hi => hi⟩
  · rw [get?_modify, hp]
    split
    next he =>
      subst he
      exact ⟨f p, rfl, hf p hp⟩
    next => exact ⟨p, rfl, .refl p⟩
  · rw [get?_modify, hn] at hq
    split at hq
    next => exact nomatch hq
    next => exact nomatch hq

theorem enrolls_intern (r : Registry R) (name : String) : r.Enrolls (r.intern name).2 := by
  rw [intern_eq]
  split
  next => exact .refl r
  next hi =>
    intro hw
    have hget := get?_enroll hw (Text.truncate r.maxNameLen name)
    have hserial : (r.enroll (Text.truncate r.maxNameLen name)).1.serial = r.particles.created :=
      Arena.serial_insert ..
    refine ⟨hw.insert _, rfl, rfl, fun {id p} hp => ?_, fun {id q} hn hq => ?_,
      fun {other id} ho => ?_⟩
    · have hlt := Arena.serial_lt hw hp
      have hne : id ≠ (r.enroll (Text.truncate r.maxNameLen name)).1 := by
        rintro rfl
        omega
      exact ⟨p, by rw [hget, if_neg hne, hp], rfl⟩
    · rw [hget] at hq
      split at hq
      next =>
        cases hq
        rfl
      next =>
        rw [hn] at hq
        exact nomatch hq
    · have hindex : (r.enroll (Text.truncate r.maxNameLen name)).2.index =
          r.index.insert (Text.truncate r.maxNameLen name)
            (r.enroll (Text.truncate r.maxNameLen name)).1 := rfl
      rw [hindex, Std.HashMap.getElem?_insert, if_neg, ho]
      intro he
      rw [beq_iff_eq.mp he] at hi
      rw [hi] at ho
      exact nomatch ho

theorem grows_energyRules (r : Registry R) (source target : ParticleId) (bond : String) :
    r.Grows (r.energyRules source bond target).2 := by
  unfold energyRules
  split
  next => exact .refl r
  next hn =>
    refine grows_modify fun p hp => ⟨rfl, rfl, rfl, id, id, fun {key rules} he => ?_⟩
    rw [Std.HashMap.getElem?_insert, if_neg, he]
    intro hkey
    cases beq_iff_eq.mp hkey
    rw [hp, Option.bind_some, he] at hn
    exact nomatch hn

/-- To weigh bonds is to remember their energies. -/
theorem grows_weigh {ι : Type} {f : R × Registry R → ι → R × Registry R}
    (hf : ∀ (s : R × Registry R) i, s.2.Grows (f s i).2) (is : List ι) (s : R × Registry R) :
    s.2.Grows (is.foldl f s).2 :=
  foldl_relates (r := fun s t : R × Registry R => s.2.Grows t.2) (fun s => .refl s.2)
    (fun h k => h.trans k) hf is s

variable [Scalar R]

theorem grows_of_sources {r : Registry R} {id : ParticleId}
    {x : Option (SourceRules R) × Registry R} (h : r.sources id = .ok x) : r.Grows x.2 := by
  unfold sources at h
  split at h
  next =>
    cases h
    exact .refl r
  next p hp =>
    split at h
    next =>
      cases h
      exact .refl r
    next hn =>
      obtain ⟨s, hs, h⟩ := bind_eq_ok.mp h
      cases h
      refine grows_modify fun q hq => ?_
      cases hp.symm.trans hq
      refine ⟨rfl, rfl, rfl, fun hs' => ?_, fun ht => ht, fun he => he⟩
      rw [hn] at hs'
      exact nomatch hs'

/-- To remember the rules of a source is to remember nothing of its targets. -/
theorem transform?_of_sources {r : Registry R} {id : ParticleId}
    {x : Option (SourceRules R) × Registry R} (h : r.sources id = .ok x) (source : ParticleId)
    (d : Direction) (target : ParticleId) :
    x.2.transform? source d target = r.transform? source d target := by
  unfold sources at h
  split at h
  next =>
    cases h
    rfl
  next =>
    split at h
    next =>
      cases h
      rfl
    next =>
      obtain ⟨s, hs, h⟩ := bind_eq_ok.mp h
      cases h
      unfold transform?
      rw [get?_modify]
      split
      · cases r.get? source <;> rfl
      · rfl

theorem enrolls_of_addOutcome {targetName verb : String}
    {state state' : Registry R × WeightedSampler (Outcome R) R} {m : NameMatch R}
    (h : addOutcome targetName verb state m = .ok state') : state.1.Enrolls state'.1 := by
  obtain ⟨⟨bound, m'⟩, -, h⟩ := bind_eq_ok.mp h
  simp only at h
  split at h
  next =>
    cases h
    exact .refl _
  next =>
    obtain ⟨newSource, -, h⟩ := bind_eq_ok.mp h
    obtain ⟨newTarget, -, h⟩ := bind_eq_ok.mp h
    obtain ⟨verb', -, h⟩ := bind_eq_ok.mp h
    obtain ⟨sampler, -, h⟩ := bind_eq_ok.mp h
    cases h
    exact (enrolls_intern _ _).trans (enrolls_intern _ _)

theorem enrolls_of_outcomes {r : Registry R} {source target : ParticleId} {targetName verb : String}
    {ms : List (NameMatch R)} {x : Registry R × WeightedSampler (Outcome R) R}
    (h : r.outcomes source target targetName verb ms = .ok x) : r.Enrolls x.1 := by
  rw [outcomes_eq] at h
  obtain ⟨y, hy, h⟩ := bind_eq_ok.mp h
  obtain ⟨sampler, -, rfl⟩ := map_eq_ok.mp h
  exact foldlM_relates
    (r := fun x y : Registry R × WeightedSampler (Outcome R) R => x.1.Enrolls y.1)
    (fun x => .refl x.1) (fun h k => h.trans k) (fun _ _ _ _ => enrolls_of_addOutcome) hy

/-- What is not remembered yet is worked out and remembered. -/
theorem grows_of_compile {r s : Registry R} {source target : ParticleId} {d : Direction}
    (hn : r.transform? source d target = none) (h : r.compile source d target = .ok s) :
    r.Grows s := by
  obtain ⟨⟨found, r₁⟩, h₁, h⟩ := bind_eq_ok.mp h
  have hg := grows_of_sources h₁
  have hn₁ := (transform?_of_sources h₁ source d target).trans hn
  simp only at h hg hn₁
  split at h
  next rules p t hp ht =>
    obtain ⟨⟨r₂, sampler⟩, h₂, h⟩ := bind_eq_ok.mp h
    have he := enrolls_of_outcomes h₂
    simp only at h he
    split at h
    next =>
      cases h
      intro hw
      have hw₁ := (hg hw).wellFormed
      have hk : r₂.Grows (r₂.remember source d target sampler) := by
        refine grows_modify fun q hq => ?_
        obtain ⟨q', hq', rfl⟩ := (he hw₁).old hp
        cases hq.symm.trans hq'
        refine ⟨rfl, rfl, rfl, id, fun {key sampler'} ht' => ?_, id⟩
        rw [Std.HashMap.getElem?_insert, if_neg, ht']
        intro hkey
        cases beq_iff_eq.mp hkey
        rw [transform?, hp, Option.bind_some, ht'] at hn₁
        exact nomatch hn₁
      exact hg.trans (he.grows.trans hk) hw
    next =>
      cases h
      exact hg.trans he.grows
  next =>
    cases h
    exact hg

variable [Generator R γ]

theorem grows_of_sampleDir {r : Registry R} {id : ParticleId} {g : γ}
    {x : Option Direction × Registry R × γ} (h : r.sampleDir id g = .ok x) : r.Grows x.2.1 := by
  obtain ⟨⟨s, r'⟩, hs, h⟩ := bind_eq_ok.mp h
  have hg := grows_of_sources hs
  simp only at h
  split at h
  next =>
    cases h
    exact hg
  next =>
    cases h
    exact hg

theorem grows_of_samplePair {r : Registry R} {source target : ParticleId} {d : Direction} {g : γ}
    {x : Option (Outcome R) × Registry R × γ} (h : r.samplePair source d target g = .ok x) :
    r.Grows x.2.1 := by
  rw [samplePair_eq] at h
  split at h
  next hn =>
    obtain ⟨s, hs, rfl⟩ := map_eq_ok.mp h
    rw [drawRemembered_registry]
    exact grows_of_compile (Option.isNone_iff_eq_none.mp hn) hs
  next =>
    cases h
    rw [drawRemembered_registry]
    exact .refl r

end Registry

namespace UpdateEvent

variable [Scalar R] (e : UpdateEvent R) (g : Grid)

theorem grows_addEnergy (after : Bool) (s : R × Registry R) (b : Bond) :
    s.2.Grows (e.addEnergy g after s b).2 := by
  obtain ⟨sum, r⟩ := s
  unfold addEnergy
  simp only
  split
  next source target _ _ =>
    split
    next => exact r.grows_energyRules source target b.name
    next => exact .refl r
  next => exact .refl r

theorem grows_energyDelta (r : Registry R) (barrier : R) :
    r.Grows (e.energyDelta g r barrier).2 := by
  unfold energyDelta
  split
  next => exact .refl r
  next =>
    have hold : r.Grows (e.localEnergy g r false).2 :=
      Registry.grows_weigh (e.grows_addEnergy g false) (e.nearBonds g false) (0, r)
    have hnew : (e.localEnergy g r false).2.Grows
        (e.localEnergy g (e.localEnergy g r false).2 true).2 :=
      Registry.grows_weigh (e.grows_addEnergy g true) (e.nearBonds g true) (0, _)
    exact hold.trans hnew

end UpdateEvent

end ParticleAutomaton
