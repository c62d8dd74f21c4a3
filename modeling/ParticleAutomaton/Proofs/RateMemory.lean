import ParticleAutomaton.Proofs.Counts
import ParticleAutomaton.Proofs.Rates
import ParticleAutomaton.Proofs.RegistryGrowth

namespace ParticleAutomaton.Registry

variable {R : Type}

/-- Another registry has the rules of one and still has its particles. -/
structure Retains (r s : Registry R) : Prop where
  rules : s.rules = r.rules
  maxNameLen : s.maxNameLen = r.maxNameLen
  name? : ∀ {id name}, r.name? id = some name → s.name? id = some name

namespace Retains

theorem refl (r : Registry R) : r.Retains r := ⟨rfl, rfl, id⟩

theorem trans {r s t : Registry R} (h : r.Retains s) (k : s.Retains t) : r.Retains t :=
  ⟨k.rules.trans h.rules, k.maxNameLen.trans h.maxNameLen, fun hn => k.name? (h.name? hn)⟩

end Retains

theorem retains_modify (r : Registry R) (id : ParticleId) {f : Particle R → Particle R}
    (hf : ∀ p, (f p).name = p.name) :
    r.Retains { r with particles := r.particles.modify id f } := by
  refine ⟨rfl, rfl, fun {other name} hn => ?_⟩
  rw [name?, get?_modify]
  split
  next => simpa [name?, Function.comp_def, hf] using hn
  next => exact hn

theorem retains_of_exchange {r s : Registry R} {old new : ParticleId}
    (h : r.exchange old new = .ok s) : r.Retains s :=
  exchange_relates (q := Retains) .refl Retains.trans
    (fun r id _ => r.retains_modify id fun _ => rfl) h

theorem Grows.retains {r s : Registry R} (h : r.Grows s) (hw : r.particles.WellFormed) :
    r.Retains s := by
  refine ⟨(h hw).rules, (h hw).maxNameLen, fun hn => ?_⟩
  obtain ⟨p, hp, rfl⟩ := get?_of_name? hn
  obtain ⟨q, hq, hpq⟩ := (h hw).old hp
  exact hpq.name ▸ name?_of_get? hq

variable [Scalar R]

/-- What a particle remembers of the rules, if it is there, makes it active with a rate. -/
def Rates (r : Registry R) (id : ParticleId) (rate : R) : Prop :=
  ∀ p, r.get? id = some p → ∃ s, p.sources = some s ∧
    rate = Scalar.atMost 1 (s.rates.total / Scalar.ofInt r.rules.topology.count)

section

variable {r : Registry R} {id : ParticleId} {x : Option (SourceRules R) × Registry R}
  (h : r.sources id = .ok x)

include h

theorem retains_of_sources : r.Retains x.2 := by
  unfold sources at h
  split at h
  next =>
    cases h
    exact .refl r
  next =>
    split at h
    next =>
      cases h
      exact .refl r
    next =>
      obtain ⟨s, -, h⟩ := bind_eq_ok.mp h
      cases h
      exact r.retains_modify id fun _ => rfl

/-- The rules that are told are remembered. -/
theorem remembers_of_sources {p : Particle R} (hp : x.2.get? id = some p) :
    ∃ s, p.sources = some s ∧ x.1 = some s := by
  unfold sources at h
  split at h
  next hn =>
    cases h
    rw [hn] at hp
    exact nomatch hp
  next q hq =>
    split at h
    next s hs =>
      cases h
      cases hq.symm.trans hp
      exact ⟨s, hs, rfl⟩
    next =>
      obtain ⟨s, -, h⟩ := bind_eq_ok.mp h
      cases h
      rw [get?_modify, if_pos rfl, hq] at hp
      cases hp
      exact ⟨s, rfl, rfl⟩

/-- To ask for the rules of one particle makes none forget. -/
theorem Rates.of_sources {other : ParticleId} {rate : R} (hr : r.Rates other rate) :
    x.2.Rates other rate := by
  unfold sources at h
  split at h
  next =>
    cases h
    exact hr
  next p hp =>
    split at h
    next =>
      cases h
      exact hr
    next hn =>
      obtain ⟨s, -, h⟩ := bind_eq_ok.mp h
      cases h
      intro q hq
      rw [get?_modify] at hq
      split at hq
      next he =>
        subst he
        obtain ⟨s', hs', -⟩ := hr p hp
        rw [hn] at hs'
        exact nomatch hs'
      next => exact hr q hq

end

theorem rates_of_activityRate {r : Registry R} {id : ParticleId} {x : R × Registry R}
    (h : r.activityRate id = .ok x) : x.2.Rates id x.1 := by
  obtain ⟨s, hs, h⟩ := bind_eq_ok.mp h
  cases h
  intro p hp
  obtain ⟨s', hp', hs'⟩ := remembers_of_sources hs hp
  exact ⟨s', hp', by simp only [hs', Option.elim_some]⟩

/-- In a sound registry the rate that is remembered is the one that the rules say. -/
theorem Rates.activity {r : Registry R} (h : r.Sound) {id : ParticleId} {rate : R} {name : String}
    (hr : r.Rates id rate) (hn : r.name? id = some name) : r.rules.activity name = .ok rate := by
  obtain ⟨p, hp, rfl⟩ := get?_of_name? hn
  obtain ⟨s, hs, rfl⟩ := hr p hp
  rw [Rulebook.activity, (h.fits hp).sources hs]
  rfl

end ParticleAutomaton.Registry
