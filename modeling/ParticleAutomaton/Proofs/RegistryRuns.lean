import ParticleAutomaton.Proofs.Eviction
import ParticleAutomaton.Proofs.NewBoards

namespace ParticleAutomaton.Registry

variable {R : Type} [Scalar R]

/-- The operations of a registry. The particles that they are asked about may be gone, but have been
there. -/
inductive Moves (r : Registry R) : Registry R → Prop
  | intern (name) : Moves r (r.intern name).2
  | addCount (id) : Moves r (r.addCount id)
  | dropCount {id s} (h : r.dropCount id = .ok s) : Moves r s
  | dirRate {id d x} (h : r.dirRate id d = .ok x) : Moves r x.2
  | activityRate {id x} (h : r.activityRate id = .ok x) : Moves r x.2
  | sampleDir {γ : Type} [Generator R γ] {id} {g : γ} {x} (h : r.sampleDir id g = .ok x) :
    Moves r x.2.1
  | compile {source d target s} (h : r.compile source d target = .ok s) : Moves r s
  | samplePair {γ : Type} [Generator R γ] {source d target} {g : γ} {x}
    (h : r.samplePair source d target g = .ok x) : Moves r x.2.1
  | bondEnergy (source bond) {target} (h : target.serial < r.particles.created)
    (offset previous) : Moves r (r.bondEnergy source bond target offset previous).2
  | flush : Moves r r.flush.2

/-- Operations turn a registry into another one. -/
def Passes : Registry R → Registry R → Prop := Relation.ReflTransGen Moves

/-- A registry goes on to serve its rules soundly. -/
def Serves (r s : Registry R) : Prop := r.Sound → s.Sound ∧ s.rules = r.rules

theorem Serves.refl (r : Registry R) : r.Serves r := fun h => ⟨h, rfl⟩

theorem Serves.trans {r s t : Registry R} (h : r.Serves s) (k : s.Serves t) : r.Serves t := by
  intro hr
  obtain ⟨hs, hrules⟩ := h hr
  obtain ⟨ht, hrules'⟩ := k hs
  exact ⟨ht, hrules'.trans hrules⟩

theorem serves_of_dropCount {r s : Registry R} {id : ParticleId} (h : r.dropCount id = .ok s) :
    r.Serves s := by
  unfold dropCount at h
  split at h
  next =>
    cases h
    exact .refl r
  next =>
    split at h
    next => exact nomatch h
    next =>
      cases h
      exact fun hr => ⟨hr.recount id (· - 1), rfl⟩

theorem serves_of_sources {r : Registry R} {id : ParticleId}
    {x : Option (SourceRules R) × Registry R} (h : r.sources id = .ok x) : r.Serves x.2 := by
  intro hr
  refine ⟨?_, (keeps_of_sources h).rules⟩
  cases hn : r.name? id with
  | none =>
    have hnone : r.get? id = none := Option.map_eq_none_iff.mp hn
    unfold sources at h
    rw [hnone] at h
    cases h
    exact hr
  | some name =>
    obtain ⟨_, -, -, -, hx⟩ := (h ▸ sources_agree hr hn).symm.eq_ok
    exact hx

/-- To remember the rules of a source names no particle anew. -/
theorem name?_of_sources {r : Registry R} {id : ParticleId}
    {x : Option (SourceRules R) × Registry R} (h : r.sources id = .ok x) (other : ParticleId) :
    x.2.name? other = r.name? other := by
  unfold sources at h
  split at h
  next =>
    cases h
    rfl
  next =>
    split at h
    next =>
      cases h
      rfl
    next =>
      obtain ⟨s, -, h⟩ := bind_eq_ok.mp h
      cases h
      exact name?_modify r id (f := fun p => { p with sources := some s }) (fun _ => rfl) other

theorem serves_of_compile {r s : Registry R} {source target : ParticleId} {d : Direction}
    (h : r.compile source d target = .ok s) : r.Serves s := by
  obtain ⟨⟨found, r'⟩, hx, hrest⟩ := bind_eq_ok.mp h
  simp only at hrest
  split at hrest
  next rules p t hp ht =>
    intro hr
    have hs : r.name? source = some p.name :=
      (name?_of_sources hx source).symm.trans (name?_of_get? hp)
    have ht : r.name? target = some t.name :=
      (name?_of_sources hx target).symm.trans (name?_of_get? ht)
    obtain ⟨_, -, he, hsound, -⟩ := (h ▸ compile_agree hr hs ht d).symm.eq_ok
    exact ⟨hsound, he.rules⟩
  next =>
    -- Where one of the two is gone, no more than the rules of the source is remembered.
    cases hrest
    exact serves_of_sources hx

theorem serves_of_samplePair {γ : Type} [Generator R γ] {r : Registry R}
    {source target : ParticleId} {d : Direction} {g : γ} {x : Option (Outcome R) × Registry R × γ}
    (h : r.samplePair source d target g = .ok x) : r.Serves x.2.1 := by
  rw [samplePair_eq] at h
  split at h
  next =>
    obtain ⟨s, hs, rfl⟩ := map_eq_ok.mp h
    rw [drawRemembered_registry]
    exact serves_of_compile hs
  next =>
    cases h
    rw [drawRemembered_registry]
    exact .refl r

/-- What is remembered stays what the rules say, whatever a registry is asked. -/
theorem Moves.serves {r s : Registry R} (h : r.Moves s) : r.Serves s := by
  cases h with
  | intern name =>
    intro hr
    obtain ⟨hs, he, -⟩ := hr.intern name
    exact ⟨hs, he.rules⟩
  | addCount id => exact fun hr => ⟨hr.addCount id, rfl⟩
  | dropCount h => exact serves_of_dropCount h
  | dirRate h =>
    obtain ⟨x, hx, h⟩ := bind_eq_ok.mp h
    cases h
    exact serves_of_sources hx
  | activityRate h =>
    obtain ⟨x, hx, h⟩ := bind_eq_ok.mp h
    cases h
    exact serves_of_sources hx
  | sampleDir h =>
    obtain ⟨⟨s, r'⟩, hx, h⟩ := bind_eq_ok.mp h
    cases s with
    | none =>
      cases h
      exact serves_of_sources hx
    | some s =>
      cases h
      exact serves_of_sources hx
  | compile h => exact serves_of_compile h
  | samplePair h => exact serves_of_samplePair h
  | bondEnergy source bond h offset previous =>
    intro hr
    obtain ⟨hs, he⟩ := hr.bondEnergy h source bond offset previous
    exact ⟨hs, he.rules⟩
  | flush => exact fun hr => ⟨hr.flush, rfl⟩

theorem Passes.serves {r s : Registry R} (h : r.Passes s) : r.Serves s := by
  induction h with
  | refl => exact .refl r
  | tail _ hm ih => exact ih.trans hm.serves

/-- Whatever a new registry was asked, it is sound. -/
theorem sound_of_passes {rules : Rulebook R} {maxNameLen : Nat} {r : Registry R}
    (h : (new rules maxNameLen).Passes r) : r.Sound ∧ r.rules = rules :=
  h.serves (sound_new rules maxNameLen)

end ParticleAutomaton.Registry
