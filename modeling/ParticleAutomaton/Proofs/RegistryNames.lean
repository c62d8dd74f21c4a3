import ParticleAutomaton.Particle.Registry
import ParticleAutomaton.Proofs.Arena

namespace ParticleAutomaton.Registry

variable {R : Type}

/-- The name of a particle, if it is there. -/
def name? (r : Registry R) (id : ParticleId) : Option String := (r.get? id).map (·.name)

/-- The number of cells that hold a particle, as far as the registry knows. -/
def held (r : Registry R) (id : ParticleId) : Nat := ((r.get? id).map (·.count)).getD 0

theorem name_eq (r : Registry R) (id : ParticleId) : r.name id = (r.name? id).getD "" := rfl

theorem name_of {r : Registry R} {id : ParticleId} {name : String} (h : r.name? id = some name) :
    r.name id = name := by
  rw [name_eq, h]
  rfl

theorem name?_of_get? {r : Registry R} {id : ParticleId} {p : Particle R} (h : r.get? id = some p) :
    r.name? id = some p.name := by
  rw [name?, h]
  rfl

theorem get?_of_name? {r : Registry R} {id : ParticleId} {name : String}
    (h : r.name? id = some name) : ∃ p, r.get? id = some p ∧ p.name = name :=
  Option.map_eq_some_iff.mp h

/-- The particles that a registry has or had are the same in another one. -/
structure Keeps (r s : Registry R) : Prop where
  rules : s.rules = r.rules
  maxNameLen : s.maxNameLen = r.maxNameLen
  created : r.particles.created ≤ s.particles.created
  name? : ∀ {id : ParticleId}, id.serial < r.particles.created → s.name? id = r.name? id

namespace Keeps

theorem refl (r : Registry R) : r.Keeps r := ⟨rfl, rfl, Nat.le_refl _, fun _ => rfl⟩

theorem trans {r s t : Registry R} (h : r.Keeps s) (k : s.Keeps t) : r.Keeps t :=
  ⟨k.rules.trans h.rules, k.maxNameLen.trans h.maxNameLen, Nat.le_trans h.created k.created,
    fun hid => (k.name? (Nat.lt_of_lt_of_le hid h.created)).trans (h.name? hid)⟩

theorem name {r s : Registry R} (h : r.Keeps s) {id : ParticleId}
    (hid : id.serial < r.particles.created) : s.name id = r.name id := by
  rw [name_eq, name_eq, h.name? hid]

end Keeps

theorem get?_modify (r : Registry R) (id other : ParticleId) (f : Particle R → Particle R) :
    ({ r with particles := r.particles.modify id f } : Registry R).get? other =
      if other = id then (r.get? other).map f else r.get? other :=
  Arena.get?_modify ..

theorem name?_modify (r : Registry R) (id : ParticleId) {f : Particle R → Particle R}
    (hf : ∀ p, (f p).name = p.name) (other : ParticleId) :
    ({ r with particles := r.particles.modify id f } : Registry R).name? other =
      r.name? other := by
  rw [name?, get?_modify]
  split
  · simp [name?, Function.comp_def, hf]
  · rfl

theorem keeps_modify {r : Registry R} (id : ParticleId) {f : Particle R → Particle R}
    (hf : ∀ p, (f p).name = p.name) :
    r.Keeps { r with particles := r.particles.modify id f } :=
  ⟨rfl, rfl, Nat.le_refl _, fun _ => name?_modify r id hf _⟩

/-- The registry with a new particle. -/
def enroll (r : Registry R) (name : String) : ParticleId × Registry R :=
  let (id, particles) := r.particles.insert (Particle.new name (r.rules.appearance name))
  (id, { r with particles, index := r.index.insert name id })

theorem intern_eq (r : Registry R) (name : String) :
    r.intern name = match r.index[Text.truncate r.maxNameLen name]? with
      | some id => (id, r)
      | none => r.enroll (Text.truncate r.maxNameLen name) := rfl

/-- Besides, each particle is held by as many cells. -/
structure Extends (r s : Registry R) : Prop extends Keeps r s where
  held : ∀ id, s.held id = r.held id

namespace Extends

theorem refl (r : Registry R) : r.Extends r := ⟨.refl r, fun _ => rfl⟩

theorem trans {r s t : Registry R} (h : r.Extends s) (k : s.Extends t) : r.Extends t :=
  ⟨h.toKeeps.trans k.toKeeps, fun id => (k.held id).trans (h.held id)⟩

end Extends

theorem held_modify (r : Registry R) (id other : ParticleId) (f : Particle R → Particle R) :
    ({ r with particles := r.particles.modify id f } : Registry R).held other =
      if other = id then ((r.get? other).map fun p => (f p).count).getD 0 else r.held other := by
  rw [held, get?_modify]
  split
  · simp [Function.comp_def]
  · rfl

theorem extends_modify {r : Registry R} (id : ParticleId) {f : Particle R → Particle R}
    (hf : ∀ p, (f p).name = p.name) (hc : ∀ p, (f p).count = p.count) :
    r.Extends { r with particles := r.particles.modify id f } := by
  refine ⟨keeps_modify id hf, fun other => ?_⟩
  rw [held_modify]
  split
  · simp [held, hc]
  · rfl

/-- Remembers what a source and a target may turn into. -/
def remember (r : Registry R) (source : ParticleId) (d : Direction) (target : ParticleId)
    (sampler : WeightedSampler (Outcome R) R) : Registry R :=
  { r with
    particles := r.particles.modify source fun p =>
      { p with transforms := p.transforms.insert (d, target) sampler } }

theorem extends_remember (r : Registry R) (source : ParticleId) (d : Direction)
    (target : ParticleId) (sampler : WeightedSampler (Outcome R) R) :
    r.Extends (r.remember source d target sampler) :=
  extends_modify source (fun _ => rfl) (fun _ => rfl)

theorem transform?_remember {r : Registry R} {source : ParticleId} {name : String}
    (hs : r.name? source = some name) (d : Direction) (target : ParticleId)
    (sampler : WeightedSampler (Outcome R) R) :
    (r.remember source d target sampler).transform? source d target = some sampler := by
  obtain ⟨p, hp, -⟩ := get?_of_name? hs
  unfold transform? remember
  rw [get?_modify, if_pos rfl, hp]
  simp

end ParticleAutomaton.Registry
