import ParticleAutomaton.Particle.Basic
import ParticleAutomaton.Text.Order

namespace ParticleAutomaton

/-- All particles of a board by identity and by name. -/
structure Registry (R : Type) where
  rules : Rulebook R
  particles : Arena (Particle R)
  index : Std.HashMap String ParticleId
  /-- The bound of names, in bytes. -/
  maxNameLen : Nat

namespace Registry

variable {R γ : Type}

/-- Names may always have one byte. -/
def new (rules : Rulebook R) (maxNameLen : Nat) : Registry R :=
  ⟨rules, .empty, ∅, max 1 maxNameLen⟩

def size (r : Registry R) : Nat := r.particles.size

def get? (r : Registry R) (id : ParticleId) : Option (Particle R) := r.particles.get? id

/-- The name of a particle; empty if it is gone. -/
def name (r : Registry R) (id : ParticleId) : String := ((r.get? id).map (·.name)).getD ""

/-- The particle of a name, as far as names go. -/
def find? (r : Registry R) (name : String) : Option ParticleId :=
  r.index[Text.truncate r.maxNameLen name]?

def addCount (r : Registry R) (id : ParticleId) : Registry R :=
  { r with particles := r.particles.modify id fun p => { p with count := p.count + 1 } }

def dropCount (r : Registry R) (id : ParticleId) : Except Fault (Registry R) :=
  match r.get? id with
  | none => .ok r
  | some p =>
    if p.count = 0 then .error (.countUnderflow p.name)
    else .ok { r with particles := r.particles.modify id fun p => { p with count := p.count - 1 } }

/-- The number of cells that hold the particle of a name. -/
def count (r : Registry R) (name : String) : Nat :=
  (((r.find? name).bind r.get?).map (·.count)).getD 0

/-- The names of all particles, in order. -/
def names (r : Registry R) : List String :=
  (r.particles.toList.map fun (_, p) => p.name).mergeSort Text.atMost

/-- The particles that cells hold, by name, and how many hold each. -/
def counts (r : Registry R) : List (String × Nat) :=
  let held := r.particles.toList.filterMap fun (_, p) =>
    if p.count = 0 then none else some (p.name, p.count)
  held.mergeSort fun a b => Text.atMost a.1 b.1

/-- Forgets what the rules say and lets go of the particles that no cell holds; tells how many. -/
def flush (r : Registry R) : Nat × Registry R :=
  let gone := r.particles.toList.filter fun (_, p) => p.count = 0
  let particles := (r.particles.mapAll Particle.flush).retain fun p => p.count ≠ 0
  let index := gone.foldl (fun index (_, p) => index.erase p.name) r.index
  (gone.length, { r with particles, index })

variable [Scalar R]

/-- The particle of a name, new if there is none. -/
def intern (r : Registry R) (name : String) : ParticleId × Registry R :=
  let name := Text.truncate r.maxNameLen name
  match r.index[name]? with
  | some id => (id, r)
  | none =>
    let (id, particles) := r.particles.insert (Particle.new name (r.rules.appearance name))
    (id, { r with particles, index := r.index.insert name id })

/-- The rules for a particle as a source, remembered from now on. -/
def sources (r : Registry R) (id : ParticleId) :
    Except Fault (Option (SourceRules R) × Registry R) :=
  match r.get? id with
  | none => .ok (none, r)
  | some p =>
    match p.sources with
    | some s => .ok (some s, r)
    | none => do
      let s ← SourceRules.ofName r.rules p.name
      .ok (some s, { r with
        particles := r.particles.modify id fun p => { p with sources := some s } })

/-- How often a particle tries a direction. -/
def dirRate (r : Registry R) (id : ParticleId) (d : Direction) :
    Except Fault (R × Registry R) := do
  let (s, r) ← r.sources id
  .ok (s.elim 0 fun s => s.rates.weight d, r)

/-- The activity of a cell that holds a particle: the mean of the rates of the directions. -/
def activityRate (r : Registry R) (id : ParticleId) : Except Fault (R × Registry R) := do
  let (s, r) ← r.sources id
  let neighbors : R := Scalar.ofInt r.rules.topology.count
  .ok (s.elim 0 fun s => Scalar.atMost 1 (s.rates.total / neighbors), r)

/-- Draws a direction. -/
def sampleDir [Generator R γ] (r : Registry R) (id : ParticleId) (g : γ) :
    Except Fault (Option Direction × Registry R × γ) := do
  let (s, r) ← r.sources id
  match s with
  | none => .ok (none, r, g)
  | some s =>
    let (d, g) := s.rates.sample g
    .ok (d, r, g)

/-- Adds what a rule makes of a source and a target to the outcomes, if the rule is for them. -/
def addOutcome (targetName defaultVerb : String)
    (state : Registry R × WeightedSampler (Outcome R) R) (m : NameMatch R) :
    Except Fault (Registry R × WeightedSampler (Outcome R) R) := do
  let (r, sampler) := state
  let (bound, m) ← m.bindTarget targetName
  if !bound then .ok (r, sampler)
  else
    let newSourceName ← m.newSource
    let newTargetName ← m.newTarget
    let verb ← m.verb
    let verb := if verb = "" then defaultVerb else verb
    let (newSource, r) := r.intern newSourceName
    let (newTarget, r) := r.intern newTargetName
    let rule := m.rule.rule
    .ok (r, ← sampler.add ⟨newSource, newTarget, verb, some rule⟩ rule.prob)

/-- What a source and a target in a direction may turn into. Nothing happens where the probabilities
leave a rest to one. -/
def outcomes (r : Registry R) (source target : ParticleId) (targetName defaultVerb : String)
    (ms : List (NameMatch R)) : Except Fault (Registry R × WeightedSampler (Outcome R) R) := do
  let (r, sampler) ← ms.foldlM (addOutcome targetName defaultVerb) (r, .empty)
  let sampler ←
    if sampler.total < 1 then sampler.add (.idle source target) (1 - sampler.total)
    else .ok sampler
  .ok (r, sampler.close)

/-- Works out what a source and a target may turn into, and remembers it. -/
def compile (r : Registry R) (source : ParticleId) (d : Direction) (target : ParticleId) :
    Except Fault (Registry R) := do
  let (s, r) ← r.sources source
  match s, r.get? source, r.get? target with
  | some s, some p, some t =>
    let ms := s.matched[d]?.getD []
    let (r, sampler) ← r.outcomes source target t.name (p.appearance.verb.getD "") ms
    if d < r.rules.topology.count then
      .ok { r with
        particles := r.particles.modify source fun p =>
          { p with transforms := p.transforms.insert (d, target) sampler } }
    else .ok r
  | _, _, _ => .ok r

/-- What is remembered of a source and a target. -/
def transform? (r : Registry R) (source : ParticleId) (d : Direction) (target : ParticleId) :
    Option (WeightedSampler (Outcome R) R) :=
  (r.get? source).bind fun p => p.transforms[(d, target)]?

/-- Draws what a source and a target turn into. -/
def samplePair [Generator R γ] (r : Registry R) (source : ParticleId) (d : Direction)
    (target : ParticleId) (g : γ) : Except Fault (Option (Outcome R) × Registry R × γ) := do
  let r ← if (r.transform? source d target).isNone then r.compile source d target else .ok r
  match r.transform? source d target with
  | none => .ok (none, r, g)
  | some sampler =>
    let (outcome, g) := sampler.sample g
    .ok (outcome, r, g)

/-- The energy rules of a bond between two particles, remembered from now on. -/
def energyRules (r : Registry R) (source : ParticleId) (bond : String) (target : ParticleId) :
    List (EnergyRule R) × Registry R :=
  match (r.get? source).bind fun p => p.energies[(bond, target)]? with
  | some rules => (rules, r)
  | none =>
    let rules := r.rules.energyRules (r.name source) (r.name target) bond
    (rules, { r with
      particles := r.particles.modify source fun p =>
        { p with energies := p.energies.insert (bond, target) rules } })

/-- The energy of a bond between two particles. -/
def bondEnergy (r : Registry R) (source : ParticleId) (bond : String) (target : ParticleId)
    (offset : Point) (previous : Option Point) : R × Registry R :=
  let (rules, r) := r.energyRules source bond target
  (EnergyRule.sum rules r.rules.topology offset previous, r)

end Registry

end ParticleAutomaton
