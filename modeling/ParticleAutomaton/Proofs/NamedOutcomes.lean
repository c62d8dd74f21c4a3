import ParticleAutomaton.Proofs.RegistryNames
import ParticleAutomaton.Proofs.Samplers

namespace ParticleAutomaton

variable {R : Type}

theorem SourceRules.spares_of_ofName [Scalar R] {b : Rulebook R} {name : String} {e : Fault}
    (h : ofName b name = .error e) : e.SparesCounts := by
  rcases bind_eq_error.mp h with h | ⟨rates, -, h⟩
  · obtain ⟨m, -, s, hs⟩ := exists_of_foldlM_error h
    exact WeightedSampler.spares_of_add hs
  · exact nomatch h

namespace NameMatch

theorem spares_of_bindTarget {m : NameMatch R} {name : String} {e : Fault}
    (h : m.bindTarget name = .error e) : e.SparesCounts := by
  unfold bindTarget at h
  split at h
  next =>
    cases h
    exact nofun
  next =>
    cases h
    exact nofun
  next => split at h <;> exact nomatch h

theorem spares_of_expand {m : NameMatch R} {template : Template} {e : Fault}
    (h : m.expand template = .error e) : e.SparesCounts := by
  unfold expand at h
  split at h
  next => exact nomatch h
  next =>
    cases h
    exact nofun

end NameMatch

theorem Outcome.beq_iff {o p : Outcome R} : (o == p) = true ↔
    o.newSource = p.newSource ∧ o.newTarget = p.newTarget ∧ o.isIdle = p.isIdle := by
  show (o.newSource == p.newSource && o.newTarget == p.newTarget && o.isIdle == p.isIdle) = true ↔ _
  simp only [Bool.and_eq_true, beq_iff_eq, and_assoc]

instance : EquivBEq (Outcome R) where
  rfl := Outcome.beq_iff.mpr ⟨rfl, rfl, rfl⟩
  symm := by
    intro o p h
    obtain ⟨hs, ht, hi⟩ := Outcome.beq_iff.mp h
    exact Outcome.beq_iff.mpr ⟨hs.symm, ht.symm, hi.symm⟩
  trans := by
    intro o p q h k
    obtain ⟨hs, ht, hi⟩ := Outcome.beq_iff.mp h
    obtain ⟨ks, kt, ki⟩ := Outcome.beq_iff.mp k
    exact Outcome.beq_iff.mpr ⟨hs.trans ks, ht.trans kt, hi.trans ki⟩

/-- What two neighbors may turn into, by name. -/
structure NamedOutcome (R : Type) where
  newSource : String
  newTarget : String
  verb : String
  /-- The rule that says so; none where nothing happens. -/
  rule : Option (TransformRule R)

instance : BEq (NamedOutcome R) :=
  ⟨fun o p =>
    o.newSource == p.newSource && o.newTarget == p.newTarget && o.rule.isNone == p.rule.isNone⟩

namespace Rulebook

variable [Scalar R]

/-- Adds what a rule makes of a source and a target to the outcomes, if the rule is for them. -/
def addNamed (maxNameLen : Nat) (targetName defaultVerb : String)
    (sampler : WeightedSampler (NamedOutcome R) R) (m : NameMatch R) :
    Except Fault (WeightedSampler (NamedOutcome R) R) := do
  let (bound, m) ← m.bindTarget targetName
  if !bound then .ok sampler
  else
    let newSource ← m.newSource
    let newTarget ← m.newTarget
    let verb ← m.verb
    let verb := if verb = "" then defaultVerb else verb
    let rule := m.rule.rule
    sampler.add ⟨Text.truncate maxNameLen newSource, Text.truncate maxNameLen newTarget, verb,
      some rule⟩ rule.prob

/-- Nothing happens where the probabilities leave a rest to one. -/
def fillUp (source target : String) (sampler : WeightedSampler (NamedOutcome R) R) :
    Except Fault (WeightedSampler (NamedOutcome R) R) :=
  if sampler.total < 1 then sampler.add ⟨source, target, "", none⟩ (1 - sampler.total)
  else .ok sampler

/-- What matches of rules make of a source and a target. -/
def namedOutcomes (maxNameLen : Nat) (source target defaultVerb : String) (ms : List (NameMatch R)) :
    Except Fault (WeightedSampler (NamedOutcome R) R) := do
  let sampler ← ms.foldlM (addNamed maxNameLen target defaultVerb) .empty
  (fillUp source target sampler).map .close

/-- What the rules make of a source and a target in a direction. -/
def pairOutcomes (b : Rulebook R) (maxNameLen : Nat) (source : String) (d : Direction)
    (target : String) : Except Fault (WeightedSampler (NamedOutcome R) R) := do
  let s ← SourceRules.ofName b source
  namedOutcomes maxNameLen source target ((b.appearance source).verb.getD "") (s.matched[d]?.getD [])

/-- Draws what a source and a target turn into; nothing in a direction that is none. -/
def samplePair {γ : Type} [Generator R γ] (b : Rulebook R) (maxNameLen : Nat) (source : String)
    (d : Direction) (target : String) (g : γ) : Except Fault (Option (NamedOutcome R) × γ) :=
  (b.pairOutcomes maxNameLen source d target).map fun sampler =>
    if d < b.topology.count then sampler.sample g else (none, g)

/-- The activity of a cell with a particle of a name. -/
def activity (b : Rulebook R) (name : String) : Except Fault R :=
  (SourceRules.ofName b name).map fun s =>
    Scalar.atMost 1 (s.rates.total / Scalar.ofInt b.topology.count)

end Rulebook

namespace Registry

/-- An outcome by name. -/
def named (r : Registry R) (o : Outcome R) : NamedOutcome R :=
  ⟨r.name o.newSource, r.name o.newTarget, o.verb, o.rule⟩

end Registry

/-- The particles that come out are in the registry. -/
structure Outcome.Known (r : Registry R) (o : Outcome R) : Prop where
  source : r.name? o.newSource = some (r.name o.newSource)
  target : r.name? o.newTarget = some (r.name o.newTarget)

theorem Outcome.known_of {r : Registry R} {o : Outcome R} {source target : String}
    (hs : r.name? o.newSource = some source) (ht : r.name? o.newTarget = some target) : o.Known r :=
  ⟨by rw [Registry.name_of hs, hs], by rw [Registry.name_of ht, ht]⟩

/-- A sampler of outcomes is one of outcomes by name. -/
structure Registry.Renders [Scalar R] (r : Registry R) (sampler : WeightedSampler (Outcome R) R)
    (named : WeightedSampler (NamedOutcome R) R) : Prop where
  known : ∀ o ∈ sampler.items, o.Known r
  eq : sampler.mapItems r.named = named
  made : sampler.Made

end ParticleAutomaton
