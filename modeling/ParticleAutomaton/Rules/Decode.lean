import ParticleAutomaton.Json.Decode
import ParticleAutomaton.Json.Reader
import ParticleAutomaton.Rules.Rulebook

namespace ParticleAutomaton

open Json

def BondExpr.ofJson? (v : Json) : Option BondExpr := do
  let fs ← v.fields? ["from", "to", "name"]
  some ⟨← fs.required "from" toString?, ← fs.required "to" toString?,
    ← fs.required "name" toString?⟩

def Color.ofJson? (v : Json) : Option Color := do
  match ← v.toList? (toNat? 255) with
  | [r, g, b] => some ⟨r.toUInt8, g.toUInt8, b.toUInt8⟩
  | _ => none

/-- A field that may be missing or null. -/
def Json.Fields.maybe {α : Type} (fs : Fields) (name : String) (f : Json → Option α) :
    Option (Option α) :=
  fs.withDefault name none (toOption? f)

def AppearanceRecord.ofJson? (v : Json) : Option AppearanceRecord := do
  let fs ← v.fields? ["pattern", "color", "verb", "icon"]
  some {
    pattern := ← fs.optional "pattern" toString?
    color := ← fs.withDefault "color" .black Color.ofJson?
    verb := ← fs.maybe "verb" toString?
    icon := ← fs.maybe "icon" (toList? toString?) }

def TransformRecord.ofJson? (v : Json) : Option (TransformRecord Float) := do
  let fs ← v.fields? ["prefix", "dir", "source", "target", "new_source", "new_target", "prob",
    "verb", "required", "optional", "excluded", "created"]
  let bonds (name : String) := fs.withDefault name [] (toList? BondExpr.ofJson?)
  some {
    start := ← fs.maybe "prefix" toString?
    dir := ← fs.maybe "dir" toString?
    source := ← fs.optional "source" toString?
    target := ← fs.optional "target" toString?
    newSource := ← fs.maybe "new_source" toString?
    newTarget := ← fs.maybe "new_target" toString?
    prob := ← fs.maybe "prob" toFloat?
    verb := ← fs.maybe "verb" toString?
    required := ← bonds "required"
    optional := ← bonds "optional"
    excluded := ← bonds "excluded"
    created := ← bonds "created" }

def EnergyRecord.ofJson? (v : Json) : Option (EnergyRecord Float) := do
  let fs ← v.fields? ["source", "target", "bond", "energy", "min_len", "max_len",
    "len_tolerance", "min_angle", "max_angle", "angle_tolerance"]
  some {
    source := ← fs.optional "source" toString?
    target := ← fs.optional "target" toString?
    bond := ← fs.optional "bond" toString?
    energy := ← fs.optional "energy" toFloat?
    geometry := {
      minLen := ← fs.maybe "min_len" toFloat?
      maxLen := ← fs.maybe "max_len" toFloat?
      lenTolerance := ← fs.withDefault "len_tolerance" 0 toFloat?
      minAngle := ← fs.maybe "min_angle" toFloat?
      maxAngle := ← fs.maybe "max_angle" toFloat?
      angleTolerance := ← fs.withDefault "angle_tolerance" 0 toFloat? } }

def RuleRecords.ofJson? (v : Json) : Option (RuleRecords Float) := do
  let fs ← v.fields? ["particles", "rules", "energies"]
  some {
    particles := ← fs.withDefault "particles" [] (toList? AppearanceRecord.ofJson?)
    rules := ← fs.withDefault "rules" [] (toList? TransformRecord.ofJson?)
    energies := ← fs.withDefault "energies" [] (toList? EnergyRecord.ofJson?) }

/-- The records that a text holds. -/
def RuleRecords.ofText? (text : String) : Except RuleError (RuleRecords Float) :=
  match (Json.parse? text.toList).bind RuleRecords.ofJson? with
  | some records => .ok records
  | none => .error .undecodable

def Rulebook.ofText? (t : Topology) (text : String) : Except RuleError (Rulebook Float) := do
  Rulebook.ofRecords? t (← RuleRecords.ofText? text)

end ParticleAutomaton
