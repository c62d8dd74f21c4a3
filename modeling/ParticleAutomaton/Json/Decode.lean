import ParticleAutomaton.Json.Number
import ParticleAutomaton.Lattice.Topology

namespace ParticleAutomaton.Json

def toString? : Json → Option String
  | .text s => s
  | _ => none

def toInt? : Json → Option Int
  | .number n => n.toInt?
  | _ => none

/-- A whole number from zero up to a bound. -/
def toNat? (bound : Nat) (v : Json) : Option Nat :=
  v.toInt?.bind fun n => if 0 ≤ n ∧ n ≤ bound then some n.toNat else none

/-- A number that fits an unsigned word of 64 bits. -/
def toWord? (v : Json) : Option Nat := v.toNat? Text.maxUInt64

def toCoordinate? (v : Json) : Option Int :=
  v.toInt?.filter fun n => -2147483648 ≤ n && n < 2147483648

def toFloat? : Json → Option Float
  | .number n => n.toFloat?
  | _ => none

def toList? {α : Type} (f : Json → Option α) : Json → Option (List α)
  | .array items => items.mapM f
  | _ => none

/-- A value that may be missing. -/
def toOption? {α : Type} (f : Json → Option α) : Json → Option (Option α)
  | .null => some none
  | v => (f v).map some

/-- The members of an object; every name has a value. -/
def members? : Json → Option (List (String × Json))
  | .object members => members.mapM fun (name, v) => name.map (·, v)
  | _ => none

/-- The fields of a record. -/
structure Fields where
  values : List (String × Json)
  /-- The record is written as an array, in the order of the fields. -/
  positional : Bool

namespace Fields

def get? (fs : Fields) (name : String) : Option Json := fs.values.lookup name

/-- A field that must be there. -/
def required {α : Type} (fs : Fields) (name : String) (f : Json → Option α) : Option α :=
  (fs.get? name).bind f

/-- A field with a default. -/
def withDefault {α : Type} (fs : Fields) (name : String) (default : α) (f : Json → Option α) :
    Option α :=
  (fs.get? name).elim (some default) f

/-- A field that may be left out of an object, though not out of an array. -/
def optional {α : Type} (fs : Fields) (name : String) (f : Json → Option α) :
    Option (Option α) :=
  match fs.get? name with
  | some v => v.toOption? f
  | none => if fs.positional then none else some none

end Fields

/-- A record with fields of these names. An object may hold other members, but none of the fields
twice; an array holds the fields in order and no more. -/
def fields? (names : List String) : Json → Option Fields
  | .array items =>
    if items.length ≤ names.length then some ⟨names.zip items, true⟩ else none
  | v => v.members?.bind fun members =>
    let known := members.filter fun (name, _) => names.contains name
    let found := known.map Prod.fst
    if found.eraseDups.length = found.length then some ⟨known, false⟩ else none

def toPoint? (v : Json) : Option Point := do
  let fs ← v.fields? ["x", "y"]
  some ⟨← fs.required "x" toCoordinate?, ← fs.required "y" toCoordinate?⟩

/-- The name of a shape, alone or as the only member of an object, without a value. -/
def toTopology? : Json → Option Topology
  | .text (some s) => Topology.ofLabel? s
  | .object [(some s, .null)] => Topology.ofLabel? s
  | _ => none

def ofPoint (p : Point) : Json := .record [("x", .ofInt p.x), ("y", .ofInt p.y)]

end ParticleAutomaton.Json
