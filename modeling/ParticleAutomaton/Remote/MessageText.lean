import ParticleAutomaton.Json.Decode
import ParticleAutomaton.Json.Printer
import ParticleAutomaton.Json.Reader
import ParticleAutomaton.Remote.Message

namespace ParticleAutomaton

namespace Json

mutual

/-- All strings and names have a value, and all numbers are in range. -/
def isSound : Json → Bool
  | .number n => n.toFloat?.isSome
  | .text s => s.isSome
  | .array items => areSound items
  | .object members => membersSound members
  | _ => true

def areSound : List Json → Bool
  | [] => true
  | v :: vs => v.isSound && areSound vs

def membersSound : List (Option String × Json) → Bool
  | [] => true
  | (name, v) :: ms => name.isSome && v.isSound && membersSound ms

end

end Json

namespace Message

open Json

/-- The bound of the depth of a message. -/
def maxDepth : Nat := 127

def evolveFields : List String :=
  ["target", "source_state", "dir", "energy_barrier", "source", "return_addr", "write_count"]

def replyFields : List String := ["source", "new_state", "write_count", "energy"]

def toJson : Message Float → Json
  | .evolve m => .record [
      ("type", .str "evolve"), ("target", .ofPoint m.target),
      ("source_state", .str m.sourceState), ("dir", .ofNat m.dir),
      ("energy_barrier", .ofFloat m.barrier), ("source", .ofPoint m.source),
      ("return_addr", .str m.returnAddress), ("write_count", .ofNat m.writes)]
  | .reply m => .record [
      ("type", .str "return"), ("source", .ofPoint m.source), ("new_state", .str m.newState),
      ("write_count", .ofNat m.writes), ("energy", .ofFloat m.energy)]

def toText (m : Message Float) : String := String.ofList m.toJson.render

def evolveOfJson? (v : Json) : Option (Message Float) := do
  let fs ← v.fields? evolveFields
  some (.evolve {
    target := ← fs.required "target" toPoint?
    sourceState := ← fs.required "source_state" toString?
    dir := ← fs.required "dir" toWord?
    barrier := ← fs.required "energy_barrier" toFloat?
    source := ← fs.required "source" toPoint?
    returnAddress := ← fs.required "return_addr" toString?
    writes := ← fs.required "write_count" toWord? })

def replyOfJson? (v : Json) : Option (Message Float) := do
  let fs ← v.fields? replyFields
  some (.reply {
    source := ← fs.required "source" toPoint?
    newState := ← fs.required "new_state" toString?
    writes := ← fs.required "write_count" toWord?
    energy := ← fs.required "energy" toFloat? })

/-- The kind of a message, and the message without it. The kind is a member of an object or the
first item of an array. -/
def kind? : Json → Option (String × Json)
  | .array (.text (some kind) :: items) => some (kind, .array items)
  | .object members =>
    match members.filter fun (name, _) => name = some "type" with
    | [(_, .text (some kind))] =>
      some (kind, .object (members.filter fun (name, _) => name ≠ some "type"))
    | _ => none
  | _ => none

def ofJson? (v : Json) : Option (Message Float) := do
  if v.isSound ∧ v.depth ≤ maxDepth then
    match ← kind? v with
    | ("evolve", v) => evolveOfJson? v
    | ("return", v) => replyOfJson? v
    | _ => none
  else none

def ofText? (text : String) : Option (Message Float) :=
  (Json.parse? text.toList).bind ofJson?

end Message

/-- How texts are read as messages. -/
class MessageReader (R : Type) where
  read? : String → Option (Message R)

instance : MessageReader Float := ⟨Message.ofText?⟩

end ParticleAutomaton
