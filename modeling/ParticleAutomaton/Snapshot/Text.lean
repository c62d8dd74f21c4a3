import ParticleAutomaton.Json.Decode
import ParticleAutomaton.Json.Printer
import ParticleAutomaton.Json.Reader
import ParticleAutomaton.Snapshot.Basic

namespace ParticleAutomaton

open Json

def NameMap.toJson (m : NameMap Point) : Json :=
  .record (m.entries.map fun (name, p) => (name, .ofPoint p))

/-- Of several members with one name the last one counts. -/
def NameMap.ofJson? (v : Json) : Option (NameMap Point) := do
  let members ← v.members?
  let entries ← members.mapM fun (name, v) => v.toPoint?.map (name, ·)
  some (.ofList entries)

def CellSnapshot.toJson (c : CellSnapshot) : Json :=
  .record [("particle", .str c.particle), ("write_count", .ofNat c.writes),
    ("outgoing", c.outgoing.toJson), ("incoming", c.incoming.toJson)]

def CellSnapshot.ofJson? (v : Json) : Option CellSnapshot := do
  let fs ← v.fields? ["particle", "write_count", "outgoing", "incoming"]
  some {
    particle := ← fs.required "particle" toString?
    writes := ← fs.required "write_count" toWord?
    outgoing := ← fs.withDefault "outgoing" .empty NameMap.ofJson?
    incoming := ← fs.withDefault "incoming" .empty NameMap.ofJson? }

namespace Snapshot

def toJson (s : Snapshot) : Json :=
  .record [("width", .ofNat s.width), ("height", .ofNat s.height),
    ("topology", .str s.topology.label), ("cells", Json.list CellSnapshot.toJson s.cells)]

def ofJson? (v : Json) : Option Snapshot := do
  let fs ← v.fields? ["width", "height", "topology", "cells"]
  some {
    width := ← fs.required "width" toWord?
    height := ← fs.required "height" toWord?
    topology := ← fs.required "topology" toTopology?
    cells := ← fs.required "cells" (toList? CellSnapshot.ofJson?) }

def toText (s : Snapshot) : String := String.ofList (s.toJson.pretty 0)

def ofText (text : String) : Except SnapshotError Snapshot :=
  match (Json.parse? text.toList).bind ofJson? with
  | some s => .ok s
  | none => .error .badText

end Snapshot

end ParticleAutomaton
