import ParticleAutomaton.Lattice.Topology
import ParticleAutomaton.Text.NameMap

namespace ParticleAutomaton

/-- The contents of a cell. -/
structure CellSnapshot where
  particle : String
  writes : Nat
  outgoing : NameMap Point
  incoming : NameMap Point
  deriving DecidableEq

/-- The contents of a board, row by row. -/
structure Snapshot where
  width : Nat
  height : Nat
  topology : Topology
  cells : List CellSnapshot
  deriving DecidableEq

/-- Why a snapshot cannot be loaded or restored. -/
inductive SnapshotError
  /-- There is no file, or it ends inside its header. -/
  | file
  | badMagic
  | tooLong (size : Nat)
  | unsupportedVersion (version : Nat)
  | badPayload
  | badText
  | dimensions (width height foundWidth foundHeight : Nat)
  | topology (found board : Topology)
  | inconsistent (violation : String)
  deriving DecidableEq, Repr

def SnapshotError.message : SnapshotError → String
  | .file => "IO error"
  | .badMagic => "Invalid format: Invalid magic bytes - not a board file"
  | .tooLong size =>
    "Invalid format: payload of " ++ toString size ++ " bytes runs past the end of the file"
  | .unsupportedVersion version => "Unsupported version: " ++ toString version
  | .badPayload => "Bincode error"
  | .badText => "JSON error"
  | .dimensions width height foundWidth foundHeight =>
    "snapshot is " ++ toString foundWidth ++ "x" ++ toString foundHeight ++ ", board is " ++
      toString width ++ "x" ++ toString height
  | .topology found board =>
    "Invalid format: snapshot topology " ++ found.label ++ " does not match board topology " ++
      board.label
  | .inconsistent violation =>
    "Invalid format: snapshot bonds are inconsistent: " ++ violation

end ParticleAutomaton
