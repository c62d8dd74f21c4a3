import ParticleAutomaton.Lattice.Topology

namespace ParticleAutomaton

/-- A cell of another board. -/
structure RemoteCell where
  address : String
  point : Point
  deriving DecidableEq, Repr

/-- Asks a board to change a cell of its own as the neighbor of a source on another board. -/
structure EvolveRequest (R : Type) where
  target : Point
  sourceState : String
  dir : Direction
  /-- The energy that the other board gains if the source changes. -/
  barrier : R
  source : Point
  returnAddress : String
  /-- The number of writes to the source when the request was made. -/
  writes : Nat
  deriving DecidableEq

/-- Tells what became of the source. -/
structure EvolveReply (R : Type) where
  source : Point
  newState : String
  writes : Nat
  energy : R
  deriving DecidableEq

inductive Message (R : Type)
  | evolve (request : EvolveRequest R)
  | reply (reply : EvolveReply R)
  deriving DecidableEq

end ParticleAutomaton
