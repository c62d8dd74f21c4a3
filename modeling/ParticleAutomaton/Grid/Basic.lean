import ParticleAutomaton.Lattice.Point
import ParticleAutomaton.Particle.Arena
import ParticleAutomaton.Text.NameMap

namespace ParticleAutomaton

/-- The bonds of a cell by name, with the offsets of the cells at their other ends. -/
structure CellBonds where
  outgoing : NameMap Point
  incoming : NameMap Point
  deriving DecidableEq, Inhabited

namespace CellBonds

def empty : CellBonds := ⟨.empty, .empty⟩

def isEmpty (b : CellBonds) : Bool := b.outgoing.isEmpty && b.incoming.isEmpty

end CellBonds

structure Cell where
  particle : ParticleId
  /-- The number of writes so far. -/
  writes : Nat
  bonds : CellBonds
  deriving DecidableEq

def Cell.new (particle : ParticleId) : Cell := ⟨particle, 0, .empty⟩

/-- A bond from one place to another. -/
structure Bond where
  origin : Point
  destination : Point
  name : String
  deriving DecidableEq, Repr

/-- A rectangle of cells, row by row. A bond stands at its origin with the offset of its destination
and at its destination with the offset of its origin. -/
structure Grid where
  width : Nat
  height : Nat
  cells : Array Cell
  size_cells : cells.size = width * height

namespace Grid

def new (width height : Nat) (particle : ParticleId) : Grid :=
  ⟨width, height, Array.replicate (width * height) (Cell.new particle), Array.size_replicate⟩

/-- The place of a point among the cells. -/
def index? (g : Grid) (p : Point) : Option Nat :=
  if 0 ≤ p.x ∧ 0 ≤ p.y ∧ p.x < g.width ∧ p.y < g.height then
    some (p.x.toNat + p.y.toNat * g.width)
  else none

def contains (g : Grid) (p : Point) : Bool := (g.index? p).isSome

def get? (g : Grid) (p : Point) : Option Cell := (g.index? p).bind fun i => g.cells[i]?

/-- Changes the cell at a point; there is none outside. -/
def modify (g : Grid) (p : Point) (f : Cell → Cell) : Grid :=
  match g.index? p with
  | none => g
  | some i => { g with
      cells := g.cells.modify i f
      size_cells := Array.size_modify.trans g.size_cells }

/-- The points of a rectangle, row by row. -/
def pointsOf (width height : Nat) : List Point :=
  (List.range height).flatMap fun y : Nat => (List.range width).map fun x : Nat => ⟨x, y⟩

def points (g : Grid) : List Point := pointsOf g.width g.height

def toList (g : Grid) : List (Point × Cell) := g.points.zip g.cells.toList

def outgoing? (g : Grid) (p : Point) (name : String) : Option Point :=
  (g.get? p).bind fun c => c.bonds.outgoing.get? name

def incoming? (g : Grid) (p : Point) (name : String) : Option Point :=
  (g.get? p).bind fun c => c.bonds.incoming.get? name

def modifyBonds (g : Grid) (p : Point) (f : CellBonds → CellBonds) : Grid :=
  g.modify p fun c => { c with bonds := f c.bonds }

/-- The bonds that stand at the cells of their origins. -/
def bonds (g : Grid) : List Bond :=
  g.toList.flatMap fun (p, c) =>
    c.bonds.outgoing.entries.map fun (name, offset) => ⟨p, p + offset, name⟩

end Grid

end ParticleAutomaton
