import ParticleAutomaton.Lattice.Point

namespace ParticleAutomaton

/-- The shape of a neighborhood. -/
inductive Topology
  | square4
  /-- Hexagons in axial coordinates. -/
  | hex6
  | square8
  deriving DecidableEq, Repr, Inhabited

/-- An index into the clockwise list of a neighborhood. -/
abbrev Direction := Nat

namespace Topology

/-- Names and offsets of the neighbors, clockwise from north. -/
def neighbors : Topology → List (String × Point)
  | .square4 => [("n", ⟨0, -1⟩), ("e", ⟨1, 0⟩), ("s", ⟨0, 1⟩), ("w", ⟨-1, 0⟩)]
  | .hex6 =>
    [("n", ⟨0, -1⟩), ("ne", ⟨1, -1⟩), ("se", ⟨1, 0⟩), ("s", ⟨0, 1⟩), ("sw", ⟨-1, 1⟩),
      ("nw", ⟨-1, 0⟩)]
  | .square8 =>
    [("n", ⟨0, -1⟩), ("ne", ⟨1, -1⟩), ("e", ⟨1, 0⟩), ("se", ⟨1, 1⟩), ("s", ⟨0, 1⟩),
      ("sw", ⟨-1, 1⟩), ("w", ⟨-1, 0⟩), ("nw", ⟨-1, -1⟩)]

def count (t : Topology) : Nat := t.neighbors.length

def names (t : Topology) : List String := t.neighbors.map Prod.fst

def offsets (t : Topology) : List Point := t.neighbors.map Prod.snd

theorem count_pos (t : Topology) : 0 < t.count := by
  cases t <;> decide

/-- An index past the last neighbor wraps around. -/
def neighbor (t : Topology) (d : Direction) : String × Point :=
  t.neighbors.get ⟨d % t.count, Nat.mod_lt _ t.count_pos⟩

def name (t : Topology) (d : Direction) : String := (t.neighbor d).1

def offset (t : Topology) (d : Direction) : Point := (t.neighbor d).2

def find? (t : Topology) (name : String) : Option Direction :=
  t.names.findIdx? (· == name)

/-- Half a turn. -/
def back (t : Topology) (d : Direction) : Direction := (d + t.count / 2) % t.count

/-- Counter-clockwise by a number of neighbors. -/
def left (t : Topology) (d : Direction) (steps : Nat) : Direction :=
  (d + t.count - steps % t.count) % t.count

/-- Clockwise by a number of neighbors. -/
def right (t : Topology) (d : Direction) (steps : Nat) : Direction := (d + steps) % t.count

/-- The word that stands for the shape in configurations, saved boards and messages. -/
def label : Topology → String
  | .square4 => "Square4"
  | .hex6 => "Hex6"
  | .square8 => "Square8"

def all : List Topology := [.square4, .hex6, .square8]

/-- The place in the list of shapes. -/
def index : Topology → Nat
  | .square4 => 0
  | .hex6 => 1
  | .square8 => 2

def ofLabel? (label : String) : Option Topology := all.find? (·.label == label)

def ofIndex? (i : Nat) : Option Topology := all[i]?

theorem ofLabel?_label (t : Topology) : ofLabel? t.label = some t := by
  cases t <;> decide

theorem ofIndex?_index (t : Topology) : ofIndex? t.index = some t := by
  cases t <;> rfl

end Topology

end ParticleAutomaton
