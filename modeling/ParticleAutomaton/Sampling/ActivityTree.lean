import ParticleAutomaton.Fault
import ParticleAutomaton.Lattice.Point
import ParticleAutomaton.Scalar

namespace ParticleAutomaton

/-- Rates over a square whose side is a power of two, with their sum over each quadrant. -/
inductive QuadTree (R : Type) : Nat → Type
  | leaf (rate : R) : QuadTree R 0
  | node {k : Nat} (sum : R) (nw ne sw se : QuadTree R k) : QuadTree R (k + 1)

namespace QuadTree

variable {R γ : Type} [Scalar R] {k : Nat}

def blank : (k : Nat) → QuadTree R k
  | 0 => .leaf 0
  | k + 1 => let quadrant := blank k; .node 0 quadrant quadrant quadrant quadrant

def total : QuadTree R k → R
  | .leaf rate => rate
  | .node sum .. => sum

/-- The rate at a place. -/
def rate : {k : Nat} → QuadTree R k → Nat → Nat → R
  | 0, .leaf r, _, _ => r
  | k + 1, .node _ nw ne sw se, x, y =>
    let half := Nat.pow 2 k
    if x < half then
      if y < half then nw.rate x y else sw.rate x (y - half)
    else if y < half then ne.rate (x - half) y else se.rate (x - half) (y - half)

/-- Sets the rate at a place and raises all sums above it. -/
def put (r : R) (raise : R → R) : {k : Nat} → QuadTree R k → Nat → Nat → QuadTree R k
  | 0, .leaf _, _, _ => .leaf r
  | k + 1, .node sum nw ne sw se, x, y =>
    let half := Nat.pow 2 k
    let sum := raise sum
    if x < half then
      if y < half then .node sum (put r raise nw x y) ne sw se
      else .node sum nw ne (put r raise sw x (y - half)) se
    else if y < half then .node sum nw (put r raise ne (x - half) y) sw se
    else .node sum nw ne sw (put r raise se (x - half) (y - half))

/-- The first weight that a draw stays below after the ones before it are taken away, or the last
positive one. -/
def choose (draw : R) (place : Nat) (last : Option Nat) : List R → Option Nat
  | [] => last
  | w :: ws =>
    if w ≤ 0 then choose draw (place + 1) last ws
    else if draw < w then some place
    else choose (draw - w) (place + 1) (some place) ws

/-- Draws a place, one quadrant after the other. -/
def sample [Generator R γ] : {k : Nat} → QuadTree R k → γ → Option (Nat × Nat) × γ
  | 0, .leaf _, g => (some (0, 0), g)
  | k + 1, .node _ nw ne sw se, g =>
    let weights := [nw.total, ne.total, sw.total, se.total]
    let total := Scalar.sum weights
    if total ≤ 0 then (none, g)
    else
      let half := Nat.pow 2 k
      let (u, g) := Generator.next (R := R) g
      let shift (dx dy : Nat) (r : Option (Nat × Nat) × γ) : Option (Nat × Nat) × γ :=
        (r.1.map fun (x, y) => (x + dx, y + dy), r.2)
      match choose (u * total) 0 none weights with
      | none => (none, g)
      | some 0 => shift 0 0 (nw.sample g)
      | some 1 => shift half 0 (ne.sample g)
      | some 2 => shift 0 half (sw.sample g)
      | some _ => shift half half (se.sample g)

end QuadTree

/-- The activity of the cells of a square. -/
structure ActivityTree (R : Type) where
  depth : Nat
  root : QuadTree R depth

namespace ActivityTree

variable {R γ : Type} [Scalar R]

/-- The side of the square. -/
def size (t : ActivityTree R) : Nat := Nat.pow 2 t.depth

def blank (depth : Nat) : ActivityTree R := ⟨depth, QuadTree.blank depth⟩

/-- A square without activity; its side has to be a power of two. -/
def ofSize (size : Nat) : Except Fault (ActivityTree R) :=
  if Nat.pow 2 size.log2 = size then .ok (blank size.log2) else .error (.treeSize size)

/-- The least power of two that is not below a number. -/
def leastPower (n : Nat) : Nat := if n ≤ 1 then 1 else Nat.pow 2 ((n - 1).log2 + 1)

/-- The least square that covers a rectangle. -/
def covering (width height : Nat) : Except Fault (ActivityTree R) :=
  ofSize (leastPower (max width height))

/-- The column and the row of a point of the square. -/
def place? (t : ActivityTree R) (p : Point) : Option (Nat × Nat) :=
  if 0 ≤ p.x ∧ 0 ≤ p.y ∧ p.x < t.size ∧ p.y < t.size then some (p.x.toNat, p.y.toNat) else none

/-- The rate at a point, zero outside. -/
def rate (t : ActivityTree R) (p : Point) : R :=
  (t.place? p).elim 0 fun (x, y) => t.root.rate x y

/-- Sets the rate at a point, to zero if it is negative; false outside. All sums above it gain as
much, and stay if nothing is gained. -/
def update (t : ActivityTree R) (p : Point) (rate : R) : Bool × ActivityTree R :=
  match t.place? p with
  | none => (false, t)
  | some (x, y) =>
    let rate := Scalar.atLeast 0 rate
    let delta := rate - t.root.rate x y
    let raise := if delta ≤ 0 ∧ 0 ≤ delta then id else fun sum => Scalar.atLeast 0 (sum + delta)
    (true, ⟨t.depth, t.root.put rate raise x y⟩)

/-- The sum of all rates. -/
def topRate (t : ActivityTree R) : R := t.root.total

/-- Draws a point by its rate; none if there is no activity. -/
def sample [Generator R γ] (t : ActivityTree R) (g : γ) : Option Point × γ :=
  if t.topRate ≤ 0 then (none, g)
  else
    let (place, g) := t.root.sample g
    (place.map fun (x, y) => ⟨x, y⟩, g)

/-- All rates become zero. -/
def clear (t : ActivityTree R) : ActivityTree R := blank t.depth

end ActivityTree

end ParticleAutomaton
