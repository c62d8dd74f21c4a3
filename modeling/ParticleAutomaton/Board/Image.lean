import ParticleAutomaton.Board.Basic

namespace ParticleAutomaton

/-- Colors in rows. -/
structure Image where
  width : Nat
  height : Nat
  pixel : Nat → Nat → Color

/-- The first of several names whose color is nearest to a color. -/
def nearest? (c : Color) : List (String × Color) → Option String
  | [] => none
  | entry :: entries =>
    some (entries.foldl (fun best e =>
      if c.distance e.2 < c.distance best.2 then e else best) entry).1

namespace Board

variable {R γ : Type} [Scalar R]

/-- The names with a color: those that a rule names, then the other particles. -/
def palette (b : Board R γ) : List (String × Color) :=
  b.registry.particles.toList.foldl (fun known (_, p) =>
    if known.any (·.1 == p.name) then known else known ++ [(p.name, p.appearance.color)])
    b.registry.rules.literals

/-- Gives each cell under an image the known particle with the nearest color; tells how many. -/
def paint (b : Board R γ) (image : Image) : Except Fault (Nat × Board R γ) :=
  let palette := b.palette
  let points := Grid.pointsOf (min b.width image.width) (min b.height image.height)
  points.foldlM (fun (n, b) p =>
    match nearest? (image.pixel p.x.toNat p.y.toNat) palette with
    | some name => (b.set p name).map fun (_, b) => (n + 1, b)
    | none => .ok (n, b)) (0, b)

end Board

end ParticleAutomaton
