import ParticleAutomaton.Board.Basic

namespace ParticleAutomaton

/-- A world of sand, water, plants and fire, as it is shown when no rules are given. -/
def sandboxRecords : RuleRecords Float where
  particles := [
    { pattern := "_" },
    { pattern := "sand", color := ⟨210, 180, 90⟩, verb := "shifts" },
    { pattern := "water", color := ⟨40, 90, 220⟩ },
    { pattern := "wall", color := ⟨120, 120, 120⟩ },
    { pattern := "vine", color := ⟨60, 200, 60⟩ },
    { pattern := "stem", color := ⟨30, 120, 30⟩ },
    { pattern := "fire\\d?", color := ⟨230, 80, 20⟩, verb := "burns" }]
  rules := [
    { dir := "s", source := "sand", target := "_|water", newSource := "$T", newTarget := "$S",
      verb := "falls $F" },
    { dir := "s", source := "water", target := "_", newSource := "_", newTarget := "water" },
    { dir := "e", source := "water", target := "_", newSource := "_", newTarget := "water",
      prob := some 0.5 },
    { dir := "w", source := "water", target := "_", newSource := "_", newTarget := "water",
      prob := some 0.5 },
    { dir := "n", source := "vine", target := "_", newSource := "stem", newTarget := "vine",
      prob := some 0.05, created := [⟨"s", "t", "grow"⟩] },
    { source := "fire(\\d)", target := "vine|stem", newSource := "fire$1", newTarget := "fire9",
      prob := some 0.3 },
    { source := "fire(\\d)", target := "_|water|sand|wall|fire\\d?", newSource := "fire$-1.1",
      prob := some 0.1 },
    { source := "fire", target := ".*", newSource := "_", prob := some 0.25 }]
  energies := [
    { source := "stem", target := "vine", bond := "grow", energy := some 1.0,
      geometry := ⟨none, some 1.5, 0, none, none, 0⟩ }]

/-- Columns from one up to another, in one row. -/
def stripe (y fromX toX : Int) : List Point :=
  (List.range (toX - fromX).toNat).map fun (i : Nat) => ⟨fromX + i, y⟩

/-- The places of the sandbox in the order in which they are filled: a pool over a floor, sand over a
ledge, a vine and a spark. -/
def sandboxCells (width height : Nat) : List (Point × String) :=
  let w : Int := width
  let h : Int := height
  let column (x first count : Int) : List Point :=
    (List.range count.toNat).map fun (i : Nat) => ⟨x, first + i⟩
  let pool := (stripe (h - 1) 0 w).flatMap fun p =>
    (p, "wall") :: (column p.x (h - 6) 5).map (·, "water")
  let heap := (stripe (h / 2) (w / 4) (w / 2)).flatMap fun p =>
    (p, "wall") :: (column p.x 0 4).map (·, "sand")
  pool ++ heap ++ [(⟨3 * w / 4, h - 7⟩, "vine"), (⟨3 * w / 4 + 1, h - 7⟩, "fire9")]

/-- Fills the places of the sandbox, as far as they are on the grid. -/
def Board.seedSandbox {R γ : Type} [Scalar R] (b : Board R γ) : Except Fault (Board R γ) :=
  (sandboxCells b.width b.height).foldlM (fun b (p, name) => (b.set p name).map Prod.snd) b

end ParticleAutomaton
