import ParticleAutomaton.Grid.Basic

namespace ParticleAutomaton

namespace CellBonds

/-- Takes a bond to an offset off the outgoing ones. -/
def dropOutgoing (b : CellBonds) (name : String) (offset : Point) : CellBonds :=
  if b.outgoing.get? name = some offset then { b with outgoing := b.outgoing.erase name } else b

/-- Takes a bond from an offset off the incoming ones. -/
def dropIncoming (b : CellBonds) (name : String) (offset : Point) : CellBonds :=
  if b.incoming.get? name = some offset then { b with incoming := b.incoming.erase name } else b

def addOutgoing (b : CellBonds) (name : String) (offset : Point) : CellBonds :=
  { b with outgoing := b.outgoing.insert name offset }

def addIncoming (b : CellBonds) (name : String) (offset : Point) : CellBonds :=
  { b with incoming := b.incoming.insert name offset }

end CellBonds

/-- A bond that stands at one of its two cells only. -/
structure BondGap where
  /-- The bond stands at its origin. -/
  outgoing : Bool
  name : String
  place : Point
  partner : Point
  deriving DecidableEq, Repr

def BondGap.message (v : BondGap) : String :=
  if v.outgoing then
    "outgoing '" ++ v.name ++ "' " ++ v.place.text ++ " -> " ++ v.partner.text ++
      " has no incoming mirror"
  else
    "incoming '" ++ v.name ++ "' " ++ v.place.text ++ " <- " ++ v.partner.text ++
      " has no outgoing mirror"

namespace Grid

/-- Takes a bond off both of its cells. -/
def removeBond (g : Grid) (b : Bond) : Grid :=
  (g.modifyBonds b.origin (·.dropOutgoing b.name (b.destination - b.origin))).modifyBonds
    b.destination (·.dropIncoming b.name (b.origin - b.destination))

/-- Writes a bond to those of its cells that are on the grid. -/
def writeBond (g : Grid) (b : Bond) : Grid :=
  (g.modifyBonds b.origin (·.addOutgoing b.name (b.destination - b.origin))).modifyBonds
    b.destination (·.addIncoming b.name (b.origin - b.destination))

/-- Takes the other half of an outgoing bond away. -/
def unlinkOutgoing (p : Point) (state : List Point × Grid) (entry : String × Point) :
    List Point × Grid :=
  let (touched, g) := state
  let partner := p + entry.2
  if g.incoming? partner entry.1 = some (-entry.2) then
    (touched ++ [partner],
      g.modifyBonds partner fun b => { b with incoming := b.incoming.erase entry.1 })
  else (touched, g)

/-- Takes the other half of an incoming bond away. -/
def unlinkIncoming (p : Point) (state : List Point × Grid) (entry : String × Point) :
    List Point × Grid :=
  let (touched, g) := state
  let partner := p + entry.2
  if g.outgoing? partner entry.1 = some (-entry.2) then
    (touched ++ [partner],
      g.modifyBonds partner fun b => { b with outgoing := b.outgoing.erase entry.1 })
  else (touched, g)

/-- Takes all bonds off a cell and off the cells at their other ends, which are told. -/
def removeBonds (g : Grid) (p : Point) : List Point × Grid :=
  match g.get? p with
  | none => ([], g)
  | some c =>
    let g := g.modifyBonds p fun _ => .empty
    let state := c.bonds.outgoing.entries.foldl (unlinkOutgoing p) ([], g)
    c.bonds.incoming.entries.foldl (unlinkIncoming p) state

/-- The first bond of a cell that does not stand at its other cell. -/
def gapAt? (g : Grid) (p : Point) (c : Cell) : Option BondGap :=
  let out := c.bonds.outgoing.entries.findSome? fun (name, offset) =>
    let partner := p + offset
    if g.contains partner ∧ g.incoming? partner name ≠ some (-offset) then
      some ⟨true, name, p, partner⟩
    else none
  let into := c.bonds.incoming.entries.findSome? fun (name, offset) =>
    let partner := p + offset
    if g.contains partner ∧ g.outgoing? partner name ≠ some (-offset) then
      some ⟨false, name, p, partner⟩
    else none
  out.or into

/-- The first bond between two cells of the grid that stands at one of them only. -/
def gap? (g : Grid) : Option BondGap := g.toList.findSome? fun (p, c) => g.gapAt? p c

end Grid

end ParticleAutomaton
