import ParticleAutomaton.Grid.Bonds
import ParticleAutomaton.Rules.Transform

namespace ParticleAutomaton

/-- Places under the labels of bond expressions, and the bonds that were found, by origin and name. -/
structure Labels where
  places : List (String × Point)
  found : List (Point × String)

/-- What a grid says about a bond expression. -/
inductive Sighting
  | bond (origin destination : Point)
  | missing
  /-- Neither label has a place yet. -/
  | unknown
  deriving DecidableEq, Repr

namespace Labels

/-- The labels `s` and `t` of an update, and the places that its particles swap to. -/
def ofEnds (source target : Point) : Labels :=
  ⟨[("s", source), ("t", target), ("sT", target), ("tS", source)], []⟩

def empty : Labels := ⟨[], []⟩

def get? (l : Labels) (label : String) : Option Point := l.places.lookup label

/-- Gives a label a place, unless it has one. -/
def bind (l : Labels) (label : String) (p : Point) : Labels :=
  if (l.get? label).isSome then l else { l with places := l.places ++ [(label, p)] }

/-- Looks for the bond of an expression, from a label that has a place. A bond from a place off the
grid is known at its destination only. -/
def look (l : Labels) (g : Grid) (e : BondExpr) : Sighting :=
  match l.get? e.origin, l.get? e.destination with
  | some a, some b =>
    if g.outgoing? a e.name = some (b - a) ∨
        (¬ g.contains a ∧ g.incoming? b e.name = some (a - b)) then
      .bond a b
    else .missing
  | some a, none =>
    match g.outgoing? a e.name with
    | some offset => .bond a (a + offset)
    | none => .missing
  | none, some b =>
    match g.incoming? b e.name with
    | some offset => .bond (b + offset) b
    | none => .missing
  | none, none => .unknown

/-- Notes a bond and gives its labels their places. -/
def note (l : Labels) (e : BondExpr) (a b : Point) : Labels :=
  let l := (l.bind e.origin a).bind e.destination b
  { l with found := (a, e.name) :: l.found }

/-- One pass over expressions. The ones that are not known yet are told; a missing bond ends the
pass if all are required. -/
def pass (g : Grid) (required : Bool) : Labels → List BondExpr → Option (List BondExpr) × Labels
  | l, [] => (some [], l)
  | l, e :: es =>
    match l.look g e with
    | .bond a b => pass g required (l.note e a b) es
    | .missing => if required then (none, l) else pass g required l es
    | .unknown =>
      let (rest, l) := pass g required l es
      (rest.map (e :: ·), l)

/-- Passes over expressions as long as labels get places. -/
def resolveIn (g : Grid) (required : Bool) : Nat → Labels → List BondExpr → Bool × Labels
  | 0, l, _ => (!required, l)
  | fuel + 1, l, es =>
    match pass g required l es with
    | (none, l) => (false, l)
    | (some rest, l) =>
      if rest.isEmpty then (true, l)
      else if rest.length = es.length then (!required, l)
      else resolveIn g required fuel l rest

/-- Looks for all bonds of expressions; false if one is required and not found. -/
def resolve (l : Labels) (g : Grid) (required : Bool) (es : List BondExpr) : Bool × Labels :=
  resolveIn g required (es.length + 1) l es

end Labels

end ParticleAutomaton
