import ParticleAutomaton.Lattice.Topology
import ParticleAutomaton.Macro.Template

namespace ParticleAutomaton

/-- What the directives of a template refer to. -/
structure Context where
  topology : Topology
  dir : Direction
  source : Option String
  target : Option String
  /-- The captured texts of the source, then those of the target. -/
  groups : List String

/-- A context in which only the direction is known. -/
def Context.ofDirection (topology : Topology) (dir : Direction) : Context :=
  ⟨topology, dir, none, none, []⟩

/-- The text of a captured group; groups are numbered from one. -/
def Context.group? (ctx : Context) : Nat → Option String
  | 0 => none
  | n + 1 => ctx.groups[n]?

def Context.groupInt? (ctx : Context) (n : Nat) : Option Int :=
  (ctx.group? n).bind fun s => Text.int64? s.toList

def Turn.apply (topology : Topology) (dir : Direction) : Turn → Direction
  | .ahead => dir
  | .back => topology.back dir
  | .left steps => topology.left dir steps
  | .right steps => topology.right dir steps

namespace Piece

/-- The text that a piece contributes; none for a directive that refers to nothing. -/
def value? (ctx : Context) : Piece → Option (List Char)
  | .literal c => some [c]
  | .direction turn => some (ctx.topology.name (turn.apply ctx.topology ctx.dir)).toList
  | .source => ctx.source.map String.toList
  | .target => ctx.target.map String.toList
  | .group n => (ctx.group? n).map String.toList
  | .plus d n => ((ctx.groupInt? n).map fun v : Int => v + d).filter Text.fitsInt64 |>.map decimal
  | .minus d n => ((ctx.groupInt? n).map fun v : Int => v - d).filter (0 ≤ ·) |>.map decimal
  | .modulo m d n =>
    ((ctx.groupInt? n).map fun v : Int => v + d).filter Text.fitsInt64 |>.map fun v => decimal (v % m)
where
  decimal (v : Int) : List Char := (toString v).toList

end Piece

/-- The characters with a meaning of their own in a pattern. -/
def isPatternMark (c : Char) : Bool :=
  ['\\', '.', '+', '*', '?', '(', ')', '|', '[', ']', '\x7b', '\x7d', '^', '$', '#', '&', '-',
    '~'].contains c

/-- A pattern that the text alone matches. -/
def quoteChars (cs : List Char) : List Char :=
  cs.flatMap fun c => if isPatternMark c then ['\\', c] else [c]

namespace Template

def expandChars (t : Template) (ctx : Context) : List Char :=
  t.pieces.flatMap fun p => (p.value? ctx).getD []

/-- The text with the directives replaced by their values. -/
def expand (t : Template) (ctx : Context) : String := String.ofList (t.expandChars ctx)

def expandPatternChars (t : Template) (ctx : Context) : List Char :=
  t.pieces.flatMap fun
    | .literal c => [c]
    | p => quoteChars ((p.value? ctx).getD [])

/-- A pattern in which the values of the directives stand for themselves. -/
def expandPattern (t : Template) (ctx : Context) : String :=
  String.ofList (t.expandPatternChars ctx)

end Template

end ParticleAutomaton
