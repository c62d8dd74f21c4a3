import ParticleAutomaton.Unicode.Property

namespace ParticleAutomaton

/-- The characters on both sides of a place in a text. -/
structure Place where
  before : Option Char
  after : Option Char
  deriving DecidableEq, Repr

inductive Boundary
  /-- A word starts or ends here. -/
  | edge
  | noEdge
  | start
  | stop
  | startHalf
  | stopHalf
  deriving DecidableEq, Repr

/-- A condition on a place, which reads no character. -/
inductive Anchor
  | textStart
  | textEnd
  | lineStart
  | lineEnd
  /-- Lines end with a carriage return, a line feed or both. -/
  | lineStartCrlf
  | lineEndCrlf
  | word (boundary : Boundary) (ascii : Bool)
  deriving DecidableEq, Repr

namespace Anchor

def isWord (ascii : Bool) : Option Char → Bool
  | none => false
  | some c => if ascii then c.isAlphanum || c == '_' else Unicode.isWord c

def holds (p : Place) : Anchor → Bool
  | .textStart => p.before.isNone
  | .textEnd => p.after.isNone
  | .lineStart => p.before.isNone || p.before == some '\n'
  | .lineEnd => p.after.isNone || p.after == some '\n'
  | .lineStartCrlf =>
    p.before.isNone || p.before == some '\n' || (p.before == some '\r' && p.after != some '\n')
  | .lineEndCrlf =>
    p.after.isNone || p.after == some '\r' || (p.after == some '\n' && p.before != some '\r')
  | .word boundary ascii =>
    let left := isWord ascii p.before
    let right := isWord ascii p.after
    match boundary with
    | .edge => left != right
    | .noEdge => left == right
    | .start => !left && right
    | .stop => left && !right
    | .startHalf => !left
    | .stopHalf => !right

end Anchor

/-- An expression. Sequences and alternatives are chains: the first part of one is none itself. -/
inductive Regex
  | empty
  /-- Characters in a row, at least one. -/
  | text (cs : List Char)
  /-- A character of a set, given by its ASCII characters alone or by all of them. -/
  | one (set : CharSet) (ascii : Bool)
  | anchor (a : Anchor)
  /-- A part whose text is captured. -/
  | group (index : Nat) (body : Regex)
  | seq (first rest : Regex)
  /-- The first part is tried before the others. -/
  | alt (first rest : Regex)
  /-- At least `min` times, and at most `max` times or without a bound. -/
  | times (body : Regex) (min : Nat) (max : Option Nat) (greedy : Bool)
  deriving DecidableEq, Repr

namespace Regex

/-- The expression reads no character on any text. -/
def readsNothing : Regex → Bool
  | .empty | .anchor _ => true
  | .text cs => cs.isEmpty
  | .one .. => false
  | .group _ e => e.readsNothing
  | .seq a b | .alt a b => a.readsNothing && b.readsNothing
  | .times e .. => e.readsNothing

/-- The least number of characters that the expression reads; an empty set leaves none to count. -/
def minLength? : Regex → Option Nat
  | .empty | .anchor _ => some 0
  | .text cs => some cs.length
  | .one set _ => if set.isEmpty then none else some 1
  | .group _ e => e.minLength?
  | .seq a b => do some ((← a.minLength?) + (← b.minLength?))
  | .alt a b => do some (min (← a.minLength?) (← b.minLength?))
  | .times e min _ _ => e.minLength?.map (· * min)

/-- Every match reads a character. -/
def alwaysReads (e : Regex) : Bool := e.minLength?.any (0 < ·)

/-- A match can start at the start of a text only. -/
def startsAnchored : Regex → Bool
  | .anchor a => a == .textStart
  | .empty | .text _ | .one .. => false
  | .group _ e => e.startsAnchored
  | .seq a b => a.startsAnchored || (a.readsNothing && b.startsAnchored)
  | .alt a b => a.startsAnchored && b.startsAnchored
  | .times e min _ _ => 0 < min && e.startsAnchored

/-- A match can end at the end of a text only. -/
def endsAnchored : Regex → Bool
  | .anchor a => a == .textEnd
  | .empty | .text _ | .one .. => false
  | .group _ e => e.endsAnchored
  | .seq a b => b.endsAnchored || (b.readsNothing && a.endsAnchored)
  | .alt a b => a.endsAnchored && b.endsAnchored
  | .times e min _ _ => 0 < min && e.endsAnchored

/-- The highest number of a group. -/
def groupCount : Regex → Nat
  | .empty | .text _ | .one .. | .anchor _ => 0
  | .group i e => max i e.groupCount
  | .seq a b | .alt a b => max a.groupCount b.groupCount
  | .times e _ _ _ => e.groupCount

/-- The number of parts at all levels. -/
def size : Regex → Nat
  | .empty | .text _ | .one .. | .anchor _ => 1
  | .group _ e | .times e _ _ _ => e.size + 1
  | .seq a b | .alt a b => a.size + b.size + 1

end Regex

end ParticleAutomaton
