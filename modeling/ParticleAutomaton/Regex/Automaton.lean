import ParticleAutomaton.Regex.Basic

namespace ParticleAutomaton.Regex

/-- A boundary of a captured text. -/
inductive Mark
  | opening (index : Nat)
  | closing (index : Nat)
  deriving DecidableEq, Repr

/-- A state, with the numbers of those that follow it. -/
inductive State
  | accept
  | char (c : Char) (next : Nat)
  | set (s : CharSet) (next : Nat)
  | anchor (a : Anchor) (next : Nat)
  | mark (m : Mark) (next : Nat)
  /-- The first state is preferred to the second one. -/
  | split (first second : Nat)
  deriving DecidableEq, Repr

/-- States by their numbers, under construction. -/
abbrev States := Array State

/-- A further state, with its number. -/
def States.add (states : States) (s : State) : Nat × States := (states.size, states.push s)

/-- A greedy choice prefers to go on to leaving. -/
def State.choice (greedy : Bool) (onwards leave : Nat) : State :=
  if greedy then .split onwards leave else .split leave onwards

/-- What builds the states of an expression: given the number of the state that follows, it gives
that of the first one. -/
abbrev Build := Nat → States → Nat × States

namespace Build

/-- Several times in a row. -/
def row (build : Build) : Nat → Build
  | 0, next, states => (next, states)
  | n + 1, next, states =>
    let (start, states) := build next states
    row build n start states

/-- Up to so many times; each time may be the last one. -/
def upTo (build : Build) (greedy : Bool) (leave : Nat) : Nat → Build
  | 0, next, states => (next, states)
  | n + 1, next, states =>
    let (start, states) := build next states
    let (choice, states) := states.add (.choice greedy start leave)
    upTo build greedy leave n choice states

/-- A choice behind an expression, to go back to it or on: the choice, then the expression. -/
def back (build : Build) (greedy : Bool) (next : Nat) (states : States) : Nat × Nat × States :=
  let (choice, states) := states.add .accept
  let (start, states) := build choice states
  (choice, start, states.setIfInBounds choice (.choice greedy start next))

/-- At least once. -/
def oneOrMore (build : Build) (greedy : Bool) : Build := fun next states =>
  let (_, start, states) := build.back greedy next states
  (start, states)

/-- Any number of times, each of which reads a character. -/
def loop (build : Build) (greedy : Bool) : Build := fun next states =>
  let (choice, _, states) := build.back greedy next states
  (choice, states)

/-- At least once, or not at all. -/
def optionalLoop (build : Build) (greedy : Bool) : Build := fun next states =>
  let (_, start, states) := build.back greedy next states
  states.add (.choice greedy start next)

end Build

/-- The states of an expression. -/
def build : Regex → Build
  | .empty => fun next states => (next, states)
  | .text cs => fun next states =>
    cs.foldr (fun c (next, states) => states.add (.char c next)) (next, states)
  | .one s _ => fun next states => states.add (.set s next)
  | .anchor a => fun next states => states.add (.anchor a next)
  | .group i e => fun next states =>
    let (stop, states) := states.add (.mark (.closing i) next)
    let (start, states) := e.build stop states
    states.add (.mark (.opening i) start)
  | .seq a b => fun next states =>
    let (middle, states) := b.build next states
    a.build middle states
  | .alt a b => fun next states =>
    let (second, states) := b.build next states
    let (first, states) := a.build next states
    states.add (.split first second)
  | .times e min max greedy => fun next states =>
    match min, max with
    | n, some m =>
      let (start, states) := Build.upTo e.build greedy next (m - n) next states
      Build.row e.build n start states
    | 0, none =>
      if e.alwaysReads then Build.loop e.build greedy next states
      else Build.optionalLoop e.build greedy next states
    | n + 1, none =>
      let (start, states) := Build.oneOrMore e.build greedy next states
      Build.row e.build n start states

/-- The states that match an expression, and the number of the first one. -/
structure Automaton where
  states : Array State
  start : Nat
  deriving DecidableEq, Repr

def Automaton.ofRegex (e : Regex) : Automaton :=
  let (start, states) := e.build 0 #[.accept]
  ⟨states, start⟩

end ParticleAutomaton.Regex
