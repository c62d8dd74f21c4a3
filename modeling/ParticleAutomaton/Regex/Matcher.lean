import ParticleAutomaton.Regex.Automaton

namespace ParticleAutomaton.Regex

/-- The boundaries of captured texts passed so far with their places, the latest first. -/
abbrev Trail := List (Mark × Nat)

/-- A match in progress. -/
structure Thread where
  state : Nat
  trail : Trail

namespace Automaton

/-- The ways on from a state without reading a character, the preferred one first. -/
def follow (p : Place) (pos : Nat) (trail : Trail) : State → List Thread
  | .anchor a next => if a.holds p then [⟨next, trail⟩] else []
  | .mark m next => [⟨next, (m, pos) :: trail⟩]
  | .split first second => [⟨first, trail⟩, ⟨second, trail⟩]
  | .accept | .char .. | .set .. => []

/-- The state accepts or reads a character. -/
def isResting : State → Bool
  | .accept | .char .. | .set .. => true
  | .anchor .. | .mark .. | .split .. => false

/-- The threads at states that accept or read, reached from a stack of threads in order of
preference, behind those that are ready. Only the first way to a state counts. -/
def settle (a : Automaton) (p : Place) (pos : Nat) :
    Nat → Array Bool → List Thread → List Thread → List Thread
  | fuel + 1, seen, t :: stack, ready =>
    match a.states[t.state]?, seen[t.state]? with
    | some s, some false =>
      let seen := seen.setIfInBounds t.state true
      let ready := if isResting s then t :: ready else ready
      settle a p pos fuel seen (follow p pos t.trail s ++ stack) ready
    | _, _ => settle a p pos fuel seen stack ready
  | _, _, _, ready => ready.reverse

/-- The threads at states that accept or read; each state is left in two ways at most. -/
def settled (a : Automaton) (p : Place) (pos : Nat) (threads : List Thread) : List Thread :=
  a.settle p pos (threads.length + 2 * a.states.size + 1) (.replicate a.states.size false)
    threads []

def accepts (a : Automaton) (t : Thread) : Bool := a.states[t.state]? == some .accept

/-- A thread after a character, if its state reads it. -/
def read? (a : Automaton) (c : Char) (t : Thread) : Option Thread :=
  match a.states[t.state]? with
  | some (.char d next) => if c = d then some ⟨next, t.trail⟩ else none
  | some (.set s next) => if s.mem c then some ⟨next, t.trail⟩ else none
  | _ => none

/-- The trail of the preferred match. A match may start at every place up to the first one that is
found; a thread that accepts cuts off all that come after it. -/
def run (a : Automaton) (before : Option Char) (pos : Nat) (best : Option Trail)
    (threads : List Thread) (cs : List Char) : Option Trail :=
  let started := if best.isNone then threads ++ [⟨a.start, []⟩] else threads
  let ready := a.settled ⟨before, cs.head?⟩ pos started
  let best := ((ready.find? a.accepts).map Thread.trail).or best
  match cs with
  | [] => best
  | c :: cs =>
    let kept := (ready.takeWhile (!a.accepts ·)).filterMap (a.read? c)
    if best.isSome && kept.isEmpty then best else run a (some c) (pos + 1) best kept cs

/-- The trail of the match that starts furthest to the left, the preferred one of these. -/
def search (a : Automaton) (text : List Char) : Option Trail := a.run none 0 none [] text

def isMatch (a : Automaton) (text : List Char) : Bool := (a.search text).isSome

end Automaton

/-- The captured text of a group, if the group took part. -/
def captured? (text : List Char) (trail : Trail) (index : Nat) : Option (List Char) :=
  match trail.lookup (.opening index), trail.lookup (.closing index) with
  | some start, some stop => some ((text.drop start).take (stop - start))
  | _, _ => none

end ParticleAutomaton.Regex
