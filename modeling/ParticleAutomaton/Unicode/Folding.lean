import ParticleAutomaton.Unicode.CaseRuns
import ParticleAutomaton.Unicode.Runs

namespace ParticleAutomaton.Unicode

/-- A run of pairs of letters, the first ones and the second ones each at equal steps. -/
structure CasePairs where
  first : Nat
  second : Nat
  count : Nat
  step : Nat

namespace CasePairs

/-- The pairs as ranges of a single letter each, with the letter that it goes with. -/
def letters (p : CasePairs) : List (Nat × Nat) :=
  (List.range p.count).flatMap fun i =>
    let a := p.first + i * p.step
    let b := p.second + i * p.step
    [(a, b), (b, a)]

end CasePairs

/-- Letters with those that differ from them in case only. -/
def caseLetters : List (Nat × List Nat) :=
  let pairs := (words casePairs).flatMap fun w =>
    match numbers w with
    | [a, b, count, step] => (CasePairs.mk a b count step).letters.map fun (c, d) => (c, [d])
    | _ => []
  let classes := (words caseClasses).flatMap fun w =>
    let members := numbers w
    members.map fun c => (c, members.filter (· != c))
  pairs ++ classes

/-- The characters that differ from one in a set in case only, with the set. -/
def fold (s : CharSet) : CharSet :=
  let others := caseLetters.flatMap fun (c, ds) => if s.contains c then ds else []
  .ofRanges (s.ranges ++ others.map fun d => ⟨d, d⟩)

/-- The same with the ASCII letters as the only ones with a case. -/
def foldAscii (s : CharSet) : CharSet :=
  let others := (List.range 26).flatMap fun i =>
    (if s.contains (0x41 + i) then [0x61 + i] else []) ++
      (if s.contains (0x61 + i) then [0x41 + i] else [])
  .ofRanges (s.ranges ++ others.map fun d => ⟨d, d⟩)

/-- A character has others that differ from it in case only. -/
def hasCase (c : Char) : Bool := caseLetters.any fun (d, _) => d == c.toNat

end ParticleAutomaton.Unicode
