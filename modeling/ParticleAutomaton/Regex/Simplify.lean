import ParticleAutomaton.Regex.Basic

namespace ParticleAutomaton.Regex

/-- An expression that matches nowhere. -/
def never : Regex := .one .empty true

/-- A character of a set. -/
def ofSet (set : CharSet) (ascii : Bool) : Regex :=
  if set.isEmpty then never
  else
    match set.only? with
    | some c => .text [c]
    | none => .one set ascii

/-- Repetition. A part that reads nothing is not tried twice, and no times is nothing at all. -/
def repeated (e : Regex) (min : Nat) (max : Option Nat) (greedy : Bool) : Regex :=
  let (min, max) : Nat × Option Nat :=
    if e.readsNothing then (Nat.min min 1, some ((max.map (Nat.min · 1)).getD 1)) else (min, max)
  if min = 0 ∧ max = some 0 then .empty
  else if min = 1 ∧ max = some 1 then e
  else .times e min max greedy

/-- The parts of a sequence; of anything else, itself. -/
def parts : Regex → List Regex
  | .seq a b => a :: b.parts
  | e => [e]

/-- The alternatives of an expression; of one without, itself. -/
def branches : Regex → List Regex
  | .alt a b => a :: b.branches
  | e => [e]

/-- Texts next to each other become one, and what is empty is left out. -/
def joinTexts : List Regex → List Regex
  | [] => []
  | .empty :: es => joinTexts es
  | .text cs :: es =>
    match joinTexts es with
    | .text ds :: more => .text (cs ++ ds) :: more
    | more => .text cs :: more
  | e :: es => e :: joinTexts es

def ofParts : List Regex → Regex
  | [] => .empty
  | [e] => e
  | e :: es => .seq e (ofParts es)

def ofBranches : List Regex → Regex
  | [] => never
  | [e] => e
  | e :: es => .alt e (ofBranches es)

/-- Expressions that follow each other. -/
def sequence (es : List Regex) : Regex := ofParts (joinTexts (es.flatMap parts))

/-- The number of the character that an expression is. -/
def charCode? : Regex → Option Nat
  | .text [c] => some c.toNat
  | _ => none

/-- The set that an expression is. -/
def set? : Regex → Option CharSet
  | .one set _ => some set
  | _ => none

/-- The set of the characters that all alternatives are, or of those in the sets that all are. -/
def commonSet? (es : List Regex) : Option CharSet :=
  (es.mapM charCode?).map CharSet.ofCodes <|>
    (es.mapM set?).map (·.foldl CharSet.union .empty)

/-- The parts that two lists have in common at their fronts. -/
def sharedFront : List Regex → List Regex → List Regex
  | a :: as, b :: bs => if a = b then a :: sharedFront as bs else []
  | _, _ => []

/-- The parts that all of several sequences start with. -/
def sharedParts : List Regex → List Regex
  | [] => []
  | e :: es =>
    let isSequence (e : Regex) : Bool := 1 < e.parts.length
    if (e :: es).all isSequence then es.foldl (fun front f => sharedFront front f.parts) e.parts
    else []

/-- Alternatives. Those of a single character are a set, and what all of them start with is put in
front of them; the fuel bounds how often. -/
def choiceFrom : Nat → List Regex → Regex
  | 0, es => ofBranches es
  | fuel + 1, es =>
    match es.flatMap branches with
    | [] => never
    | [e] => e
    | es =>
      match commonSet? es with
      | some set => ofSet set false
      | none =>
        match sharedParts es with
        | [] => ofBranches es
        | front =>
          let rests := es.map fun e => sequence (e.parts.drop front.length)
          sequence (front ++ [choiceFrom fuel rests])

def choice (es : List Regex) : Regex := choiceFrom (es.foldl (fun n e => n + e.size) 1) es

end ParticleAutomaton.Regex
