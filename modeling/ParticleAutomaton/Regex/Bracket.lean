import ParticleAutomaton.Regex.Lexer

namespace ParticleAutomaton.Regex

namespace Flags

/-- With a set, the characters that differ in case only, where case is ignored. -/
def fold (f : Flags) (s : CharSet) : CharSet :=
  if !f.ignoreCase then s else if f.ascii then Unicode.foldAscii s else Unicode.fold s

/-- All other characters. With the ASCII flag there are none to speak of. -/
def negateIf? (f : Flags) (negated : Bool) (s : CharSet) : Option CharSet :=
  if !negated then some s else if f.ascii then none else some s.compl

/-- A character for a set; with the ASCII flag only ASCII characters can stand in one. -/
def code? (f : Flags) (c : Char) : Option Nat :=
  if f.ascii && 0x80 ≤ c.toNat then none else some c.toNat

/-- A set of a backslash escape. -/
def escapeSet? (f : Flags) : Escape → Option CharSet
  | .set s negated => f.negateIf? negated (s.set f.ascii)
  | .property p negated => if f.ascii then none else f.negateIf? negated (f.fold p.set)
  | _ => none

end Flags

/-- A set with the depth of the brackets in it. -/
structure SetNode where
  set : CharSet
  depth : Nat

namespace SetNode

inductive Op
  | inter
  | diff
  | symmDiff

def Op.apply (f : Flags) (op : Op) (s t : SetNode) : SetNode :=
  let left := f.fold s.set
  let right := f.fold t.set
  let set := match op with
    | .inter => left.inter right
    | .diff => left.diff right
    | .symmDiff => left.symmDiff right
  ⟨CharSet.empty.union set, max s.depth t.depth + 1⟩

/-- The union of the items of a set, the last one first. -/
def ofItems (items : List SetNode) : SetNode :=
  let set := items.foldr (fun item s => s.union item.set) .empty
  let depth := (items.map SetNode.depth).foldl max 0
  ⟨set, if items.length < 2 then depth else depth + 1⟩

/-- A set in brackets. -/
def bracketed? (f : Flags) (negated : Bool) (s : SetNode) : Option SetNode :=
  (f.negateIf? negated (f.fold s.set)).map fun set => ⟨set, s.depth + 1⟩

end SetNode

/-- A set that is not finished: what stands before an open bracket or before an operator. -/
inductive SetFrame
  | bracket (items : List SetNode) (negated : Bool)
  | op (op : SetNode.Op) (left : SetNode)

/-- The operator that waits for its right side is applied. -/
def applyOp (f : Flags) (right : SetNode) : List SetFrame → SetNode × List SetFrame
  | .op op left :: stack => (op.apply f left right, stack)
  | stack => (right, stack)

/-- Named sets of ASCII characters. -/
def namedSet? (name : List Char) : Option CharSet :=
  match String.ofList name with
  | "alnum" => some (.ofPairs [(0x30, 0x39), (0x41, 0x5A), (0x61, 0x7A)])
  | "alpha" => some (.ofPairs [(0x41, 0x5A), (0x61, 0x7A)])
  | "ascii" => some (.ofPairs [(0, 0x7F)])
  | "blank" => some (.ofPairs [(9, 9), (32, 32)])
  | "cntrl" => some (.ofPairs [(0, 0x1F), (0x7F, 0x7F)])
  | "digit" => some asciiDigit
  | "graph" => some (.ofPairs [(0x21, 0x7E)])
  | "lower" => some (.ofPairs [(0x61, 0x7A)])
  | "print" => some (.ofPairs [(0x20, 0x7E)])
  | "punct" => some (.ofPairs [(0x21, 0x2F), (0x3A, 0x40), (0x5B, 0x60), (0x7B, 0x7E)])
  | "space" => some asciiSpace
  | "upper" => some (.ofPairs [(0x41, 0x5A)])
  | "word" => some asciiWord
  | "xdigit" => some (.ofPairs [(0x30, 0x39), (0x41, 0x46), (0x61, 0x66)])
  | _ => none

/-- The name of a set behind its colon, with a sign that negates it, and the rest. -/
def setName? (cs : List Char) : Option ((CharSet × Bool) × List Char) :=
  let (negated, cs) := match cs with
    | '^' :: cs => (true, cs)
    | cs => (false, cs)
  match cs.dropWhile (· != ':') with
  | ':' :: ']' :: rest =>
    (namedSet? (cs.takeWhile (· != ':'))).map fun s => ((s, negated), rest)
  | _ => none

/-- A single item of a set: a character, with its number, or an escaped set. -/
inductive SetItem
  | code (n : Nat)
  | set (s : CharSet)

def setItem? (f : Flags) : List Char → Option (SetItem × List Char)
  | [] => none
  | '\\' :: cs => do
    let (e, rest) ← escape? f.verbose cs
    match e with
    | .char c _ => (f.code? c).map fun n => (.code n, rest)
    | e => (f.escapeSet? e).map fun s => (.set s, rest)
  | c :: cs => (f.code? c).map fun n => (.code n, cs)

/-- The character that decides whether a hyphen makes a range. In a verbose pattern blanks do not
count, nor does the sign in front of a comment, though what stands in the comment does. -/
def decider? (verbose : Bool) (cs : List Char) : Option Char :=
  if !verbose then cs.head?
  else
    match cs.dropWhile Unicode.isSpace with
    | '#' :: cs => (cs.dropWhile Unicode.isSpace).head?
    | cs => cs.head?

/-- An item or a range. A hyphen before the closing bracket or another hyphen makes no range. -/
def setRange? (f : Flags) (cs : List Char) : Option (SetNode × List Char) := do
  let (item, rest) ← setItem? f cs
  let rest ← skip? f.verbose rest
  let single : SetNode × List Char := match item with
    | .code n => (⟨.ofCodes [n], 0⟩, rest)
    | .set s => (⟨s, 0⟩, rest)
  match rest with
  | '-' :: after =>
    let next := decider? f.verbose after
    if next = some ']' ∨ next = some '-' then some single
    else
      let (last, rest) ← setItem? f (← skip? f.verbose after)
      match item, last with
      | .code m, .code n => if m ≤ n then some (⟨.ofPairs [(m, n)], 0⟩, rest) else none
      | _, _ => none
  | _ => some single

/-- Hyphens at the front of a set stand for themselves. -/
def leadingHyphens? (verbose : Bool) :
    Nat → List SetNode → List Char → Option (List SetNode × List Char)
  | fuel + 1, items, '-' :: cs => do
    leadingHyphens? verbose fuel (⟨.single '-', 0⟩ :: items) (← skip? verbose cs)
  | _, items, cs => some (items, cs)

/-- The front of a set behind its bracket. A closing bracket that comes first stands for itself. -/
def openBracket? (verbose : Bool) (cs : List Char) :
    Option (Bool × List SetNode × List Char) := do
  let cs ← skip? verbose cs
  let (negated, cs) ← match cs with
    | '^' :: cs => (skip? verbose cs).map (true, ·)
    | cs => some (false, cs)
  let (items, cs) ← leadingHyphens? verbose cs.length [] cs
  match items, cs with
  | [], ']' :: cs => (skip? verbose cs).map fun cs => (negated, [⟨.single ']', 0⟩], cs)
  | items, cs => some (negated, items, cs)

/-- One step inside a set: an item, a bracket or an operator. -/
inductive SetStep
  | more (stack : List SetFrame) (items : List SetNode)
  | done (s : SetNode)

/-- A bracket inside a set: a named set, written `[:name:]` or `[:^name:]`, or a set of its own. -/
def inner? (f : Flags) (stack : List SetFrame) (items : List SetNode) (cs : List Char) :
    Option (SetStep × List Char) :=
  let named? := match cs with
    | ':' :: cs => setName? cs
    | _ => none
  match named? with
  | some ((set, negated), rest) =>
    (f.negateIf? negated (f.fold set)).map fun set => (.more stack (⟨set, 0⟩ :: items), rest)
  | none =>
    (openBracket? f.verbose cs).map fun (negated, inner, rest) =>
      (.more (.bracket items negated :: stack) inner, rest)

/-- The end of a bracket. -/
def close? (f : Flags) (stack : List SetFrame) (items : List SetNode) : Option SetStep :=
  match applyOp f (.ofItems items) stack with
  | (s, .bracket _ negated :: []) => (s.bracketed? f negated).map .done
  | (s, .bracket outer negated :: stack) =>
    (s.bracketed? f negated).map fun s => .more stack (s :: outer)
  | _ => none

def setStep? (f : Flags) (stack : List SetFrame) (items : List SetNode) :
    List Char → Option (SetStep × List Char)
  | '[' :: cs => inner? f stack items cs
  | ']' :: cs => (close? f stack items).map (·, cs)
  | '&' :: '&' :: cs => some (operator .inter, cs)
  | '-' :: '-' :: cs => some (operator .diff, cs)
  | '~' :: '~' :: cs => some (operator .symmDiff, cs)
  | cs => (setRange? f cs).map fun (item, rest) => (.more stack (item :: items), rest)
where
  operator (op : SetNode.Op) : SetStep :=
    let (left, stack) := applyOp f (.ofItems items) stack
    .more (.op op left :: stack) []

def setSteps? (f : Flags) :
    Nat → List SetFrame → List SetNode → List Char → Option (SetNode × List Char)
  | 0, _, _, _ => none
  | fuel + 1, stack, items, cs => do
    let (step, rest) ← setStep? f stack items (← skip? f.verbose cs)
    match step with
    | .done s => some (s, rest)
    | .more stack items => setSteps? f fuel stack items rest

/-- A set in brackets; the first bracket is read already. -/
def bracket? (f : Flags) (cs : List Char) : Option (SetNode × List Char) := do
  let (negated, items, rest) ← openBracket? f.verbose cs
  setSteps? f (cs.length + 1) [.bracket [] negated] items rest

end ParticleAutomaton.Regex
