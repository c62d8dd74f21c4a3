import ParticleAutomaton.Regex.Bracket

namespace ParticleAutomaton.Regex

/-- An expression with the depth of its parts. -/
structure Node where
  regex : Regex
  depth : Nat
  /-- A change of flags, which cannot be repeated. -/
  directive : Bool := false

namespace Node

/-- Parts that follow each other, the last one first. -/
def ofItems : List Node → Node
  | [] => ⟨.empty, 0, false⟩
  | [item] => item
  | items =>
    ⟨sequence (items.reverse.map Node.regex), (items.map Node.depth).foldl max 0 + 1, false⟩

/-- Alternatives, the last one first. -/
def ofBranches : List Node → Node
  | [] => ⟨.empty, 0, false⟩
  | [branch] => branch
  | branches =>
    ⟨choice (branches.reverse.map Node.regex), (branches.map Node.depth).foldl max 0 + 1, false⟩

end Node

/-- What stands before an open group. -/
structure Level where
  branches : List Node
  items : List Node
  flags : Flags
  /-- The number of the group, if its text is captured. -/
  index : Option Nat

/-- A pattern that is read up to some place. -/
structure Builder where
  branches : List Node := []
  items : List Node := []
  flags : Flags := {}
  levels : List Level := []
  groups : Nat := 0
  names : List (List Char) := []

namespace Builder

def push (b : Builder) (regex : Regex) (depth : Nat) : Builder :=
  { b with items := ⟨regex, depth, false⟩ :: b.items }

/-- The finished part since the last open group. -/
def body (b : Builder) : Node := Node.ofBranches (Node.ofItems b.items :: b.branches)

def bar (b : Builder) : Builder :=
  { b with branches := Node.ofItems b.items :: b.branches, items := [] }

/-- A group starts; its flags hold up to its end. -/
def enter (b : Builder) (index : Option Nat) (flags : Flags) : Builder :=
  { b with
    branches := [], items := [], flags
    levels := ⟨b.branches, b.items, b.flags, index⟩ :: b.levels }

def capture (b : Builder) : Builder :=
  { b.enter (some (b.groups + 1)) b.flags with groups := b.groups + 1 }

def leave? (b : Builder) : Option Builder :=
  match b.levels with
  | [] => none
  | level :: levels =>
    let body := b.body
    let regex := level.index.elim body.regex (Regex.group · body.regex)
    some { b with
      branches := level.branches
      items := ⟨regex, body.depth + 1, false⟩ :: level.items
      flags := level.flags
      levels }

/-- The last part is repeated. -/
def repeat? (b : Builder) (q : Quantifier) : Option Builder :=
  match b.items with
  | [] => none
  | item :: items =>
    if item.directive then none
    else
      let regex := item.regex.repeated q.min q.max (q.greedy != b.flags.swapGreed)
      some { b with items := ⟨regex, item.depth + 1, false⟩ :: items }

/-- A character that stands for itself, and for those that differ in case only where case is
ignored. -/
def literal (b : Builder) (c : Char) : Builder :=
  let hasCase := if b.flags.ascii then c.isAlpha else Unicode.hasCase c
  if b.flags.ignoreCase && hasCase then
    b.push (ofSet (b.flags.fold (.single c)) b.flags.ascii) 0
  else b.push (.text [c]) 0

/-- Any character, or any one that does not end a line. -/
def dot? (b : Builder) : Option Builder :=
  let set : CharSet :=
    if b.flags.dotAll then .full
    else if b.flags.crlf then (CharSet.ofCodes [10, 13]).compl
    else (CharSet.single '\n').compl
  if b.flags.ascii then none else some (b.push (.one set false) 0)

def lineStart (b : Builder) : Builder :=
  let a : Anchor :=
    if !b.flags.multiLine then .textStart
    else if b.flags.crlf then .lineStartCrlf else .lineStart
  b.push (.anchor a) 0

def lineEnd (b : Builder) : Builder :=
  let a : Anchor :=
    if !b.flags.multiLine then .textEnd
    else if b.flags.crlf then .lineEndCrlf else .lineEnd
  b.push (.anchor a) 0

def escape? (b : Builder) : Escape → Option Builder
  | .char c byte => if b.flags.ascii && byte && 0x80 ≤ c.toNat then none else some (b.literal c)
  | .textStart => some (b.push (.anchor .textStart) 0)
  | .textEnd => some (b.push (.anchor .textEnd) 0)
  | .word boundary => some (b.push (.anchor (.word boundary b.flags.ascii)) 0)
  | e => (b.flags.escapeSet? e).map fun s => b.push (ofSet s b.flags.ascii) 0

def isNameStart (c : Char) : Bool := c == '_' || Unicode.isAlphabetic c

def isNamePart (c : Char) : Bool :=
  isNameStart c || c == '.' || c == '[' || c == ']' || Unicode.isNumeric c

/-- A group with a name, up to the end of the name. No two groups have one name. -/
def named? (b : Builder) (cs : List Char) : Option (Builder × List Char) :=
  let name := cs.takeWhile (· != '>')
  match name, cs.dropWhile (· != '>') with
  | c :: more, '>' :: rest =>
    if isNameStart c && more.all isNamePart && !b.names.contains name then
      some ({ b.capture with names := name :: b.names }, rest)
    else none
  | _, _ => none

/-- A change of flags, for the rest of the group or for a group of its own. -/
def change? (b : Builder) (cs : List Char) : Option (Builder × List Char) := do
  let isLetter (c : Char) : Bool := c != ':' && c != ')'
  let letters := cs.takeWhile isLetter
  let flags ← Flags.change? letters b.flags
  match cs.dropWhile isLetter with
  | ':' :: rest => some (b.enter none flags, rest)
  | ')' :: rest =>
    if letters = [] then none
    else some ({ b with items := ⟨.empty, 0, true⟩ :: b.items, flags }, rest)
  | _ => none

/-- The front of a group behind its parenthesis. -/
def group? (b : Builder) (cs : List Char) : Option (Builder × List Char) :=
  match skip b.flags.verbose cs with
  | '?' :: '=' :: _ | '?' :: '!' :: _ | '?' :: '<' :: '=' :: _ | '?' :: '<' :: '!' :: _ => none
  | '?' :: 'P' :: '<' :: cs | '?' :: '<' :: cs => b.named? cs
  | '?' :: cs => b.change? cs
  | cs => some (b.capture, cs)

/-- The next part of a pattern. -/
def step? (b : Builder) : List Char → Option (Builder × List Char)
  | [] => none
  | '(' :: cs => b.group? cs
  | ')' :: cs => b.leave?.map (·, cs)
  | '|' :: cs => some (b.bar, cs)
  | '[' :: cs => (bracket? b.flags cs).map fun (s, rest) => (b.push (ofSet s.set b.flags.ascii) s.depth, rest)
  | '?' :: cs => let (g, cs) := greed cs; (b.repeat? ⟨0, some 1, g⟩).map (·, cs)
  | '*' :: cs => let (g, cs) := greed cs; (b.repeat? ⟨0, none, g⟩).map (·, cs)
  | '+' :: cs => let (g, cs) := greed cs; (b.repeat? ⟨1, none, g⟩).map (·, cs)
  | '\x7b' :: cs => do
    let (q, rest) ← quantifier? b.flags.verbose cs
    (b.repeat? q).map (·, rest)
  | '\\' :: cs => do
    let (e, rest) ← Regex.escape? b.flags.verbose cs
    (b.escape? e).map (·, rest)
  | '.' :: cs => b.dot?.map (·, cs)
  | '^' :: cs => some (b.lineStart, cs)
  | '$' :: cs => some (b.lineEnd, cs)
  | c :: cs => some (b.literal c, cs)

/-- Reads on to the end; every part takes at least one character. -/
def steps? : Nat → Builder → List Char → Option Builder
  | fuel, b, cs =>
    match skip b.flags.verbose cs, fuel with
    | [], _ => some b
    | _, 0 => none
    | cs, fuel + 1 => (b.step? cs).bind fun (b, rest) => steps? fuel b rest

end Builder

/-- The depth up to which the parts of a pattern may nest. -/
def maxDepth : Nat := 250

/-- The expression that a text stands for. -/
def parse? (cs : List Char) : Option Regex := do
  let b ← Builder.steps? cs.length {} cs
  if b.levels ≠ [] then none
  else
    let body := b.body
    if body.depth ≤ maxDepth then some body.regex else none

end ParticleAutomaton.Regex
