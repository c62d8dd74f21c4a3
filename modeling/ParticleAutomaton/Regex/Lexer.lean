import ParticleAutomaton.Regex.Flags
import ParticleAutomaton.Regex.Simplify
import ParticleAutomaton.Unicode.Name

namespace ParticleAutomaton.Regex

/-- A text without the blanks and comments at its front. -/
def skipBlank : Bool → List Char → List Char
  | _, [] => []
  | true, c :: cs => skipBlank (c != '\n') cs
  | false, c :: cs =>
    if c == '#' then skipBlank true cs
    else if Unicode.isSpace c then skipBlank false cs
    else c :: cs

/-- In a verbose pattern blanks and comments do not count. -/
def skip (verbose : Bool) (cs : List Char) : List Char := if verbose then skipBlank false cs else cs

/-- `skip`, where the pattern must go on. -/
def skip? (verbose : Bool) (cs : List Char) : Option (List Char) :=
  match skip verbose cs with
  | [] => none
  | cs => some cs

/-- At most `fuel` characters of a kind, with blanks between them. -/
def spaced (verbose : Bool) (kind : Char → Bool) : Nat → List Char → List Char × List Char
  | fuel + 1, c :: cs =>
    if kind c then
      let (more, rest) := spaced verbose kind fuel (skip verbose cs)
      (c :: more, rest)
    else ([], c :: cs)
  | _, cs => ([], cs)

/-- A repetition count; it fits a word of 32 bits. -/
def count? (verbose : Bool) (cs : List Char) : Option (Nat × List Char) :=
  let (ds, rest) := spaced verbose Char.isDigit cs.length (cs.dropWhile Unicode.isSpace)
  let n := Text.ofDigits ds
  if ds ≠ [] ∧ n < 4294967296 then some (n, rest.dropWhile Unicode.isSpace) else none

/-- A question mark turns the greed of a repetition around. -/
def greed (cs : List Char) : Bool × List Char :=
  match cs with
  | '?' :: rest => (false, rest)
  | _ => (true, cs)

/-- How often, and whether greedily. -/
structure Quantifier where
  min : Nat
  max : Option Nat
  greedy : Bool

/-- The inside of the braces of a repetition and what follows it. -/
def quantifier? (verbose : Bool) (cs : List Char) : Option (Quantifier × List Char) := do
  let (min, cs) ← count? verbose (← skip? verbose cs)
  let (max, cs) ← match cs with
    | ',' :: cs => do
      match ← skip? verbose cs with
      | '\x7d' :: cs => pure (none, '\x7d' :: cs)
      | cs =>
        let (max, cs) ← count? verbose cs
        if min ≤ max then pure (some max, cs) else none
    | cs => pure (some min, cs)
  match cs with
  | '\x7d' :: cs =>
    let (greedy, cs) := greed (skip verbose cs)
    some (⟨min, max, greedy⟩, cs)
  | _ => none

def isHex (c : Char) : Bool := c.isDigit || ('a' ≤ c && c ≤ 'f') || ('A' ≤ c && c ≤ 'F')

def hexValue (c : Char) : Nat :=
  if c.isDigit then c.toNat - 48 else if 'a' ≤ c then c.toNat - 87 else c.toNat - 55

/-- The character with a number in hexadecimal digits. -/
def charOfHex? (ds : List Char) : Option Char :=
  let n := ds.foldl (fun n c => 16 * n + hexValue c) 0
  if ds ≠ [] ∧ n.isValidChar then some (Char.ofNat n) else none

/-- A character by its number: so many digits, or any number of them in braces. -/
def hex? (verbose : Bool) (size : Nat) (cs : List Char) : Option (Char × List Char) := do
  match ← skip? verbose cs with
  | '\x7b' :: cs =>
    let cs := skip verbose cs
    let (ds, rest) := spaced verbose isHex cs.length cs
    match rest with
    | '\x7d' :: rest => (charOfHex? ds).map (·, skip verbose rest)
    | _ => none
  | cs =>
    let (ds, rest) := spaced verbose isHex size cs
    if ds.length = size then (charOfHex? ds).map (·, rest) else none

/-- The places of the text up to a mark and behind it. -/
def splitAt? (mark : List Char) : List Char → Option (List Char × List Char)
  | [] => none
  | c :: cs =>
    if mark.isPrefixOf (c :: cs) then some ([], (c :: cs).drop mark.length)
    else (splitAt? mark cs).map fun (left, right) => (c :: left, right)

/-- A named property; the flag tells whether the name says that it does not hold. -/
def property? (verbose : Bool) (cs : List Char) :
    Option ((Unicode.Property × Bool) × List Char) := do
  match ← skip? verbose cs with
  | '\x7b' :: cs =>
    let cs := skip verbose cs
    let (name, rest) := spaced verbose (· != '\x7d') cs.length cs
    if rest = [] then none
    else
      let found := match splitAt? ['!', '='] name with
        | some (table, value) => (Unicode.Property.ofNameValue? table value).map (·, true)
        | none =>
          match (splitAt? [':'] name).or (splitAt? ['='] name) with
          | some (table, value) => (Unicode.Property.ofNameValue? table value).map (·, false)
          | none => (Unicode.Property.ofName? name).map (·, false)
      found.map (·, rest.drop 1)
  | '\\' :: _ => none
  | c :: cs => (Unicode.Property.ofName? [c]).map fun p => ((p, false), skip verbose cs)
  | [] => none

/-- Sets with a letter of their own. -/
inductive Shorthand
  | digit
  | space
  | word
  deriving DecidableEq, Repr

/-- What a backslash and the characters after it stand for. -/
inductive Escape
  /-- A character; the flag tells whether it is given as a byte. -/
  | char (c : Char) (byte : Bool)
  | set (s : Shorthand) (negated : Bool)
  | property (p : Unicode.Property) (negated : Bool)
  | textStart
  | textEnd
  | word (boundary : Boundary)

def asciiDigit : CharSet := .ofPairs [(0x30, 0x39)]

def asciiSpace : CharSet := .ofPairs [(9, 13), (32, 32)]

def asciiWord : CharSet := .ofPairs [(0x30, 0x39), (0x41, 0x5A), (0x5F, 0x5F), (0x61, 0x7A)]

def Shorthand.set (ascii : Bool) : Shorthand → CharSet
  | .digit => if ascii then asciiDigit else Unicode.digits
  | .space => if ascii then asciiSpace else Unicode.spaces
  | .word => if ascii then asciiWord else Unicode.wordCharacters

/-- The word boundaries with a name in braces. -/
def boundaryName? (name : List Char) : Option Boundary :=
  match String.ofList name with
  | "start" => some .start
  | "end" => some .stop
  | "start-half" => some .startHalf
  | "end-half" => some .stopHalf
  | _ => none

/-- Braces after a boundary name it, unless a count stands in them. -/
def boundary? (verbose : Bool) (cs : List Char) : Option (Boundary × List Char) :=
  match cs with
  | '\x7b' :: inner => do
    let inner ← skip? verbose inner
    let isName (c : Char) : Bool := c.isAlpha || c == '-'
    let (name, rest) := spaced verbose isName inner.length inner
    if name = [] then some (.edge, cs)
    else
      match rest with
      | '\x7d' :: rest => (boundaryName? name).map (·, rest)
      | _ => none
  | _ => some (.edge, cs)

/-- Characters that a backslash may stand before without need. -/
def isEscapable (c : Char) : Bool := c.toNat < 0x80 && !c.isAlphanum && c != '<' && c != '>'

/-- What stands after a backslash. -/
def escape? (verbose : Bool) : List Char → Option (Escape × List Char)
  | [] => none
  | c :: cs =>
    match c with
    | 'x' =>
      let byte := (skip verbose cs).head? != some '\x7b'
      (hex? verbose 2 cs).map fun (c, rest) => (.char c byte, rest)
    | 'u' => (hex? verbose 4 cs).map fun (c, rest) => (.char c false, rest)
    | 'U' => (hex? verbose 8 cs).map fun (c, rest) => (.char c false, rest)
    | 'p' => (property? verbose cs).map fun ((p, no), rest) => (.property p no, rest)
    | 'P' => (property? verbose cs).map fun ((p, no), rest) => (.property p (!no), rest)
    | 'd' => some (.set .digit false, cs)
    | 'D' => some (.set .digit true, cs)
    | 's' => some (.set .space false, cs)
    | 'S' => some (.set .space true, cs)
    | 'w' => some (.set .word false, cs)
    | 'W' => some (.set .word true, cs)
    | 'a' => some (.char '\x07' false, cs)
    | 'f' => some (.char '\x0c' false, cs)
    | 't' => some (.char '\t' false, cs)
    | 'n' => some (.char '\n' false, cs)
    | 'r' => some (.char '\r' false, cs)
    | 'v' => some (.char '\x0b' false, cs)
    | 'A' => some (.textStart, cs)
    | 'z' => some (.textEnd, cs)
    | 'b' => (boundary? verbose cs).map fun (b, rest) => (.word b, rest)
    | 'B' => some (.word .noEdge, cs)
    | '<' => some (.word .start, cs)
    | '>' => some (.word .stop, cs)
    | c => if isEscapable c then some (.char c false, cs) else none

end ParticleAutomaton.Regex
