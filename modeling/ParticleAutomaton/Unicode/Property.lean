import ParticleAutomaton.Unicode.AgeRuns
import ParticleAutomaton.Unicode.Folding
import ParticleAutomaton.Unicode.Segmentation

namespace ParticleAutomaton.Unicode

def isIn (members : List String) (c : Char) : Bool := members.contains (category c)

def isAlphabetic (c : Char) : Bool := alphabetic.mem c

def isNumeric (c : Char) : Bool := isIn ["Nd", "Nl", "No"] c

def isSpace (c : Char) : Bool :=
  let n := c.toNat
  (9 ≤ n && n ≤ 13) || n == 0x20 || n == 0x85 || n == 0xA0 || n == 0x1680 ||
    (0x2000 ≤ n && n ≤ 0x200A) || n == 0x2028 || n == 0x2029 || n == 0x202F || n == 0x205F ||
    n == 0x3000

/-- The decimal digits of all scripts. -/
def digits : CharSet := ofCategories ["Nd"]

def spaces : CharSet := Listed.set .whiteSpace

/-- The characters of words: letters, marks, digits, connectors and joiners. -/
def wordCharacters : CharSet :=
  .unionAll [alphabetic, ofCategories ["Mn", "Mc", "Me", "Nd", "Pc"], Listed.set .joinControl]

def isWord (c : Char) : Bool := wordCharacters.mem c

/-- Characters that several scripts share: the first of a run, how many, and the scripts. -/
structure SharedRun where
  first : Nat
  count : Nat
  scripts : List Nat

def SharedRun.range (r : SharedRun) : CharRange := ⟨r.first, r.first + r.count - 1⟩

def shared : List SharedRun :=
  (words sharedRuns).map fun w =>
    match numbers w with
    | first :: count :: scripts => ⟨first, count, scripts⟩
    | _ => ⟨0, 0, []⟩

/-- The characters that are used with a script. -/
def usedInScript (index : Nat) : CharSet :=
  let own := (inScript index).diff (.ofRanges (shared.map SharedRun.range))
  own.union (.ofRanges ((shared.filter (·.scripts.contains index)).map SharedRun.range))

def ages : Runs Nat := numberRuns ageRuns

/-- The characters that a version of the standard added. -/
def addedIn (index : Nat) : CharSet := ages.select (· == index)

/-- The characters of a version of the standard, its number counted from one. -/
def knownIn (index : Nat) : CharSet :=
  .unionAll ((List.range index).map fun i => addedIn (i + 1))

/-- A property of characters that a pattern can name. -/
inductive Property
  | any
  | ascii
  | assigned
  | listed (s : Listed)
  | derived (s : Derived)
  | category (members : List String)
  | script (index : Nat)
  | usedInScript (index : Nat)
  | knownIn (index : Nat)
  | cluster (part : ClusterBreak)
  | word (part : WordBreak)
  | sentence (part : SentenceBreak)
  deriving DecidableEq, Repr

/-- The characters with a property. -/
def Property.set : Property → CharSet
  | .any => .full
  | .ascii => .ofPairs [(0, 0x7F)]
  | .assigned => (ofCategories ["Cn"]).compl
  | .listed s => s.set
  | .derived s => s.set
  | .category members => ofCategories members
  | .script index => inScript index
  | .usedInScript index => Unicode.usedInScript index
  | .knownIn index => Unicode.knownIn index
  | .cluster part => part.set
  | .word part => part.set
  | .sentence part => part.set

end ParticleAutomaton.Unicode
