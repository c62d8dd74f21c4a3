import ParticleAutomaton.Macro.Expansion
import ParticleAutomaton.Regex.NamePattern
import ParticleAutomaton.Rules.Error

namespace ParticleAutomaton

structure Color where
  red : UInt8
  green : UInt8
  blue : UInt8
  deriving DecidableEq, Repr, Inhabited

namespace Color

def gray : Color := ⟨128, 128, 128⟩

def black : Color := ⟨0, 0, 0⟩

/-- The squared distance of two colors. -/
def distance (c d : Color) : Nat :=
  square c.red d.red + square c.green d.green + square c.blue d.blue
where
  square (a b : UInt8) : Nat :=
    let gap := ((a.toNat : Int) - b.toNat).natAbs
    gap * gap

end Color

/-- A picture in two colors, eight by eight. -/
structure Icon where
  rows : List (List Bool)
  deriving DecidableEq, Repr

namespace Icon

def side : Nat := 8

def pixel? (row : Nat) (c : Char) : Except RuleError Bool :=
  if c = '#' then .ok true
  else if c = '.' then .ok false
  else .error (.invalidIcon (.character c row))

def row? (row : Nat) (cs : List Char) : Except RuleError (List Bool) :=
  if cs.length = side then cs.mapM (pixel? row)
  else .error (.invalidIcon (.rowWidth row))

/-- Rows of hash marks and dots. -/
def ofRows? (rows : List String) : Except RuleError Icon :=
  if rows.length = side then do
    let bits ← (rows.zipIdx).mapM fun (row, i) => row? i row.toList
    .ok ⟨bits⟩
  else .error (.invalidIcon (.rowCount rows.length))

def isSet (icon : Icon) (x y : Nat) : Bool := ((icon.rows[y]?.getD [])[x]?).getD false

/-- The rows as bytes; the leftmost pixel counts most. -/
def bytes (icon : Icon) : List Nat :=
  icon.rows.map fun row => row.foldl (fun n b => 2 * n + b.toNat) 0

end Icon

/-- How a particle looks. -/
structure Appearance where
  color : Color
  verb : Option String
  icon : Option Icon
  deriving DecidableEq, Repr, Inhabited

def Appearance.plain : Appearance := ⟨.gray, none, none⟩

structure AppearanceRecord where
  pattern : Option String := none
  color : Color := .black
  verb : Option String := none
  icon : Option (List String) := none
  deriving DecidableEq, Repr

/-- The look of all particles whose name a pattern accepts. -/
structure AppearanceRule where
  pattern : NamePattern
  appearance : Appearance

namespace AppearanceRule

def ofRecord? (r : AppearanceRecord) : Except RuleError AppearanceRule := do
  let some text := r.pattern | .error (.missingField "particle" "pattern")
  let icon ← r.icon.mapM Icon.ofRows?
  let some pattern := NamePattern.parse? text | .error (.invalidPattern text)
  .ok ⟨pattern, r.color, r.verb, icon⟩

/-- The only name of a pattern without marks. -/
def literalName? (a : AppearanceRule) : Option String :=
  if a.pattern.text.toList.all fun c => !isPatternMark c then some a.pattern.text else none

end AppearanceRule

end ParticleAutomaton
