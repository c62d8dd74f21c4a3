import ParticleAutomaton.Unicode.CategoryRuns
import ParticleAutomaton.Unicode.Listed
import ParticleAutomaton.Unicode.Runs

namespace ParticleAutomaton.Unicode

def categories : Runs String :=
  .ofLengths ((words categoryRuns).map fun w =>
    (String.ofList (w.take 2), Text.ofDigits (w.drop 2)))

/-- The general category, two letters. -/
def category (c : Char) : String := (categories.get? c.toNat).getD "Cn"

/-- The characters of some general categories. -/
def ofCategories (members : List String) : CharSet := categories.select members.contains

def Listed.set (s : Listed) : CharSet := setOfRuns s.runs

/-- Marks that join letters inside a word. -/
def midLetter : CharSet :=
  .ofCodes [0x3A, 0xB7, 0x387, 0x55F, 0x5F4, 0x2027, 0xFE13, 0xFE55, 0xFF1A]

/-- Marks that join letters or digits inside a word. -/
def midNumLet : CharSet := .ofCodes [0x2E, 0x2018, 0x2019, 0x2024, 0xFE52, 0xFF07, 0xFF0E]

/-- Letters that fall apart under the compatible forms of normalization, and so cannot go on in an
identifier. -/
def unstableContinue : CharSet :=
  .ofPairs [(0x37A, 0x37A), (0x309B, 0x309C), (0xFC5E, 0xFC63), (0xFDFA, 0xFDFB), (0xFE70, 0xFE70),
    (0xFE72, 0xFE72), (0xFE74, 0xFE74), (0xFE76, 0xFE76), (0xFE78, 0xFE78), (0xFE7A, 0xFE7A),
    (0xFE7C, 0xFE7C), (0xFE7E, 0xFE7E)]

/-- Those that cannot start one. -/
def unstableStart : CharSet :=
  unstableContinue.union (.ofPairs [(0xE33, 0xE33), (0xEB3, 0xEB3), (0xFF9E, 0xFF9F)])

/-- Sets of characters that follow from the categories and the listed sets. -/
inductive Derived
  | alphabetic
  | caseIgnorable
  | cased
  | changesFolded
  | changesInCase
  | changesLower
  | changesTitle
  | changesUpper
  | graphemeBase
  | graphemeExtend
  | idContinue
  | idStart
  | ignorable
  | lowercase
  | math
  | uppercase
  | xidContinue
  | xidStart
  deriving DecidableEq, Repr

def lowercase : CharSet := (ofCategories ["Ll"]).union (Listed.set .otherLowercase)

def uppercase : CharSet := (ofCategories ["Lu"]).union (Listed.set .otherUppercase)

def titlecase : CharSet := ofCategories ["Lt"]

def alphabetic : CharSet :=
  .unionAll [lowercase, uppercase, ofCategories ["Lt", "Lm", "Lo", "Nl"],
    Listed.set .otherAlphabetic]

def graphemeExtend : CharSet := (ofCategories ["Me", "Mn"]).union (Listed.set .otherExtend)

/-- Characters that are not shown where they are not known. -/
def ignorable : CharSet :=
  (CharSet.unionAll [ofCategories ["Cf"], Listed.set .otherIgnorable,
    Listed.set .variationSelector]).diff
    (.unionAll [Listed.set .whiteSpace, Listed.set .prependedMark,
      .ofPairs [(0xFFF9, 0xFFFB), (0x13430, 0x13440)]])

/-- Characters that patterns use as signs. -/
def patternSigns : CharSet := (Listed.set .patternSyntax).union (Listed.set .patternSpace)

def idStart : CharSet :=
  ((ofCategories ["Lu", "Ll", "Lt", "Lm", "Lo", "Nl"]).union (Listed.set .otherIdStart)).diff
    patternSigns

def idContinue : CharSet :=
  (CharSet.unionAll [idStart, ofCategories ["Mn", "Mc", "Nd", "Pc"],
    Listed.set .otherIdContinue]).diff patternSigns

def changesLower : CharSet := (uppercase.union titlecase).diff (Listed.set .lowercaseless)

def changesUpper : CharSet := (lowercase.union titlecase).diff (Listed.set .uppercaseless)

/-- The letters with a capital form for titles that they are not themselves. -/
def changesTitle : CharSet :=
  (changesUpper.diff (titlecase.union (.ofPairs [(0x10D0, 0x10FA), (0x10FD, 0x10FF)]))).union
    (.ofCodes [0x1C4, 0x1C7, 0x1CA, 0x1F1])

def Derived.set : Derived → CharSet
  | .alphabetic => Unicode.alphabetic
  | .caseIgnorable =>
    .unionAll [ofCategories ["Mn", "Me", "Cf", "Lm", "Sk"], midLetter, midNumLet, .single '\'']
  | .cased => .unionAll [Unicode.lowercase, Unicode.uppercase, titlecase]
  | .changesFolded =>
    (Unicode.changesLower.diff (.ofPairs [(0x13A0, 0x13F5)])).union (Listed.set .foldingOnly)
  | .changesInCase => .unionAll [Unicode.changesLower, Unicode.changesTitle, Unicode.changesUpper]
  | .changesLower => Unicode.changesLower
  | .changesTitle => Unicode.changesTitle
  | .changesUpper => Unicode.changesUpper
  | .graphemeBase =>
    CharSet.full.diff
      ((ofCategories ["Cc", "Cf", "Cs", "Co", "Cn", "Zl", "Zp"]).union Unicode.graphemeExtend)
  | .graphemeExtend => Unicode.graphemeExtend
  | .idContinue => Unicode.idContinue
  | .idStart => Unicode.idStart
  | .ignorable => Unicode.ignorable
  | .lowercase => Unicode.lowercase
  | .math => (ofCategories ["Sm"]).union (Listed.set .otherMath)
  | .uppercase => Unicode.uppercase
  | .xidContinue => Unicode.idContinue.diff unstableContinue
  | .xidStart => Unicode.idStart.diff unstableStart

end ParticleAutomaton.Unicode
