import ParticleAutomaton.Unicode.Derived
import ParticleAutomaton.Unicode.ScriptRuns

namespace ParticleAutomaton.Unicode

/-- The scripts of all code points, each by its place among the names of the scripts. -/
def scripts : Runs Nat := numberRuns scriptRuns

/-- The place of a script among the names of the scripts. -/
def scriptIndex (name : String) : Nat :=
  (scriptNames.findIdx? fun names =>
    (names.toList.splitOnP (· == ' ')).contains name.toList).getD 0

def inScript (index : Nat) : CharSet := scripts.select (· == index)

/-- The parts that characters can take in what a reader sees as one of them. -/
inductive ClusterBreak
  | control
  | cr
  | lf
  | extend
  | leadingJamo
  | openSyllable
  | closedSyllable
  | prepended
  | regionalIndicator
  | spacingMark
  | trailingJamo
  | vowelJamo
  | joiner
  deriving DecidableEq, Repr

/-- The parts that characters can take in a word. -/
inductive WordBreak
  | letter
  | cr
  | doubleQuote
  | extend
  | extendNumLet
  | format
  | hebrewLetter
  | katakana
  | lf
  | midLetter
  | midNum
  | midNumLet
  | newline
  | numeric
  | regionalIndicator
  | singleQuote
  | blank
  | joiner
  deriving DecidableEq, Repr

/-- The parts that characters can take in a sentence. -/
inductive SentenceBreak
  | ambiguousEnd
  | close
  | cr
  | extend
  | format
  | letter
  | lf
  | lower
  | numeric
  | goesOn
  | separator
  | blank
  | definiteEnd
  | upper
  deriving DecidableEq, Repr

/-- The number of Korean syllables with one leading consonant and one vowel, and how many there are
with each of these pairs. -/
def openSyllableCount : Nat := 399

def syllablesPerPair : Nat := 28

/-- The number of the syllable without a trailing consonant of a pair. -/
def openSyllable (i : Nat) : Nat := 0xAC00 + syllablesPerPair * i

def combining : CharSet := graphemeExtend.union (Listed.set .emojiModifier)

/-- Signs that are written before the letter that they come with. -/
def prependedSigns : CharSet :=
  (Listed.set .prependedMark).union
    (.ofPairs [(0xD4E, 0xD4E), (0x111C2, 0x111C3), (0x113D1, 0x113D1), (0x1193F, 0x1193F),
      (0x11941, 0x11941), (0x11A3A, 0x11A3A), (0x11A84, 0x11A89), (0x11D46, 0x11D46),
      (0x11F02, 0x11F02)])

/-- Spacing marks that stand apart from the letter before them. -/
def looseMarks : CharSet :=
  .ofPairs [(0x102B, 0x102C), (0x1038, 0x1038), (0x1062, 0x1064), (0x1067, 0x106D),
    (0x1083, 0x1083), (0x1087, 0x108C), (0x108F, 0x108F), (0x109A, 0x109C), (0x1A61, 0x1A61),
    (0x1A63, 0x1A64), (0xAA7B, 0xAA7B), (0xAA7D, 0xAA7D), (0x11720, 0x11721)]

def ClusterBreak.set : ClusterBreak → CharSet
  | .control =>
    ((ofCategories ["Zl", "Zp", "Cc", "Cf"]).union
      ((ofCategories ["Cn"]).inter ignorable)).diff
      (.unionAll [.ofCodes [10, 13, 0x200C, 0x200D], prependedSigns, combining])
  | .cr => .single '\r'
  | .lf => .single '\n'
  | .extend => combining
  | .leadingJamo => .ofPairs [(0x1100, 0x115F), (0xA960, 0xA97C)]
  | .openSyllable => .ofCodes ((List.range openSyllableCount).map Unicode.openSyllable)
  | .closedSyllable =>
    .ofPairs ((List.range openSyllableCount).map fun i =>
      (Unicode.openSyllable i + 1, Unicode.openSyllable i + syllablesPerPair - 1))
  | .prepended => prependedSigns
  | .regionalIndicator => Listed.set .regionalIndicator
  | .spacingMark =>
    ((ofCategories ["Mc"]).union (.ofCodes [0xE33, 0xEB3])).diff
      (.unionAll [combining, looseMarks, prependedSigns])
  | .trailingJamo => .ofPairs [(0x11A8, 0x11FF), (0xD7CB, 0xD7FB)]
  | .vowelJamo =>
    .ofPairs [(0x1160, 0x11A7), (0xD7B0, 0xD7C6), (0x16D63, 0x16D63), (0x16D67, 0x16D6A)]
  | .joiner => .ofCodes [0x200D]

/-- Signs that count as letters of a word. -/
def letterLike : CharSet :=
  .ofPairs [(0x2C2, 0x2C5), (0x2D2, 0x2D7), (0x2DE, 0x2DF), (0x2E5, 0x2EB), (0x2ED, 0x2ED),
    (0x2EF, 0x2FF), (0x55A, 0x55C), (0x55E, 0x55E), (0x58A, 0x58A), (0x5F3, 0x5F3),
    (0xA708, 0xA716), (0xA720, 0xA721), (0xA789, 0xA78A), (0xAB5B, 0xAB5B)]

/-- Marks that belong to the character before them. -/
def attached : CharSet := graphemeExtend.union (ofCategories ["Mc"])

def wordExtend : CharSet :=
  (attached.union (Listed.set .emojiModifier)).diff (.ofCodes [0x200D])

def wordNumeric : CharSet := (ofCategories ["Nd"]).union (.ofCodes [0x66B])

def WordBreak.set : WordBreak → CharSet
  | .letter =>
    (alphabetic.union letterLike).diff
      (.unionAll [Listed.set .ideographic, Listed.set .katakanaWord, Listed.set .hebrewLetter,
        Listed.set .unspacedLetter, inScript (scriptIndex "hira"), wordExtend, wordNumeric])
  | .cr => .single '\r'
  | .doubleQuote => .single '"'
  | .extend => wordExtend
  | .extendNumLet =>
    .ofPairs [(0x5F, 0x5F), (0x202F, 0x202F), (0x203F, 0x2040), (0x2054, 0x2054),
      (0xFE33, 0xFE34), (0xFE4D, 0xFE4F), (0xFF3F, 0xFF3F)]
  | .format => (ofCategories ["Cf"]).diff (wordExtend.union (.ofPairs [(0x200B, 0x200D)]))
  | .hebrewLetter => Listed.set .hebrewLetter
  | .katakana => Listed.set .katakanaWord
  | .lf => .single '\n'
  | .midLetter => Unicode.midLetter
  | .midNum =>
    .ofCodes [0x2C, 0x3B, 0x37E, 0x589, 0x60C, 0x60D, 0x66C, 0x7F8, 0x2044, 0xFE10, 0xFE14, 0xFE50,
      0xFE54, 0xFF0C, 0xFF1B]
  | .midNumLet => Unicode.midNumLet
  | .newline => .ofCodes [0xB, 0xC, 0x85, 0x2028, 0x2029]
  | .numeric => wordNumeric
  | .regionalIndicator => Listed.set .regionalIndicator
  | .singleQuote => .single '\''
  | .blank =>
    .ofPairs [(0x20, 0x20), (0x1680, 0x1680), (0x2000, 0x2006), (0x2008, 0x200A),
      (0x205F, 0x205F), (0x3000, 0x3000)]
  | .joiner => .ofCodes [0x200D]

def sentenceExtend : CharSet := attached.union (.ofCodes [0x200D])

/-- Periods, which need not end a sentence. -/
def periods : CharSet := .ofCodes [0x2E, 0x2024, 0xFE52, 0xFF0E]

/-- Small letters; those of the Georgian script have no case in running text. -/
def sentenceLower : CharSet :=
  lowercase.diff (graphemeExtend.union (.ofPairs [(0x10D0, 0x10FA), (0x10FD, 0x10FF)]))

def sentenceUpper : CharSet :=
  (uppercase.union titlecase).diff (.ofPairs [(0x1C90, 0x1CBA), (0x1CBD, 0x1CBF)])

def sentenceEnds : CharSet := (Listed.set .sentenceTerminal).diff periods

def SentenceBreak.set : SentenceBreak → CharSet
  | .ambiguousEnd => periods
  | .close =>
    ((ofCategories ["Ps", "Pe", "Pi", "Pf"]).union
      (.ofPairs [(0x22, 0x22), (0x27, 0x27), (0x275B, 0x2760), (0x2E00, 0x2E01), (0x2E06, 0x2E08),
        (0x2E0B, 0x2E0B), (0x1F676, 0x1F678)])).diff (periods.union sentenceEnds)
  | .cr => .single '\r'
  | .extend => sentenceExtend
  | .format => (ofCategories ["Cf"]).diff (sentenceExtend.union (.ofPairs [(0x200C, 0x200D)]))
  | .letter =>
    (alphabetic.union (.ofCodes [0x5F3])).diff
      (.unionAll [sentenceLower, sentenceUpper, sentenceExtend])
  | .lf => .single '\n'
  | .lower => sentenceLower
  | .numeric => wordNumeric.union (.ofCodes [0x66C])
  | .goesOn =>
    .ofPairs [(0x2C, 0x2D), (0x3A, 0x3B), (0x37E, 0x37E), (0x55D, 0x55D), (0x60C, 0x60D),
      (0x7F8, 0x7F8), (0x1802, 0x1802), (0x1808, 0x1808), (0x2013, 0x2014), (0x3001, 0x3001),
      (0xFE10, 0xFE11), (0xFE13, 0xFE14), (0xFE31, 0xFE32), (0xFE50, 0xFE51), (0xFE54, 0xFE55),
      (0xFE58, 0xFE58), (0xFE63, 0xFE63), (0xFF0C, 0xFF0D), (0xFF1A, 0xFF1B), (0xFF64, 0xFF64)]
  | .separator => .ofCodes [0x85, 0x2028, 0x2029]
  | .blank =>
    .ofPairs [(9, 9), (0xB, 0xC), (0x20, 0x20), (0xA0, 0xA0), (0x1680, 0x1680), (0x2000, 0x200A),
      (0x202F, 0x202F), (0x205F, 0x205F), (0x3000, 0x3000)]
  | .definiteEnd => sentenceEnds
  | .upper => sentenceUpper

end ParticleAutomaton.Unicode
