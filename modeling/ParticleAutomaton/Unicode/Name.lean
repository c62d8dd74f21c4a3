import ParticleAutomaton.Unicode.Property

namespace ParticleAutomaton.Unicode

/-- Names of the general categories, with the short names of all that belong to each. -/
def categoryNames : List (String × List String) := [
  ("cn unassigned", ["Cn"]), ("cc control cntrl", ["Cc"]), ("cf format", ["Cf"]),
  ("co privateuse", ["Co"]), ("c other", ["Cc", "Cf", "Cn", "Co", "Cs"]),
  ("ll lowercaseletter", ["Ll"]), ("lm modifierletter", ["Lm"]), ("lo otherletter", ["Lo"]),
  ("lt titlecaseletter", ["Lt"]), ("lu uppercaseletter", ["Lu"]),
  ("lc casedletter", ["Ll", "Lt", "Lu"]), ("l letter", ["Ll", "Lm", "Lo", "Lt", "Lu"]),
  ("mc spacingmark", ["Mc"]), ("me enclosingmark", ["Me"]), ("mn nonspacingmark", ["Mn"]),
  ("m mark combiningmark", ["Mc", "Me", "Mn"]),
  ("nd decimalnumber digit", ["Nd"]), ("nl letternumber", ["Nl"]), ("no othernumber", ["No"]),
  ("n number", ["Nd", "Nl", "No"]),
  ("pc connectorpunctuation", ["Pc"]), ("pd dashpunctuation", ["Pd"]),
  ("pe closepunctuation", ["Pe"]), ("pf finalpunctuation", ["Pf"]),
  ("pi initialpunctuation", ["Pi"]), ("po otherpunctuation", ["Po"]),
  ("ps openpunctuation", ["Ps"]),
  ("p punctuation punct", ["Pc", "Pd", "Pe", "Pf", "Pi", "Po", "Ps"]),
  ("sc currencysymbol", ["Sc"]), ("sk modifiersymbol", ["Sk"]), ("sm mathsymbol", ["Sm"]),
  ("so othersymbol", ["So"]), ("s symbol", ["Sc", "Sk", "Sm", "So"]),
  ("zl lineseparator", ["Zl"]), ("zp paragraphseparator", ["Zp"]),
  ("zs spaceseparator", ["Zs"]), ("z separator", ["Zl", "Zp", "Zs"])]

/-- Names of the properties that a character has or has not. -/
def propertyNames : List (String × Property) := [
  ("asciihexdigit ahex", .listed .asciiHexDigit),
  ("alphabetic alpha", .derived .alphabetic),
  ("bidicontrol bidic", .listed .bidiControl),
  ("caseignorable ci", .derived .caseIgnorable),
  ("cased", .derived .cased),
  ("changeswhencasefolded cwcf", .derived .changesFolded),
  ("changeswhencasemapped cwcm", .derived .changesInCase),
  ("changeswhenlowercased cwl", .derived .changesLower),
  ("changeswhentitlecased cwt", .derived .changesTitle),
  ("changeswhenuppercased cwu", .derived .changesUpper),
  ("dash", .listed .dash),
  ("defaultignorablecodepoint di", .derived .ignorable),
  ("deprecated dep", .listed .deprecated),
  ("diacritic dia", .listed .diacritic),
  ("emoji", .listed .emoji),
  ("emojicomponent ecomp", .listed .emojiComponent),
  ("emojimodifier emod", .listed .emojiModifier),
  ("emojimodifierbase ebase", .listed .emojiBase),
  ("emojipresentation epres", .listed .emojiPresentation),
  ("extendedpictographic extpict", .listed .pictographic),
  ("extender ext", .listed .extender),
  ("graphemebase grbase", .derived .graphemeBase),
  ("graphemeextend grext", .derived .graphemeExtend),
  ("graphemelink grlink", .listed .graphemeLink),
  ("hexdigit hex", .listed .hexDigit),
  ("hyphen", .listed .hyphen),
  ("idcompatmathcontinue", .listed .mathContinue),
  ("idcompatmathstart", .listed .mathStart),
  ("idcontinue idc", .derived .idContinue),
  ("idstart ids", .derived .idStart),
  ("idsbinaryoperator idsb", .listed .idsBinary),
  ("idstrinaryoperator idst", .listed .idsTrinary),
  ("idsunaryoperator idsu", .listed .idsUnary),
  ("ideographic ideo", .listed .ideographic),
  ("joincontrol joinc", .listed .joinControl),
  ("logicalorderexception loe", .listed .logicalOrder),
  ("lowercase lower", .derived .lowercase),
  ("math", .derived .math),
  ("modifiercombiningmark mcm", .listed .modifierMark),
  ("noncharactercodepoint nchar", .listed .noncharacter),
  ("otheralphabetic oalpha", .listed .otherAlphabetic),
  ("otherdefaultignorablecodepoint odi", .listed .otherIgnorable),
  ("othergraphemeextend ogrext", .listed .otherExtend),
  ("otheridcontinue oidc", .listed .otherIdContinue),
  ("otheridstart oids", .listed .otherIdStart),
  ("otherlowercase olower", .listed .otherLowercase),
  ("othermath omath", .listed .otherMath),
  ("otheruppercase oupper", .listed .otherUppercase),
  ("patternsyntax patsyn", .listed .patternSyntax),
  ("patternwhitespace patws", .listed .patternSpace),
  ("prependedconcatenationmark pcm", .listed .prependedMark),
  ("quotationmark qmark", .listed .quotationMark),
  ("radical", .listed .radical),
  ("regionalindicator ri", .listed .regionalIndicator),
  ("sentenceterminal sterm", .listed .sentenceTerminal),
  ("softdotted sd", .listed .softDotted),
  ("terminalpunctuation term", .listed .terminal),
  ("unifiedideograph uideo", .listed .unifiedIdeograph),
  ("uppercase upper", .derived .uppercase),
  ("variationselector vs", .listed .variationSelector),
  ("whitespace wspace space", .listed .whiteSpace),
  ("xidcontinue xidc", .derived .xidContinue),
  ("xidstart xids", .derived .xidStart)]

def clusterNames : List (String × Property) := [
  ("cn control", .cluster .control), ("cr", .cluster .cr), ("lf", .cluster .lf),
  ("ex extend", .cluster .extend), ("l", .cluster .leadingJamo), ("lv", .cluster .openSyllable),
  ("lvt", .cluster .closedSyllable), ("pp prepend", .cluster .prepended),
  ("ri regionalindicator", .cluster .regionalIndicator), ("sm spacingmark", .cluster .spacingMark),
  ("t", .cluster .trailingJamo), ("v", .cluster .vowelJamo), ("zwj", .cluster .joiner)]

def wordNames : List (String × Property) := [
  ("le aletter", .word .letter), ("cr", .word .cr), ("dq doublequote", .word .doubleQuote),
  ("extend", .word .extend), ("ex extendnumlet", .word .extendNumLet), ("fo format", .word .format),
  ("hl hebrewletter", .word .hebrewLetter), ("ka katakana", .word .katakana), ("lf", .word .lf),
  ("ml midletter", .word .midLetter), ("mn midnum", .word .midNum),
  ("mb midnumlet", .word .midNumLet), ("nl newline", .word .newline),
  ("nu numeric", .word .numeric), ("ri regionalindicator", .word .regionalIndicator),
  ("sq singlequote", .word .singleQuote), ("wsegspace", .word .blank), ("zwj", .word .joiner)]

def sentenceNames : List (String × Property) := [
  ("at aterm", .sentence .ambiguousEnd), ("cl close", .sentence .close), ("cr", .sentence .cr),
  ("ex extend", .sentence .extend), ("fo format", .sentence .format),
  ("le oletter", .sentence .letter), ("lf", .sentence .lf), ("lo lower", .sentence .lower),
  ("nu numeric", .sentence .numeric), ("sc scontinue", .sentence .goesOn),
  ("se sep", .sentence .separator), ("sp", .sentence .blank), ("st sterm", .sentence .definiteEnd),
  ("up upper", .sentence .upper)]

namespace Property

/-- A name is one of the words of a line. -/
def isNamed (name : List Char) (line : String) : Bool :=
  (line.toList.splitOnP (· == ' ')).contains name

/-- Small letters without blanks, hyphens and low lines; what is not ASCII is dropped, and so is a
leading `is`. -/
def normalize (name : List Char) : List Char :=
  let isDropped (c : Char) : Bool := c == ' ' || c == '-' || c == '_' || 0x80 ≤ c.toNat
  let plain (cs : List Char) : List Char := (cs.filter (!isDropped ·)).map Char.toLower
  match name with
  | i :: s :: rest =>
    if i.toLower == 'i' && s.toLower == 's' then
      if plain rest == ['c'] then ['i', 's', 'c'] else plain rest
    else plain name
  | _ => plain name

def ofTable? (table : List (String × Property)) (name : List Char) : Option Property :=
  (table.find? fun (names, _) => isNamed name names).map Prod.snd

def ofCategory? (name : List Char) : Option Property :=
  match String.ofList name with
  | "any" => some .any
  | "ascii" => some .ascii
  | "assigned" => some .assigned
  | _ => (categoryNames.find? fun (names, _) => isNamed name names).map fun (_, members) =>
    .category members

/-- A script by its name. The one of characters without a script cannot be named. -/
def scriptIndex? (name : List Char) : Option Nat :=
  (scriptNames.findIdx? (isNamed name)).filter (0 < ·)

/-- The version of the standard, with or without a letter in front. -/
def ageIndex? (name : List Char) : Option Nat :=
  (words ageNames).findIdx? fun age => name == age || name == 'v' :: age.filter (· != '.')

/-- A property by its name alone. -/
def ofName? (name : List Char) : Option Property :=
  let name := normalize name
  ofTable? propertyNames name <|> ofCategory? name <|> (scriptIndex? name).map .script

/-- A property by the name of a table and the name of a value in it. -/
def ofNameValue? (name value : List Char) : Option Property :=
  let value := normalize value
  match String.ofList (normalize name) with
  | "gc" | "generalcategory" => ofCategory? value
  | "sc" | "script" => (scriptIndex? value).map .script
  | "scx" | "scriptextensions" => (scriptIndex? value).map .usedInScript
  | "age" => (ageIndex? value).map fun i => .knownIn (i + 1)
  | "gcb" | "graphemeclusterbreak" => ofTable? clusterNames value
  | "wb" | "wordbreak" => ofTable? wordNames value
  | "sb" | "sentencebreak" => ofTable? sentenceNames value
  | _ => none

end Property

end ParticleAutomaton.Unicode
