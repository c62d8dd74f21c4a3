namespace ParticleAutomaton

/-- What is wrong with the rows of an icon. -/
inductive IconProblem
  | rowCount (count : Nat)
  | rowWidth (row : Nat)
  | character (c : Char) (row : Nat)
  deriving DecidableEq, Repr

/-- Why a record is not a rule. -/
inductive RuleError
  | missingField (record field : String)
  | invalidPattern (pattern : String)
  | invalidProbability (prob : String)
  | unknownDirection (name : String)
  | invalidBond (origin destination name : String)
  | invalidIcon (problem : IconProblem)
  /-- The text holds no records. -/
  | undecodable
  deriving DecidableEq, Repr

def IconProblem.message : IconProblem → String
  | .rowCount count => "expected 8 rows, got " ++ toString count
  | .rowWidth row => "row " ++ toString row ++ " has wrong width"
  | .character c row => "unexpected '" ++ c.toString ++ "' in row " ++ toString row

def RuleError.message : RuleError → String
  | .missingField record field => "missing field '" ++ field ++ "' in " ++ record ++ " record"
  | .invalidPattern pattern => "invalid pattern '" ++ pattern ++ "'"
  | .invalidProbability prob => "invalid probability " ++ prob
  | .unknownDirection name => "unknown direction '" ++ name ++ "'"
  | .invalidBond origin destination name =>
    "invalid bond expression " ++ origin ++ " -> " ++ destination ++ " '" ++ name ++ "'"
  | .invalidIcon problem => "invalid icon: " ++ problem.message
  | .undecodable => "rule set JSON error"

end ParticleAutomaton
