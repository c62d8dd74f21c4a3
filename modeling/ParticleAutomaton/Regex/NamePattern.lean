import ParticleAutomaton.Regex.Footprint
import ParticleAutomaton.Regex.Matcher
import ParticleAutomaton.Regex.Parser

namespace ParticleAutomaton

/-- A pattern for whole names. -/
structure NamePattern where
  text : String
  automaton : Regex.Automaton
  groupCount : Nat
  deriving DecidableEq

namespace NamePattern

/-- A pattern between the start and the end of a text. -/
def anchored (pattern : List Char) : List Char :=
  ['^', '(', '?', ':'] ++ pattern ++ [')', '$']

/-- A pattern that is well formed and not too large. -/
def parse? (text : String) : Option NamePattern :=
  ((Regex.parse? (anchored text.toList)).filter Regex.fits).map fun e =>
    ⟨text, .ofRegex e, e.groupCount⟩

def accepts (p : NamePattern) (name : String) : Bool := p.automaton.isMatch name.toList

/-- The captured texts of the first match, with none for a group that took no part. -/
def captures? (p : NamePattern) (name : String) : Option (List (Option String)) :=
  (p.automaton.search name.toList).map fun trail =>
    (List.range p.groupCount).map fun i =>
      (Regex.captured? name.toList trail (i + 1)).map String.ofList

/-- The captured texts; a group that took no part counts as empty. -/
def groups? (p : NamePattern) (name : String) : Option (List String) :=
  (p.captures? name).map fun groups => groups.map (·.getD "")

end NamePattern

end ParticleAutomaton
