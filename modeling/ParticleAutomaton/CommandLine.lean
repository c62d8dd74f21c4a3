import ParticleAutomaton.Board.Saved
import ParticleAutomaton.Board.Step
import ParticleAutomaton.Rules.Decode
import ParticleAutomaton.Sampling.RandomSource
import ParticleAutomaton.Sandbox
import ParticleAutomaton.Snapshot.File

namespace ParticleAutomaton

/-- What a run is asked to do. -/
structure Arguments where
  rules : Option String := none
  config : Option String := none
  ticks : Option Nat := none
  save : Option String := none
  deriving DecidableEq, Repr

/-- Why a run stops. -/
inductive CommandError
  | missingValue (flag : String)
  | badTicks
  | unknownArgument (text : String)
  | badConfig (path : String)
  | unreadableRules (path : String)
  | rules (e : RuleError)
  | config (e : ConfigError)
  | fault (f : Fault)
  | unwritable (path : String)
  deriving DecidableEq, Repr

def CommandError.message : CommandError → String
  | .missingValue flag => flag ++ " needs a value"
  | .badTicks => "--ticks expects a number"
  | .unknownArgument text => "unknown argument '" ++ text ++ "'"
  | .badConfig path => "loading " ++ path
  | .unreadableRules path => "reading " ++ path
  | .rules e => e.message
  | .config e => e.message
  | .fault f => f.message
  | .unwritable path => "saving " ++ path

namespace Arguments

/-- Flags, each with its value. Of a repeated flag the last value counts. -/
def parse (args : List String) : Except CommandError Arguments := go {} args
where
  go (a : Arguments) : List String → Except CommandError Arguments
    | [] => .ok a
    | "--rules" :: path :: rest => go { a with rules := path } rest
    | "--config" :: path :: rest => go { a with config := path } rest
    | "--save" :: path :: rest => go { a with save := path } rest
    | "--ticks" :: count :: rest =>
      match (Text.unsigned? count.toList).filter (· ≤ Text.maxUInt64) with
      | some n => go { a with ticks := n } rest
      | none => .error .badTicks
    | flag :: _ =>
      if ["--rules", "--config", "--ticks", "--save"].contains flag then .error (.missingValue flag)
      else .error (.unknownArgument flag)

/-- The configuration in the file that is named, or that of the sandbox. -/
def configuration (a : Arguments) (read : String → Option String) :
    Except CommandError BoardConfig :=
  match a.config with
  | none => .ok { width := 48, height := 32, seed := some 1 }
  | some path =>
    match (read path).map BoardConfig.ofText? with
    | some (.ok config) => .ok config
    | _ => .error (.badConfig path)

/-- The rules in the file that is named, or those of the sandbox. -/
def rulebook (a : Arguments) (t : Topology) (read : String → Option String) :
    Except CommandError (Rulebook Float) :=
  match a.rules with
  | none => (Rulebook.ofRecords? t sandboxRecords).mapError .rules
  | some path =>
    match read path with
    | some text => (Rulebook.ofText? t text).mapError .rules
    | none => .error (.unreadableRules path)

end Arguments

namespace Board

/-- The board that a run ends with. Without a seed the chances follow from the given word. -/
def ofArguments (a : Arguments) (read : String → Option String) (entropy : UInt64) :
    Except CommandError (Board Float RandomSource) := do
  let config ← a.configuration read
  let rules ← a.rulebook config.topology read
  let random := RandomSource.ofSeed ((config.seed.map Nat.toUInt64).getD entropy)
  let board ← (Board.new config rules random).mapError fun
    | .config e => .config e
    | .fault f => .fault f
  let board ← if a.rules.isNone then board.seedSandbox.mapError .fault else .ok board
  let (_, board) ← (board.ticks (a.ticks.getD 200)).mapError .fault
  .ok board

end Board

end ParticleAutomaton
