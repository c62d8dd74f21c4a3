import ParticleAutomaton.Json.Decode
import ParticleAutomaton.Json.Reader

namespace ParticleAutomaton

structure BoardConfig where
  width : Nat := 64
  height : Nat := 64
  topology : Topology := .square4
  /-- Without a seed no two runs are alike. -/
  seed : Option Nat := none
  /-- The name of the particle that fills a new board. -/
  emptyParticle : String := "_"
  maxNameLen : Nat := 256
  /-- The number of particles from which on unused ones are let go. -/
  flushThreshold : Nat := 4096
  monitorInterval : Nat := 1000
  address : String := "local"
  deriving DecidableEq, Repr

inductive ConfigError
  | undecodable
  | file
  | dimensions (width height : Nat)
  | emptyParticleName
  | topology (board rules : Topology)
  deriving DecidableEq, Repr

def ConfigError.message : ConfigError → String
  | .undecodable => "JSON error"
  | .file => "IO error"
  | .dimensions width height =>
    "invalid board dimensions " ++ toString width ++ "x" ++ toString height
  | .emptyParticleName => "empty particle name must not be empty"
  | .topology board rules =>
    "board topology " ++ board.label ++ " does not match rule topology " ++ rules.label

namespace BoardConfig

open Json

def validate (c : BoardConfig) : Except ConfigError Unit :=
  if c.width = 0 ∨ c.height = 0 then .error (.dimensions c.width c.height)
  else if c.emptyParticle = "" then .error .emptyParticleName
  else .ok ()

/-- Every field has a default. -/
def ofJson? (v : Json) : Option BoardConfig := do
  let fs ← v.fields? ["width", "height", "topology", "seed", "empty_particle", "max_name_len",
    "cache_flush_threshold", "monitor_interval_ms", "address"]
  let base : BoardConfig := {}
  some {
    width := ← fs.withDefault "width" base.width toWord?
    height := ← fs.withDefault "height" base.height toWord?
    topology := ← fs.withDefault "topology" base.topology toTopology?
    seed := ← fs.withDefault "seed" base.seed (toOption? toWord?)
    emptyParticle := ← fs.withDefault "empty_particle" base.emptyParticle toString?
    maxNameLen := ← fs.withDefault "max_name_len" base.maxNameLen toWord?
    flushThreshold := ← fs.withDefault "cache_flush_threshold" base.flushThreshold toWord?
    monitorInterval := ← fs.withDefault "monitor_interval_ms" base.monitorInterval toWord?
    address := ← fs.withDefault "address" base.address toString? }

def ofText? (text : String) : Except ConfigError BoardConfig := do
  let some c := (Json.parse? text.toList).bind ofJson? | .error .undecodable
  c.validate
  .ok c

end BoardConfig

end ParticleAutomaton
