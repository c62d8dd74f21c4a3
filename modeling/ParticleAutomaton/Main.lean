import ParticleAutomaton.CommandLine

namespace ParticleAutomaton

/-- The text of a file, if it can be read. -/
def readText? (path : String) : IO (Option String) := do
  try
    return String.fromUTF8? (← IO.FS.readBinFile path)
  catch _ => return none

/-- Runs a board and saves it where that is asked for. -/
def runCommand (args : List String) : IO (Except CommandError Unit) := do
  match Arguments.parse args with
  | .error e => return .error e
  | .ok a =>
    let paths := a.config.toList ++ a.rules.toList
    let files ← paths.mapM fun path => return (path, ← readText? path)
    let entropy ← IO.rand 0 Text.maxUInt64
    match Board.ofArguments a (fun path => (files.lookup path).join) entropy.toUInt64 with
    | .error e => return .error e
    | .ok board =>
      match a.save with
      | none => return .ok ()
      | some path =>
        try
          IO.FS.writeBinFile path ⟨(board.snapshot.toFile path).toArray⟩
          return .ok ()
        catch _ => return .error (.unwritable path)

end ParticleAutomaton

def main (args : List String) : IO UInt32 := do
  match ← ParticleAutomaton.runCommand args with
  | .ok () => return 0
  | .error e =>
    IO.eprintln ("Error: " ++ e.message)
    return 1
