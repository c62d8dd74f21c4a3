import ParticleAutomaton.Board.Step
import ParticleAutomaton.Remote.MessageText

namespace ParticleAutomaton.Board

variable {R γ : Type} [Scalar R] [Generator R γ]

/-- Changes a cell as the neighbor of a source on another board. The new state of the source is told
with the energy; where nothing is changed that is the old one. -/
def evolveTarget (b : Board R γ) (m : EvolveRequest R) :
    Except Fault (String × R × Board R γ) := do
  match b.grid.get? m.target with
  | none => .ok (m.sourceState, 0, b)
  | some c =>
    if b.topology.count ≤ m.dir then .ok (m.sourceState, 0, b)
    else
      let (source, registry) := b.registry.intern m.sourceState
      let (outcome, registry, random) ← registry.samplePair source m.dir c.particle b.random
      let b := { b with registry, random }
      match outcome with
      | none => .ok (m.sourceState, 0, b)
      | some outcome =>
        if outcome.isIdle then .ok (m.sourceState, 0, b)
        else
          let place := m.target - b.topology.offset m.dir
          let event := UpdateEvent.ofRemote place m.target m.dir source c.particle outcome
          let newState := b.registry.name outcome.newSource
          let (result, delta, b) ← b.propose event m.barrier
          if result = .accepted then .ok (newState, delta, b) else .ok (m.sourceState, 0, b)

/-- Writes the new state of a source, unless the source was written since the request. -/
def applyReply (b : Board R γ) (m : EvolveReply R) : Except Fault (Board R γ) := do
  match b.grid.get? m.source with
  | none => .ok b
  | some c =>
    if c.writes ≠ m.writes then .ok b
    else
      let (particle, registry) := b.registry.intern m.newState
      let b := { b with registry }
      if particle = c.particle then .ok b
      else
        let (touched, b) ← b.write m.source particle
        .ok (b.drawAll touched)

/-- A request is answered, whatever comes of it. -/
def handle (b : Board R γ) : Message R → Except Fault (Board R γ)
  | .evolve m => do
    let (newState, energy, b) ← b.evolveTarget m
    let reply : EvolveReply R := ⟨m.source, newState, m.writes, energy⟩
    .ok { b with journal := b.journal.send m.returnAddress (.reply reply) }
  | .reply m => b.applyReply m

def handleAll (b : Board R γ) (ms : List (Message R)) : Except Fault (Board R γ) :=
  ms.foldlM handle b

/-- A text that is no message is dropped. -/
def handleText [MessageReader R] (b : Board R γ) (text : String) : Except Fault (Board R γ) :=
  match MessageReader.read? text with
  | some m => b.handle m
  | none => .ok b

end ParticleAutomaton.Board
