import ParticleAutomaton.Board.Image
import ParticleAutomaton.Board.Inbound
import ParticleAutomaton.Board.Saved
import ParticleAutomaton.Proofs.Results
import Mathlib.Logic.Relation

namespace ParticleAutomaton

/-- What can be done with a board. -/
inductive Operation (R : Type)
  | set (p : Point) (name : String)
  | fill (name : String)
  | addBond (bond : Bond)
  | removeBonds (p : Point)
  | connect (p : Point) (cell : RemoteCell)
  | step
  | update (attempts : Nat)
  | tick
  | handle (m : Message R)
  | handleText (text : String)
  | restore (s : Snapshot)
  | paint (image : Image)
  | flush

/-- What an operation tells. -/
inductive Answer
  | done
  | flag (b : Bool)
  | outcome (o : StepOutcome)
  | stats (s : UpdateStats)
  | restored (r : Except SnapshotError Unit)
  | number (n : Nat)

namespace Operation

variable {R γ : Type} [Scalar R] [Generator R γ] [MessageReader R]

def run (b : Board R γ) : Operation R → Except Fault (Answer × Board R γ)
  | .set p name => (b.set p name).map fun (done, b) => (.flag done, b)
  | .fill name => (b.fill name).map fun b => (.done, b)
  | .addBond bond => let (done, b) := b.addBond bond; .ok (.flag done, b)
  | .removeBonds p => .ok (.done, b.removeBonds p)
  | .connect p cell => let (done, b) := b.connect p cell; .ok (.flag done, b)
  | .step => b.step.map fun (o, b) => (.outcome o, b)
  | .update attempts => (b.update attempts).map fun (s, b) => (.stats s, b)
  | .tick => b.tick.map fun (s, b) => (.stats s, b)
  | .handle m => (b.handle m).map fun b => (.done, b)
  | .handleText text => (b.handleText text).map fun b => (.done, b)
  | .restore s => (b.restore s).map fun (r, b) => (.restored r, b)
  | .paint image => (b.paint image).map fun (n, b) => (.number n, b)
  | .flush => let (n, b) := b.flush; .ok (.number n, b)

/-- A run of operations with all their answers. -/
def runAll (b : Board R γ) : List (Operation R) → Except Fault (List Answer × Board R γ)
  | [] => .ok ([], b)
  | op :: ops => do
    let (answer, b) ← op.run b
    let (answers, b) ← runAll b ops
    .ok (answer :: answers, b)

variable {b c d : Board R γ}

theorem runAll_singleton {op : Operation R} {answer : Answer} (h : op.run b = .ok (answer, c)) :
    runAll b [op] = .ok ([answer], c) := by
  rw [runAll, h, ok_bind]
  rfl

theorem runAll_append {ops more : List (Operation R)} {answers rest : List Answer}
    (h : runAll b ops = .ok (answers, c)) (hmore : runAll c more = .ok (rest, d)) :
    runAll b (ops ++ more) = .ok (answers ++ rest, d) := by
  induction ops generalizing b answers with
  | nil =>
    cases h
    exact hmore
  | cons op ops ih =>
    rw [runAll] at h
    obtain ⟨s, hs, h⟩ := bind_eq_ok.mp h
    obtain ⟨t, ht, h⟩ := bind_eq_ok.mp h
    cases h
    rw [List.cons_append, runAll, hs, ok_bind]
    simp only
    rw [ih ht]
    rfl

end Operation

namespace Board

variable {R γ : Type} [Scalar R] [Generator R γ] [MessageReader R]

/-- One operation turns a board into another one. -/
def Turns (b c : Board R γ) : Prop := ∃ (op : Operation R) (a : Answer), op.run b = .ok (a, c)

/-- Operations turn a board into another one. -/
def Reaches : Board R γ → Board R γ → Prop := Relation.ReflTransGen Turns

/-- Operations make a board out of a new one. -/
def Reachable (c : Board R γ) : Prop :=
  ∃ config rules random b, new config rules random = .ok b ∧ b.Reaches c

theorem reaches_of_runAll {b c : Board R γ} {ops : List (Operation R)} {answers : List Answer}
    (h : Operation.runAll b ops = .ok (answers, c)) : b.Reaches c := by
  induction ops generalizing b answers with
  | nil =>
    cases h
    exact .refl
  | cons op ops ih =>
    rw [Operation.runAll, bind_eq_ok] at h
    obtain ⟨s, hs, h⟩ := h
    obtain ⟨t, ht, h⟩ := bind_eq_ok.mp h
    cases h
    exact .head ⟨op, s.1, hs⟩ (ih ht)

/-- A run takes a board that operations can make to another one. -/
theorem Reachable.runAll {b c : Board R γ} (h : b.Reachable) {ops : List (Operation R)}
    {answers : List Answer} (ho : Operation.runAll b ops = .ok (answers, c)) : c.Reachable := by
  obtain ⟨config, rules, random, a, hn, ha⟩ := h
  exact ⟨config, rules, random, a, hn, ha.trans (reaches_of_runAll ho)⟩

end Board

end ParticleAutomaton
