import ParticleAutomaton.Text.Quoted

namespace ParticleAutomaton

/-- A broken promise of the caller. The operation that meets one changes nothing. -/
inductive Fault
  | sourceBound (name : String)
  | targetBound (name : String)
  | targetBeforeSource
  | expandUnbound
  | badWeight (weight : String)
  | treeSize (size : Nat)
  | eventBound
  | countUnderflow (name : String)
  | outOfBounds (index size : Nat)
  deriving DecidableEq, Repr, Inhabited

def Fault.message : Fault → String
  | .sourceBound name => "source slot already bound to Some(" ++ Text.quoted name ++ ")"
  | .targetBound name => "target slot already bound to Some(" ++ Text.quoted name ++ ")"
  | .targetBeforeSource => "target bound before source"
  | .expandUnbound => "expanding a rule template before both slots are bound"
  | .badWeight weight => "sampler weights must be non-negative, got " ++ weight
  | .treeSize size => "quad-tree size must be a power of two, got " ++ toString size
  | .eventBound => "update event bound twice"
  | .countUnderflow name => "count underflow for '" ++ name ++ "'"
  | .outOfBounds index size =>
    "index out of bounds: the len is " ++ toString size ++ " but the index is " ++ toString index

namespace Indexed

variable {α : Type}

/-- The entry at an index, which has to be inside. -/
def read (xs : Array α) (i : Nat) : Except Fault α :=
  match xs[i]? with
  | some x => .ok x
  | none => .error (.outOfBounds i xs.size)

def write (xs : Array α) (i : Nat) (x : α) : Except Fault (Array α) :=
  if i < xs.size then .ok (xs.setIfInBounds i x) else .error (.outOfBounds i xs.size)

/-- The entries from an index on, which may be the end. -/
def onward (xs : Array α) (i : Nat) : Except Fault (List α) :=
  if i ≤ xs.size then .ok (xs.toList.drop i) else .error (.outOfBounds i xs.size)

/-- Takes an entry out. The last one takes its place. -/
def swapRemove (xs : Array α) (i : Nat) : Except Fault (α × Array α) := do
  let x ← read xs i
  let last ← read xs (xs.size - 1)
  let xs ← write xs i last
  .ok (x, xs.pop)

theorem read_ok {xs : Array α} {i : Nat} {x : α} (h : xs[i]? = some x) : read xs i = .ok x := by
  unfold read
  rw [h]

theorem write_ok {xs : Array α} {i : Nat} (h : i < xs.size) (x : α) :
    write xs i x = .ok (xs.setIfInBounds i x) := if_pos h

theorem onward_ok {xs : Array α} {i : Nat} (h : i ≤ xs.size) :
    onward xs i = .ok (xs.toList.drop i) := if_pos h

end Indexed

end ParticleAutomaton
