import ParticleAutomaton.Text.Integer
import ParticleAutomaton.Unicode.CharSet

namespace ParticleAutomaton.Unicode

/-- A value for each code point: the starts of the runs of equal values, in order. -/
abbrev Runs (α : Type) := Array (Nat × α)

namespace Runs

/-- The starts that follow from the lengths of the runs. -/
def ofLengths {α : Type} (runs : List (α × Nat)) : Runs α :=
  (runs.foldl (fun (at', table) (v, n) => (at' + n, table.push (at', v))) (0, #[])).2

/-- The place, from `lo` on and before `hi`, of the last run that starts no later than a code. -/
def locate {α : Type} (table : Runs α) (code lo hi : Nat) : Nat :=
  if _h : lo + 1 < hi then
    let mid := (lo + hi) / 2
    match table[mid]? with
    | some (start, _) =>
      if start ≤ code then locate table code mid hi else locate table code lo mid
    | none => locate table code lo mid
  else lo
termination_by hi - lo

def get? {α : Type} (table : Runs α) (code : Nat) : Option α :=
  (table[locate table code 0 table.size]?).map Prod.snd

/-- The ranges of the runs with a value of a kind. -/
def rangesOf {α : Type} (kind : α → Bool) : List (Nat × α) → List CharRange
  | [] => []
  | [(start, v)] => if kind v then [⟨start, CharSet.maxCode⟩] else []
  | (start, v) :: (next, w) :: rest =>
    let more := rangesOf kind ((next, w) :: rest)
    if kind v then ⟨start, next - 1⟩ :: more else more

/-- The characters with a value of a kind. A range of numbers that starts or ends with one that
belongs to no character is left out. -/
def select {α : Type} (table : Runs α) (kind : α → Bool) : CharSet :=
  let merged := CharSet.ofRanges (rangesOf kind table.toList)
  ⟨merged.ranges.filter fun r => r.first.isValidChar && r.last.isValidChar⟩

end Runs

/-- The words of the lines of a table. -/
def words (lines : List String) : List (List Char) :=
  lines.flatMap fun line => (line.toList.splitOnP (· == ' '))

/-- The numbers of a word, which colons separate. -/
def numbers (word : List Char) : List Nat := (word.splitOnP (· == ':')).map Text.ofDigits

/-- Runs written as a value and a length each. -/
def numberRuns (lines : List String) : Runs Nat :=
  .ofLengths ((words lines).map fun w =>
    match numbers w with
    | [v, n] => (v, n)
    | _ => (0, 0))

/-- Ranges by the lengths of the runs outside and inside of them, in turn, from a number on. -/
def alternate : Nat → List Nat → List CharRange
  | start, outside :: inside :: rest =>
    let first := start + outside
    ⟨first, first + inside - 1⟩ :: alternate (first + inside) rest
  | _, _ => []

def setOfRuns (lines : List String) : CharSet :=
  ⟨alternate 0 ((words lines).map Text.ofDigits)⟩

end ParticleAutomaton.Unicode
