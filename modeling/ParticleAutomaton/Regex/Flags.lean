namespace ParticleAutomaton.Regex

/-- How the text of a pattern is read from some place on. -/
structure Flags where
  ignoreCase : Bool := false
  multiLine : Bool := false
  dotAll : Bool := false
  swapGreed : Bool := false
  /-- Classes and cases know the ASCII characters only. -/
  ascii : Bool := false
  /-- A carriage return ends a line too. -/
  crlf : Bool := false
  /-- Blanks and comments between the parts are left out. -/
  verbose : Bool := false
  deriving DecidableEq, Repr

namespace Flags

/-- The flag that a letter names, as a change to all of them. -/
def set? (letter : Char) (on : Bool) (f : Flags) : Option Flags :=
  match letter with
  | 'i' => some { f with ignoreCase := on }
  | 'm' => some { f with multiLine := on }
  | 's' => some { f with dotAll := on }
  | 'U' => some { f with swapGreed := on }
  | 'u' => some { f with ascii := !on }
  | 'R' => some { f with crlf := on }
  | 'x' => some { f with verbose := on }
  | _ => none

/-- The letters of a change, each at most once; those after the hyphen turn a flag off. The hyphen
does not stand at the end. -/
def change? (letters : List Char) (f : Flags) : Option Flags :=
  if letters.getLast? = some '-' ∨ letters.eraseDups.length ≠ letters.length then none
  else
    let on := letters.takeWhile (· != '-')
    let off := (letters.dropWhile (· != '-')).drop 1
    (on.foldlM (fun f c => set? c true f) f).bind fun f =>
      off.foldlM (fun f c => set? c false f) f

end Flags

end ParticleAutomaton.Regex
