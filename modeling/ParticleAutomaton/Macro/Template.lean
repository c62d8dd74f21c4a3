import ParticleAutomaton.Text.Integer

namespace ParticleAutomaton

/-- A direction seen from the direction of the rule. -/
inductive Turn
  | ahead
  | back
  | left (steps : Nat)
  | right (steps : Nat)
  deriving DecidableEq, Repr

/-- A piece of a template: a character that stands for itself or a directive. -/
inductive Piece
  | literal (c : Char)
  | direction (turn : Turn)
  | source
  | target
  | group (n : Nat)
  | plus (delta n : Nat)
  | minus (delta n : Nat)
  | modulo (modulus delta n : Nat)
  deriving DecidableEq, Repr

namespace Piece

open Text

/-- An amount and a group, `d.n`; the amount is one in `n` and in `.n`. -/
def operands? (cs : List Char) : Option ((Nat × Nat) × List Char) :=
  match number? cs with
  | some (d, '.' :: rest) => (number? rest).map fun (n, rest) => ((d, n), rest)
  | some (n, rest) => some ((1, n), rest)
  | none =>
    match cs with
    | '.' :: rest => (number? rest).map fun (n, rest) => ((1, n), rest)
    | _ => none

/-- How often the letter at the front stands there in a row, up to three times. -/
def run (letter : Char) (cs : List Char) : Nat := ((cs.take 3).takeWhile (· == letter)).length

/-- The directive that starts after a dollar sign, and the rest. -/
def directive? : List Char → Option (Piece × List Char)
  | '$' :: cs => some (.literal '$', cs)
  | 'F' :: cs => some (.direction .ahead, cs)
  | 'B' :: cs => some (.direction .back, cs)
  | 'L' :: cs => let n := run 'L' ('L' :: cs); some (.direction (.left n), cs.drop (n - 1))
  | 'R' :: cs => let n := run 'R' ('R' :: cs); some (.direction (.right n), cs.drop (n - 1))
  | 'S' :: cs => some (.source, cs)
  | 'T' :: cs => some (.target, cs)
  | '+' :: cs => (operands? cs).map fun ((d, n), rest) => (.plus d n, rest)
  | '-' :: cs => (operands? cs).map fun ((d, n), rest) => (.minus d n, rest)
  | '%' :: cs =>
    match number? cs with
    | some (m, '+' :: rest) =>
      if m = 0 then none
      else (operands? rest).map fun ((d, n), rest) => (.modulo m d n, rest)
    | _ => none
  | cs => (number? cs).map fun (n, rest) => (.group n, rest)

theorem operands?_length {cs rest : List Char} {p : Nat × Nat}
    (h : operands? cs = some (p, rest)) : rest.length < cs.length := by
  unfold operands? at h
  split at h
  next d r hn =>
    obtain ⟨⟨n, r'⟩, hr, he⟩ := Option.map_eq_some_iff.mp h
    cases he
    have h₁ := number?_length hn
    have h₂ := number?_length hr
    simp only [List.length_cons] at h₁
    omega
  next n r _ hn =>
    cases h
    exact number?_length hn
  next =>
    split at h
    next r =>
      obtain ⟨⟨n, r'⟩, hr, he⟩ := Option.map_eq_some_iff.mp h
      cases he
      have := number?_length hr
      simp only [List.length_cons]
      omega
    next => simp at h

theorem directive?_length {cs rest : List Char} {p : Piece}
    (h : directive? cs = some (p, rest)) : rest.length < cs.length := by
  unfold directive? at h
  split at h
  case h_4 | h_5 => cases h; simp only [List.length_drop, List.length_cons]; omega
  case h_8 | h_9 =>
    obtain ⟨⟨q, r⟩, hr, he⟩ := Option.map_eq_some_iff.mp h
    cases he
    exact Nat.lt_succ_of_lt (operands?_length hr)
  case h_10 =>
    split at h
    next m r hn =>
      split at h
      next => simp at h
      next =>
        obtain ⟨⟨q, r'⟩, hr, he⟩ := Option.map_eq_some_iff.mp h
        cases he
        have h₁ := number?_length hn
        have h₂ := operands?_length hr
        simp only [List.length_cons] at h₁ ⊢
        omega
    next => simp at h
  case h_11 =>
    obtain ⟨⟨n, r⟩, hr, he⟩ := Option.map_eq_some_iff.mp h
    cases he
    exact number?_length hr
  all_goals cases h; exact Nat.lt_succ_self _

/-- A dollar sign that starts no directive stands for itself. -/
def ofText : List Char → List Piece
  | [] => []
  | c :: cs =>
    if c = '$' then
      match _h : directive? cs with
      | some (p, rest) => p :: ofText rest
      | none => .literal '$' :: ofText cs
    else .literal c :: ofText cs
termination_by cs => cs.length
decreasing_by
  all_goals simp only [List.length_cons]
  · exact Nat.lt_succ_of_lt (directive?_length _h)
  all_goals omega

end Piece

/-- A text with directives, cut into pieces once and expanded many times. -/
structure Template where
  text : String
  pieces : List Piece
  deriving DecidableEq, Repr

/-- Every text is a template. -/
def Template.parse (text : String) : Template := ⟨text, Piece.ofText text.toList⟩

end ParticleAutomaton
