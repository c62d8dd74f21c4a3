namespace ParticleAutomaton.Text

def digitValue (c : Char) : Nat := c.toNat - '0'.toNat

/-- The number that decimal digits stand for. -/
def ofDigits (ds : List Char) : Nat := ds.foldl (fun n c => 10 * n + digitValue c) 0

/-- Digits and nothing else, at least one. -/
def natural? (cs : List Char) : Option Nat :=
  if cs ≠ [] ∧ cs.all Char.isDigit then some (ofDigits cs) else none

/-- Digits, after a plus sign or none. -/
def unsigned? : List Char → Option Nat
  | '+' :: cs => natural? cs
  | cs => natural? cs

def maxInt64 : Nat := 9223372036854775807

def maxUInt64 : Nat := 18446744073709551615

def fitsInt64 (n : Int) : Bool := -9223372036854775808 ≤ n && n ≤ 9223372036854775807

/-- Digits after an optional sign; the value fits a signed word of 64 bits. -/
def int64? (cs : List Char) : Option Int :=
  let value : Option Int := match cs with
    | '-' :: ds => (natural? ds).map fun n => -(n : Int)
    | ds => (unsigned? ds).map fun n => (n : Int)
  value.filter fitsInt64

/-- The digits at the front, as a number that fits a signed word of 64 bits, and the rest. -/
def number? (cs : List Char) : Option (Nat × List Char) :=
  let ds := cs.takeWhile Char.isDigit
  let n := ofDigits ds
  if ds ≠ [] ∧ n ≤ maxInt64 then some (n, cs.dropWhile Char.isDigit) else none

theorem number?_length {cs rest : List Char} {n : Nat} (h : number? cs = some (n, rest)) :
    rest.length < cs.length := by
  unfold number? at h
  dsimp only at h
  split at h
  next hd =>
    obtain ⟨-, rfl⟩ := Prod.mk.inj (Option.some.inj h)
    have hs : (cs.takeWhile Char.isDigit ++ cs.dropWhile Char.isDigit).length = cs.length := by
      rw [List.takeWhile_append_dropWhile]
    have hp := List.length_pos_iff.mpr hd.1
    rw [List.length_append] at hs
    omega
  next => simp at h

end ParticleAutomaton.Text
