import ParticleAutomaton.Decimal.Shortest

namespace ParticleAutomaton

/-- The numbers that rates, lengths, angles and energies are computed with. -/
class Scalar (R : Type) extends Zero R, One R, Add R, Sub R, Mul R, Div R, Neg R, LT R, LE R where
  decideLT : DecidableLT R
  decideLE : DecidableLE R
  ofInt : Int → R
  sqrt : R → R
  /-- The angle, in degrees from 0 to 180, with this cross product and this dot product. -/
  turn : R → R → R
  tenPow : R → R
  /-- The greatest whole number that is not above the argument. -/
  floor : R → R
  /-- The whole part, from zero up. -/
  toNat : R → Nat
  /-- How a number is shown in a message. -/
  text : R → String

attribute [reducible, instance] Scalar.decideLT Scalar.decideLE

namespace Scalar

variable {R : Type} [Scalar R]

/-- The value, or the bound where the value is not below it. -/
def atMost (bound value : R) : R := if value < bound then value else bound

/-- The value, or the bound where the value is not above it. -/
def atLeast (bound value : R) : R := if bound < value then value else bound

/-- Terms are added from left to right, starting from zero. -/
def sum (terms : List R) : R := terms.foldl (· + ·) 0

theorem sum_nil : sum ([] : List R) = 0 := rfl

theorem sum_append_singleton (terms : List R) (x : R) :
    sum (terms ++ [x]) = sum terms + x := by
  simp [sum]

end Scalar

/-- A source of numbers from zero up to but not including one. -/
class Generator (R γ : Type) where
  next : γ → R × γ

/-- Degrees in one radian. -/
private def degreesPerRadian : Float := 180.0 / 3.141592653589793

instance : Scalar Float where
  zero := 0.0
  one := 1.0
  decideLT := inferInstance
  decideLE := inferInstance
  ofInt n := Float.ofInt n
  sqrt := Float.sqrt
  turn cross dot := (Float.atan2 cross dot).abs * degreesPerRadian
  tenPow x := Float.pow 10.0 x
  floor := Float.floor
  toNat x := x.toUInt64.toNat
  text := Decimal.plain

end ParticleAutomaton
