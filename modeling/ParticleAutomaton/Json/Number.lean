import ParticleAutomaton.Decimal.Shortest
import ParticleAutomaton.Json.Basic
import ParticleAutomaton.Text.Integer

namespace ParticleAutomaton

namespace Numeral

def isWhole (n : Numeral) : Bool := n.fraction.isEmpty && n.exponent.isNone

/-- The value of a whole number. The number minus zero is none. -/
def toInt? (n : Numeral) : Option Int :=
  let v := Text.ofDigits n.whole
  if !n.isWhole || (n.negative && v == 0) then none
  else some (if n.negative then -v else v)

/-- The first digits, as long as their value fits a word, and the digits that are left. -/
def gather : Nat → List Char → Nat × List Char
  | sig, [] => (sig, [])
  | sig, d :: ds =>
    let next := 10 * sig + Text.digitValue d
    if Text.maxUInt64 < next then (sig, d :: ds) else gather next ds

/-- Powers of ten are applied to the rounded digits, at most 308 at a time. -/
def scale? : Nat → Float → Int → Option Float
  | 0, _, _ => none
  | fuel + 1, x, e =>
    if e.natAbs ≤ 308 then
      let power := Float.ofScientific 1 false e.natAbs
      if 0 ≤ e then
        let y := x * power
        if y.isInf then none else some y
      else some (x / power)
    else if x == 0.0 then some x
    else if 0 ≤ e then none
    else scale? fuel (x / Float.ofScientific 1 false 308) (e + 308)

/-- The bound of the written powers of ten. -/
def maxExponent : Nat := 2147483647

/-- The number in floating point; none where it is too large. Digits of the whole part past a word
count as zeros, those of the fraction are dropped. -/
def toFloat? (n : Numeral) : Option Float :=
  let (whole, cut) := gather 0 n.whole
  let (sig, dropped) := gather whole n.fraction
  let point : Int := cut.length - (n.fraction.length - dropped.length : Nat)
  let size? : Option Float := match n.exponent with
    | none => if cut = [] ∧ n.fraction = [] then some sig.toUInt64.toFloat
        else scale? 4 sig.toUInt64.toFloat point
    | some (down, ds) =>
      let e := Text.ofDigits ds
      if maxExponent < e then if sig = 0 ∨ down then some 0.0 else none
      else scale? 4 sig.toUInt64.toFloat (if down then point - e else point + e)
  size?.map fun x => if n.negative then -x else x

/-- The float nearest to a number. -/
def nearest (n : Numeral) : Float :=
  let exponent : Int := match n.exponent with
    | none => 0
    | some (down, ds) => if down then -(Text.ofDigits ds : Int) else Text.ofDigits ds
  let e := exponent - n.fraction.length
  let x := Float.ofScientific (Text.ofDigits (n.whole ++ n.fraction)) (e < 0) e.natAbs
  if n.negative then -x else x

/-- A finite float with the fewest digits. Powers of ten are written below `1e-5` and from `1e16`
on; otherwise there is a digit behind the point. -/
def ofFloat (x : Float) : Numeral :=
  let negative := Decimal.isSigned x
  if x == 0.0 then ⟨negative, ['0'], ['0'], none⟩
  else
    let d := Decimal.ofBits .toEven x.abs.toBits
    let ds := Decimal.digitsOf d.digits
    let point := ds.length + d.exponent
    if -5 < point ∧ point ≤ 16 then
      let (whole, fraction) := Decimal.positional d
      ⟨negative, whole, if fraction = [] then ['0'] else fraction, none⟩
    else
      let e := point - 1
      ⟨negative, ds.take 1, ds.drop 1, some (e < 0, Decimal.digitsOf e.natAbs)⟩

end Numeral

/-- A float; what is not finite has no digits. -/
def Json.ofFloat (x : Float) : Json :=
  if x.isFinite then .number (.ofFloat x) else .null

end ParticleAutomaton
