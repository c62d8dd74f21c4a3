namespace ParticleAutomaton

/-- A positive decimal number: the value of the digits times a power of ten. -/
structure Decimal where
  digits : Nat
  exponent : Int
  deriving DecidableEq, Repr

namespace Decimal

/-- Which of two decimal numbers is taken where they are as near. -/
inductive Tie
  | toEven
  | up
  deriving DecidableEq, Repr

/-- The interval of numbers that a binary number stands for, in parts of `1 / den`. -/
structure Interval where
  value : Nat
  low : Nat
  high : Nat
  den : Nat
  /-- The ends belong to it. -/
  closed : Bool

namespace Interval

/-- The numbers nearer to `m * 2 ^ q` than to its neighbors. The gap below a power of two is half as
wide, unless the exponent is the least one. -/
def ofBinary (m : Nat) (q : Int) (narrow : Bool) : Interval :=
  let unit := Nat.pow 2 q.toNat
  ⟨4 * m * unit, (4 * m - if narrow then 1 else 2) * unit, (4 * m + 2) * unit,
    4 * Nat.pow 2 (-q).toNat, m % 2 == 0⟩

/-- The number `d * 10 ^ e` lies in the interval. -/
def contains (i : Interval) (d : Nat) (e : Int) : Bool :=
  let x := d * Nat.pow 10 e.toNat * i.den
  let scale := Nat.pow 10 (-e).toNat
  if i.closed then i.low * scale ≤ x && x ≤ i.high * scale
  else i.low * scale < x && x < i.high * scale

/-- The multiple of `10 ^ e` in the interval that is nearest to the value, if there is one. -/
def nearest? (i : Interval) (tie : Tie) (e : Int) : Option Nat :=
  let num := i.value * Nat.pow 10 (-e).toNat
  let den := i.den * Nat.pow 10 e.toNat
  let below := num / den
  let twice := 2 * (num % den)
  let up := den < twice || (twice == den && (tie == .up || below % 2 == 1))
  let (first, second) := if up then (below + 1, below) else (below, below + 1)
  if i.contains first e then some first
  else if i.contains second e then some second
  else none

/-- The least `k` from a start on with the value below `10 ^ k`, looked for in `fuel` steps. -/
def magnitude (i : Interval) : Nat → Int → Int
  | 0, k => k
  | fuel + 1, k =>
    if i.value * Nat.pow 10 (-k).toNat < Nat.pow 10 k.toNat * i.den then k
    else magnitude i fuel (k + 1)

/-- The decimal number with the fewest digits in the interval. -/
def shortest (i : Interval) (tie : Tie) (start : Int) : Decimal :=
  let k := i.magnitude 700 start
  let found := (List.range 17).findSome? fun n =>
    let e := k - (n + 1 : Nat)
    (i.nearest? tie e).map fun d => (⟨d, e⟩ : Decimal)
  found.getD ⟨i.value / i.den, 0⟩

end Interval

/-- Zeros at the end of the digits become part of the power. -/
def trim : Nat → Decimal → Decimal
  | 0, d => d
  | fuel + 1, d =>
    if d.digits % 10 = 0 ∧ d.digits ≠ 0 then trim fuel ⟨d.digits / 10, d.exponent + 1⟩ else d

/-- The bit in front of the fraction of a float, which its 64 bits do not hold. -/
def leadingBit : Nat := 4503599627370496

/-- The sign bit is set; zero can have one. -/
def isSigned (x : Float) : Bool := 0x8000000000000000 ≤ x.toBits

/-- The fewest digits that read back as a positive finite number, given by its 64 bits. -/
def ofBits (tie : Tie) (bits : UInt64) : Decimal :=
  let fraction : Nat := bits.toNat % leadingBit
  let biased : Nat := bits.toNat / leadingBit % 2048
  let (m, q) : Nat × Int :=
    if biased = 0 then (fraction, -1074) else (fraction + leadingBit, (biased : Int) - 1075)
  let start : Int := if biased = 0 then -324 else ((biased : Int) - 1023) * 30103 / 100000
  trim 20 ((Interval.ofBinary m q (fraction = 0 ∧ 1 < biased)).shortest tie start)

def digitsOf (n : Nat) : List Char := Nat.toDigits 10 n

/-- A number without a power of ten: zeros fill the places up to the point. -/
def positional (d : Decimal) : List Char × List Char :=
  let ds := digitsOf d.digits
  if 0 ≤ d.exponent then (ds ++ List.replicate d.exponent.toNat '0', [])
  else
    let places := (-d.exponent).toNat
    if ds.length ≤ places then (['0'], List.replicate (places - ds.length) '0' ++ ds)
    else (ds.take (ds.length - places), ds.drop (ds.length - places))

/-- A float in words and digits, without a power of ten and without a needless point. -/
def plain (x : Float) : String :=
  if x.isNaN then "NaN"
  else
    let sign := if isSigned x then "-" else ""
    if x.isInf then sign ++ "inf"
    else if x == 0.0 then sign ++ "0"
    else
      let (whole, fraction) := positional (ofBits .up x.abs.toBits)
      let tail := if fraction.isEmpty then [] else '.' :: fraction
      sign ++ String.ofList (whole ++ tail)

end Decimal

end ParticleAutomaton
