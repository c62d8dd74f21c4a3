namespace ParticleAutomaton

/-- A key of eight words and the number of the next block. -/
structure ChaCha where
  key : List UInt32
  block : UInt64
  deriving DecidableEq

namespace ChaCha

def rotateLeft (x : UInt32) (n : UInt32) : UInt32 := (x <<< n) ||| (x >>> (32 - n))

def quarter (s : Array UInt32) (a b c d : Nat) : Array UInt32 :=
  let s := half s a b d 16
  let s := half s c d b 12
  let s := half s a b d 8
  half s c d b 7
where
  /-- The second word is added to the first, which is mixed into the third. -/
  half (s : Array UInt32) (x y z : Nat) (turn : UInt32) : Array UInt32 :=
    let s := s.set! x (s[x]! + s[y]!)
    s.set! z (rotateLeft (s[z]! ^^^ s[x]!) turn)

def doubleRound (s : Array UInt32) : Array UInt32 :=
  let s := quarter s 0 4 8 12
  let s := quarter s 1 5 9 13
  let s := quarter s 2 6 10 14
  let s := quarter s 3 7 11 15
  let s := quarter s 0 5 10 15
  let s := quarter s 1 6 11 12
  let s := quarter s 2 7 8 13
  quarter s 3 4 9 14

def rounds : Nat → Array UInt32 → Array UInt32
  | 0, s => s
  | n + 1, s => rounds n (doubleRound s)

/-- The words `expand 32-byte k`. -/
def constants : List UInt32 := [0x61707865, 0x3320646e, 0x79622d32, 0x6b206574]

/-- The sixteen words of the next block, after twelve rounds. -/
def words (c : ChaCha) : List UInt32 :=
  let input := constants ++ c.key ++ [c.block.toUInt32, (c.block >>> 32).toUInt32, 0, 0]
  List.zipWith (· + ·) (rounds 6 input.toArray).toList input

/-- Eight words that a number is spread over, one for each step of a linear generator. -/
def keyWords : Nat → UInt64 → List UInt32
  | 0, _ => []
  | n + 1, s =>
    let s := s * 6364136223846793005 + 11634580027462260723
    let x := (((s >>> 18) ^^^ s) >>> 27).toUInt32
    let turn := (s >>> 59).toUInt32
    ((x >>> turn) ||| (x <<< ((32 - turn) &&& 31))) :: keyWords n s

def ofSeed (seed : UInt64) : ChaCha := ⟨keyWords 8 seed, 0⟩

/-- Words in pairs, the lower half first. -/
def pairs : List UInt32 → List UInt64
  | low :: high :: ws => (low.toUInt64 ||| (high.toUInt64 <<< 32)) :: pairs ws
  | _ => []

end ChaCha

end ParticleAutomaton
