import ParticleAutomaton.Sampling.ChaCha
import ParticleAutomaton.Scalar

namespace ParticleAutomaton

/-- Where random numbers come from. -/
inductive Stream
  /-- Given numbers, over and over; a half if there are none. -/
  | cycle (draws : Array Float) (place : Nat)
  /-- A counter whose value is scrambled. -/
  | mix (state : UInt64)
  /-- A cipher, with the numbers of its current block that are not used yet. -/
  | cipher (chacha : ChaCha) (ready : List UInt64)

/-- A stream that counts the numbers taken from it. -/
structure RandomSource where
  stream : Stream
  taken : Nat := 0

namespace RandomSource

def ofDraws (draws : List Float) : RandomSource :=
  ⟨.cycle (if draws.isEmpty then #[0.5] else draws.toArray) 0, 0⟩

def ofMix (state : UInt64) : RandomSource := ⟨.mix state, 0⟩

def ofSeed (seed : UInt64) : RandomSource := ⟨.cipher (ChaCha.ofSeed seed) [], 0⟩

/-- A word as a fraction of one, by its highest 53 bits. -/
def fraction (word : UInt64) : Float := (word >>> 11).toFloat / 9007199254740992.0

def scramble (z : UInt64) : UInt64 :=
  let z := (z ^^^ (z >>> 30)) * 0xbf58476d1ce4e5b9
  let z := (z ^^^ (z >>> 27)) * 0x94d049bb133111eb
  z ^^^ (z >>> 31)

def nextRaw : Stream → (Float ⊕ UInt64) × Stream
  | .cycle draws place =>
    (.inl ((draws[place % draws.size]?).getD 0.5), .cycle draws (place + 1))
  | .mix state =>
    let state := state + 0x9e3779b97f4a7c15
    (.inr (scramble state), .mix state)
  | .cipher chacha (word :: ready) => (.inr word, .cipher chacha ready)
  | .cipher chacha [] =>
    let ws := ChaCha.pairs chacha.words
    (.inr (ws.headD 0), .cipher ⟨chacha.key, chacha.block + 1⟩ (ws.drop 1))

/-- The next number below one. -/
def nextFloat (s : RandomSource) : Float × RandomSource :=
  let (raw, stream) := nextRaw s.stream
  (raw.elim id fraction, ⟨stream, s.taken + 1⟩)

/-- The next word. A given number counts by its whole part. -/
def nextWord (s : RandomSource) : UInt64 × RandomSource :=
  let (raw, stream) := nextRaw s.stream
  (raw.elim Float.toUInt64 id, ⟨stream, s.taken + 1⟩)

instance : Generator Float RandomSource := ⟨nextFloat⟩

end RandomSource

/-- A whole number below a bound; zero, without a draw, if the bound is zero. -/
def Generator.below {R γ : Type} [Scalar R] [Generator R γ] (bound : Nat) (g : γ) : Nat × γ :=
  if bound = 0 then (0, g)
  else
    let (u, g) := Generator.next (R := R) g
    (min (Scalar.toNat (u * Scalar.ofInt bound)) (bound - 1), g)

/-- An event of a probability. -/
def Generator.chance {R γ : Type} [Scalar R] [Generator R γ] (p : R) (g : γ) : Bool × γ :=
  let (u, g) := Generator.next (R := R) g
  (u < p, g)

end ParticleAutomaton
