namespace ParticleAutomaton

/-- A number in digits, as it is written. -/
structure Numeral where
  negative : Bool
  whole : List Char
  /-- The digits behind the point, none without a point. -/
  fraction : List Char
  /-- The sign and the digits of the power of ten. -/
  exponent : Option (Bool × List Char)
  deriving DecidableEq, Repr

/-- A text in the JSON notation, as a tree. Members are in the order of the text, and a name may
stand there several times. A string, or a name, with half of a surrogate pair has no value. -/
inductive Json
  | null
  | bool (b : Bool)
  | number (n : Numeral)
  | text (s : Option String)
  | array (items : List Json)
  | object (members : List (Option String × Json))
  deriving Repr, Inhabited

namespace Json

def str (s : String) : Json := .text (some s)

def ofInt (n : Int) : Json :=
  .number ⟨n < 0, Nat.toDigits 10 n.natAbs, [], none⟩

def ofNat (n : Nat) : Json := .ofInt n

/-- An object with names that differ. -/
def record (members : List (String × Json)) : Json :=
  .object (members.map fun (name, v) => (some name, v))

def ofOption {α : Type} (f : α → Json) : Option α → Json
  | none => .null
  | some a => f a

def list {α : Type} (f : α → Json) (xs : List α) : Json := .array (xs.map f)

mutual

/-- How deep arrays and objects nest. -/
def depth : Json → Nat
  | .array items => depthOfItems items + 1
  | .object members => depthOfMembers members + 1
  | _ => 0

def depthOfItems : List Json → Nat
  | [] => 0
  | v :: vs => max v.depth (depthOfItems vs)

def depthOfMembers : List (Option String × Json) → Nat
  | [] => 0
  | (_, v) :: vs => max v.depth (depthOfMembers vs)

end

end Json

end ParticleAutomaton
