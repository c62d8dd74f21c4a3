import ParticleAutomaton.Regex.Basic
import ParticleAutomaton.Regex.ByteRanges
import Std.Data.HashMap

namespace ParticleAutomaton.Regex

/-- The room that an automaton over bytes takes. -/
structure Footprint where
  states : Nat
  /-- The bytes of the lists that the states hold. -/
  listed : Nat
  deriving DecidableEq, Repr

namespace Footprint

/-- The bytes that an automaton may take. -/
def limit : Nat := 10485760

/-- The bytes of a state without its list. -/
def stateSize : Nat := 32

/-- The bytes of an entry in the list of a state that reads one of several bytes. -/
def rangeSize : Nat := 8

/-- The bytes of an entry in the list of a state that branches. -/
def branchSize : Nat := 4

def size (f : Footprint) : Nat := stateSize * f.states + f.listed

/-- More states, with the bytes of their lists, as long as there is room. -/
def add? (states listed : Nat) (f : Footprint) : Option Footprint :=
  let g : Footprint := ⟨f.states + states, f.listed + listed⟩
  if g.size ≤ limit then some g else none

/-- A state that reads one of several bytes. -/
def addRanges? (count : Nat) (f : Footprint) : Option Footprint := f.add? 1 (rangeSize * count)

/-- A state that branches. -/
def addBranches? (count : Nat) (f : Footprint) : Option Footprint := f.add? 1 (branchSize * count)

/-- The same growth several times over. -/
def times? (grow : Footprint → Option Footprint) : Nat → Footprint → Option Footprint
  | 0, f => some f
  | n + 1, f =>
    match grow f with
    | some f => times? grow n f
    | none => none

end Footprint

/-- A hash of numbers: each is mixed in by an exclusive or and a multiplication. -/
def mixAll (ns : List Nat) : UInt64 :=
  ns.foldl (fun h n => (h ^^^ n.toUInt64) * 1099511628211) 14695981039346656037

/-- States that were built before, by what they read. A place holds the latest only. -/
structure StateCache where
  places : Nat
  entries : Std.HashMap Nat (List Nat × Nat)

namespace StateCache

def empty (places : Nat) : StateCache := ⟨places, {}⟩

def place (c : StateCache) (key : List Nat) : Nat := (mixAll key).toNat % c.places

def find? (c : StateCache) (key : List Nat) : Option Nat :=
  match c.entries[c.place key]? with
  | some (known, id) => if known = key then some id else none
  | none => none

def insert (c : StateCache) (key : List Nat) (id : Nat) : StateCache :=
  { c with entries := c.entries.insert (c.place key) (key, id) }

end StateCache

/-- Neighbors with the same head together: the head and the tails. -/
def groupHeads {α : Type} [BEq α] : List (List α) → List (α × List (List α))
  | [] => []
  | [] :: rest => groupHeads rest
  | (x :: xs) :: rest =>
    match groupHeads rest with
    | (y, tails) :: groups =>
      if x == y then (x, xs :: tails) :: groups else (x, [xs]) :: (y, tails) :: groups
    | [] => [(x, [xs])]

/-- A footprint that grows with states that can be shared. -/
abbrev Sharing := StateCache × Footprint

/-- The number of the state that reads sequences of bytes in order, built after all that it leads
to. Sequences take at most `fuel` bytes, and all lead to one target. -/
def sequenceState? (target : Nat) : Nat → List (List ByteRange) → Sharing → Option (Nat × Sharing)
  | 0, _, g => some (target, g)
  | fuel + 1, seqs, g => do
    let (key, g) ← (groupHeads seqs).foldlM (fun (key, g) (r, tails) => do
      let (id, g) ←
        if tails.all List.isEmpty then some (target, g) else sequenceState? target fuel tails g
      some (key ++ [r.first, r.last, id], g)) (([] : List Nat), g)
    let (cache, f) := g
    match cache.find? key with
    | some id => some (id, g)
    | none =>
      let id := f.states
      let f ← f.addRanges? (key.length / 3)
      some (id, (cache.insert key id, f))

namespace Footprint

/-- The states that read a character of a set; those for the last bytes are shared. -/
def addSet? (s : CharSet) (f : Footprint) : Option Footprint := do
  let target := f.states
  let f ← f.add? 1 0
  let (_, _, f) ← sequenceState? target 4 s.byteRanges (StateCache.empty 10000, f)
  some f

/-- The states that read the bytes of a sequence from the last one to the first one. -/
def addBackward? (target : Nat) : List ByteRange → Sharing → Option Sharing
  | [], g => some g
  | r :: rs, (cache, f) =>
    let key := [target, r.first, r.last]
    match cache.find? key with
    | some id => addBackward? id rs (cache, f)
    | none => do
      let id := f.states
      let f ← f.add? 1 0
      addBackward? id rs (cache.insert key id, f)

/-- The states that read a character of a set from its last byte to its first one. -/
def addSetBackward? (s : CharSet) (f : Footprint) : Option Footprint := do
  let seqs := s.byteRanges
  let target := f.states + 1
  let f ← f.addBranches? seqs.length
  let f ← f.add? 1 0
  let (_, f) ← seqs.foldlM (fun g seq => addBackward? target seq g) (StateCache.empty 1000, f)
  some f

end Footprint

/-- The bytes of a text. -/
def utf8 (cs : List Char) : List Nat := cs.flatMap fun c => CharRange.bytesOf c.toNat

/-- Words up to those that are empty. -/
def splitEmpty {α : Type} : List (List α) → List (List (List α))
  | [] => [[]]
  | [] :: rest => [] :: splitEmpty rest
  | w :: rest =>
    match splitEmpty rest with
    | chunk :: chunks => (w :: chunk) :: chunks
    | [] => [[w]]

/-- Words with at most one that is empty at the front. -/
def trimEmpty {α : Type} (words : List (List α)) : List (List α) :=
  let rest := words.dropWhile List.isEmpty
  if rest.length < words.length then [] :: rest else rest

/-- The words with a head, by their heads. -/
def byHead (words : List (List Nat)) : List (List (List Nat)) :=
  (words.filterMap List.head?).eraseDups.map fun b =>
    words.filterMap fun
      | c :: cs => if c = b then some cs else none
      | [] => none

/-- A tree of words grows by the states for words that follow a branch. -/
def addWords? : Nat → List (List Nat) → Footprint → Option Footprint
  | 0, _, f => some f
  | fuel + 1, words, f => do
    let chunks := splitEmpty (trimEmpty words)
    let children := chunks.map byHead
    let f ← children.foldlM (fun f heads => heads.foldlM (fun f tails =>
      if tails.all List.isEmpty then some f else addWords? fuel tails f) f) f
    let full := children.filter fun heads => !heads.isEmpty
    let f ← full.foldlM (fun f heads =>
      if heads.length = 1 then f.add? 1 0 else f.addRanges? heads.length) f
    f.addBranches? (full.length + (chunks.length - 1))

/-- The texts of alternatives, if all are texts. -/
def texts? : Regex → Option (List (List Char))
  | .alt (.text cs) rest => (texts? rest).map (cs :: ·)
  | .text cs => some [cs]
  | _ => none

namespace Footprint

/-- A tree of words with the state at its end. -/
def addChoice? (backward : Bool) (texts : List (List Char)) (f : Footprint) :
    Option Footprint := do
  let words := texts.map fun cs => if backward then (utf8 cs).reverse else utf8 cs
  let f ← f.add? 1 0
  addWords? (words.foldl (fun n w => max n w.length) 0 + 1) words f

/-- A footprint with the states of an expression, read forwards or backwards. The flag `follows`
tells that the expression is a further alternative of a branch that is there already. -/
def addRegex? (backward : Bool) : Regex → Bool → Footprint → Option Footprint
  | .empty, _, f | .anchor _, _, f => f.add? 1 0
  | .text cs, _, f => f.add? (utf8 cs).length 0
  | .one set ascii, _, f =>
    if ascii || set.isAscii then (f.add? 1 0).bind (addRanges? set.ranges.length)
    else if backward then f.addSetBackward? set
    else f.addSet? set
  | .group _ e, _, f =>
    if backward then addRegex? backward e false f
    else do (← addRegex? backward e false (← f.add? 1 0)).add? 1 0
  | .seq a b, _, f =>
    if backward then (addRegex? backward b false f).bind (addRegex? backward a false)
    else (addRegex? backward a false f).bind (addRegex? backward b false)
  | .alt a b, true, f => do
    (← addRegex? backward a false f).add? 0 branchSize >>= addRegex? backward b true
  | .alt a b, false, f =>
    match texts? (.alt a b) with
    | some texts => f.addChoice? backward texts
    | none => do
      let f ← addRegex? backward a false f
      match b with
      | .alt c d =>
        let f ← addRegex? backward c false f
        let f ← (← f.addBranches? 3).add? 1 0
        addRegex? backward d true f
      | b => do (← (← addRegex? backward b false f).addBranches? 2).add? 1 0
  | .times e min max _, _, f =>
    let once := addRegex? backward e false
    match min, max with
    | 0, some 1 => do (← once (← f.addBranches? 2)).add? 1 0
    | 0, none =>
      if e.alwaysReads then (f.addBranches? 2).bind once
      else do (← (← (← once f).addBranches? 2).addBranches? 2).add? 1 0
    | n, none => (times? once n f).bind (addBranches? 2)
    | n, some m => do
      let f ← if n = 0 then f.add? 1 0 else times? once n f
      if m = n then some f
      else times? (fun f => (f.addBranches? 2).bind once) (m - n) (← f.add? 1 0)

/-- The front of an automaton, which skips what stands before a match. -/
def front? (anchored : Bool) : Option Footprint :=
  let f : Footprint := ⟨0, 0⟩
  if anchored then f.add? 1 0
  else do (← (← f.addBranches? 2).add? 1 0).addRanges? 1

end Footprint

/-- There is room for the automata that read an expression forwards and backwards. -/
def fits (e : Regex) : Bool :=
  let forward := (Footprint.front? e.startsAnchored).bind fun f => do
    (← Footprint.addRegex? false e false (← f.add? 1 0)).add? 2 0
  let backward := (Footprint.front? e.endsAnchored).bind fun f => do
    (← Footprint.addRegex? true e false f).add? 1 0
  forward.isSome && backward.isSome

end ParticleAutomaton.Regex
