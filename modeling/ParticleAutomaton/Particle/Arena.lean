namespace ParticleAutomaton

/-- The place of a particle and the number of its creation, which no other particle ever has. -/
structure ParticleId where
  slot : Nat
  serial : Nat
  deriving DecidableEq, Repr, Hashable, Inhabited

/-- Values under identities that are never used again. A place that becomes free is taken by the
next value, the latest free one first. -/
structure Arena (α : Type) where
  slots : Array (Option (Nat × α))
  free : List Nat
  created : Nat

namespace Arena

variable {α : Type}

def empty : Arena α := ⟨#[], [], 0⟩

def get? (a : Arena α) (id : ParticleId) : Option α :=
  match a.slots[id.slot]? with
  | some (some (serial, v)) => if serial = id.serial then some v else none
  | _ => none

def insert (a : Arena α) (v : α) : ParticleId × Arena α :=
  let entry := some (a.created, v)
  match a.free with
  | slot :: free =>
    (⟨slot, a.created⟩, ⟨a.slots.set! slot entry, free, a.created + 1⟩)
  | [] => (⟨a.slots.size, a.created⟩, ⟨a.slots.push entry, [], a.created + 1⟩)

def modify (a : Arena α) (id : ParticleId) (f : α → α) : Arena α :=
  let change : Option (Nat × α) → Option (Nat × α)
    | some (serial, v) => if serial = id.serial then some (serial, f v) else some (serial, v)
    | none => none
  { a with slots := a.slots.modify id.slot change }

def mapAll (a : Arena α) (f : α → α) : Arena α :=
  { a with slots := a.slots.map (·.map fun (serial, v) => (serial, f v)) }

/-- The values with their identities, by place. -/
def toList (a : Arena α) : List (ParticleId × α) :=
  a.slots.toList.zipIdx.filterMap fun (entry, slot) =>
    entry.map fun (serial, v) => (⟨slot, serial⟩, v)

def size (a : Arena α) : Nat := a.slots.countP Option.isSome

/-- Keeps the values that pass a test. -/
def retain (a : Arena α) (keep : α → Bool) : Arena α :=
  let gone := a.toList.filter fun (_, v) => !keep v
  { a with
    slots := a.slots.map (·.filter fun (_, v) => keep v)
    free := gone.foldl (fun free (id, _) => id.slot :: free) a.free }

end Arena

end ParticleAutomaton
