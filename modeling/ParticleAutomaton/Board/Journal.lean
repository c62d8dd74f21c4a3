import ParticleAutomaton.Remote.Message

namespace ParticleAutomaton

/-- What an accepted change did, by name. -/
structure VerbNotice where
  source : Point
  target : Point
  oldSource : String
  oldTarget : String
  newSource : String
  newTarget : String
  verb : String
  deriving DecidableEq, Repr

/-- What a board does that others see. -/
inductive Notice (R : Type)
  | drawn (p : Point)
  | announced (n : VerbNotice)
  | sent (address : String) (m : Message R)

namespace Notice

variable {R : Type}

def drawn? : Notice R → Option Point
  | .drawn p => some p
  | _ => none

def announced? : Notice R → Option VerbNotice
  | .announced n => some n
  | _ => none

def sent? : Notice R → Option (String × Message R)
  | .sent address m => some (address, m)
  | _ => none

end Notice

/-- What a board has shown and sent, in order. -/
structure Journal (R : Type) where
  entries : Array (Notice R)

namespace Journal

variable {R : Type}

def empty : Journal R := ⟨#[]⟩

def drawn (j : Journal R) : Array Point := j.entries.filterMap Notice.drawn?

def notices (j : Journal R) : Array VerbNotice := j.entries.filterMap Notice.announced?

def sent (j : Journal R) : Array (String × Message R) := j.entries.filterMap Notice.sent?

def draw (j : Journal R) (p : Point) : Journal R := ⟨j.entries.push (.drawn p)⟩

def drawAll (j : Journal R) (ps : List Point) : Journal R := ps.foldl draw j

def announce (j : Journal R) (n : VerbNotice) : Journal R := ⟨j.entries.push (.announced n)⟩

def send (j : Journal R) (address : String) (m : Message R) : Journal R :=
  ⟨j.entries.push (.sent address m)⟩

/-- Without the messages, which are on their way. -/
def posted (j : Journal R) : Journal R := ⟨j.entries.filter (·.sent?.isNone)⟩

variable (j : Journal R)

@[simp]
theorem drawn_draw (p : Point) : (j.draw p).drawn = j.drawn.push p :=
  Array.filterMap_push_some rfl (Array.size_push ..)

@[simp]
theorem notices_draw (p : Point) : (j.draw p).notices = j.notices :=
  Array.filterMap_push_none rfl (Array.size_push ..)

@[simp]
theorem sent_draw (p : Point) : (j.draw p).sent = j.sent :=
  Array.filterMap_push_none rfl (Array.size_push ..)

@[simp]
theorem drawn_announce (n : VerbNotice) : (j.announce n).drawn = j.drawn :=
  Array.filterMap_push_none rfl (Array.size_push ..)

@[simp]
theorem sent_announce (n : VerbNotice) : (j.announce n).sent = j.sent :=
  Array.filterMap_push_none rfl (Array.size_push ..)

@[simp]
theorem drawn_send (address : String) (m : Message R) : (j.send address m).drawn = j.drawn :=
  Array.filterMap_push_none rfl (Array.size_push ..)

@[simp]
theorem notices_send (address : String) (m : Message R) :
    (j.send address m).notices = j.notices :=
  Array.filterMap_push_none rfl (Array.size_push ..)

@[simp]
theorem sent_send (address : String) (m : Message R) :
    (j.send address m).sent = j.sent.push (address, m) :=
  Array.filterMap_push_some rfl (Array.size_push ..)

end Journal

end ParticleAutomaton
