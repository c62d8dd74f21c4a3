import ParticleAutomaton.Board.Inbound
import ParticleAutomaton.Remote.Hub

namespace ParticleAutomaton

/-- Boards that send messages to each other. -/
structure Network (R γ : Type) where
  boards : List (Board R γ)
  hub : Hub (Message R)

namespace Network

variable {R γ : Type}

/-- Takes the messages that a board has sent. -/
def post (h : Hub (Message R)) (j : Journal R) : Hub (Message R) :=
  j.sent.foldl (fun h (address, m) => h.post address m) h

/-- Puts a board in its place and its messages on their way. What it has shown stays with it. -/
def put (n : Network R γ) (i : Nat) (b : Board R γ) : Network R γ :=
  let hub := post n.hub b.journal
  ⟨n.boards.set i { b with journal := b.journal.posted }, hub⟩

variable [Scalar R] [Generator R γ]

/-- Delivers the messages of a board until there are none. Only a request makes a new message, and
its answer makes none. -/
def deliverTo (i : Nat) (address : String) :
    Nat → List (String × Message R) → Network R γ →
      Except Fault (List (String × Message R) × Network R γ)
  | 0, log, n => .ok (log, n)
  | fuel + 1, log, n =>
    match n.boards[i]?, n.hub.receive address with
    | some b, (some m, hub) => do
      let b ← b.handle m
      deliverTo i address fuel (log ++ [(address, m)]) (put { n with hub } i b)
    | _, _ => .ok (log, n)

/-- The number of deliveries that the waiting messages can lead to. -/
def pending (n : Network R γ) : Nat :=
  2 * n.hub.inboxes.foldl (fun count (_, inbox) => count + (inbox.getD []).length) 0

/-- Delivers the messages of all boards in order. -/
def round (n : Network R γ) : Except Fault (List (String × Message R) × Network R γ) :=
  n.boards.zipIdx.foldlM (fun (log, n) (b, i) =>
    deliverTo i b.config.address (n.pending + 1) log n) ([], n)

/-- Rounds until one delivers nothing. -/
def rounds : Nat → List (String × Message R) → Network R γ →
    Except Fault (List (String × Message R) × Network R γ)
  | 0, log, n => .ok (log, n)
  | fuel + 1, log, n => do
    let (delivered, n) ← n.round
    if delivered.isEmpty then .ok (log, n) else rounds fuel (log ++ delivered) n

def pump (n : Network R γ) : Except Fault (List (String × Message R) × Network R γ) :=
  rounds (n.pending + 1) [] n

end Network

end ParticleAutomaton
