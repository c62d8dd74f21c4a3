namespace ParticleAutomaton

/-- Why a message is not delivered. -/
inductive DeliveryError
  | unknownAddress (address : String)
  | disconnected (address : String)
  deriving DecidableEq, Repr

def DeliveryError.message : DeliveryError → String
  | .unknownAddress address => "unknown address '" ++ address ++ "'"
  | .disconnected address => "'" ++ address ++ "' disconnected"

/-- Messages on their way, by address, in the order in which they were sent. An address without an
inbox has lost its reader. -/
structure Hub (μ : Type) where
  inboxes : List (String × Option (List μ))

namespace Hub

variable {μ : Type}

def empty : Hub μ := ⟨[]⟩

def inbox? (h : Hub μ) (address : String) : Option (List μ) :=
  (h.inboxes.lookup address).join

def put (h : Hub μ) (address : String) (inbox : Option (List μ)) : Hub μ :=
  ⟨(address, inbox) :: h.inboxes.filter fun (a, _) => a ≠ address⟩

/-- A new inbox takes the place of an older one. -/
def register (h : Hub μ) (address : String) : Hub μ := h.put address (some [])

def send (h : Hub μ) (address : String) (m : μ) : Except DeliveryError (Hub μ) :=
  match h.inboxes.lookup address with
  | none => .error (.unknownAddress address)
  | some none => .error (.disconnected address)
  | some (some inbox) => .ok (h.put address (some (inbox ++ [m])))

/-- Sends a message; one that cannot be delivered is lost. -/
def post (h : Hub μ) (address : String) (m : μ) : Hub μ :=
  match h.send address m with
  | .ok h => h
  | .error _ => h

/-- The reader of an address goes away; false if there was none. -/
def disconnect (h : Hub μ) (address : String) : Bool × Hub μ :=
  match h.inbox? address with
  | some _ => (true, h.put address none)
  | none => (false, h)

def receive (h : Hub μ) (address : String) : Option μ × Hub μ :=
  match h.inbox? address with
  | some (m :: inbox) => (some m, h.put address (some inbox))
  | _ => (none, h)

/-- Takes all messages of an address. -/
def drain (h : Hub μ) (address : String) : List μ × Hub μ :=
  match h.inbox? address with
  | some inbox => (inbox, h.put address (some []))
  | none => ([], h)

end Hub

end ParticleAutomaton
