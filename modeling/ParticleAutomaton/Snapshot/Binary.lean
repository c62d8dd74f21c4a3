import ParticleAutomaton.Snapshot.Basic

namespace ParticleAutomaton.Snapshot

/-- The lowest bytes of a number, the lowest first. -/
def littleEndian : Nat → Nat → List UInt8
  | 0, _ => []
  | size + 1, n => n.toUInt8 :: littleEndian size (n / 256)

def ofLittleEndian (bytes : List UInt8) : Nat := bytes.foldr (fun b n => b.toNat + 256 * n) 0

/-- A signed number of 32 bits as an unsigned one. -/
def toWord32 (n : Int) : Nat := (n % 4294967296).toNat

def ofWord32 (n : Nat) : Int := if n < 2147483648 then n else n - 4294967296

def putWord (n : Nat) : List UInt8 := littleEndian 8 n

def putText (s : String) : List UInt8 :=
  let bytes := s.toUTF8.toList
  putWord bytes.length ++ bytes

def putPoint (p : Point) : List UInt8 :=
  littleEndian 4 (toWord32 p.x) ++ littleEndian 4 (toWord32 p.y)

def putMap (m : NameMap Point) : List UInt8 :=
  putWord m.entries.length ++ m.entries.flatMap fun (name, p) => putText name ++ putPoint p

def putCell (c : CellSnapshot) : List UInt8 :=
  putText c.particle ++ putWord c.writes ++ putMap c.outgoing ++ putMap c.incoming

/-- A snapshot without a header. -/
def payload (s : Snapshot) : List UInt8 :=
  putWord s.width ++ putWord s.height ++ littleEndian 4 s.topology.index ++
    putWord s.cells.length ++ s.cells.flatMap putCell

/-- The bytes that a board file starts with. -/
def magic : List UInt8 := "ZOOBOARD".toUTF8.toList

def version : Nat := 1

/-- A snapshot as a file: mark, version, length and payload. -/
def toBytes (s : Snapshot) : List UInt8 :=
  let bytes := s.payload
  magic ++ littleEndian 4 version ++ putWord bytes.length ++ bytes

/-- So many bytes and the rest. -/
def take? (n : Nat) (bytes : List UInt8) : Option (List UInt8 × List UInt8) :=
  let front := bytes.take n
  if front.length = n then some (front, bytes.drop n) else none

def getNumber? (size : Nat) (bytes : List UInt8) : Option (Nat × List UInt8) :=
  (take? size bytes).map fun (front, rest) => (ofLittleEndian front, rest)

def getWord? (bytes : List UInt8) : Option (Nat × List UInt8) := getNumber? 8 bytes

def getText? (bytes : List UInt8) : Option (String × List UInt8) := do
  let (n, bytes) ← getWord? bytes
  let (front, rest) ← take? n bytes
  let s ← String.fromUTF8? ⟨front.toArray⟩
  some (s, rest)

def getPoint? (bytes : List UInt8) : Option (Point × List UInt8) := do
  let (x, bytes) ← getNumber? 4 bytes
  let (y, bytes) ← getNumber? 4 bytes
  some (⟨ofWord32 x, ofWord32 y⟩, bytes)

/-- So many items, one after the other. -/
def getMany? {α : Type} (get : List UInt8 → Option (α × List UInt8)) :
    Nat → List UInt8 → Option (List α × List UInt8)
  | 0, bytes => some ([], bytes)
  | n + 1, bytes => do
    let (v, bytes) ← get bytes
    let (vs, bytes) ← getMany? get n bytes
    some (v :: vs, bytes)

/-- A number of items and the items. -/
def getList? {α : Type} (get : List UInt8 → Option (α × List UInt8)) (bytes : List UInt8) :
    Option (List α × List UInt8) := do
  let (n, bytes) ← getWord? bytes
  getMany? get n bytes

def getEntry? (bytes : List UInt8) : Option ((String × Point) × List UInt8) := do
  let (name, bytes) ← getText? bytes
  let (p, bytes) ← getPoint? bytes
  some ((name, p), bytes)

def getMap? (bytes : List UInt8) : Option (NameMap Point × List UInt8) :=
  (getList? getEntry? bytes).map fun (entries, rest) => (.ofList entries, rest)

def getCell? (bytes : List UInt8) : Option (CellSnapshot × List UInt8) := do
  let (particle, bytes) ← getText? bytes
  let (writes, bytes) ← getWord? bytes
  let (outgoing, bytes) ← getMap? bytes
  let (incoming, bytes) ← getMap? bytes
  some (⟨particle, writes, outgoing, incoming⟩, bytes)

/-- The snapshot of a payload; bytes behind it do not count. -/
def ofPayload? (bytes : List UInt8) : Option Snapshot := do
  let (width, bytes) ← getWord? bytes
  let (height, bytes) ← getWord? bytes
  let (index, bytes) ← getNumber? 4 bytes
  let topology ← Topology.ofIndex? index
  let (cells, _) ← getList? getCell? bytes
  some ⟨width, height, topology, cells⟩

/-- The snapshot of a file. -/
def ofBytes (bytes : List UInt8) : Except SnapshotError Snapshot := do
  let some (mark, bytes) := take? 8 bytes | .error .file
  if mark ≠ magic then .error .badMagic
  let some (found, bytes) := getNumber? 4 bytes | .error .file
  if version < found then .error (.unsupportedVersion found)
  let some (size, bytes) := getWord? bytes | .error .file
  if bytes.length < size then .error (.tooLong size)
  match ofPayload? (bytes.take size) with
  | some s => .ok s
  | none => .error .badPayload

end ParticleAutomaton.Snapshot
