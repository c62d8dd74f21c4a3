import ParticleAutomaton.Snapshot.Binary
import ParticleAutomaton.Snapshot.Text

namespace ParticleAutomaton.Snapshot

/-- The name of a file says whether it holds text. -/
def isTextName (name : String) : Bool :=
  ".json".toList.isSuffixOf (name.toList.map Char.toLower)

/-- The bytes of the file of a name. -/
def toFile (name : String) (s : Snapshot) : List UInt8 :=
  if isTextName name then s.toText.toUTF8.toList else s.toBytes

/-- The characters in front of bytes, if they start with one that takes at most four of them. -/
def charOfBytes? (bytes : List UInt8) : Option (List Char) :=
  [1, 2, 3, 4].findSome? fun n => (String.fromUTF8? ⟨(bytes.take n).toArray⟩).map String.toList

/-- A stand-in for a byte that belongs to no character. In a string it leaves the string without a
value, and nowhere else may it stand. -/
def brokenChar : List Char := "?\\udc00\\udc00".toList

/-- The text of bytes, with a stand-in for those that are no text. -/
def textOfBytes : Nat → List UInt8 → List Char
  | fuel + 1, b :: bytes =>
    match charOfBytes? (b :: bytes) with
    | some (c :: _) => c :: textOfBytes fuel (bytes.drop (c.utf8Size - 1))
    | _ => brokenChar ++ textOfBytes fuel bytes
  | _, _ => []

/-- The snapshot in the file of a name, if there is one. -/
def ofFile (name : String) : Option (List UInt8) → Except SnapshotError Snapshot
  | none => .error .file
  | some bytes =>
    if isTextName name then
      match String.fromUTF8? ⟨bytes.toArray⟩ with
      | some text => ofText text
      | none => ofText (String.ofList (textOfBytes bytes.length bytes))
    else ofBytes bytes

end ParticleAutomaton.Snapshot
