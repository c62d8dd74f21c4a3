import Mathlib.Data.String.Basic
import ParticleAutomaton.Text.Order

namespace ParticleAutomaton.Text

/-- A front of a text that fits a number of bytes, and no longer one does. -/
structure LongestFront (n : Nat) (s t : String) : Prop where
  front : t.toList <+: s.toList
  fits : t.utf8ByteSize ≤ n
  longest : ∀ u : String, u.toList <+: s.toList → u.utf8ByteSize ≤ n → u.toList <+: t.toList

theorem takeBytes_prefix_self (n : Nat) (cs : List Char) : takeBytes n cs <+: cs := by
  induction cs generalizing n with
  | nil => exact List.prefix_rfl
  | cons c cs ih =>
    rw [takeBytes]
    split
    next => exact List.cons_prefix_cons.mpr ⟨rfl, ih _⟩
    next => exact List.nil_prefix

theorem utf8Len_takeBytes (n : Nat) (cs : List Char) : String.utf8Len (takeBytes n cs) ≤ n := by
  induction cs generalizing n with
  | nil => exact Nat.zero_le n
  | cons c cs ih =>
    rw [takeBytes]
    split
    next hc =>
      have := ih (n - c.utf8Size)
      rw [String.utf8Len_cons]
      omega
    next => exact Nat.zero_le n

/-- Every front that fits is a front of what is taken. -/
theorem prefix_takeBytes {n : Nat} {cs us : List Char} (h : us <+: cs)
    (hn : String.utf8Len us ≤ n) : us <+: takeBytes n cs := by
  induction us generalizing n cs with
  | nil => exact List.nil_prefix
  | cons u us ih =>
    obtain ⟨rest, rfl⟩ := h
    rw [String.utf8Len_cons] at hn
    rw [List.cons_append, takeBytes, if_pos (by omega)]
    exact List.cons_prefix_cons.mpr ⟨rfl, ih (List.prefix_append us rest) (by omega)⟩

theorem takeBytes_takeBytes (n : Nat) (cs : List Char) :
    takeBytes n (takeBytes n cs) = takeBytes n cs :=
  (takeBytes_prefix_self n _).eq_of_length_le
    (prefix_takeBytes List.prefix_rfl (utf8Len_takeBytes n cs)).length_le

theorem truncate_truncate (n : Nat) (s : String) : truncate n (truncate n s) = truncate n s := by
  simp [truncate, takeBytes_takeBytes]

theorem takeBytes_of_le {n : Nat} {cs : List Char} (h : String.utf8Len cs ≤ n) :
    takeBytes n cs = cs :=
  (takeBytes_prefix_self n cs).eq_of_length_le (prefix_takeBytes List.prefix_rfl h).length_le

/-- A name that fits is not cut. -/
theorem truncate_of_le {n : Nat} {s : String} (h : s.utf8ByteSize ≤ n) : truncate n s = s := by
  rw [← String.ofList_toList (s := s), String.utf8ByteSize_ofList] at h
  rw [truncate, takeBytes_of_le h, String.ofList_toList]

theorem longestFront_truncate (n : Nat) (s : String) : LongestFront n s (truncate n s) := by
  have hsize : (truncate n s).utf8ByteSize = String.utf8Len (takeBytes n s.toList) :=
    String.utf8ByteSize_ofList _
  refine ⟨?_, hsize ▸ utf8Len_takeBytes n s.toList, fun u hu hn => ?_⟩
  · rw [truncate, String.toList_ofList]
    exact takeBytes_prefix_self n s.toList
  · rw [← String.ofList_toList (s := u), String.utf8ByteSize_ofList] at hn
    rw [truncate, String.toList_ofList]
    exact prefix_takeBytes hu hn

/-- To cut a name is to take its longest front that fits. -/
theorem longestFront_iff {n : Nat} {s t : String} : LongestFront n s t ↔ t = truncate n s := by
  constructor
  · intro h
    have hcut := longestFront_truncate n s
    have hle := h.longest _ hcut.front hcut.fits
    exact String.toList_inj.mp
      ((hcut.longest t h.front h.fits).eq_of_length_le hle.length_le)
  · rintro rfl
    exact longestFront_truncate n s

end ParticleAutomaton.Text
