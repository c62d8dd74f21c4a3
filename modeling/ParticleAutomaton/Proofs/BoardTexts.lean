import ParticleAutomaton.Proofs.BoardFiles
import ParticleAutomaton.Proofs.JsonTrees
import ParticleAutomaton.Snapshot.File

namespace ParticleAutomaton

theorem Text.ofDigits_toDigits (n : Nat) : ofDigits (Nat.toDigits 10 n) = n :=
  Nat.ofDigitChars_eq_foldl.symm.trans Nat.ofDigitChars_ten_toDigits

namespace Json

theorem toInt?_ofInt (n : Int) : (ofInt n).toInt? = some n := by
  simp only [ofInt, toInt?, Numeral.toInt?, Numeral.isWhole, Text.ofDigits_toDigits,
    List.isEmpty_nil, Option.isNone_none, Bool.and_self, Bool.not_true, Bool.false_or,
    Bool.and_eq_true, decide_eq_true_eq, beq_iff_eq]
  have hsigned : ¬ (n < 0 ∧ n.natAbs = 0) := by omega
  rw [if_neg hsigned]
  congr 1
  split <;> omega

theorem toWord?_ofNat {n : Nat} (h : n < 2 ^ 64) : (ofNat n).toWord? = some n := by
  have hle : (n : Int) ≤ Text.maxUInt64 := by
    rw [Text.maxUInt64]
    omega
  rw [toWord?, toNat?, ofNat, toInt?_ofInt, Option.bind_some, if_pos ⟨Int.natCast_nonneg n, hle⟩,
    Int.toNat_natCast]

theorem toCoordinate?_ofInt {n : Int} (h : IsWord32 n) : (ofInt n).toCoordinate? = some n := by
  obtain ⟨hlow, hhigh⟩ := h
  rw [toCoordinate?, toInt?_ofInt]
  simp [hlow, hhigh]

theorem members?_record (ms : List (String × Json)) : (record ms).members? = some ms := by
  rw [record, members?]
  induction ms with
  | nil => rfl
  | cons m ms ih =>
    rw [List.map_cons, List.mapM_cons, ih]
    rfl

theorem eraseDups_of_nodup {names : List String} (h : names.Nodup) : names.eraseDups = names := by
  induction names with
  | nil => rfl
  | cons name names ih =>
    obtain ⟨hnot, hnodup⟩ := List.nodup_cons.mp h
    have hkeep : names.filter (fun other => !other == name) = names := by
      refine List.filter_eq_self.mpr fun other hother => ?_
      have hne : other ≠ name := fun he => hnot (he ▸ hother)
      simpa using hne
    rw [List.eraseDups_cons, hkeep, ih hnodup]

/-- A record with just the fields that are looked for, none of them twice. -/
theorem fields?_record {ms : List (String × Json)} {names : List String}
    (h : ms.map Prod.fst = names) (hnodup : names.Nodup) :
    (record ms).fields? names = some ⟨ms, false⟩ := by
  subst h
  have hknown : ms.filter (fun m => (ms.map Prod.fst).contains m.1) = ms := by
    refine List.filter_eq_self.mpr fun m hm => ?_
    simpa using ⟨m.2, hm⟩
  rw [fields?]
  · rw [members?_record, Option.bind_some]
    simp only [hknown, eraseDups_of_nodup hnodup, if_true]
  · exact nofun

theorem toPoint?_ofPoint {p : Point} (hx : IsWord32 p.x) (hy : IsWord32 p.y) :
    (ofPoint p).toPoint? = some p := by
  let fields : Fields := ⟨[("x", ofInt p.x), ("y", ofInt p.y)], false⟩
  have hfields : (ofPoint p).fields? ["x", "y"] = some fields := fields?_record rfl (by decide)
  have hfx : fields.required "x" toCoordinate? = some p.x := toCoordinate?_ofInt hx
  have hfy : fields.required "y" toCoordinate? = some p.y := toCoordinate?_ofInt hy
  rw [toPoint?, hfields]
  simp only [Option.bind_eq_bind, Option.bind_some, hfx, hfy]

theorem readsBack_ofPoint (p : Point) : ReadsBack (ofPoint p) :=
  readsBack_record (List.forall_mem_cons.mpr ⟨readsBack_ofInt p.x,
    List.forall_mem_cons.mpr ⟨readsBack_ofInt p.y, nofun⟩⟩)

theorem toTopology?_label (t : Topology) : (str t.label).toTopology? = some t :=
  Topology.ofLabel?_label t

end Json

open Json

/-- All offsets of bonds are numbers of 32 bits. -/
theorem NameMap.ofJson?_toJson {m : NameMap Point}
    (h : ∀ e ∈ m.entries, IsWord32 e.2.x ∧ IsWord32 e.2.y) : ofJson? m.toJson = some m := by
  have hentries : ∀ es : List (String × Point), (∀ e ∈ es, IsWord32 e.2.x ∧ IsWord32 e.2.y) →
      (es.map fun e => (e.1, ofPoint e.2)).mapM (fun m => m.2.toPoint?.map (m.1, ·)) =
        some es := by
    intro es hes
    induction es with
    | nil => rfl
    | cons e es ih =>
      obtain ⟨⟨hx, hy⟩, hes⟩ := List.forall_mem_cons.mp hes
      rw [List.map_cons, List.mapM_cons, ih hes]
      simp only [toPoint?_ofPoint hx hy]
      rfl
  rw [ofJson?, toJson, members?_record]
  simp only [Option.bind_eq_bind, Option.bind_some, hentries m.entries h, ofList_entries]

theorem NameMap.readsBack (m : NameMap Point) : ReadsBack m.toJson := by
  refine readsBack_record fun member hm => ?_
  obtain ⟨e, -, rfl⟩ := List.mem_map.mp hm
  exact readsBack_ofPoint e.2

theorem CellSnapshot.readsBack (c : CellSnapshot) : ReadsBack c.toJson := by
  refine readsBack_record fun member hm => ?_
  simp only [List.mem_cons, List.not_mem_nil, or_false] at hm
  rcases hm with rfl | rfl | rfl | rfl
  · exact readsBack_str c.particle
  · exact readsBack_ofNat c.writes
  · exact c.outgoing.readsBack
  · exact c.incoming.readsBack

theorem CellSnapshot.ofJson?_toJson {c : CellSnapshot} (h : Snapshot.Storable c) :
    ofJson? c.toJson = some c := by
  let fields : Fields := ⟨[("particle", .str c.particle), ("write_count", .ofNat c.writes),
    ("outgoing", c.outgoing.toJson), ("incoming", c.incoming.toJson)], false⟩
  have hfields : c.toJson.fields? ["particle", "write_count", "outgoing", "incoming"] =
      some fields := fields?_record rfl (by decide)
  have hparticle : fields.required "particle" toString? = some c.particle := rfl
  have hwrites : fields.required "write_count" toWord? = some c.writes := toWord?_ofNat h.writes
  have hout : fields.withDefault "outgoing" .empty NameMap.ofJson? = some c.outgoing :=
    NameMap.ofJson?_toJson h.outgoing
  have hin : fields.withDefault "incoming" .empty NameMap.ofJson? = some c.incoming :=
    NameMap.ofJson?_toJson h.incoming
  rw [ofJson?, hfields]
  simp only [Option.bind_eq_bind, Option.bind_some, hparticle, hwrites, hout, hin]

namespace Snapshot

/-- Every number of the snapshot is one of its width. -/
structure InWords (s : Snapshot) : Prop where
  width : s.width < 2 ^ 64
  height : s.height < 2 ^ 64
  cells : ∀ c ∈ s.cells, Storable c

theorem readsBack (s : Snapshot) : ReadsBack s.toJson := by
  refine readsBack_record fun member hm => ?_
  simp only [List.mem_cons, List.not_mem_nil, or_false] at hm
  rcases hm with rfl | rfl | rfl | rfl
  · exact readsBack_ofNat s.width
  · exact readsBack_ofNat s.height
  · exact readsBack_str s.topology.label
  · refine readsBack_array fun v hv => ?_
    obtain ⟨c, -, rfl⟩ := List.mem_map.mp hv
    exact c.readsBack

theorem ofJson?_toJson {s : Snapshot} (h : s.InWords) : ofJson? s.toJson = some s := by
  have hcells : ∀ cs : List CellSnapshot, (∀ c ∈ cs, Storable c) →
      (Json.list CellSnapshot.toJson cs).toList? CellSnapshot.ofJson? = some cs := by
    intro cs hcs
    rw [Json.list, toList?]
    induction cs with
    | nil => rfl
    | cons c cs ih =>
      obtain ⟨hc, hcs⟩ := List.forall_mem_cons.mp hcs
      rw [List.map_cons, List.mapM_cons, ih hcs, CellSnapshot.ofJson?_toJson hc]
      rfl
  let fields : Fields := ⟨[("width", .ofNat s.width), ("height", .ofNat s.height),
    ("topology", .str s.topology.label), ("cells", Json.list CellSnapshot.toJson s.cells)], false⟩
  have hfields : s.toJson.fields? ["width", "height", "topology", "cells"] = some fields :=
    fields?_record rfl (by decide)
  have hwidth : fields.required "width" toWord? = some s.width := toWord?_ofNat h.width
  have hheight : fields.required "height" toWord? = some s.height := toWord?_ofNat h.height
  have htopology : fields.required "topology" toTopology? = some s.topology :=
    toTopology?_label s.topology
  have hlist : fields.required "cells" (toList? CellSnapshot.ofJson?) = some s.cells :=
    hcells s.cells h.cells
  rw [ofJson?, hfields]
  simp only [Option.bind_eq_bind, Option.bind_some, hwidth, hheight, htopology, hlist]

/-- A snapshot comes back from its text, and from a file whose name says that it holds text. -/
theorem board_text_reads_back (s : Snapshot) (h : s.InWords) :
    ofText s.toText = .ok s ∧
      ∀ name, isTextName name = true → ofFile name (some (s.toFile name)) = .ok s := by
  have htext : ofText s.toText = .ok s := by
    rw [ofText, toText, String.toList_ofList, s.readsBack.parse?, Option.bind_some,
      ofJson?_toJson h]
  refine ⟨htext, fun name hname => ?_⟩
  rw [toFile, if_pos hname, ofFile, if_pos hname, fromUTF8?_toUTF8]
  exact htext

/-- Two cells with names of quotes, backslashes, control characters and a character of two
surrogates, the highest counter and offsets of both signs. -/
def escapedNames : Snapshot where
  width := 2
  height := 1
  topology := .square8
  cells := [
    ⟨"\"a\\b\"\n\x00\x1f", 18446744073709551615,
      .ofList [("\t\x08", ⟨-2147483648, 2147483647⟩), ("😀", ⟨1, 0⟩)], .empty⟩,
    ⟨"", 0, .empty, .ofList [("😀", ⟨-1, 0⟩)]⟩]

theorem inWords_escapedNames : escapedNames.InWords where
  width := by decide
  height := by decide
  cells := by decide

theorem board_text_reads_back_escapedNames :
    escapedNames.InWords ∧ ofText escapedNames.toText = .ok escapedNames ∧
      ∀ name, isTextName name = true →
        ofFile name (some (escapedNames.toFile name)) = .ok escapedNames :=
  ⟨inWords_escapedNames, board_text_reads_back escapedNames inWords_escapedNames⟩

end Snapshot

end ParticleAutomaton
