import Mathlib.Algebra.Order.Ring.Nat
import ParticleAutomaton.Proofs.NameMap
import ParticleAutomaton.Snapshot.Binary

namespace ParticleAutomaton

theorem toList_loop (bytes : ByteArray) (i : Nat) (acc : List UInt8) :
    ByteArray.toList.loop bytes i acc = acc.reverse ++ bytes.data.toList.drop i := by
  induction h : bytes.size - i generalizing i acc with
  | zero =>
    have hl : bytes.data.toList.length ≤ i := by
      simp only [Array.length_toList, ByteArray.size_data]
      omega
    rw [ByteArray.toList.loop, if_neg (by omega), List.drop_eq_nil_of_le hl, List.append_nil]
  | succ k ih =>
    have hi : i < bytes.data.size := by
      rw [ByteArray.size_data]
      omega
    have hg : bytes.get! i = bytes.data.toList[i] := by
      rw [Array.getElem_toList]
      exact getElem!_pos bytes.data i hi
    rw [ByteArray.toList.loop, if_pos (by omega), ih _ _ (by omega), hg,
      List.drop_eq_getElem_cons hi]
    simp

theorem toList_eq_data (bytes : ByteArray) : bytes.toList = bytes.data.toList := by
  rw [ByteArray.toList, toList_loop]
  simp

theorem fromUTF8?_toUTF8 (s : String) :
    String.fromUTF8? ⟨s.toUTF8.toList.toArray⟩ = some s := by
  have he : (⟨s.toUTF8.toList.toArray⟩ : ByteArray) = s.toByteArray := by
    rw [toList_eq_data, Array.toArray_toList]
    rfl
  rw [he, String.fromUTF8?, dif_pos s.isValidUTF8]
  rfl

/-- A signed number that 32 bits hold. -/
def IsWord32 (n : Int) : Prop := -2147483648 ≤ n ∧ n < 2147483648

instance (n : Int) : Decidable (IsWord32 n) := inferInstanceAs (Decidable (_ ∧ _))

namespace Snapshot

/-- The reader takes just these bytes, whatever follows them, and finds the value. -/
def Reads {α : Type} (get : List UInt8 → Option (α × List UInt8)) (bytes : List UInt8) (v : α) :
    Prop := ∀ more, get (bytes ++ more) = some (v, more)

/-- What the reader finds does not depend on the bytes that it leaves. -/
def Local {α : Type} (get : List UInt8 → Option (α × List UInt8)) : Prop :=
  ∀ bytes rest v more, get bytes = some (v, rest) → get (bytes ++ more) = some (v, rest ++ more)

theorem Reads.cut {α : Type} {get : List UInt8 → Option (α × List UInt8)} {bytes : List UInt8}
    {v : α} (h : Reads get bytes v) (hl : Local get) {front : List UInt8}
    (hp : front <+: bytes) (hne : front ≠ bytes) : get front = none := by
  obtain ⟨back, rfl⟩ := hp
  cases hg : get front with
  | none => rfl
  | some found =>
    obtain ⟨w, rest⟩ := found
    have he := (hl front rest w back hg).symm.trans (by simpa using h [])
    have hb : back = [] := (List.append_eq_nil_iff.mp (Prod.mk.inj (Option.some.inj he)).2).2
    simp [hb] at hne

theorem Local.bind {α β : Type} {get : List UInt8 → Option (α × List UInt8)}
    {next : α → List UInt8 → Option (β × List UInt8)} (h : Local get)
    (hn : ∀ v, Local (next v)) :
    Local fun bytes => (get bytes).bind fun found => next found.1 found.2 := by
  intro bytes rest w more hb
  obtain ⟨⟨v, left⟩, hg, hw⟩ := Option.bind_eq_some_iff.mp hb
  simp only [h bytes left v more hg, Option.bind_some]
  exact hn v left rest w more hw

theorem Local.done {α : Type} (v : α) : Local fun bytes => some (v, bytes) := by
  rintro bytes rest w more ⟨⟩
  rfl

theorem Local.decode {α β : Type} {get : List UInt8 → Option (α × List UInt8)} (h : Local get)
    (f : α → Option β) :
    Local fun bytes => (get bytes).bind fun found => (f found.1).bind fun w =>
      some (w, found.2) := by
  intro bytes rest w more hb
  obtain ⟨⟨v, left⟩, hg, hw⟩ := Option.bind_eq_some_iff.mp hb
  obtain ⟨w, hf, ⟨⟩⟩ := Option.bind_eq_some_iff.mp hw
  simp only [h bytes left v more hg, Option.bind_some, hf]

theorem length_littleEndian (size n : Nat) : (littleEndian size n).length = size := by
  induction size generalizing n with
  | zero => rfl
  | succ size ih => rw [littleEndian, List.length_cons, ih]

theorem ofLittleEndian_littleEndian {size n : Nat} (h : n < 256 ^ size) :
    ofLittleEndian (littleEndian size n) = n := by
  induction size generalizing n with
  | zero => simp_all [littleEndian, ofLittleEndian]
  | succ size ih =>
    have hd : n / 256 < 256 ^ size := by
      rw [Nat.div_lt_iff_lt_mul (by decide)]
      rwa [pow_succ] at h
    have ih : (littleEndian size (n / 256)).foldr (fun b m => b.toNat + 256 * m) 0 = n / 256 :=
      ih hd
    rw [littleEndian, ofLittleEndian, List.foldr_cons, ih]
    have := Nat.mod_add_div n 256
    simpa using this

theorem take?_append {n : Nat} {bytes : List UInt8} (h : bytes.length = n) (more : List UInt8) :
    take? n (bytes ++ more) = some (bytes, more) := by
  subst h
  simp [take?]

theorem take?_eq_none {n : Nat} {bytes : List UInt8} (h : bytes.length < n) :
    take? n bytes = none := by
  rw [take?, List.length_take, if_neg (by omega)]

theorem local_take? (n : Nat) : Local (take? n) := by
  intro bytes rest front more h
  by_cases hn : n ≤ bytes.length
  · simp only [take?, List.length_take_of_le hn, if_true, Option.some.injEq, Prod.mk.injEq] at h
    have hl : (bytes.take n).length = n := List.length_take_of_le hn
    rw [← h.1, ← h.2, ← take?_append hl, ← List.append_assoc, List.take_append_drop]
  · rw [take?_eq_none (by omega)] at h
    cases h

theorem getNumber?_eq (size : Nat) (bytes : List UInt8) : getNumber? size bytes =
    (take? size bytes).bind fun found => some (ofLittleEndian found.1, found.2) := by
  rw [getNumber?, Option.map_eq_bind]
  rfl

theorem getMap?_eq (bytes : List UInt8) : getMap? bytes =
    (getList? getEntry? bytes).bind fun found => some (.ofList found.1, found.2) := by
  rw [getMap?, Option.map_eq_bind]
  rfl

theorem local_getNumber? (size : Nat) : Local (getNumber? size) := by
  rw [funext (getNumber?_eq size)]
  exact (local_take? size).decode fun bytes => some (ofLittleEndian bytes)

theorem local_getText? : Local getText? :=
  (local_getNumber? 8).bind fun n =>
    (local_take? n).decode fun bytes => String.fromUTF8? ⟨bytes.toArray⟩

theorem local_getPoint? : Local getPoint? :=
  (local_getNumber? 4).bind fun x => (local_getNumber? 4).decode fun y =>
    some (⟨ofWord32 x, ofWord32 y⟩ : Point)

theorem local_entry : Local getEntry? :=
  local_getText?.bind fun name => local_getPoint?.decode fun p => some (name, p)

theorem local_getMany? {α : Type} {get : List UInt8 → Option (α × List UInt8)} (h : Local get) :
    ∀ n, Local (getMany? get n)
  | 0 => fun bytes rest vs more hd => by
    cases hd
    rfl
  | n + 1 => h.bind fun v => (local_getMany? h n).decode fun vs => some (v :: vs)

theorem local_getList? {α : Type} {get : List UInt8 → Option (α × List UInt8)} (h : Local get) :
    Local (getList? get) :=
  (local_getNumber? 8).bind (local_getMany? h)

theorem local_getMap? : Local getMap? := by
  rw [funext getMap?_eq]
  exact (local_getList? local_entry).decode fun entries => some (NameMap.ofList entries)

theorem local_getCell? : Local getCell? :=
  local_getText?.bind fun particle => (local_getNumber? 8).bind fun writes =>
    local_getMap?.bind fun outgoing => local_getMap?.decode fun incoming =>
      some (⟨particle, writes, outgoing, incoming⟩ : CellSnapshot)

theorem getNumber?_littleEndian {size n : Nat} (h : n < 256 ^ size) (more : List UInt8) :
    getNumber? size (littleEndian size n ++ more) = some (n, more) := by
  rw [getNumber?_eq, take?_append (length_littleEndian size n), Option.bind_some,
    ofLittleEndian_littleEndian h]

theorem length_putWord (n : Nat) : (putWord n).length = 8 := length_littleEndian 8 n

theorem getWord?_putWord {n : Nat} (h : n < 2 ^ 64) (more : List UInt8) :
    getWord? (putWord n ++ more) = some (n, more) :=
  getNumber?_littleEndian h more

theorem reads_text {s : String} (h : (putText s).length < 2 ^ 64) :
    Reads getText? (putText s) s := by
  intro more
  have hn : s.toUTF8.toList.length < 2 ^ 64 := by
    rw [putText, List.length_append] at h
    omega
  simp only [getText?, putText, List.append_assoc, getWord?_putWord hn, take?_append rfl,
    fromUTF8?_toUTF8, Option.bind_eq_bind, Option.bind_some]

theorem toWord32_lt (n : Int) : toWord32 n < 256 ^ 4 := by
  unfold toWord32
  omega

theorem ofWord32_toWord32 {n : Int} (h : IsWord32 n) : ofWord32 (toWord32 n) = n := by
  obtain ⟨hl, hu⟩ := h
  unfold ofWord32 toWord32
  split <;> omega

theorem reads_point {p : Point} (hx : IsWord32 p.x) (hy : IsWord32 p.y) :
    Reads getPoint? (putPoint p) p := by
  intro more
  simp only [getPoint?, putPoint, List.append_assoc, getNumber?_littleEndian (toWord32_lt _),
    ofWord32_toWord32 hx, ofWord32_toWord32 hy, Option.bind_eq_bind, Option.bind_some]

theorem reads_many {α : Type} {get : List UInt8 → Option (α × List UInt8)}
    {put : α → List UInt8} {vs : List α} (h : ∀ v ∈ vs, Reads get (put v) v) :
    Reads (getMany? get vs.length) (vs.flatMap put) vs := by
  induction vs with
  | nil => exact fun more => rfl
  | cons v vs ih =>
    obtain ⟨hv, hr⟩ := List.forall_mem_cons.mp h
    intro more
    rw [List.length_cons, getMany?, List.flatMap_cons, List.append_assoc, hv, Option.bind_eq_bind,
      Option.bind_some]
    simp only [ih hr more, Option.bind_eq_bind, Option.bind_some]

theorem length_le_flatMap {α : Type} {put : α → List UInt8} {vs : List α} {v : α} (h : v ∈ vs) :
    (put v).length ≤ (vs.flatMap put).length :=
  (List.sublist_flatten_of_mem (List.mem_map_of_mem h)).length_le

theorem count_le_flatMap {α : Type} {put : α → List UInt8} (hp : ∀ v, 0 < (put v).length)
    (vs : List α) : vs.length ≤ (vs.flatMap put).length := by
  induction vs with
  | nil => exact Nat.zero_le _
  | cons v vs ih =>
    have := hp v
    rw [List.flatMap_cons, List.length_append, List.length_cons]
    omega

theorem reads_list {α : Type} {get : List UInt8 → Option (α × List UInt8)}
    {put : α → List UInt8} {vs : List α} (hp : ∀ v, 0 < (put v).length)
    (hs : (vs.flatMap put).length < 2 ^ 64)
    (h : ∀ v ∈ vs, (put v).length < 2 ^ 64 → Reads get (put v) v) :
    Reads (getList? get) (putWord vs.length ++ vs.flatMap put) vs := by
  intro more
  have hn : vs.length < 2 ^ 64 := (count_le_flatMap hp vs).trans_lt hs
  have hm : Reads (getMany? get vs.length) (vs.flatMap put) vs :=
    reads_many fun v hv => h v hv ((length_le_flatMap hv).trans_lt hs)
  rw [getList?, List.append_assoc, getWord?_putWord hn, Option.bind_eq_bind, Option.bind_some]
  exact hm more

theorem putText_pos (s : String) : 0 < (putText s).length := by
  rw [putText, List.length_append, length_putWord]
  omega

theorem reads_map {m : NameMap Point}
    (hp : ∀ e ∈ m.entries, IsWord32 e.2.x ∧ IsWord32 e.2.y) (hs : (putMap m).length < 2 ^ 64) :
    Reads getMap? (putMap m) m := by
  intro more
  have he : Reads (getList? getEntry?) (putMap m) m.entries := by
    rw [putMap, List.length_append] at hs
    refine reads_list (fun e => ?_) (by omega) fun e he hl more => ?_
    · have := putText_pos e.1
      rw [List.length_append]
      omega
    · rw [List.length_append] at hl
      obtain ⟨hx, hy⟩ := hp e he
      have ht : (putText e.1).length < 2 ^ 64 := by omega
      simp only [List.append_assoc, getEntry?, reads_text ht _, reads_point hx hy _,
        Option.bind_eq_bind, Option.bind_some]
  rw [getMap?_eq, he, Option.bind_some, NameMap.ofList_entries]

/-- The counters and offsets of a cell are numbers of 64 and of 32 bits. -/
structure Storable (c : CellSnapshot) : Prop where
  writes : c.writes < 2 ^ 64
  outgoing : ∀ e ∈ c.outgoing.entries, IsWord32 e.2.x ∧ IsWord32 e.2.y
  incoming : ∀ e ∈ c.incoming.entries, IsWord32 e.2.x ∧ IsWord32 e.2.y

instance (c : CellSnapshot) : Decidable (Storable c) :=
  decidable_of_iff (c.writes < 2 ^ 64 ∧
      (∀ e ∈ c.outgoing.entries, IsWord32 e.2.x ∧ IsWord32 e.2.y) ∧
      ∀ e ∈ c.incoming.entries, IsWord32 e.2.x ∧ IsWord32 e.2.y)
    ⟨fun ⟨hw, ho, hi⟩ => ⟨hw, ho, hi⟩, fun ⟨hw, ho, hi⟩ => ⟨hw, ho, hi⟩⟩

theorem reads_cell {c : CellSnapshot} (h : Storable c) (hs : (putCell c).length < 2 ^ 64) :
    Reads getCell? (putCell c) c := by
  intro more
  simp only [putCell, List.length_append] at hs
  have ht : (putText c.particle).length < 2 ^ 64 := by omega
  have ho : (putMap c.outgoing).length < 2 ^ 64 := by omega
  have hi : (putMap c.incoming).length < 2 ^ 64 := by omega
  simp only [getCell?, putCell, List.append_assoc, reads_text ht _, getWord?_putWord h.writes,
    reads_map h.outgoing ho _, reads_map h.incoming hi _, Option.bind_eq_bind, Option.bind_some]

def getTopology? (bytes : List UInt8) : Option (Topology × List UInt8) := do
  let (index, bytes) ← getNumber? 4 bytes
  let topology ← Topology.ofIndex? index
  some (topology, bytes)

/-- The snapshot that bytes start with. -/
def getSnapshot? (bytes : List UInt8) : Option (Snapshot × List UInt8) := do
  let (width, bytes) ← getWord? bytes
  let (height, bytes) ← getWord? bytes
  let (topology, bytes) ← getTopology? bytes
  let (cells, bytes) ← getList? getCell? bytes
  some (⟨width, height, topology, cells⟩, bytes)

theorem ofPayload?_eq (bytes : List UInt8) :
    ofPayload? bytes = (getSnapshot? bytes).map Prod.fst := by
  simp only [ofPayload?, getSnapshot?, getTopology?, Option.map_bind, Option.bind_assoc,
    Option.bind_eq_bind, Option.bind_some, Option.map_some, Function.comp_def]

theorem local_getTopology? : Local getTopology? :=
  (local_getNumber? 4).decode Topology.ofIndex?

theorem local_getSnapshot? : Local getSnapshot? :=
  (local_getNumber? 8).bind fun width => (local_getNumber? 8).bind fun height =>
    local_getTopology?.bind fun topology => (local_getList? local_getCell?).decode fun cells =>
      some (⟨width, height, topology, cells⟩ : Snapshot)

theorem reads_topology (t : Topology) : Reads getTopology? (littleEndian 4 t.index) t := by
  intro more
  have hi : t.index < 256 ^ 4 := by
    cases t <;> decide
  simp only [getTopology?, getNumber?_littleEndian hi, Topology.ofIndex?_index,
    Option.bind_eq_bind, Option.bind_some]

/-- Every number of the snapshot is one of the file's width, and so is the number of bytes that
it takes. -/
structure Fits (s : Snapshot) : Prop where
  width : s.width < 2 ^ 64
  height : s.height < 2 ^ 64
  cells : ∀ c ∈ s.cells, Storable c
  size : s.payload.length < 2 ^ 64

theorem putCell_pos (c : CellSnapshot) : 0 < (putCell c).length := by
  have := putText_pos c.particle
  simp only [putCell, List.length_append]
  omega

theorem reads_payload {s : Snapshot} (h : s.Fits) : Reads getSnapshot? s.payload s := by
  intro more
  have hs := h.size
  simp only [payload, List.length_append] at hs
  have hc : Reads (getList? getCell?) (putWord s.cells.length ++ s.cells.flatMap putCell)
      s.cells :=
    reads_list putCell_pos (by omega) fun c hc => reads_cell (h.cells c hc)
  have hc := hc more
  rw [List.append_assoc] at hc
  simp only [getSnapshot?, payload, List.append_assoc, getWord?_putWord h.width,
    getWord?_putWord h.height, reads_topology s.topology _, hc, Option.bind_eq_bind,
    Option.bind_some]

theorem length_magic : magic.length = 8 := by
  rw [magic, toList_eq_data]
  decide

theorem getNumber?_version (more : List UInt8) :
    getNumber? 4 (littleEndian 4 version ++ more) = some (version, more) :=
  getNumber?_littleEndian (by decide) more

/-- A file with a header that gives so many bytes of payload. -/
theorem ofBytes_header {size : Nat} (h : size < 2 ^ 64) (bytes : List UInt8) :
    ofBytes (magic ++ (littleEndian 4 version ++ (putWord size ++ bytes))) =
      if bytes.length < size then .error (.tooLong size)
      else match ofPayload? (bytes.take size) with
        | some s => .ok s
        | none => .error .badPayload := by
  simp only [ofBytes, take?_append length_magic, getNumber?_version, getWord?_putWord h, ne_eq,
    not_true_eq_false, if_false, lt_self_iff_false]
  split
  · rfl
  · rfl

theorem prefix_append_cases {α : Type} {front a b : List α} (h : front <+: a ++ b) :
    front.length < a.length ∨ ∃ back, front = a ++ back ∧ back <+: b := by
  by_cases hl : front.length < a.length
  · exact .inl hl
  · obtain ⟨back, rfl⟩ := List.prefix_of_prefix_length_le (List.prefix_append a b) h (by omega)
    exact .inr ⟨back, rfl, (List.prefix_append_right_inj a).mp h⟩

/-- A file that ends inside its header has none, and of one that ends later the header says what is
missing. -/
theorem ofBytes_cut {s : Snapshot} (h : s.Fits) {front : List UInt8} (hp : front <+: s.toBytes)
    (hne : front ≠ s.toBytes) :
    ofBytes front = .error (if front.length < 20 then .file else .tooLong s.payload.length) := by
  have hv : (littleEndian 4 version).length = 4 := length_littleEndian 4 version
  have hw := length_putWord s.payload.length
  simp only [toBytes, List.append_assoc] at hp hne
  obtain hl | ⟨x, rfl, hx⟩ := prefix_append_cases hp
  · rw [length_magic] at hl
    simp only [ofBytes, take?_eq_none hl, if_pos (show front.length < 20 by omega)]
  rw [List.length_append, length_magic]
  obtain hl | ⟨y, rfl, hy⟩ := prefix_append_cases hx
  · rw [hv] at hl
    have hn : getNumber? 4 x = none := by rw [getNumber?_eq, take?_eq_none hl, Option.bind_none]
    simp [ofBytes, take?_append length_magic, hn, show 8 + x.length < 20 by omega]
  rw [List.length_append, hv]
  obtain hl | ⟨z, rfl, hz⟩ := prefix_append_cases hy
  · rw [hw] at hl
    have hn : getWord? y = none := by
      rw [getWord?, getNumber?_eq, take?_eq_none hl, Option.bind_none]
    simp [ofBytes, take?_append length_magic, getNumber?_version, hn,
      show 8 + (4 + y.length) < 20 by omega]
  have hs : z.length < s.payload.length := by
    refine lt_of_le_of_ne hz.length_le fun he => hne ?_
    rw [hz.eq_of_length he]
  rw [ofBytes_header h.size, if_pos hs, List.length_append, hw, if_neg (by omega)]

/-- A snapshot comes back from its file, whatever follows it, and from no part of the file that
lacks its end. -/
theorem board_file_reads_back (s : Snapshot) (h : s.Fits) :
    (∀ more, ofBytes (s.toBytes ++ more) = .ok s) ∧
      ∀ front, front <+: s.toBytes → front ≠ s.toBytes → ∃ e, ofBytes front = .error e := by
  constructor
  · intro more
    have hr : ofPayload? s.payload = some s := by
      have hr := reads_payload h []
      rw [List.append_nil] at hr
      rw [ofPayload?_eq, hr, Option.map_some]
    have hl : ¬(s.payload ++ more).length < s.payload.length := by
      rw [List.length_append]
      omega
    simp only [toBytes, List.append_assoc]
    rw [ofBytes_header h.size, if_neg hl, List.take_left, hr]
  · intro front hp hne
    exact ⟨_, ofBytes_cut h hp hne⟩

/-- Two cells with names that are no plain letters, the highest counter and offsets of both
signs. -/
def twoHexes : Snapshot where
  width := 2
  height := 1
  topology := .hex6
  cells := [
    ⟨"Zelle α→β", 18446744073709551615, .ofList [("", ⟨1, 0⟩), ("π", ⟨-2147483648, 2147483647⟩)],
      .empty⟩,
    ⟨"", 0, .empty, .ofList [("", ⟨-1, 0⟩)]⟩]

theorem fits_twoHexes : twoHexes.Fits where
  width := by decide
  height := by decide
  cells := by decide
  size := by
    simp [payload, twoHexes, putCell, putMap, putText, putPoint, length_putWord,
      length_littleEndian, toList_eq_data, NameMap.ofList, NameMap.insert, NameMap.insertEntry,
      NameMap.empty]
    decide

theorem board_file_reads_back_twoHexes :
    twoHexes.Fits ∧ (∀ more, ofBytes (twoHexes.toBytes ++ more) = .ok twoHexes) ∧
      ∀ front, front <+: twoHexes.toBytes → front ≠ twoHexes.toBytes →
        ∃ e, ofBytes front = .error e :=
  ⟨fits_twoHexes, board_file_reads_back twoHexes fits_twoHexes⟩

/-- Not even a header that gives the length of what is left makes a snapshot of a payload without
its end. -/
theorem ofBytes_payload_cut {s : Snapshot} (h : s.Fits) {front : List UInt8}
    (hp : front <+: s.payload) (hne : front ≠ s.payload) (more : List UInt8) :
    ofBytes (magic ++ (littleEndian 4 version ++ (putWord front.length ++ (front ++ more)))) =
      .error .badPayload := by
  have hl : ¬(front ++ more).length < front.length := by
    rw [List.length_append]
    omega
  have hn : ofPayload? front = none := by
    rw [ofPayload?_eq, (reads_payload h).cut local_getSnapshot? hp hne, Option.map_none]
  rw [ofBytes_header (hp.length_le.trans_lt h.size), if_neg hl, List.take_left, hn]

end Snapshot

end ParticleAutomaton
