import ParticleAutomaton.Board.Inbound
import ParticleAutomaton.Proofs.BoardTexts
import ParticleAutomaton.Proofs.FloatNumerals
import ParticleAutomaton.Proofs.Requests

namespace ParticleAutomaton

/-! Numbers in range -/

theorem Text.le_foldl_digits (ds : List Char) (sig : Nat) :
    sig ≤ ds.foldl (fun n c => 10 * n + digitValue c) sig := by
  induction ds generalizing sig with
  | nil => exact Nat.le_refl sig
  | cons d ds ih =>
    have := ih (10 * sig + digitValue d)
    rw [List.foldl_cons]
    omega

/-- Digits of a word are gathered all. -/
theorem Numeral.gather_eq {ds : List Char} {sig : Nat}
    (h : ds.foldl (fun n c => 10 * n + Text.digitValue c) sig ≤ Text.maxUInt64) :
    gather sig ds = (ds.foldl (fun n c => 10 * n + Text.digitValue c) sig, []) := by
  induction ds generalizing sig with
  | nil => rfl
  | cons d ds ih =>
    have hnext := Text.le_foldl_digits ds (10 * sig + Text.digitValue d)
    rw [List.foldl_cons] at h ⊢
    rw [gather, if_neg (by omega), ih h]

namespace Json

theorem isSound_ofInt {n : Int} (h : n.natAbs ≤ Text.maxUInt64) : (ofInt n).isSound = true := by
  have hdigits : (Nat.toDigits 10 n.natAbs).foldl (fun n c => 10 * n + Text.digitValue c) 0 =
      n.natAbs := Text.ofDigits_toDigits n.natAbs
  have hgather := Numeral.gather_eq (hdigits.symm ▸ h)
  simp [ofInt, isSound, Numeral.toFloat?, hgather, Numeral.gather]

theorem isSound_record {ms : List (String × Json)} (h : ∀ m ∈ ms, m.2.isSound = true) :
    (record ms).isSound = true := by
  rw [record, isSound]
  induction ms with
  | nil => rfl
  | cons m ms ih =>
    obtain ⟨hm, hms⟩ := List.forall_mem_cons.mp h
    simp [membersSound, hm, ih hms]

theorem depth_record {ms : List (String × Json)} {n : Nat} (h : ∀ m ∈ ms, m.2.depth ≤ n) :
    (record ms).depth ≤ n + 1 := by
  rw [record, depth]
  refine Nat.succ_le_succ ?_
  induction ms with
  | nil => exact Nat.zero_le n
  | cons m ms ih =>
    obtain ⟨hm, hms⟩ := List.forall_mem_cons.mp h
    exact Nat.max_le.mpr ⟨hm, ih hms⟩

/-- A value that may stand in a message and comes back from it. -/
structure Passes (v : Json) : Prop where
  readsBack : ReadsBack v
  isSound : v.isSound = true
  depth : v.depth ≤ 1

theorem passes_str (s : String) : Passes (.str s) := ⟨readsBack_str s, rfl, Nat.zero_le 1⟩

theorem passes_ofNat {n : Nat} (h : n < 2 ^ 64) : Passes (.ofNat n) := by
  refine ⟨readsBack_ofNat n, isSound_ofInt ?_, Nat.zero_le 1⟩
  rw [Int.natAbs_natCast, Text.maxUInt64]
  omega

theorem passes_ofPoint {p : Point} (h : IsWord32 p.x ∧ IsWord32 p.y) : Passes (.ofPoint p) := by
  have hword : ∀ {n : Int}, IsWord32 n → (ofInt n).isSound = true := fun ⟨hlow, hhigh⟩ =>
    isSound_ofInt (by rw [Text.maxUInt64]; omega)
  refine ⟨readsBack_ofPoint p, isSound_record ?_, Nat.le_refl 1⟩
  exact List.forall_mem_cons.mpr
    ⟨hword h.1, List.forall_mem_cons.mpr ⟨hword h.2, List.forall_mem_nil _⟩⟩

/-- A finite float that its digits give back. -/
structure PrintsExactly (x : Float) : Prop where
  finite : x.isFinite = true
  exact : (Numeral.ofFloat x).toFloat? = some x

theorem ofFloat_eq {x : Float} (h : PrintsExactly x) : ofFloat x = .number (.ofFloat x) :=
  if_pos h.finite

theorem toFloat?_ofFloat {x : Float} (h : PrintsExactly x) : (ofFloat x).toFloat? = some x := by
  rw [ofFloat_eq h]
  exact h.exact

theorem passes_ofFloat {x : Float} (h : PrintsExactly x) : Passes (.ofFloat x) := by
  rw [ofFloat_eq h]
  refine ⟨readsBack_number (Numeral.wellFormed_ofFloat x), ?_, Nat.zero_le 1⟩
  rw [Json.isSound, h.exact]
  rfl

end Json

open Json

/-! Messages -/

/-- All numbers of a request are ones of their widths. -/
structure EvolveRequest.InWords {R : Type} (m : EvolveRequest R) : Prop where
  target : IsWord32 m.target.x ∧ IsWord32 m.target.y
  dir : m.dir < 2 ^ 64
  source : IsWord32 m.source.x ∧ IsWord32 m.source.y
  writes : m.writes < 2 ^ 64

structure EvolveReply.InWords {R : Type} (m : EvolveReply R) : Prop where
  source : IsWord32 m.source.x ∧ IsWord32 m.source.y
  writes : m.writes < 2 ^ 64

/-- What a request is written as, apart from its kind. -/
def EvolveRequest.members (m : EvolveRequest Float) : List (String × Json) :=
  [("target", .ofPoint m.target), ("source_state", .str m.sourceState), ("dir", .ofNat m.dir),
    ("energy_barrier", .ofFloat m.barrier), ("source", .ofPoint m.source),
    ("return_addr", .str m.returnAddress), ("write_count", .ofNat m.writes)]

def EvolveReply.members (m : EvolveReply Float) : List (String × Json) :=
  [("source", .ofPoint m.source), ("new_state", .str m.newState), ("write_count", .ofNat m.writes),
    ("energy", .ofFloat m.energy)]

theorem EvolveRequest.passes_members {m : EvolveRequest Float} (h : m.InWords)
    (he : PrintsExactly m.barrier) : ∀ v ∈ m.members.map Prod.snd, Passes v := by
  simp only [members, List.map_cons, List.map_nil, List.forall_mem_cons, List.not_mem_nil,
    false_imp_iff, implies_true, and_true]
  exact ⟨passes_ofPoint h.target, passes_str _, passes_ofNat h.dir, passes_ofFloat he,
    passes_ofPoint h.source, passes_str _, passes_ofNat h.writes⟩

theorem EvolveReply.passes_members {m : EvolveReply Float} (h : m.InWords)
    (he : PrintsExactly m.energy) : ∀ v ∈ m.members.map Prod.snd, Passes v := by
  simp only [members, List.map_cons, List.map_nil, List.forall_mem_cons, List.not_mem_nil,
    false_imp_iff, implies_true, and_true]
  exact ⟨passes_ofPoint h.source, passes_str _, passes_ofNat h.writes, passes_ofFloat he⟩

namespace Message

/-- The kind of a message is told by a member of its own. -/
theorem kind?_record {kind : String} {ms : List (String × Json)}
    (h : "type" ∉ ms.map Prod.fst) :
    kind? (record (("type", .str kind) :: ms)) = some (kind, record ms) := by
  have hother : ∀ m ∈ ms.map fun m => (some m.1, m.2), m.1 ≠ some "type" := by
    intro m hm he
    obtain ⟨member, hmem, rfl⟩ := List.mem_map.mp hm
    exact h (Option.some.inj he ▸ List.mem_map_of_mem hmem)
  have hnone : (ms.map fun m => (some m.1, m.2)).filter (fun m => m.1 = some "type") = [] :=
    List.filter_eq_nil_iff.mpr fun m hm => by simpa using hother m hm
  have hall : (ms.map fun m => (some m.1, m.2)).filter (fun m => m.1 ≠ some "type") =
      ms.map fun m => (some m.1, m.2) :=
    List.filter_eq_self.mpr fun m hm => by simpa using hother m hm
  rw [record, List.map_cons, kind?, List.filter_cons_of_pos (by simp), hnone]
  simp only [str]
  rw [List.filter_cons_of_neg (by simp), hall]
  rfl

theorem evolveOfJson?_members {m : EvolveRequest Float} (h : m.InWords)
    (he : PrintsExactly m.barrier) : evolveOfJson? (record m.members) = some (.evolve m) := by
  let fields : Fields := ⟨m.members, false⟩
  have hfields : (record m.members).fields? evolveFields = some fields :=
    fields?_record rfl (by decide)
  have htarget : fields.required "target" toPoint? = some m.target :=
    toPoint?_ofPoint h.target.1 h.target.2
  have hstate : fields.required "source_state" toString? = some m.sourceState := rfl
  have hdir : fields.required "dir" toWord? = some m.dir := toWord?_ofNat h.dir
  have hbarrier : fields.required "energy_barrier" toFloat? = some m.barrier := toFloat?_ofFloat he
  have hsource : fields.required "source" toPoint? = some m.source :=
    toPoint?_ofPoint h.source.1 h.source.2
  have haddress : fields.required "return_addr" toString? = some m.returnAddress := rfl
  have hwrites : fields.required "write_count" toWord? = some m.writes := toWord?_ofNat h.writes
  rw [evolveOfJson?, hfields]
  simp only [Option.bind_eq_bind, Option.bind_some, htarget, hstate, hdir, hbarrier, hsource,
    haddress, hwrites]

theorem replyOfJson?_members {m : EvolveReply Float} (h : m.InWords)
    (he : PrintsExactly m.energy) : replyOfJson? (record m.members) = some (.reply m) := by
  let fields : Fields := ⟨m.members, false⟩
  have hfields : (record m.members).fields? replyFields = some fields :=
    fields?_record rfl (by decide)
  have hsource : fields.required "source" toPoint? = some m.source :=
    toPoint?_ofPoint h.source.1 h.source.2
  have hstate : fields.required "new_state" toString? = some m.newState := rfl
  have hwrites : fields.required "write_count" toWord? = some m.writes := toWord?_ofNat h.writes
  have henergy : fields.required "energy" toFloat? = some m.energy := toFloat?_ofFloat he
  rw [replyOfJson?, hfields]
  simp only [Option.bind_eq_bind, Option.bind_some, hsource, hstate, hwrites, henergy]

/-- All numbers of a message are ones of their widths. -/
def InWords {R : Type} : Message R → Prop
  | .evolve m => m.InWords
  | .reply m => m.InWords

/-- The energy that a message tells. -/
def energy {R : Type} : Message R → R
  | .evolve m => m.barrier
  | .reply m => m.energy

/-- A record of a kind and members that may stand in a message is parsed, and accepted as one. -/
theorem ofText?_record {m : Message Float} {kind : String} {ms : List (String × Json)}
    (hm : m.toJson = record (("type", .str kind) :: ms)) (h : ∀ v ∈ ms.map Prod.snd, Passes v) :
    ofText? m.toText = ofJson? m.toJson ∧ m.toJson.isSound ∧ m.toJson.depth ≤ maxDepth := by
  have hall : ∀ member ∈ ("type", .str kind) :: ms, Passes member.2 :=
    List.forall_mem_cons.mpr ⟨passes_str kind, fun member hmem => h _ (List.mem_map_of_mem hmem)⟩
  have hread : ReadsBack m.toJson :=
    hm ▸ readsBack_record fun member hmem => (hall member hmem).readsBack
  have hdepth := depth_record fun member hmem => (hall member hmem).depth
  refine ⟨?_, hm ▸ isSound_record fun member hmem => (hall member hmem).isSound,
    hm ▸ hdepth.trans (by decide)⟩
  rw [ofText?, toText, String.toList_ofList, hread.parse?_render, Option.bind_some]

theorem ofText?_toText {m : Message Float} (h : m.InWords) (he : PrintsExactly m.energy) :
    ofText? m.toText = some m := by
  cases m with
  | evolve m =>
    obtain ⟨hparse, hadmitted⟩ := ofText?_record (m := .evolve m) rfl
      (EvolveRequest.passes_members h he)
    have hkind : kind? (evolve m).toJson = some ("evolve", record m.members) :=
      kind?_record (show "type" ∉ evolveFields by decide)
    rw [hparse, ofJson?, if_pos hadmitted, hkind]
    exact evolveOfJson?_members h he
  | reply m =>
    obtain ⟨hparse, hadmitted⟩ := ofText?_record (m := .reply m) rfl
      (EvolveReply.passes_members h he)
    have hkind : kind? (reply m).toJson = some ("return", record m.members) :=
      kind?_record (show "type" ∉ replyFields by decide)
    rw [hparse, ofJson?, if_pos hadmitted, hkind]
    exact replyOfJson?_members h he

end Message

namespace Board

/-- A message has the same effect as its text, which comes back as the message. A text that is none
has no effect. -/
theorem texts_agree {γ : Type} [Generator Float γ] (b : Board Float γ) {m : Message Float}
    (h : m.InWords) (he : PrintsExactly m.energy) :
    Message.ofText? m.toText = some m ∧ b.handleText m.toText = b.handle m ∧
      ∀ text, Message.ofText? text = none → b.handleText text = .ok b := by
  have hread := Message.ofText?_toText h he
  refine ⟨hread, ?_, fun text hnone => ?_⟩
  · simp only [handleText, MessageReader.read?, hread]
  · simp only [handleText, MessageReader.read?, hnone]

end Board

/-- A request with names of quotes, backslashes, control characters and a character of two
surrogates, the greatest words, coordinates of both signs and an energy below zero. -/
def Message.escaped : Message Float :=
  .evolve {
    target := ⟨-2147483648, 2147483647⟩
    sourceState := "\"a\\b\"\n\x00\x1f"
    dir := 18446744073709551615
    barrier := -0.5
    source := ⟨-1, 0⟩
    returnAddress := "😀\t\x08/"
    writes := 18446744073709551615 }

theorem Message.inWords_escaped : escaped.InWords where
  target := by decide
  dir := by decide
  source := by decide
  writes := by decide

theorem Board.texts_agree_of_escaped :
    ∃ b : Board Float RandomSource, b.Reachable ∧
      Message.ofText? Message.escaped.toText = some Message.escaped ∧
      b.handleText Message.escaped.toText = b.handle Message.escaped ∧
      b.handleText "no message" = .ok b := by
  obtain ⟨rules, hrules⟩ : ∃ rules : Rulebook Float,
      Rulebook.ofRecords? .square4 ⟨[], [], []⟩ = .ok rules := ⟨_, rfl⟩
  have hv : BoardConfig.validate { width := 1, height := 1, topology := rules.topology } = .ok () :=
    rfl
  obtain ⟨b, hb, -⟩ := declared_new (RandomSource.ofMix 0) hv ⟨_, _, hrules⟩ rfl
  have he : PrintsExactly Message.escaped.energy := ⟨by decide +kernel, by decide +kernel⟩
  obtain ⟨hread, hsame, hnone⟩ := texts_agree b Message.inWords_escaped he
  exact ⟨b, hb, hread, hsame, hnone _ (by decide +kernel)⟩

end ParticleAutomaton
