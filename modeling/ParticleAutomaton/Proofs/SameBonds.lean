import ParticleAutomaton.Proofs.Progress
import ParticleAutomaton.Update.Energy

namespace ParticleAutomaton

namespace Grid

/-- Two grids differ in particles and writes at most. -/
structure SameBonds (g h : Grid) : Prop where
  width : h.width = g.width
  height : h.height = g.height
  field : h.field = g.field

namespace SameBonds

variable {g h : Grid} (e : SameBonds g h)

include e

theorem index? (p : Point) : h.index? p = g.index? p := by
  simp [Grid.index?, e.width, e.height]

theorem contains (p : Point) : h.contains p = g.contains p := by
  simp [Grid.contains, e.index? p]

theorem points : h.points = g.points := by
  simp [Grid.points, e.width, e.height]

theorem bonds (p : Point) : (h.get? p).map (·.bonds) = (g.get? p).map (·.bonds) :=
  congrFun e.field p

theorem outgoing? (p : Point) (name : String) : h.outgoing? p name = g.outgoing? p name := by
  have hb := e.bonds p
  unfold Grid.outgoing?
  cases hg : g.get? p with
  | none => rw [hg] at hb; simp [Option.map_eq_none_iff.mp hb]
  | some c =>
    rw [hg] at hb
    obtain ⟨d, hd, hdc⟩ := Option.map_eq_some_iff.mp hb
    simp [hd, hdc]

theorem incoming? (p : Point) (name : String) : h.incoming? p name = g.incoming? p name := by
  have hb := e.bonds p
  unfold Grid.incoming?
  cases hg : g.get? p with
  | none => rw [hg] at hb; simp [Option.map_eq_none_iff.mp hb]
  | some c =>
    rw [hg] at hb
    obtain ⟨d, hd, hdc⟩ := Option.map_eq_some_iff.mp hb
    simp [hd, hdc]

theorem modifyBonds (p : Point) (f : CellBonds → CellBonds) :
    SameBonds (g.modifyBonds p f) (h.modifyBonds p f) := by
  refine ⟨?_, ?_, ?_⟩
  · rw [Grid.modifyBonds, Grid.modifyBonds, width_modify, width_modify, e.width]
  · rw [Grid.modifyBonds, Grid.modifyBonds, height_modify, height_modify, e.height]
  · rw [field_modifyBonds, field_modifyBonds, e.field]

end SameBonds

/-- Places are told alike, and the bonds stay alike. -/
def SameUnlinked (s t : List Point × Grid) : Prop := t.1 = s.1 ∧ SameBonds s.2 t.2

theorem sameUnlinked_outgoing {s t : List Point × Grid} (h : SameUnlinked s t) (p : Point)
    (entry : String × Point) :
    SameUnlinked (unlinkOutgoing p s entry) (unlinkOutgoing p t entry) := by
  unfold unlinkOutgoing
  simp only [h.2.incoming?, h.1]
  split
  · exact ⟨rfl, h.2.modifyBonds (p + entry.2) fun b =>
      { b with incoming := b.incoming.erase entry.1 }⟩
  · exact ⟨rfl, h.2⟩

theorem sameUnlinked_incoming {s t : List Point × Grid} (h : SameUnlinked s t) (p : Point)
    (entry : String × Point) :
    SameUnlinked (unlinkIncoming p s entry) (unlinkIncoming p t entry) := by
  unfold unlinkIncoming
  simp only [h.2.outgoing?, h.1]
  split
  · exact ⟨rfl, h.2.modifyBonds (p + entry.2) fun b =>
      { b with outgoing := b.outgoing.erase entry.1 }⟩
  · exact ⟨rfl, h.2⟩

theorem sameUnlinked_foldl {f : List Point × Grid → String × Point → List Point × Grid}
    (hf : ∀ {s t}, SameUnlinked s t → ∀ entry, SameUnlinked (f s entry) (f t entry))
    (entries : List (String × Point)) {s t : List Point × Grid} (h : SameUnlinked s t) :
    SameUnlinked (entries.foldl f s) (entries.foldl f t) := by
  induction entries generalizing s t with
  | nil => exact h
  | cons entry entries ih => exact ih (hf h entry)

/-- What is removed depends on the bonds alone. -/
theorem SameBonds.removeBonds {g h : Grid} (e : SameBonds g h) (p : Point) :
    SameUnlinked (g.removeBonds p) (h.removeBonds p) := by
  have hb := e.bonds p
  unfold Grid.removeBonds
  cases hg : g.get? p with
  | none =>
    rw [hg] at hb
    rw [Option.map_eq_none_iff.mp hb]
    exact ⟨rfl, e⟩
  | some c =>
    rw [hg] at hb
    obtain ⟨d, hd, hdc⟩ := Option.map_eq_some_iff.mp hb
    simp only [hd, hdc]
    exact sameUnlinked_foldl (fun hs => sameUnlinked_incoming hs p) _
      (sameUnlinked_foldl (fun hs => sameUnlinked_outgoing hs p) _
        ⟨rfl, e.modifyBonds p fun _ => .empty⟩)

theorem SameBonds.link {g h : Grid} (e : SameBonds g h) (b : Bond) :
    (h.link b).field = (g.link b).field := by
  simp only [Grid.link, field_writeBond, field_removeAny, e.field]

/-- The cells by place. -/
theorem map_get?_points (g : Grid) : g.points.map g.get? = g.cells.toList.map some := by
  refine List.ext_getElem? fun i => ?_
  rw [List.getElem?_map, List.getElem?_map]
  cases hp : g.points[i]? with
  | none =>
    have hl : g.cells.size ≤ i := by
      rw [g.size_cells, ← length_pointsOf]
      exact List.getElem?_eq_none_iff.mp hp
    simp [hl]
  | some p =>
    have hi := getElem?_points.mp hp
    rw [Option.map_some, get?_of_index? hi]
    obtain ⟨c, hc⟩ : ∃ c, g.cells[i]? = some c := ⟨_, Array.getElem?_eq_getElem (index?_lt hi)⟩
    simp [hc]

theorem findSome?_zip {β : Type} {get : Point → Option Cell} {ps : List Point} {cs : List Cell}
    (h : ps.map get = cs.map some) (f : Point → CellBonds → Option β) :
    (ps.zip cs).findSome? (fun (p, c) => f p c.bonds) =
      ps.findSome? fun p => ((get p).map (·.bonds)).bind (f p) := by
  induction ps generalizing cs with
  | nil => rfl
  | cons p ps ih =>
    cases cs with
    | nil => simp at h
    | cons c cs =>
      rw [List.map_cons, List.map_cons, List.cons.injEq] at h
      rw [List.zip_cons_cons, List.findSome?_cons, List.findSome?_cons, ih h.2, h.1]
      rfl

theorem findSome?_toList {β : Type} (g : Grid) (f : Point → CellBonds → Option β) :
    g.toList.findSome? (fun (p, c) => f p c.bonds) =
      g.points.findSome? fun p => (g.field p).bind (f p) :=
  findSome?_zip g.map_get?_points f

theorem SameBonds.gap? {g h : Grid} (e : SameBonds g h) : h.gap? = g.gap? := by
  have hgap : ∀ p c, h.gapAt? p c = g.gapAt? p c := by
    intro p c
    simp only [gapAt?, e.contains, e.incoming?, e.outgoing?]
  have hg := g.findSome?_toList fun p b => g.gapAt? p ⟨default, 0, b⟩
  have hh := h.findSome?_toList fun p b => h.gapAt? p ⟨default, 0, b⟩
  simp only [hgap, e.points, e.field] at hh
  have hboth := hh.trans hg.symm
  unfold Grid.gap?
  simp only [hgap]
  exact hboth

end Grid

namespace Labels

variable {g h : Grid} (s : Grid.SameBonds g h)

include s

theorem look_congr (l : Labels) (e : BondExpr) : l.look h e = l.look g e := by
  simp only [look, s.outgoing?, s.incoming?, s.contains]

theorem pass_congr (required : Bool) (l : Labels) (es : List BondExpr) :
    pass h required l es = pass g required l es := by
  induction es generalizing l with
  | nil => rfl
  | cons e es ih => simp only [pass, look_congr s, ih]

theorem resolveIn_congr (required : Bool) (fuel : Nat) (l : Labels) (es : List BondExpr) :
    resolveIn h required fuel l es = resolveIn g required fuel l es := by
  induction fuel generalizing l es with
  | zero => rfl
  | succ fuel ih => simp only [resolveIn, pass_congr s, ih]

theorem resolve_congr (l : Labels) (required : Bool) (es : List BondExpr) :
    l.resolve h required es = l.resolve g required es :=
  resolveIn_congr s required _ l es

end Labels

namespace Plan

variable {g h : Grid} (s : Grid.SameBonds g h)

include s

theorem bondsAt_congr (plan : Plan) (p : Point) : plan.bondsAt h p = plan.bondsAt g p := by
  rw [bondsAt, bondsAt, s.bonds]

theorem edit_congr (plan : Plan) (p : Point) (f : CellBonds → CellBonds) :
    plan.edit h p f = plan.edit g p f := by
  rw [edit, edit, s.bonds]

theorem drop_congr : drop h = drop g := by
  funext plan b
  simp only [drop, edit_congr s]

theorem add_congr : add h = add g := by
  funext plan b
  simp only [add, edit_congr s, drop_congr s]

end Plan

theorem Grid.SameBonds.carryOut {g h : Grid} (s : SameBonds g h) (plan : Plan) :
    SameBonds (plan.carryOut g) (plan.carryOut h) := by
  unfold Plan.carryOut
  generalize plan.edits = edits
  induction edits generalizing g h with
  | nil => exact s
  | cons edit edits ih => exact ih (s.modifyBonds edit.1 fun _ => edit.2)

end ParticleAutomaton
