import ParticleAutomaton.Proofs.Moves
import ParticleAutomaton.Proofs.Steps

namespace ParticleAutomaton

/-- The writes to a cell never become fewer, and a new particle counts as one. -/
structure Cell.Ages (c d : Cell) : Prop where
  writes : c.writes ≤ d.writes
  particle : d.particle ≠ c.particle → c.writes < d.writes

theorem Cell.Ages.refl (c : Cell) : c.Ages c := ⟨Nat.le_refl _, fun h => absurd rfl h⟩

theorem Cell.Ages.trans {c d e : Cell} (h : c.Ages d) (k : d.Ages e) : c.Ages e := by
  refine ⟨Nat.le_trans h.writes k.writes, fun hne => ?_⟩
  by_cases hd : d.particle = c.particle
  · exact Nat.lt_of_le_of_lt h.writes (k.particle fun he => hne (he.trans hd))
  · exact Nat.lt_of_lt_of_le (h.particle hd) k.writes

theorem Cell.Ages.particle_eq {c d : Cell} (h : c.Ages d) (hw : d.writes ≤ c.writes) :
    d.particle = c.particle := by
  by_contra hne
  exact Nat.not_lt.mpr hw (h.particle hne)

namespace Grid

/-- All cells of a grid age. -/
structure Ages (g h : Grid) : Prop where
  width : h.width = g.width
  height : h.height = g.height
  cell : ∀ {p : Point} {c : Cell}, g.get? p = some c → ∃ d, h.get? p = some d ∧ c.Ages d

theorem Ages.refl (g : Grid) : g.Ages g := ⟨rfl, rfl, fun h => ⟨_, h, .refl _⟩⟩

theorem Ages.trans {g h k : Grid} (h₁ : g.Ages h) (h₂ : h.Ages k) : g.Ages k := by
  refine ⟨h₂.width.trans h₁.width, h₂.height.trans h₁.height, fun hc => ?_⟩
  obtain ⟨d, hd, hcd⟩ := h₁.cell hc
  obtain ⟨e, he, hde⟩ := h₂.cell hd
  exact ⟨e, he, hcd.trans hde⟩

theorem Ages.contains {g h : Grid} (a : g.Ages h) (p : Point) : h.contains p = g.contains p := by
  simp [Grid.contains, Grid.index?, a.width, a.height]

theorem ages_modify {g : Grid} {p : Point} {f : Cell → Cell} (h : ∀ c : Cell, c.Ages (f c)) :
    g.Ages (g.modify p f) := by
  refine ⟨width_modify .., height_modify .., fun {q c} hc => ?_⟩
  rw [get?_modify, hc]
  split
  · exact ⟨f c, rfl, h c⟩
  · exact ⟨c, rfl, .refl c⟩

theorem SameStates.ages {g h : Grid} (e : SameStates g h) : g.Ages h := by
  refine ⟨e.width, e.height, fun hc => ?_⟩
  obtain ⟨d, hd, hp, hw⟩ := e.get? hc
  exact ⟨d, hd, hw ▸ Nat.le_refl _, fun hne => absurd hp hne⟩

theorem ages_put (g : Grid) (p : Point) (particle : ParticleId) : g.Ages (g.put p particle) :=
  ages_modify fun _ => ⟨Nat.le_succ _, fun _ => Nat.lt_succ_self _⟩

/-- What operations do to a grid: its cells age, and mirrored bonds stay mirrored. -/
structure LeadsTo (g h : Grid) : Prop where
  ages : g.Ages h
  mirrored : g.field.Mirrored → h.field.Mirrored

theorem LeadsTo.refl (g : Grid) : g.LeadsTo g := ⟨.refl g, id⟩

theorem LeadsTo.trans {g h k : Grid} (h₁ : g.LeadsTo h) (h₂ : h.LeadsTo k) : g.LeadsTo k :=
  ⟨h₁.ages.trans h₂.ages, fun hm => h₂.mirrored (h₁.mirrored hm)⟩

theorem leadsTo_put (g : Grid) (p : Point) (particle : ParticleId) : g.LeadsTo (g.put p particle) :=
  ⟨ages_put g p particle, fun hm => field_put g p particle ▸ hm⟩

theorem leadsTo_removeBonds (g : Grid) (p : Point) : g.LeadsTo (g.removeBonds p).2 :=
  ⟨(sameStates_removeBonds g p).ages, fun hm => mirrored_removeBonds hm p⟩

/-- Removes a bond if there is one. -/
def removeAny (g : Grid) (b : Option Bond) : Grid := b.elim g g.removeBond

theorem field_removeAny (g : Grid) (b : Option Bond) :
    (g.removeAny b).field = g.field.dropAny b := by
  cases b with
  | none => rfl
  | some b => exact field_removeBond g b

theorem sameStates_removeBond (g : Grid) (b : Bond) : SameStates g (g.removeBond b) :=
  (SameStates.modifyBonds _ _ _).trans (SameStates.modifyBonds _ _ _)

theorem sameStates_writeBond (g : Grid) (b : Bond) : SameStates g (g.writeBond b) :=
  (SameStates.modifyBonds _ _ _).trans (SameStates.modifyBonds _ _ _)

theorem sameStates_removeAny (g : Grid) (b : Option Bond) : SameStates g (g.removeAny b) := by
  cases b with
  | none => exact .refl g
  | some b => exact sameStates_removeBond g b

theorem leaving?_field (g : Grid) (p : Point) (name : String) :
    g.field.leaving? p name = (g.outgoing? p name).map fun o => ⟨p, p + o, name⟩ := by
  unfold BondField.leaving? field outgoing?
  cases g.get? p <;> rfl

theorem entering?_field (g : Grid) (p : Point) (name : String) :
    g.field.entering? p name = (g.incoming? p name).map fun o => ⟨p + o, p, name⟩ := by
  unfold BondField.entering? field incoming?
  cases g.get? p <;> rfl

/-- Writes a bond after the bonds of its name that leave its origin or enter its destination are
removed. -/
def link (g : Grid) (b : Bond) : Grid :=
  let near := g.removeAny (g.field.leaving? b.origin b.name)
  let far := near.removeAny (near.field.entering? b.destination b.name)
  far.writeBond b

theorem sameStates_link (g : Grid) (b : Bond) : SameStates g (g.link b) :=
  ((sameStates_removeAny _ _).trans (sameStates_removeAny _ _)).trans (sameStates_writeBond _ _)

theorem leadsTo_link (g : Grid) (b : Bond) : g.LeadsTo (g.link b) := by
  refine ⟨(sameStates_link g b).ages, fun hm => ?_⟩
  simp only [link, field_writeBond, field_removeAny]
  exact hm.displace (fun _ hc => Or.inr hc) (fun _ hc => Or.inr hc)

theorem leaves_link {g : Grid} {b : Bond} (h : g.contains b.origin = true) :
    (g.link b).field.Leaves b := by
  rw [link, field_writeBond]
  refine BondField.leaves_write.mpr (Or.inl ⟨holds_field.mpr ?_, rfl⟩)
  rw [(sameStates_removeAny _ _).contains, (sameStates_removeAny _ _).contains, h]

end Grid

namespace UpdateEvent

variable {R : Type}

theorem ages_applied (e : UpdateEvent R) (g : Grid) : g.Ages (e.applied g) := by
  have hs : g.Ages (if e.remote then g else g.put e.source e.newSource) := by
    split
    · exact .refl g
    · exact Grid.ages_put ..
  exact (hs.trans (Grid.ages_put ..)).trans (e.plan.sameStates_carryOut _).ages

theorem leadsTo_applied {e : UpdateEvent R} {g : Grid} (h : Planned g e.plan) :
    g.LeadsTo (e.applied g) :=
  ⟨e.ages_applied g, fun hm => field_applied h.wellFormed ▸ h.mirrored hm⟩

end UpdateEvent

namespace Board

variable {R γ : Type}

theorem leadsTo_overwritten (g : Grid) (p : Point) (particle : ParticleId) :
    g.LeadsTo (overwritten g p particle) :=
  (Grid.leadsTo_removeBonds g p).trans (Grid.leadsTo_put ..)

theorem ages_restoredCell (c : Cell) (saved : CellSnapshot) (particle : ParticleId) :
    c.Ages (restoredCell c saved particle) := by
  unfold restoredCell
  constructor
  · simp only
    split <;> omega
  · intro hne
    simp only at hne
    simp only [ne_eq, Ne.symm hne, not_false_iff, if_true]
    omega

theorem addBond_eq (b : Board R γ) (bond : Bond) :
    b.addBond bond =
      if bond.origin = bond.destination ∨
          (!b.grid.contains bond.origin ∧ !b.grid.contains bond.destination) then (false, b)
      else (true, { b with grid := b.grid.link bond }) := by
  unfold addBond
  simp only
  split
  next => rfl
  next =>
    unfold Grid.link
    simp only [Grid.leaving?_field, Grid.entering?_field]
    cases b.grid.outgoing? bond.origin bond.name with
    | none =>
      simp only [Option.map_none, Grid.removeAny, Option.elim_none]
      cases b.grid.incoming? bond.destination bond.name <;> rfl
    | some o =>
      simp only [Option.map_some, Grid.removeAny, Option.elim_some]
      generalize b.grid.removeBond ⟨bond.origin, bond.origin + o, bond.name⟩ = g
      cases g.incoming? bond.destination bond.name <;> rfl

theorem ages_stage (b : Board R γ) (cells : List CellSnapshot) : b.grid.Ages (b.stage cells).1 := by
  unfold stage
  generalize b.grid.points.zip cells = entries
  generalize b.registry = r
  generalize b.grid = g
  induction entries generalizing g r with
  | nil => exact .refl g
  | cons entry entries ih =>
    exact (Grid.ages_modify fun c => ages_restoredCell c entry.2 _).trans (ih _ _)

variable [Scalar R]

theorem restore_eq_ok {b b' : Board R γ} {s : Snapshot} {a : Except SnapshotError Unit}
    (h : b.restore s = .ok (a, b')) :
    (∃ registry, b' = { b with registry }) ∨
      (b.stage s.cells).1.gap? = none ∧ ∃ registry activity journal,
        b' = { b with grid := (b.stage s.cells).1, registry, activity, journal } ∧
          journal.sent = b.journal.sent := by
  rcases restore_cases h with rfl | rfl | ⟨hg, registry, d, -, hd, rfl⟩
  · exact Or.inl ⟨_, rfl⟩
  · exact Or.inl ⟨_, rfl⟩
  · obtain ⟨registry', activity, rfl⟩ := refreshRates_eq_ok hd
    exact Or.inr ⟨hg, _, _, _, rfl, sent_drawAll ..⟩

theorem applyReply_eq_ok {b b' : Board R γ} {m : EvolveReply R} (h : b.applyReply m = .ok b') :
    (∃ registry, b' = { b with registry }) ∨ ∃ particle registry activity journal,
      b' = { b with grid := overwritten b.grid m.source particle, registry, activity, journal } ∧
        journal.sent = b.journal.sent := by
  rcases applyReply_cases h with rfl | rfl | ⟨touched, d, hd, rfl⟩
  · exact Or.inl ⟨_, rfl⟩
  · exact Or.inl ⟨_, rfl⟩
  · obtain ⟨registry, activity, rfl⟩ := write_eq_ok hd
    exact Or.inr ⟨_, _, _, _, rfl, sent_drawAll ..⟩

variable [Generator R γ]

theorem Effect.leadsTo {b b' : Board R γ} {remote : Bool} {o : StepOutcome}
    (h : Effect b remote o b') : b.grid.LeadsTo b'.grid := by
  cases h with
  | quiet ha hr h =>
    obtain ⟨registry, random, -, rfl⟩ := h
    exact .refl b.grid
  | request ho h =>
    obtain ⟨registry, random, p, c, d, cell, -, hc, -, rfl⟩ := h
    obtain ⟨registry', q, -, -, -, -, hr⟩ :=
      requestRemote_eq (b := { b with registry, random }) hc d cell
    rw [hr]
    exact .refl b.grid
  | change ho e e' hp hr hb h =>
    obtain ⟨registry, random, -, h⟩ := h
    obtain ⟨registry', activity, journal, rfl, -⟩ := commit_eq_ok h
    exact UpdateEvent.leadsTo_applied (hp.planned hb)

theorem leadsTo_of_handle {b b' : Board R γ} {m : Message R} (h : b.handle m = .ok b') :
    b.grid.LeadsTo b'.grid := by
  cases m with
  | evolve m =>
    obtain ⟨⟨state, energy, c⟩, hc, h⟩ := bind_eq_ok.mp h
    obtain ⟨o, he⟩ := effect_of_evolveTarget hc
    cases h
    exact he.leadsTo
  | reply m =>
    rcases applyReply_eq_ok h with ⟨registry, rfl⟩ | ⟨particle, registry, activity, journal, rfl, -⟩
    · exact .refl b.grid
    · exact leadsTo_overwritten ..

theorem Moves.leadsTo {b c : Board R γ} (h : b.Moves c) : b.grid.LeadsTo c.grid := by
  cases h with
  | set h =>
    rcases set_eq_ok h with rfl | ⟨particle, registry, activity, journal, rfl, -⟩
    · exact .refl _
    · exact leadsTo_overwritten ..
  | addBond bond =>
    rw [addBond_eq]
    split
    · exact .refl _
    · exact Grid.leadsTo_link ..
  | removeBonds p => exact Grid.leadsTo_removeBonds ..
  | connect p cell =>
    unfold Board.connect
    split <;> exact .refl _
  | draw random => exact .refl _
  | step h => exact (effect_of_step h).leadsTo
  | handle h => exact leadsTo_of_handle h
  | restore h =>
    rcases restore_eq_ok h with ⟨registry, rfl⟩ | ⟨hg, registry, activity, journal, rfl, -⟩
    · exact .refl _
    · exact ⟨ages_stage b _, fun _ => Grid.gap?_eq_none_iff.mp hg⟩
  | flush => exact .refl _

theorem Passes.leadsTo {b c : Board R γ} (h : b.Passes c) : b.grid.LeadsTo c.grid :=
  h.relates (r := fun b c : Board R γ => b.grid.LeadsTo c.grid) (fun b => .refl b.grid)
    (fun h k => h.trans k) Moves.leadsTo

end Board

end ParticleAutomaton
