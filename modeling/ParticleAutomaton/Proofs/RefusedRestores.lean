import ParticleAutomaton.Proofs.FaultlessRuns
import ParticleAutomaton.Proofs.SavedBoards
import ParticleAutomaton.Proofs.StepTransactions

namespace ParticleAutomaton

namespace Snapshot

/-- What was saved of the cell at a point. -/
def cell? (s : Snapshot) (p : Point) : Option CellSnapshot :=
  if 0 ≤ p.x ∧ 0 ≤ p.y ∧ p.x < s.width ∧ p.y < s.height then
    s.cells[p.x.toNat + p.y.toNat * s.width]?
  else none

/-- The bonds that were saved. -/
def field (s : Snapshot) : BondField := fun p =>
  (s.cell? p).map fun c => ⟨c.outgoing, c.incoming⟩

/-- A snapshot has the size and the shape of a board. -/
structure IsFor {R γ : Type} (s : Snapshot) (b : Board R γ) : Prop where
  width : s.width = b.width
  height : s.height = b.height
  cells : s.cells.length = b.width * b.height
  topology : s.topology = b.topology

theorem IsFor.cell? {R γ : Type} {s : Snapshot} {b : Board R γ} (h : s.IsFor b) (p : Point) :
    s.cell? p = (b.grid.index? p).bind fun i => s.cells[i]? := by
  have hw : s.width = b.grid.width := h.width
  have hh : s.height = b.grid.height := h.height
  unfold Snapshot.cell? Grid.index?
  rw [hw, hh]
  split
  next => rfl
  next => rfl

end Snapshot

namespace Registry

variable {R : Type}

theorem enrolls_place (x : Scene R) (entry : Point × CellSnapshot) :
    x.2.Enrolls (x.place entry).2 :=
  enrolls_intern x.2 entry.2.particle

theorem enrolls_places (entries : List (Point × CellSnapshot)) (x : Scene R) :
    x.2.Enrolls (entries.foldl Scene.place x).2 := by
  induction entries generalizing x with
  | nil => exact .refl x.2
  | cons entry entries ih => exact (enrolls_place x entry).trans (ih (x.place entry))

end Registry

namespace Board

variable {R γ : Type}

theorem enrolls_stage (b : Board R γ) (cells : List CellSnapshot) :
    b.registry.Enrolls (b.stage cells).2 :=
  Registry.enrolls_places (b.grid.points.zip cells) b.scene

variable [Scalar R]

/-- Each cell is staged with the bonds that were saved of it. -/
theorem field_stage {b : Board R γ} {s : Snapshot} (hb : b.registry.Sound) (h : s.IsFor b) :
    (b.stage s.cells).1.field = s.field := by
  have hlength : b.grid.points.length = s.cells.length :=
    (Grid.length_pointsOf ..).trans h.cells.symm
  have hnodup : ((b.grid.points.zip s.cells).map Prod.fst).Nodup := by
    rw [List.map_fst_zip (Nat.le_of_eq hlength)]
    exact b.grid.nodup_points
  obtain ⟨-, -, -, heach⟩ := Scene.place_all (x := b.scene) hb hnodup
  funext p
  unfold Grid.field Snapshot.field
  rw [h.cell?]
  cases hi : b.grid.index? p with
  | none =>
    have hout : b.grid.contains p = false := by simp [Grid.contains, hi]
    have hnone : (b.stage s.cells).1.get? p = none := by
      rw [Grid.get?_eq_none_iff, (ages_stage b s.cells).contains]
      exact hout
    rw [hnone]
    rfl
  | some i =>
    have hp := Grid.getElem?_points.mpr hi
    obtain ⟨hlt, hpoint⟩ := List.getElem?_eq_some_iff.mp hp
    have hsaved : s.cells[i]? = some s.cells[i] := List.getElem?_eq_getElem (hlength ▸ hlt)
    have hmem : (p, s.cells[i]) ∈ b.grid.points.zip s.cells := by
      apply List.mem_of_getElem? (i := i)
      rw [List.getElem?_zip_eq_some]
      exact ⟨hp, hsaved⟩
    obtain ⟨id, -, hcell⟩ := heach _ hmem
    obtain ⟨old, hold⟩ := Grid.get?_of_contains (g := b.grid) (p := p) (by simp [Grid.contains, hi])
    have hold : b.scene.1.get? p = some old := hold
    rw [hold] at hcell
    have hcell : (b.stage s.cells).1.get? p = _ := hcell
    rw [hcell, Option.bind_some, hsaved]
    rfl

/-- Counts are those of the names of the cells. -/
theorem counts_of_names {b c : Board R γ} (hb : b.Alike b) (hc : c.Alike c)
    (hp : c.grid.points = b.grid.points) (hn : ∀ p, c.particleName? p = b.particleName? p) :
    c.counts = b.counts := by
  apply Scene.counts_congr hb.sound hc.sound hb.twins.leftCounted hc.twins.leftCounted
    hb.twins.named_left hc.twins.named_left
  rw [names_scene, names_scene, hp]
  exact List.filterMap_congr fun p _ => hn p

/-- A board is what it was, but for particles in its registry that no cell holds. -/
structure Untouched (b c : Board R γ) : Prop where
  config : c.config = b.config
  grid : c.grid = b.grid
  activity : c.activity = b.activity
  remotes : c.remotes = b.remotes
  random : c.random = b.random
  journal : c.journal = b.journal
  registry : b.registry.Enlarged Eq c.registry
  names : ∀ p, c.particleName? p = b.particleName? p
  count : ∀ name, c.count name = b.count name
  counts : c.counts = b.counts

theorem Untouched.refl {b : Board R γ} (h : b.registry.Sound) : b.Untouched b :=
  ⟨rfl, rfl, rfl, rfl, rfl, rfl, .refl (fun _ => rfl) h.arena, fun _ => rfl, fun _ => rfl, rfl⟩

/-- That a snapshot is staged is not seen. -/
theorem untouched_stage {b : Board R γ} (h : b.Alike b) (cells : List CellSnapshot) :
    b.Untouched { b with registry := (b.stage cells).2 } := by
  obtain ⟨hstage, hext, -⟩ := alike_stage h cells
  have hsound := h.sound
  have hself := h.learn ⟨hstage.left, hstage.right, hext, hext⟩
  have hlarger := enrolls_stage b cells hsound.arena
  have hcount := ((enrolls_stage b cells).grows hsound.arena).count hsound hstage.left
  have hnames (p : Point) :
      particleName? { b with registry := (b.stage cells).2 } p = b.particleName? p := by
    unfold particleName?
    cases hcell : b.grid.get? p with
    | none => rfl
    | some cell =>
      obtain ⟨name, hname⟩ := h.named hcell
      have hkept := hsound.name?_of_keeps hext.toKeeps hname
      rw [Option.map_some, Option.map_some, Registry.name_of hname, Registry.name_of hkept]
  exact ⟨rfl, rfl, rfl, rfl, rfl, rfl, hlarger, hnames, hcount,
    counts_of_names h hself rfl hnames⟩

theorem restore_of_misfit {b : Board R γ} {s : Snapshot} (h : ¬ s.IsFor b) :
    ∃ e, b.restore s = .ok (.error e, b) := by
  unfold restore
  split
  next => exact ⟨_, rfl⟩
  next hsize =>
    split
    next => exact ⟨_, rfl⟩
    next htopology =>
      simp only [not_or, not_not] at hsize htopology
      obtain ⟨hw, hh, hcells⟩ := hsize
      exact absurd ⟨hw, hh, hcells, htopology⟩ h

end Board

namespace Board

variable {R γ : Type} [ShareScalar R]

/-- A snapshot that fits is refused just for a bond that stands at one of two cells only. -/
theorem Ready.restore_fitting {b : Board R γ} (h : b.Ready) {s : Snapshot} (hf : s.IsFor b) :
    ∃ result c, b.restore s = .ok (result, c) ∧
      ((∃ e, result = .error e) ↔ ¬ s.field.Mirrored) ∧
      ((∃ e, result = .error e) → b.Untouched c) := by
  obtain ⟨⟨result, c⟩, hrestore⟩ := h.restore_ok s
  refine ⟨result, c, hrestore, ?_⟩
  have hgap := Grid.gap?_eq_none_iff (g := (b.stage s.cells).1)
  rw [field_stage h.alike.sound hf] at hgap
  have hsize : ¬ (s.width ≠ b.width ∨ s.height ≠ b.height ∨
      s.cells.length ≠ b.width * b.height) := by
    simp only [not_or, not_not]
    exact ⟨hf.width, hf.height, hf.cells⟩
  unfold restore at hrestore
  rw [if_neg hsize, if_neg (not_not.mpr hf.topology)] at hrestore
  simp only at hrestore
  split at hrestore
  next gap hsome =>
    cases hrestore
    have hopen : ¬ s.field.Mirrored := by
      rw [← hgap, hsome]
      exact nofun
    exact ⟨iff_of_true ⟨_, rfl⟩ hopen, fun _ => untouched_stage h.alike s.cells⟩
  next hnone =>
    obtain ⟨registry, -, hrestore⟩ := bind_eq_ok.mp hrestore
    obtain ⟨d, -, hrestore⟩ := bind_eq_ok.mp hrestore
    cases hrestore
    have hdone : ¬ ∃ e, (.ok () : Except SnapshotError Unit) = .error e := nofun
    exact ⟨iff_of_false hdone (not_not.mpr (hgap.mp hnone)), fun he => absurd he hdone⟩

variable [Generator R γ] [MessageReader R]

/-- A snapshot is refused just if it has another size or shape or a bond that stands at one of two
cells only, and then nothing is seen of it. -/
theorem refused_restore {b : Board R γ} (h : b.Reachable) (hd : b.registry.rules.Declared)
    (s : Snapshot) :
    ∃ result c, b.restore s = .ok (result, c) ∧
      ((∃ e, result = .error e) ↔ s.width ≠ b.width ∨ s.height ≠ b.height ∨
        s.cells.length ≠ b.width * b.height ∨ s.topology ≠ b.topology ∨ ¬ s.field.Mirrored) ∧
      ((∃ e, result = .error e) → b.Untouched c) := by
  by_cases hf : s.IsFor b
  · obtain ⟨result, c, hrestore, hrefused, hsame⟩ := (h.ready hd.probable).restore_fitting hf
    refine ⟨result, c, hrestore, ?_, hsame⟩
    rw [hrefused]
    have hw := hf.width
    have hh := hf.height
    have hcells := hf.cells
    have htopology := hf.topology
    tauto
  · obtain ⟨e, hrestore⟩ := restore_of_misfit hf
    refine ⟨_, b, hrestore, iff_of_true ⟨e, rfl⟩ ?_, fun _ => .refl h.alike.sound⟩
    by_contra hnone
    simp only [not_or, not_not] at hnone
    obtain ⟨hw, hh, hcells, htopology, -⟩ := hnone
    exact hf ⟨hw, hh, hcells, htopology⟩

/-- A bond off the grid, and one that its other cell does not know. -/
def oneSided : Snapshot where
  width := 2
  height := 1
  topology := .square4
  cells := [⟨"a", 7, .ofList [("edge", ⟨-1, 0⟩), ("k", ⟨1, 0⟩)], .empty⟩, ⟨"_", 0, .empty, .empty⟩]

theorem refused_restore_oneSided :
    ∃ b : Board Float RandomSource, b.Reachable ∧ b.registry.rules.Declared ∧
      oneSided.IsFor b ∧ ∃ e c, b.restore oneSided = .ok (.error e, c) ∧ b.Untouched c := by
  have hread : ((Rulebook.ofRecords? .square4 (⟨[], [], []⟩ : RuleRecords Float)).toOption.any
      fun _ => true) = true := by decide +kernel
  obtain ⟨rules, hrules, -⟩ := any_toOption.mp hread
  have hdeclared : rules.Declared := ⟨_, _, hrules⟩
  have htop : rules.topology = .square4 := Rulebook.topology_of_ofRecords hrules
  let config : BoardConfig := { width := 2, height := 1 }
  obtain ⟨b, hb, hrb, hcb, ⟨filler, hgb⟩, -⟩ :=
    declared_new (RandomSource.ofMix 0) (show config.validate = .ok () from rfl) hdeclared htop
  have hwidth : b.width = 2 := congrArg Grid.width hgb
  have hheight : b.height = 1 := congrArg Grid.height hgb
  have htopology : b.topology = .square4 := congrArg BoardConfig.topology hcb
  have hd : b.registry.rules.Declared := hrb ▸ hdeclared
  have hfits : oneSided.IsFor b := by
    refine ⟨hwidth.symm, hheight.symm, ?_, htopology.symm⟩
    rw [hwidth, hheight]
    rfl
  have hopen : ¬ oneSided.field.Mirrored := by
    intro hmirrored
    obtain ⟨c, hc, he⟩ := (hmirrored ⟨⟨0, 0⟩, ⟨1, 0⟩, "k"⟩ rfl rfl).mp ⟨_, rfl, by decide⟩
    cases hc
    exact absurd he (by decide)
  obtain ⟨result, c, hrestore, hrefused, hsame⟩ := refused_restore hb hd oneSided
  have herror : ∃ e, result = .error e := by
    apply hrefused.mpr
    tauto
  have huntouched := hsame herror
  obtain ⟨e, rfl⟩ := herror
  exact ⟨b, hb, hd, hfits, e, c, hrestore, huntouched⟩

end Board

end ParticleAutomaton
