import Mathlib
import ParticleAutomaton.Proofs.MirroredBonds
import ParticleAutomaton.Proofs.CellCounts
import ParticleAutomaton.Proofs.Requests

namespace ParticleAutomaton

/-- The contents of a cell as they are saved. -/
def Registry.saved {R : Type} (r : Registry R) (c : Cell) : CellSnapshot :=
  ⟨r.name c.particle, c.writes, c.bonds.outgoing, c.bonds.incoming⟩

/-- A cell that takes the contents on that it has keeps them. -/
theorem Registry.restoredCell_saved {R : Type} (r : Registry R) (c : Cell) :
    Board.restoredCell c (r.saved c) c.particle = c := by
  simp [Board.restoredCell, saved]

theorem Grid.map_fst_toList (g : Grid) : g.toList.map Prod.fst = g.points := by
  have hp : g.points.length = g.width * g.height := Grid.length_pointsOf ..
  exact List.map_fst_zip (by simp [hp, g.size_cells])

theorem Grid.outgoing?_eq (g : Grid) (p : Point) (name : String) :
    g.outgoing? p name = ((g.get? p).map (·.bonds)).bind fun b => b.outgoing.get? name := by
  rw [outgoing?, Option.bind_map]
  rfl

namespace Scene

variable {R : Type}

/-- Stages one cell. -/
def place (x : Scene R) (entry : Point × CellSnapshot) : Scene R :=
  let (particle, r) := x.2.intern entry.2.particle
  (x.1.modify entry.1 fun c => Board.restoredCell c entry.2 particle, r)

theorem get?_place (x : Scene R) (entry : Point × CellSnapshot) (p : Point) :
    (x.place entry).1.get? p =
      if p = entry.1 then (x.1.get? p).map fun c =>
        Board.restoredCell c entry.2 (x.2.intern entry.2.particle).1
      else x.1.get? p :=
  Grid.get?_modify ..

variable [Scalar R]

/-- Staging gives each of the cells what was saved of it and touches no other. -/
theorem place_all {entries : List (Point × CellSnapshot)} {x : Scene R} (hs : x.2.Sound)
    (hd : (entries.map Prod.fst).Nodup) :
    (entries.foldl place x).2.Sound ∧ x.2.Extends (entries.foldl place x).2 ∧
      (∀ p, p ∉ entries.map Prod.fst → (entries.foldl place x).1.get? p = x.1.get? p) ∧
      ∀ e ∈ entries, ∃ id, (entries.foldl place x).2.name? id =
          some (Text.truncate x.2.maxNameLen e.2.particle) ∧
        (entries.foldl place x).1.get? e.1 =
          (x.1.get? e.1).map fun c => Board.restoredCell c e.2 id := by
  induction entries generalizing x with
  | nil => exact ⟨hs, .refl _, fun _ _ => rfl, nofun⟩
  | cons e entries ih =>
    obtain ⟨hi, he, hn⟩ := hs.intern e.2.particle
    obtain ⟨hnot, hd⟩ := List.nodup_cons.mp hd
    obtain ⟨hsound, hext, hother, heach⟩ := ih (x := x.place e) hi hd
    refine ⟨hsound, he.trans hext, fun p hp => ?_, fun e' he' => ?_⟩
    · rw [List.map_cons, List.mem_cons, not_or] at hp
      rw [List.foldl_cons, hother p hp.2, get?_place, if_neg hp.1]
    · rcases List.mem_cons.mp he' with rfl | he'
      · refine ⟨_, hi.name?_of_keeps hext.toKeeps hn, ?_⟩
        rw [List.foldl_cons, hother _ hnot, get?_place, if_pos rfl]
      · obtain ⟨id, hid, hcell⟩ := heach e' he'
        have hne : e'.1 ≠ e.1 := by
          rintro heq
          exact hnot (heq ▸ List.mem_map_of_mem he')
        refine ⟨id, hid.trans (congrArg some ?_), ?_⟩
        · exact congrArg (Text.truncate · e'.2.particle) he.maxNameLen
        · rw [List.foldl_cons, hcell, get?_place, if_neg hne]

end Scene

namespace Board

variable {R γ : Type} {a b c : Board R γ}

theorem particleName?_eq (b : Board R γ) {p : Point} {cell : Cell} (h : b.grid.get? p = some cell) :
    b.particleName? p = some (b.registry.name cell.particle) := by
  rw [particleName?, h, Option.map_some]

/-- Bonds are no part of what a cell is called or how often it was written. -/
theorem rebond_shows (b : Board R γ) {g : Grid} (hg : Grid.SameStates b.grid g) {p : Point}
    (hp : b.grid.contains p = true) :
    particleName? { b with grid := g } p = b.particleName? p ∧
      writes? { b with grid := g } p = b.writes? p := by
  obtain ⟨cell, hcell⟩ := Grid.get?_of_contains hp
  obtain ⟨cell', hcell', hparticle, hwrites⟩ := hg.get? hcell
  rw [particleName?, particleName?, writes?, writes?, hcell', hcell]
  simp only [Option.map_some, hparticle, hwrites, and_self]

theorem snapshot_cells (b : Board R γ) :
    b.snapshot.cells = b.grid.cells.toList.map b.registry.saved := rfl

theorem stage_eq (b : Board R γ) (cells : List CellSnapshot) :
    b.stage cells = (b.grid.points.zip cells).foldl Scene.place b.scene := rfl

/-- A board has the size and the shape of another one and room for its names. -/
structure Suits (b a : Board R γ) : Prop where
  width : b.width = a.width
  height : b.height = a.height
  topology : b.topology = a.topology
  names : ∀ {p cell}, a.grid.get? p = some cell →
    Text.truncate b.registry.maxNameLen (a.registry.name cell.particle) =
      a.registry.name cell.particle

namespace Suits

variable (h : b.Suits a)

include h

theorem contains (p : Point) : b.grid.contains p = a.grid.contains p := by
  have hw : b.grid.width = a.grid.width := h.width
  have hh : b.grid.height = a.grid.height := h.height
  simp [Grid.contains, Grid.index?, hw, hh]

/-- The other board is saved cell by cell. -/
theorem zip_snapshot : b.grid.points.zip a.snapshot.cells =
    a.grid.toList.map fun e => (e.1, a.registry.saved e.2) := by
  have hw : b.grid.width = a.grid.width := h.width
  have hh : b.grid.height = a.grid.height := h.height
  have hp : b.grid.points = a.grid.points := by
    unfold Grid.points
    rw [hw, hh]
  rw [snapshot_cells, hp, List.zip_map_right]
  rfl

theorem length_snapshot : a.snapshot.cells.length = b.width * b.height := by
  rw [snapshot_cells, List.length_map, Array.length_toList, a.grid.size_cells, h.width, h.height]
  rfl

variable [Scalar R] (hs : b.registry.Sound)

include hs

/-- A cell is staged with the name, the writes and the bonds that were saved. -/
theorem stage_cell {p : Point} {saved old : Cell} (hsaved : a.grid.get? p = some saved)
    (hold : b.grid.get? p = some old) :
    ∃ id, (b.stage a.snapshot.cells).2.name? id = some (a.registry.name saved.particle) ∧
      (b.stage a.snapshot.cells).1.get? p =
        some (restoredCell old (a.registry.saved saved) id) := by
  rw [stage_eq, h.zip_snapshot]
  have hnodup : ((a.grid.toList.map fun e => (e.1, a.registry.saved e.2)).map Prod.fst).Nodup := by
    rw [List.map_map]
    exact a.grid.map_fst_toList ▸ a.grid.nodup_points
  obtain ⟨id, hid, hcell⟩ := (Scene.place_all (x := b.scene) hs hnodup).2.2.2
    (p, a.registry.saved saved) (List.mem_map.mpr ⟨(p, saved), Grid.mem_toList.mpr hsaved, rfl⟩)
  refine ⟨id, hid.trans (congrArg some (h.names hsaved)), hcell.trans ?_⟩
  have hold : b.scene.1.get? p = some old := hold
  rw [hold]
  rfl

theorem sameBonds_stage : Grid.SameBonds a.grid (b.stage a.snapshot.cells).1 := by
  have hages := ages_stage b a.snapshot.cells
  refine ⟨hages.width.trans h.width, hages.height.trans h.height, funext fun p => ?_⟩
  unfold Grid.field
  cases hsaved : a.grid.get? p with
  | none =>
    have hout : (b.stage a.snapshot.cells).1.get? p = none := by
      rw [Grid.get?_eq_none_iff, hages.contains, h.contains]
      exact Grid.get?_eq_none_iff.mp hsaved
    rw [hout]
  | some saved =>
    obtain ⟨old, hold⟩ := Grid.get?_of_contains
      ((h.contains p).trans (Grid.contains_of_get? hsaved))
    obtain ⟨id, -, hcell⟩ := h.stage_cell hs hsaved hold
    rw [hcell]
    rfl

end Suits

/-- A board has taken on the snapshot of another one as it was staged. -/
structure Restored (a b c : Board R γ) : Prop where
  grid : c.grid = (b.stage a.snapshot.cells).1
  keeps : (b.stage a.snapshot.cells).2.Keeps c.registry
  config : c.config = b.config

variable [Scalar R]

/-- The snapshot of a board with mirrored bonds is taken on. -/
theorem restored_ok (ha : a.grid.field.Mirrored) (hb : b.Alike b) (h : b.Suits a)
    (ht : b.registry.rules.Total) :
    ∃ c, b.restore a.snapshot = .ok (.ok (), c) ∧ Restored a b c := by
  obtain ⟨hstage, hext, -⟩ := alike_stage hb a.snapshot.cells
  have hages := ages_stage b a.snapshot.cells
  have hgap : (b.stage a.snapshot.cells).1.gap? = none :=
    (h.sameBonds_stage hb.sound).gap?.trans (Grid.gap?_eq_none_iff.mpr ha)
  obtain ⟨registry, hr, -, hkeeps, -⟩ := recount_ok hstage.left
    (hb.twins.leftCounted.extends hext) hstage.named_left hages.width hages.height
  have hr : recount b.grid (b.stage a.snapshot.cells).1 (b.stage a.snapshot.cells).2 =
    .ok registry := hr
  have ht : registry.rules.Total := by
    rw [hkeeps.rules, hext.rules]
    exact ht
  obtain ⟨d, hd⟩ := refreshRates_ok
    (b := { b with grid := (b.stage a.snapshot.cells).1, registry }) ht
    (b.stage a.snapshot.cells).1.points
  have hfit : ¬(a.snapshot.width ≠ b.width ∨ a.snapshot.height ≠ b.height ∨
      a.snapshot.cells.length ≠ b.width * b.height) := by
    rintro (hne | hne | hne)
    · exact hne h.width.symm
    · exact hne h.height.symm
    · exact hne h.length_snapshot
  have htop : ¬a.snapshot.topology ≠ b.topology := not_not.mpr h.topology.symm
  refine ⟨d.drawAll (b.stage a.snapshot.cells).1.points, ?_, ?_⟩
  · rw [restore, if_neg hfit, if_neg htop]
    simp only [hgap, hr, hd, ok_bind]
  · have hdk := keeps_of_refreshRates hd
    obtain ⟨_, _, rfl⟩ := refreshRates_eq_ok hd
    exact ⟨rfl, hkeeps.trans hdk, rfl⟩

theorem Restored.rules (r : Restored a b c) (hb : b.Alike b) :
    c.registry.rules = b.registry.rules :=
  r.keeps.rules.trans (alike_stage hb a.snapshot.cells).2.1.rules

namespace Restored

variable (r : Restored a b c) (h : b.Suits a) (hb : b.Alike b)

include r h hb

theorem sameBonds : Grid.SameBonds a.grid c.grid := r.grid ▸ h.sameBonds_stage hb.sound

/-- What a cell has become. Its particle is a new one just if its name is. -/
theorem cell {p : Point} {saved : Cell} (hsaved : a.grid.get? p = some saved) :
    ∃ old id, b.grid.get? p = some old ∧
      c.registry.name? id = some (a.registry.name saved.particle) ∧
      c.grid.get? p = some (restoredCell old (a.registry.saved saved) id) ∧
      (old.particle = id ↔ b.registry.name old.particle = a.registry.name saved.particle) := by
  obtain ⟨hstage, hext, -⟩ := alike_stage hb a.snapshot.cells
  obtain ⟨old, hold⟩ := Grid.get?_of_contains
    ((h.contains p).trans (Grid.contains_of_get? hsaved))
  obtain ⟨id, hid, hcell⟩ := h.stage_cell hb.sound hsaved hold
  obtain ⟨name, hname⟩ := hb.named hold
  have hname' := hb.sound.name?_of_keeps hext.toKeeps hname
  refine ⟨old, id, hold, hstage.left.name?_of_keeps r.keeps hid, r.grid ▸ hcell, ?_⟩
  rw [Registry.name_of hname]
  constructor
  · rintro rfl
    exact Option.some.inj (hname'.symm.trans hid)
  · rintro rfl
    exact hstage.left.name_inj hname' hid

theorem particleName? : c.particleName? = a.particleName? := by
  funext p
  cases hsaved : a.grid.get? p with
  | none =>
    have hout : c.grid.get? p = none := by
      rw [Grid.get?_eq_none_iff, (r.sameBonds h hb).contains]
      exact Grid.get?_eq_none_iff.mp hsaved
    rw [Board.particleName?, Board.particleName?, hsaved, hout]
    rfl
  | some saved =>
    obtain ⟨old, id, -, hid, hnew, -⟩ := r.cell h hb hsaved
    rw [a.particleName?_eq hsaved, c.particleName?_eq hnew]
    exact congrArg some (Registry.name_of hid)

theorem writes? {p : Point} {saved old : Nat} (hsaved : a.writes? p = some saved)
    (hold : b.writes? p = some old) :
    c.writes? p =
      some (max saved (if b.particleName? p = a.particleName? p then old else old + 1)) := by
  obtain ⟨cell, hcell, rfl⟩ := Option.map_eq_some_iff.mp hsaved
  obtain ⟨cell', id, hcell', -, hnew, hiff⟩ := r.cell h hb hcell
  rw [Board.writes?, hcell'] at hold
  cases hold
  rw [Board.writes?, hnew, a.particleName?_eq hcell, b.particleName?_eq hcell']
  simp only [Option.map_some, restoredCell, Registry.saved, ne_eq, hiff, ite_not,
    Option.some.injEq]

theorem counts (ha : a.Alike a) (hc : c.Alike c) : c.counts = a.counts := by
  refine Scene.counts_congr ha.sound hc.sound ha.twins.leftCounted hc.twins.leftCounted
    ha.twins.named_left hc.twins.named_left ?_
  rw [names_scene, names_scene, r.particleName? h hb, (r.sameBonds h hb).points]

end Restored

/-- A board has room for its own names. -/
theorem suits_self (h : a.Alike a) : a.Suits a := by
  refine ⟨rfl, rfl, rfl, fun hcell => ?_⟩
  obtain ⟨name, hname⟩ := h.named hcell
  rw [Registry.name_of hname]
  exact h.sound.bounded hname

/-- A board that has taken on its own snapshot has the cells that it had. -/
theorem Restored.get?_self (r : Restored a a c) (h : a.Alike a) (p : Point) :
    c.grid.get? p = a.grid.get? p := by
  cases hcell : a.grid.get? p with
  | none =>
    rw [Grid.get?_eq_none_iff, (r.sameBonds (suits_self h) h).contains]
    exact Grid.get?_eq_none_iff.mp hcell
  | some cell =>
    obtain ⟨old, id, hold, -, hnew, hiff⟩ := r.cell (suits_self h) h hcell
    cases hcell.symm.trans hold
    rw [hnew, ← hiff.mpr rfl, Registry.restoredCell_saved]

end Board

namespace Board

variable {R γ : Type} [RateScalar R] [Generator R γ] [MessageReader R]

theorem Reachable.restore {b c : Board R γ} (h : b.Reachable) {s : Snapshot}
    {r : Except SnapshotError Unit} (hr : b.restore s = .ok (r, c)) : c.Reachable := by
  obtain ⟨config, rules, random, first, hfirst, hreach⟩ := h
  refine ⟨config, rules, random, first, hfirst, hreach.tail ⟨.restore s, .restored r, ?_⟩⟩
  rw [Operation.run, hr]
  rfl

/-- A board takes on the snapshot of any board of its size and shape whose names fit: all cells
get the names and the bonds that were saved, and the writes never become fewer. Counts and
activities follow. Its own snapshot changes no cell. -/
theorem restore_snapshot {a b : Board R γ} (ha : a.Reachable) (hb : b.Reachable)
    (hra : a.registry.rules.Declared) (hrb : b.registry.rules.Declared)
    (hw : b.width = a.width) (hh : b.height = a.height) (ht : b.topology = a.topology)
    (hn : ∀ p name, a.particleName? p = some name →
      name.utf8ByteSize ≤ max 1 b.config.maxNameLen) :
    (∃ c, b.restore a.snapshot = .ok (.ok (), c) ∧
      (∀ p, c.particleName? p = a.particleName? p) ∧
      (∀ p, (c.grid.get? p).map (·.bonds) = (a.grid.get? p).map (·.bonds)) ∧
      (∀ p saved old, a.writes? p = some saved → b.writes? p = some old →
        c.writes? p =
          some (max saved (if b.particleName? p = a.particleName? p then old else old + 1))) ∧
      (∀ name, c.count name = c.cellsNamed (Text.truncate (max 1 b.config.maxNameLen) name)) ∧
      c.counts = a.counts ∧
      (∀ p name, c.particleName? p = some name →
        b.registry.rules.activity name = .ok (c.activity.rate p)) ∧
      ∀ p, c.grid.contains p = false → c.activity.rate p = 0) ∧
    ∃ c, a.restore a.snapshot = .ok (.ok (), c) ∧ ∀ p, c.grid.get? p = a.grid.get? p := by
  constructor
  · have hsuits : b.Suits a := by
      refine ⟨hw, hh, ht, fun hcell => ?_⟩
      rw [hb.wellFormed.maxNameLen]
      exact Text.truncate_of_le (hn _ _ (a.particleName?_eq hcell))
    obtain ⟨c, hc, hr⟩ := restored_ok (mirrored_of_reachable ha) hb.alike hsuits hrb.total
    have hreach := hb.restore hc
    have hself := hreach.alike
    have hsync := hreach.synced
    have hbound : c.registry.maxNameLen = max 1 b.config.maxNameLen := by
      rw [hreach.wellFormed.maxNameLen, hr.config]
    refine ⟨c, hc, congrFun (hr.particleName? hsuits hb.alike),
      (hr.sameBonds hsuits hb.alike).bonds, fun p saved old => hr.writes? hsuits hb.alike,
      fun name => ?_, hr.counts hsuits hb.alike ha.alike hself, fun p name hp => ?_,
      fun p => hsync.outside⟩
    · rw [← hbound]
      exact hself.count_cellsNamed name
    · obtain ⟨cell, hcell, hparticle⟩ := Option.map_eq_some_iff.mp hp
      obtain ⟨name', hname'⟩ := hself.named hcell
      rw [Registry.name_of hname'] at hparticle
      subst hparticle
      rw [← hr.rules hb.alike]
      exact hsync.inside hcell hname'
  · obtain ⟨c, hc, hr⟩ := restored_ok (mirrored_of_reachable ha) ha.alike (suits_self ha.alike)
      hra.total
    exact ⟨c, hc, hr.get?_self ha.alike⟩

/-- A board with a bond, restored to a board that held other particles. -/
theorem restore_snapshot_of_linked :
    ∃ a b c : Board Float RandomSource, a.Reachable ∧ b.Reachable ∧
      a.registry.rules.Declared ∧ b.registry.rules.Declared ∧ b.width = a.width ∧
      b.height = a.height ∧ b.topology = a.topology ∧
      b.restore a.snapshot = .ok (.ok (), c) ∧
      b.particleName? ⟨0, 0⟩ = some "b" ∧ c.particleName? ⟨0, 0⟩ = some "_" ∧
      c.writes? ⟨0, 0⟩ = some 1 ∧ c.grid.outgoing? ⟨0, 0⟩ "k" = some ⟨1, 0⟩ := by
  have hread : ((Rulebook.ofRecords? .square4 (⟨[], [], []⟩ : RuleRecords Float)).toOption.any
      fun _ => true) = true := by decide +kernel
  obtain ⟨rules, hrules, -⟩ := any_toOption.mp hread
  have hdeclared : rules.Declared := ⟨_, _, hrules⟩
  have htop : rules.topology = .square4 := Rulebook.topology_of_ofRecords hrules
  let empty : BoardConfig := { width := 2, height := 1 }
  let other : BoardConfig := { width := 2, height := 1, emptyParticle := "b" }
  obtain ⟨a, ha, hra, hca, ⟨filler, hga⟩, hempty⟩ :=
    declared_new (RandomSource.ofMix 0) (show empty.validate = .ok () from rfl) hdeclared htop
  obtain ⟨b, hb, hrb, hcb, ⟨filler', hgb⟩, hother⟩ :=
    declared_new (RandomSource.ofMix 0) (show other.validate = .ok () from rfl) hdeclared htop
  let link : Bond := ⟨⟨0, 0⟩, ⟨1, 0⟩, "k"⟩
  let linked : Board Float RandomSource := { a with grid := a.grid.link link }
  have hin : a.grid.contains ⟨0, 0⟩ = true ∧ b.grid.contains ⟨0, 0⟩ = true := by
    rw [hga, hgb]
    exact ⟨rfl, rfl⟩
  have hl : linked.Reachable := ha.link (by decide) hin.1
  have hsame := Grid.sameStates_link a.grid link
  have hwidth : b.width = linked.width := by
    have hb : b.grid.width = a.grid.width := by
      rw [hga, hgb]
      rfl
    exact hb.trans hsame.width.symm
  have hheight : b.height = linked.height := by
    have hb : b.grid.height = a.grid.height := by
      rw [hga, hgb]
      rfl
    exact hb.trans hsame.height.symm
  have htopology : b.topology = linked.topology := by
    rw [topology, topology, hcb, hca]
  have hkept {p : Point} (hp : a.grid.contains p = true) : linked.particleName? p = some "_" :=
    (a.rebond_shows hsame hp).1.trans ((hempty p hp).2.trans (by decide))
  have hold : b.particleName? ⟨0, 0⟩ = some "b" := (hother _ hin.2).2.trans (by decide)
  obtain ⟨⟨c, hc, hname, hbonds, hwrites, -⟩, -⟩ := restore_snapshot hl hb (hra ▸ hdeclared)
    (hrb ▸ hdeclared) hwidth hheight htopology fun p name hp => by
      obtain ⟨cell, hcell, -⟩ := Option.map_eq_some_iff.mp hp
      rw [hkept ((hsame.contains p).symm.trans (Grid.contains_of_get? hcell))] at hp
      cases hp
      rw [hcb]
      decide
  refine ⟨linked, b, c, hl, hb, hra ▸ hdeclared, hrb ▸ hdeclared, hwidth, hheight, htopology, hc,
    hold, (hname _).trans (hkept hin.1), ?_, ?_⟩
  · rw [hwrites _ 0 0 ((a.rebond_shows hsame hin.1).2.trans (hempty _ hin.1).1)
      (hother _ hin.2).1, hkept hin.1, hold]
    rfl
  · have hleaves : linked.grid.outgoing? ⟨0, 0⟩ "k" = some ⟨1, 0⟩ :=
      Grid.leaves_field.mp (Grid.leaves_link hin.1)
    rw [Grid.outgoing?_eq, hbonds, ← Grid.outgoing?_eq]
    exact hleaves

end Board

end ParticleAutomaton
